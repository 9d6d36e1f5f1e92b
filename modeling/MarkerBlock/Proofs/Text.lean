/-
MarkerBlock.Proofs.Text — lines of a text, and what occurs in it.

`split` is the library's `List.splitOn`, so that its laws apply.  A text is its
first lines, joined, followed by the other lines, each led by a separator
(`intercalate_append`): that is the form in which lines are put into a text
without touching what stands around them.  Pieces that follow one another in a text
stand there joined, where pieces begin and end (`infix_splitOn_iff`).
-/
import Mathlib
import MarkerBlock.Text.Split

namespace MarkerBlock.Text

/-! ## §1 Occurrence -/

theorem occursIn_iff {needle text : List Char} : occursIn needle text = true ↔ needle <:+: text := by
  induction text with
  | nil => simp [occursIn]
  | cons c rest ih =>
    rw [occursIn, Bool.or_eq_true, List.isPrefixOf_iff_prefix, ih, List.infix_cons_iff]

theorem occursIn_append_left {needle : List Char} {x : List Char} (h : occursIn needle x = true)
    (y : List Char) : occursIn needle (x ++ y) = true :=
  occursIn_iff.mpr (List.infix_append_of_infix_left (occursIn_iff.mp h))

theorem occursIn_append_right {needle : List Char} {y : List Char} (x : List Char)
    (h : occursIn needle y = true) : occursIn needle (x ++ y) = true :=
  occursIn_iff.mpr (List.infix_append_of_infix_right (occursIn_iff.mp h))

/-! ## §2 Lines -/

theorem split_eq_splitOn (sep : Char) (text : List Char) : split sep text = text.splitOn sep := by
  induction text with
  | nil => rfl
  | cons c rest ih =>
    have hcons : split sep (c :: rest) = extendSplit sep c (split sep rest) := rfl
    rw [hcons, ih, List.splitOn_cons_eq_if_modifyHead]
    cases hrest : rest.splitOn sep with
    | nil => exact absurd hrest (List.splitOn_ne_nil sep rest)
    | cons piece pieces =>
      simp only [extendSplit, beq_iff_eq]
      split <;> rfl

theorem intercalate_split (sep : Char) (text : List Char) :
    List.intercalate [sep] (split sep text) = text := by
  rw [split_eq_splitOn]
  exact List.intercalate_splitOn sep

theorem split_ne_nil (sep : Char) (text : List Char) : split sep text ≠ [] := by
  rw [split_eq_splitOn]
  exact List.splitOn_ne_nil sep text

/-- Lines without the separator, joined, are those lines. -/
theorem split_intercalate {sep : Char} {lines : List (List Char)} (hne : lines ≠ [])
    (h : ∀ line ∈ lines, sep ∉ line) : split sep (List.intercalate [sep] lines) = lines := by
  rw [split_eq_splitOn]
  exact List.splitOn_intercalate sep h hne

/-- No line holds the separator. -/
theorem not_mem_of_mem_split {sep : Char} {text line : List Char} (h : line ∈ split sep text) :
    sep ∉ line := by
  induction text generalizing line with
  | nil =>
    have hline : line = [] := by simpa [split] using h
    simp [hline]
  | cons c rest ih =>
    have hcons : split sep (c :: rest) = extendSplit sep c (split sep rest) := rfl
    rw [hcons] at h
    cases hrest : split sep rest with
    | nil => exact absurd hrest (split_ne_nil sep rest)
    | cons piece pieces =>
      rw [hrest] at h ih
      simp only [extendSplit] at h
      split at h
      · rcases List.mem_cons.mp h with rfl | h
        · exact List.not_mem_nil
        · exact ih h
      · next hc =>
        rcases List.mem_cons.mp h with rfl | h
        · rw [List.mem_cons, not_or]
          exact ⟨Ne.symm hc, ih List.mem_cons_self⟩
        · exact ih (List.mem_cons_of_mem piece h)

/-! ## §3 Lines put into a text -/

/-- Lines, each with a separator in front. -/
def led (sep : Char) (lines : List (List Char)) : List Char := lines.flatMap (sep :: ·)

@[simp] theorem led_nil (sep : Char) : led sep [] = [] := rfl

@[simp] theorem led_cons (sep : Char) (line : List Char) (lines : List (List Char)) :
    led sep (line :: lines) = sep :: line ++ led sep lines := rfl

@[simp] theorem led_append (sep : Char) (a b : List (List Char)) :
    led sep (a ++ b) = led sep a ++ led sep b :=
  List.flatMap_append

theorem intercalate_cons (sep : Char) (line : List Char) (lines : List (List Char)) :
    List.intercalate [sep] (line :: lines) = line ++ led sep lines := by
  induction lines generalizing line with
  | nil => simp
  | cons next rest ih => rw [List.intercalate_cons_cons, ih, led_cons]; simp

/-- First lines joined, then the other lines, each led by a separator. -/
theorem intercalate_append (sep : Char) {first : List (List Char)} (h : first ≠ [])
    (others : List (List Char)) :
    List.intercalate [sep] (first ++ others) = List.intercalate [sep] first ++ led sep others := by
  cases first with
  | nil => exact absurd rfl h
  | cons line lines =>
    rw [List.cons_append, intercalate_cons, intercalate_cons, led_append, List.append_assoc]

/-- All lines of a text, each led by a separator. -/
theorem led_split (sep : Char) (text : List Char) : led sep (split sep text) = sep :: text := by
  have hjoined := intercalate_split sep text
  cases hlines : split sep text with
  | nil => exact absurd hlines (split_ne_nil sep text)
  | cons line lines =>
    rw [hlines, intercalate_cons] at hjoined
    simp [hjoined]

/-- Every line of a text is in the text. -/
theorem infix_led {line : List Char} {lines : List (List Char)} (sep : Char) (h : line ∈ lines) :
    line <:+: led sep lines := by
  obtain ⟨before, after, rfl⟩ := List.append_of_mem h
  rw [led_append, led_cons]
  exact ⟨led sep before ++ [sep], led sep after, by simp⟩

theorem infix_of_mem_split {sep : Char} {text line : List Char} (h : line ∈ split sep text) :
    line <:+: text := by
  have hjoined := intercalate_split sep text
  generalize split sep text = lines at h hjoined
  cases lines with
  | nil => cases h
  | cons first rest =>
    rw [intercalate_cons] at hjoined
    rw [← hjoined]
    rcases List.mem_cons.mp h with rfl | h
    · exact (List.prefix_append line _).isInfix
    · exact List.infix_append_of_infix_right (infix_led sep h)

/-! ## §4 Pieces -/

theorem split_append (sep : Char) (a b : List Char) :
    split sep (a ++ sep :: b) = split sep a ++ split sep b := by
  simp only [split_eq_splitOn]
  exact List.splitOn_append_cons_self a b

theorem split_of_not_mem {sep : Char} {text : List Char} (h : sep ∉ text) : split sep text = [text] := by
  have hone : split sep (List.intercalate [sep] [text]) = [text] :=
    split_intercalate (List.cons_ne_nil _ _) (by simpa using h)
  simpa using hone

/-- Lines put behind a text are behind its lines. -/
theorem split_append_led {sep : Char} {lines : List (List Char)} (h : ∀ line ∈ lines, sep ∉ line)
    (text : List Char) : split sep (text ++ led sep lines) = split sep text ++ lines := by
  induction lines generalizing text with
  | nil => simp
  | cons line lines ih =>
    have hline : sep ∉ line := h line List.mem_cons_self
    have hlines : ∀ l ∈ lines, sep ∉ l := fun l hl => h l (List.mem_cons_of_mem line hl)
    have htext : text ++ led sep (line :: lines) = (text ++ sep :: line) ++ led sep lines := by simp
    rw [htext, ih hlines, split_append, split_of_not_mem hline]
    simp

theorem mem_iff_mem_split {sep c : Char} (hc : c ≠ sep) (text : List Char) :
    c ∈ text ↔ ∃ piece ∈ split sep text, c ∈ piece := by
  have hpieces (pieces : List (List Char)) :
      c ∈ List.intercalate [sep] pieces ↔ ∃ piece ∈ pieces, c ∈ piece := by
    cases pieces with
    | nil => simp
    | cons first rest => simp [intercalate_cons, led, hc]
  rw [← hpieces, intercalate_split]

theorem intercalate_append_of_ne_nil {α : Type} {sep : List α} {a b : List (List α)} (ha : a ≠ [])
    (hb : b ≠ []) : sep.intercalate (a ++ b) = sep.intercalate a ++ sep ++ sep.intercalate b := by
  induction a with
  | nil => exact absurd rfl ha
  | cons piece a ih =>
    cases a with
    | nil => rw [List.singleton_append, List.intercalate_cons_of_ne_nil hb, List.intercalate_singleton]
    | cons next a =>
      rw [List.cons_append, List.intercalate_cons_of_ne_nil (by simp), ih (by simp),
        List.intercalate_cons_cons]
      simp only [List.append_assoc]

theorem flatMap_intercalate {α β : Type} (f : α → List β) (sep : List α) (pieces : List (List α)) :
    (sep.intercalate pieces).flatMap f =
      (sep.flatMap f).intercalate (pieces.map (List.flatMap f)) := by
  induction pieces with
  | nil => rfl
  | cons piece pieces ih =>
    cases pieces with
    | nil => simp
    | cons next pieces =>
      simp only [List.intercalate_cons_cons, List.flatMap_append, ih, List.map_cons]

/-- Some pieces follow one another in a text exactly if they stand there joined, where pieces
begin and end. -/
theorem infix_splitOn_iff {α : Type} [BEq α] [LawfulBEq α] {sep : α} {pieces : List (List α)}
    (hne : pieces ≠ []) (h : ∀ piece ∈ pieces, sep ∉ piece) (text : List α) :
    pieces <:+: text.splitOn sep ↔
      ∃ before after, text = before ++ [sep].intercalate pieces ++ after ∧
        (before = [] ∨ ∃ front, before = front ++ [sep]) ∧
        (after = [] ∨ ∃ rest, after = sep :: rest) := by
  have hpieces := List.splitOn_intercalate sep h hne
  constructor
  · rintro ⟨front, rest, hsplit⟩
    have htext : text = [sep].intercalate (front ++ pieces ++ rest) := by
      rw [hsplit, List.intercalate_splitOn]
    have hfront : ∃ before, [sep].intercalate (front ++ pieces) =
        before ++ [sep].intercalate pieces ∧ (before = [] ∨ ∃ front, before = front ++ [sep]) := by
      by_cases hempty : front = []
      · exact ⟨[], by rw [hempty]; rfl, .inl rfl⟩
      · exact ⟨_, intercalate_append_of_ne_nil hempty hne, .inr ⟨_, rfl⟩⟩
    obtain ⟨before, hjoined, hbefore⟩ := hfront
    by_cases hempty : rest = []
    · refine ⟨before, [], ?_, hbefore, .inl rfl⟩
      rw [htext, hempty, List.append_nil, hjoined, List.append_nil]
    · refine ⟨before, _, ?_, hbefore, .inr ⟨[sep].intercalate rest, rfl⟩⟩
      rw [htext, intercalate_append_of_ne_nil (by simp [hne]) hempty, hjoined]
      simp
  · rintro ⟨before, after, rfl, hbefore, hafter⟩
    have hrest : ∃ rest, ([sep].intercalate pieces ++ after).splitOn sep = pieces ++ rest := by
      rcases hafter with rfl | ⟨rest, rfl⟩
      · exact ⟨[], by rw [List.append_nil, List.append_nil, hpieces]⟩
      · exact ⟨_, by rw [List.splitOn_append_cons_self, hpieces]⟩
    obtain ⟨rest, hrest⟩ := hrest
    rw [List.append_assoc]
    rcases hbefore with rfl | ⟨front, rfl⟩
    · exact ⟨[], rest, hrest.symm⟩
    · rw [List.append_assoc, List.singleton_append, List.splitOn_append_cons_self, hrest,
        ← List.append_assoc]
      exact ⟨_, rest, rfl⟩

/-! ## §5 Slashes -/

/-- A text with slashes for backslashes. -/
def slashed (text : List Char) : List Char := text.map fun c => if c = '\x5c' then '/' else c

theorem slashed_append (a b : List Char) : slashed (a ++ b) = slashed a ++ slashed b :=
  List.map_append

end MarkerBlock.Text
