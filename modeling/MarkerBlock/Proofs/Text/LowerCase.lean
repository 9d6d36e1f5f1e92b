/-
MarkerBlock.Proofs.Text.LowerCase — what a part of a text is in lower case.

Every character but the capital sigma has one small form, whatever stands around it.  The capital
sigma has another at the end of a word (`endsWord`).  So a text in lower case is put together from
the small forms of its parts (`convertAfter_append`), but the small form of a part need not be the
one it has by itself.  It is if the part's sigmas end a word where it stands exactly if they do so
in the part alone (`KeepsWordEnds`, `infix_convert`).

The case of ASCII letters makes no difference to lower case (`convert_map_toLower`).  A slash ends
every word, so what comes before it makes none to what comes after (`convert_slash_cons`).
-/
import Mathlib
import MarkerBlock.Text.LowerCase

namespace MarkerBlock.Text.LowerCase

/-! ## §1 One character -/

/-- Whether a capital sigma that stands between these texts, the first given from its end, ends a
word. -/
def endsWord (before after : List Char) : Bool := meetsCased before && !meetsCased after

theorem ofChar_ne_nil (before : List Char) (c : Char) (after : List Char) :
    ofChar before c after ≠ [] := by
  rw [ofChar]
  split_ifs <;> simp

theorem ofChar_capitalSigma (before after : List Char) :
    ofChar before capitalSigma after = if endsWord before after then ['ς'] else ['σ'] :=
  if_neg (by decide)

/-- All characters but one have the same small form everywhere. -/
theorem ofChar_of_ne {c : Char} (h : c ≠ capitalSigma) (before after before' after' : List Char) :
    ofChar before c after = ofChar before' c after' := by
  rw [ofChar, ofChar, if_neg h, if_neg h]

theorem convert_eq_nil_iff {text : List Char} : convert text = [] ↔ text = [] := by
  cases text with
  | nil => exact iff_of_true rfl rfl
  | cons c rest =>
    rw [convert, convertAfter, List.append_eq_nil_iff]
    exact iff_of_false (fun h => ofChar_ne_nil [] c rest h.1) (List.cons_ne_nil c rest)

theorem image_le_of_mem_runs : ∀ run ∈ runs, 0x61 ≤ run.image := by decide +kernel

/-- No letter has a slash for its small form. -/
theorem simple_eq_slash {c : Char} (h : simple c = '/') : c = '/' := by
  unfold simple at h
  split at h
  · next n hn =>
    exfalso
    obtain ⟨run, hrun, himage⟩ := List.exists_of_findSome?_eq_some hn
    have hlow := image_le_of_mem_runs run hrun
    have hcode : 0x61 ≤ n := by
      unfold Run.image? at himage
      split at himage
      · cases himage
        omega
      · cases himage
    have hvalue := congrArg Char.toNat h
    by_cases hvalid : n.isValidChar
    · rw [Char.toNat_ofNat, if_pos hvalid] at hvalue
      rw [hvalue] at hcode
      exact absurd hcode (by decide)
    · rw [Char.toNat_ofNat, if_neg hvalid] at hvalue
      exact absurd hvalue (by decide)
  · exact h

theorem slash_mem_ofChar_iff {before : List Char} {c : Char} {after : List Char} :
    '/' ∈ ofChar before c after ↔ c = '/' := by
  constructor
  · intro h
    unfold ofChar at h
    split_ifs at h
    · simp at h
    · simp at h
    · simp at h
    · exact simple_eq_slash (List.mem_singleton.mp h).symm
  · rintro rfl
    have hslash : ofChar before '/' after = ['/'] := by
      rw [ofChar_of_ne (by decide) before after [] []]
      decide +kernel
    rw [hslash]
    exact List.mem_singleton_self '/'

/-! ## §2 Parts of a text -/

/-- The small form of a text that stands between two others, the first of which is given from its
end. -/
def convertBetween (before : List Char) : List Char → List Char → List Char
  | [], _ => []
  | c :: rest, after => ofChar before c (rest ++ after) ++ convertBetween (c :: before) rest after

/-- The small form of a text is that of its parts, each where it stands. -/
theorem convertAfter_append (before text after : List Char) :
    convertAfter before (text ++ after) =
      convertBetween before text after ++ convertAfter (text.reverse ++ before) after := by
  induction text generalizing before with
  | nil => rfl
  | cons c rest ih =>
    rw [List.cons_append, convertAfter, convertBetween, ih, List.append_assoc, List.reverse_cons,
      List.append_assoc, List.singleton_append]

/-- Between these texts, the capital sigmas of a text end a word exactly if they do so in the text
alone. -/
def KeepsWordEnds (before text after : List Char) : Prop :=
  ∀ front back, text = front ++ capitalSigma :: back →
    endsWord (front.reverse ++ before.reverse) (back ++ after) = endsWord front.reverse back

theorem convertBetween_of_front {before front text after : List Char}
    (h : KeepsWordEnds before (front ++ text) after) :
    convertBetween (front.reverse ++ before.reverse) text after =
      convertAfter front.reverse text := by
  induction text generalizing front with
  | nil => rfl
  | cons c rest ih =>
    have hrest := @ih (front ++ [c]) (by rwa [List.append_assoc, List.singleton_append])
    rw [List.reverse_append, List.reverse_singleton, List.singleton_append] at hrest
    have hhere : ofChar (front.reverse ++ before.reverse) c (rest ++ after) =
        ofChar front.reverse c rest := by
      by_cases hc : c = capitalSigma
      · subst hc
        rw [ofChar_capitalSigma, ofChar_capitalSigma, h front rest rfl]
      · exact ofChar_of_ne hc _ _ _ _
    rw [convertBetween, convertAfter, hhere, ← hrest]
    rfl

/-- A text that keeps its word ends has the same small form as by itself, within that of the
whole. -/
theorem infix_convert {before text after : List Char} (h : KeepsWordEnds before text after) :
    convert text <:+: convert (before ++ text ++ after) := by
  have hpart : convertBetween before.reverse text after = convert text :=
    @convertBetween_of_front before [] text after h
  have hwhole : convert (before ++ text ++ after) =
      convertBetween [] before (text ++ after) ++
        (convert text ++ convertAfter (text.reverse ++ before.reverse) after) := by
    rw [List.append_assoc, convert, convertAfter_append, List.append_nil, convertAfter_append, hpart]
  rw [hwhole, ← List.append_assoc]
  exact List.infix_append _ _ _

/-! ## §3 Slashes -/

/-- What lies behind a slash is not met. -/
theorem meetsCased_append_slash (text rest : List Char) :
    meetsCased (text ++ '/' :: rest) = meetsCased text := by
  have hslash : CharSet.caseIgnorable.contains '/' = false := by decide +kernel
  have hcased : CharSet.cased.contains '/' = false := by decide +kernel
  induction text with
  | nil => simp [meetsCased, hslash, hcased]
  | cons c text ih =>
    unfold meetsCased at ih ⊢
    by_cases hc : CharSet.caseIgnorable.contains c = true
    · rw [List.cons_append, List.dropWhile_cons_of_pos hc, List.dropWhile_cons_of_pos hc, ih]
    · rw [List.cons_append, List.dropWhile_cons_of_neg hc, List.dropWhile_cons_of_neg hc]

theorem convertAfter_slash (before text : List Char) :
    convertAfter (before ++ ['/']) text = convertAfter before text := by
  induction text generalizing before with
  | nil => rfl
  | cons c rest ih =>
    have hhere : ofChar (before ++ ['/']) c rest = ofChar before c rest := by
      unfold ofChar
      rw [meetsCased_append_slash]
    rw [convertAfter, convertAfter, hhere, ← List.cons_append, ih]

theorem convert_slash_cons (text : List Char) : convert ('/' :: text) = '/' :: convert text := by
  have hslash : ofChar [] '/' text = ['/'] := by
    rw [ofChar_of_ne (by decide) [] text [] []]
    decide +kernel
  rw [convert, convertAfter, hslash, convert]
  exact congrArg ('/' :: ·) (convertAfter_slash [] text)

/-- A slash before a text makes no difference to its word ends. -/
theorem KeepsWordEnds.after_slash {before text after : List Char}
    (h : KeepsWordEnds before text after) : KeepsWordEnds ('/' :: before) text after := by
  intro front back htext
  rw [List.reverse_cons, ← List.append_assoc, ← h front back htext, endsWord, endsWord,
    meetsCased_append_slash]

/-- A text that ends in a slash keeps its word ends before anything. -/
theorem keepsWordEnds_of_slash (text after : List Char) :
    KeepsWordEnds [] (text ++ ['/']) after := by
  intro front back htext
  -- the slash at the end is behind the sigma
  obtain ⟨more, rfl⟩ : ∃ more, back = more ++ ['/'] := by
    rcases List.eq_nil_or_concat' back with rfl | ⟨more, last, rfl⟩
    · have hlast := List.append_inj_right' htext rfl
      exact absurd hlast (by decide)
    · rw [← List.cons_append, ← List.append_assoc] at htext
      exact ⟨more, by rw [List.append_inj_right' htext rfl]⟩
  rw [List.reverse_nil, List.append_nil, List.append_assoc, List.singleton_append, endsWord, endsWord,
    meetsCased_append_slash, meetsCased_append_slash]

theorem head?_convert_ne_slash {text : List Char} (h : text.head? ≠ some '/') :
    (convert text).head? ≠ some '/' := by
  cases text with
  | nil => exact h
  | cons c rest =>
    intro hhead
    rw [convert, convertAfter, List.head?_append_of_ne_nil _ (ofChar_ne_nil [] c rest)] at hhead
    exact h (congrArg some (slash_mem_ofChar_iff.mp (List.mem_of_head? hhead)))

/-! ## §4 ASCII letters -/

/-- Only ASCII capitals have another ASCII letter for their small letter. -/
theorem toLower_cases (c : Char) :
    c.toLower = c ∨ ∃ n < 26, c = Char.ofNat (65 + n) ∧ c.toLower = Char.ofNat (97 + n) := by
  by_cases hc : c.val ≥ 'A'.val ∧ c.val ≤ 'Z'.val
  · right
    have hlow : 65 ≤ c.toNat := UInt32.le_iff_toNat_le.mp hc.1
    have hhigh : c.toNat ≤ 90 := UInt32.le_iff_toNat_le.mp hc.2
    obtain ⟨n, hn⟩ := Nat.exists_eq_add_of_le hlow
    have hcapital : c = Char.ofNat (65 + n) := by rw [← hn, Char.ofNat_toNat]
    have hletters : ∀ n < 26, (Char.ofNat (65 + n)).toLower = Char.ofNat (97 + n) := by decide +kernel
    refine ⟨n, by omega, hcapital, ?_⟩
    rw [hcapital]
    exact hletters n (by omega)
  · exact .inl (dif_neg hc)

/-- Of an ASCII capital and its small letter, nothing is said by the one that is not by the other. -/
theorem letters_alike : ∀ n < 26,
    simple (Char.ofNat (97 + n)) = simple (Char.ofNat (65 + n)) ∧
    CharSet.cased.contains (Char.ofNat (97 + n)) = CharSet.cased.contains (Char.ofNat (65 + n)) ∧
    CharSet.caseIgnorable.contains (Char.ofNat (97 + n)) =
      CharSet.caseIgnorable.contains (Char.ofNat (65 + n)) ∧
    Char.ofNat (97 + n) ∉ [dottedCapitalI, capitalSigma] ∧
    Char.ofNat (65 + n) ∉ [dottedCapitalI, capitalSigma] := by
  decide +kernel

theorem meetsCased_map_toLower (text : List Char) :
    meetsCased (text.map Char.toLower) = meetsCased text := by
  induction text with
  | nil => rfl
  | cons c rest ih =>
    have hsame : CharSet.cased.contains c.toLower = CharSet.cased.contains c ∧
        CharSet.caseIgnorable.contains c.toLower = CharSet.caseIgnorable.contains c := by
      rcases toLower_cases c with hc | ⟨n, hn, hc, hlower⟩
      · rw [hc]
        exact ⟨rfl, rfl⟩
      · obtain ⟨-, hcased, hignorable, -⟩ := letters_alike n hn
        rw [hlower, hc]
        exact ⟨hcased, hignorable⟩
    unfold meetsCased at ih ⊢
    rw [List.map_cons, List.dropWhile_cons, List.dropWhile_cons, hsame.2]
    by_cases hc : CharSet.caseIgnorable.contains c = true
    · rw [if_pos hc, if_pos hc, ih]
    · rw [if_neg hc, if_neg hc]
      exact hsame.1

theorem ofChar_toLower (before : List Char) (c : Char) (after : List Char) :
    ofChar (before.map Char.toLower) c.toLower (after.map Char.toLower) = ofChar before c after := by
  unfold ofChar
  rw [meetsCased_map_toLower, meetsCased_map_toLower]
  rcases toLower_cases c with hc | ⟨n, hn, hc, hlower⟩
  · rw [hc]
  · obtain ⟨hsimple, -, -, hsmall, hcapital⟩ := letters_alike n hn
    simp only [List.mem_cons, List.not_mem_nil, or_false, not_or] at hsmall hcapital
    rw [hlower, hc, if_neg hsmall.1, if_neg hsmall.2, if_neg hcapital.1, if_neg hcapital.2, hsimple]

theorem convertAfter_map_toLower (before text : List Char) :
    convertAfter (before.map Char.toLower) (text.map Char.toLower) = convertAfter before text := by
  induction text generalizing before with
  | nil => rfl
  | cons c rest ih =>
    rw [List.map_cons, convertAfter, convertAfter, ofChar_toLower, ← List.map_cons, ih]

/-- The case of ASCII letters makes no difference. -/
theorem convert_map_toLower (text : List Char) : convert (text.map Char.toLower) = convert text :=
  convertAfter_map_toLower [] text

end MarkerBlock.Text.LowerCase
