/-
MarkerBlock.Proofs.Insertion — where the block goes, and what it leaves alone.

A text that gets the block is cut in two, behind the last line that holds the
anchor; the block lines go between the two parts, each after a line feed, and
both parts stay as they are (`ensure_eq_inserted`).  So do the lines of the text, and a text
is refused exactly if none of them holds the anchor (`ensure_places_block`).  If some block
line holds the marker, the new text holds it, so that it is left alone from then on.
-/
import MarkerBlock.Config.Basic
import MarkerBlock.Insertion
import MarkerBlock.Proofs.Text

namespace MarkerBlock.Inserter

/-! ## §1 The cut -/

/-- What is put into a text: the block lines, each after a line feed. -/
def insertion (i : Inserter) : List Char := Text.led '\n' i.block

/-- `head` ends in the last line that holds the anchor: its own last line holds it,
and no line of `tail`, which begins with the line feed after that line. -/
structure EndsAtLastAnchor (anchor head tail : List Char) : Prop where
  anchored : ∃ line, (Text.split '\n' head).getLast? = some line ∧
    Text.occursIn anchor line = true
  unanchored : tail = [] ∨ ∃ rest, tail = '\n' :: rest ∧
    ∀ line ∈ Text.split '\n' rest, Text.occursIn anchor line = false

/-- An anchor that is not empty is in a part that is not empty. -/
theorem EndsAtLastAnchor.head_ne_nil {anchor head tail : List Char}
    (h : EndsAtLastAnchor anchor head tail) (hne : anchor ≠ []) : head ≠ [] := by
  rintro rfl
  obtain ⟨line, hline, hanchor⟩ := h.anchored
  have hnil : line = [] := by simpa [Text.split] using hline.symm
  rw [hnil, Text.occursIn_iff, List.infix_nil] at hanchor
  exact hne hanchor

/-- The lines up to the last one that holds the anchor, and the lines after it, make such
parts. -/
theorem endsAtLastAnchor_of_lines {anchor line : List Char} {first others : List (List Char)}
    (hfree : ∀ l ∈ first ++ line :: others, '\n' ∉ l) (hline : Text.occursIn anchor line = true)
    (hothers : ∀ l ∈ others, Text.occursIn anchor l = false) :
    EndsAtLastAnchor anchor (List.intercalate ['\n'] (first ++ [line])) (Text.led '\n' others) := by
  constructor
  · refine ⟨line, ?_, hline⟩
    rw [Text.split_intercalate (by simp) fun l hl => hfree l (by simp at hl ⊢; tauto)]
    simp
  · cases others with
    | nil => exact .inl rfl
    | cons next rest =>
      refine .inr ⟨List.intercalate ['\n'] (next :: rest), ?_, ?_⟩
      · rw [Text.intercalate_cons, Text.led_cons]
        rfl
      · rw [Text.split_intercalate (by simp) fun l hl => hfree l (by simp at hl ⊢; tauto)]
        exact hothers

/-- The first part ends in a line with the anchor, and the second is made of lines without it. -/
theorem EndsAtLastAnchor.lines {anchor head tail : List Char}
    (h : EndsAtLastAnchor anchor head tail) :
    ∃ first line others, Text.split '\n' head = first ++ [line] ∧ tail = Text.led '\n' others ∧
      Text.occursIn anchor line = true ∧
      ∀ l ∈ others, '\n' ∉ l ∧ Text.occursIn anchor l = false := by
  obtain ⟨line, hlast, hline⟩ := h.anchored
  obtain ⟨first, hhead⟩ := List.getLast?_eq_some_iff.mp hlast
  rcases h.unanchored with rfl | ⟨rest, rfl, hrest⟩
  · exact ⟨first, line, [], hhead, rfl, hline, by simp⟩
  · refine ⟨first, line, Text.split '\n' rest, hhead, (Text.led_split '\n' rest).symm, hline, ?_⟩
    intro l hl
    exact ⟨Text.not_mem_of_mem_split hl, hrest l hl⟩

/-! ## §2 The splice -/

/-- Of the lines that satisfy a predicate one is the last. -/
theorem exists_last {isAnchor : List Char → Bool} {lines : List (List Char)}
    (h : ∃ line ∈ lines, isAnchor line = true) :
    ∃ first line others, lines = first ++ line :: others ∧ isAnchor line = true ∧
      ∀ l ∈ others, isAnchor l = false := by
  induction lines with
  | nil => simp at h
  | cons l lines ih =>
    by_cases hlater : ∃ line ∈ lines, isAnchor line = true
    · obtain ⟨first, line, others, rfl, hline, hothers⟩ := ih hlater
      exact ⟨l :: first, line, others, rfl, hline, hothers⟩
    · have hl : isAnchor l = true := by simpa [hlater] using h
      refine ⟨[], l, lines, rfl, hl, ?_⟩
      simpa using hlater

/-- The block goes behind the last line that satisfies the predicate. -/
theorem spliceAfterLast_append {isAnchor : List Char → Bool} {line : List Char}
    {others : List (List Char)} (hline : isAnchor line = true)
    (hothers : ∀ l ∈ others, isAnchor l = false) (block first : List (List Char)) :
    spliceAfterLast isAnchor block (first ++ line :: others) =
      some (first ++ line :: (block ++ others)) := by
  have hlater : ∀ l ∈ others.reverse, (!isAnchor l) = true := by simpa using hothers
  have hlines : (first ++ line :: others).reverse = others.reverse ++ line :: first.reverse := by simp
  have hdrop : (others.reverse ++ line :: first.reverse).dropWhile (fun l => !isAnchor l) =
      line :: first.reverse := by
    rw [List.dropWhile_append_of_pos hlater, List.dropWhile_cons_of_neg (by simp [hline])]
  have htake : (others.reverse ++ line :: first.reverse).takeWhile (fun l => !isAnchor l) =
      others.reverse := by
    rw [List.takeWhile_append_of_pos hlater, List.takeWhile_cons_of_neg (by simp [hline])]
    simp
  rw [spliceAfterLast, hlines, hdrop, htake]
  simp

/-- Where no line satisfies the predicate there is no place for the block. -/
theorem spliceAfterLast_eq_none {isAnchor : List Char → Bool} {lines : List (List Char)}
    (h : ∀ line ∈ lines, isAnchor line = false) (block : List (List Char)) :
    spliceAfterLast isAnchor block lines = none := by
  have hdrop : lines.reverse.dropWhile (fun l => !isAnchor l) = [] := by
    rw [List.dropWhile_eq_nil_iff]
    simpa using h
  rw [spliceAfterLast, hdrop]

/-! ## §3 The text -/

theorem ensure_eq_present_iff {i : Inserter} {text : List Char} :
    i.ensure text = .ok .present ↔ i.hasMarker text = true := by
  rw [ensure]
  split
  · next h => simp [h]
  · next h =>
    split
    · simp [h]
    · simp [h]

/-- A text with an anchor line has such parts. -/
theorem exists_endsAtLastAnchor {anchor text : List Char}
    (h : ∃ line ∈ Text.split '\n' text, Text.occursIn anchor line = true) :
    ∃ head tail, text = head ++ tail ∧ EndsAtLastAnchor anchor head tail := by
  obtain ⟨first, line, others, hsplit, hline, hothers⟩ := exists_last h
  have hfree : ∀ l ∈ first ++ line :: others, '\n' ∉ l := fun l hl =>
    Text.not_mem_of_mem_split (hsplit ▸ hl)
  refine ⟨_, _, ?_, endsAtLastAnchor_of_lines hfree hline hothers⟩
  rw [← Text.intercalate_append '\n' (by simp), List.append_assoc, List.singleton_append, ← hsplit,
    Text.intercalate_split]

/-- Between such parts the block is put. -/
theorem EndsAtLastAnchor.ensure_eq {i : Inserter} {head tail : List Char}
    (h : EndsAtLastAnchor i.anchor head tail) (hmarker : i.hasMarker (head ++ tail) = false) :
    i.ensure (head ++ tail) = .ok (.inserted (head ++ i.insertion ++ tail)) := by
  obtain ⟨first, line, others, hhead, rfl, hline, hothers⟩ := h.lines
  have hsplit : Text.split '\n' (head ++ Text.led '\n' others) = first ++ line :: others := by
    rw [Text.split_append_led (fun l hl => (hothers l hl).1), hhead]
    simp
  have hsplice := spliceAfterLast_append hline (fun l hl => (hothers l hl).2) i.block first
  have hjoined : List.intercalate ['\n'] (first ++ line :: (i.block ++ others)) =
      head ++ i.insertion ++ Text.led '\n' others := by
    have hlines : first ++ line :: (i.block ++ others) = (first ++ [line]) ++ (i.block ++ others) := by
      simp
    rw [hlines, ← hhead, Text.intercalate_append '\n' (Text.split_ne_nil '\n' head),
      Text.intercalate_split, Text.led_append, insertion, List.append_assoc]
  rw [ensure, hsplit, hsplice]
  simp [hmarker, hjoined]

/-- A text without the marker is refused if no line of it holds the anchor. -/
theorem ensure_eq_error {i : Inserter} {text : List Char} (hmarker : i.hasMarker text = false)
    (h : ∀ line ∈ Text.split '\n' text, Text.occursIn i.anchor line = false) :
    i.ensure text = .error ⟨i.anchor⟩ := by
  rw [ensure, spliceAfterLast_eq_none h]
  simp [hmarker]

/-- The block goes between two parts of the text, behind the last line that holds
the anchor. -/
theorem ensure_eq_inserted {i : Inserter} {text after : List Char}
    (h : i.ensure text = .ok (.inserted after)) :
    i.hasMarker text = false ∧ ∃ head tail, text = head ++ tail ∧
      EndsAtLastAnchor i.anchor head tail ∧ after = head ++ i.insertion ++ tail := by
  have hmarker : i.hasMarker text = false := by
    rw [← Bool.not_eq_true]
    intro hpresent
    rw [ensure_eq_present_iff.mpr hpresent] at h
    cases h
  by_cases hanchor : ∃ line ∈ Text.split '\n' text, Text.occursIn i.anchor line = true
  · obtain ⟨head, tail, rfl, hcut⟩ := exists_endsAtLastAnchor hanchor
    rw [hcut.ensure_eq hmarker] at h
    cases h
    exact ⟨hmarker, head, tail, rfl, hcut, rfl⟩
  · have hnone : ∀ line ∈ Text.split '\n' text, Text.occursIn i.anchor line = false := by
      simpa using hanchor
    rw [ensure_eq_error hmarker hnone] at h
    cases h

/-- A text into which a block with the marker was put holds the marker. -/
theorem hasMarker_insertion {i : Inserter} {line : List Char} (hmem : line ∈ i.block)
    (hline : Text.occursIn i.marker line = true) (head tail : List Char) :
    i.hasMarker (head ++ i.insertion ++ tail) = true := by
  have hin : Text.occursIn i.marker i.insertion = true :=
    Text.occursIn_iff.mpr ((Text.occursIn_iff.mp hline).trans (Text.infix_led '\n' hmem))
  exact Text.occursIn_append_left (Text.occursIn_append_right head hin) tail

/-! ## §4 The lines -/

/-- `after` is `text` with the block behind the last line that holds the anchor: between the parts
`head` and `tail` of the text, and among its lines, which are all there and in their order. -/
structure PlacesBlock (anchor : List Char) (block : List (List Char))
    (text after head tail : List Char) : Prop where
  text_eq : text = head ++ tail
  after_eq : after = head ++ Text.led '\n' block ++ tail
  cut : EndsAtLastAnchor anchor head tail
  lines : ∃ first line others, Text.split '\n' text = first ++ line :: others ∧
    Text.occursIn anchor line = true ∧ (∀ l ∈ others, Text.occursIn anchor l = false) ∧
    Text.split '\n' after = first ++ line :: (block ++ others)

/-- Block lines without a line feed stay lines when they are put between such parts. -/
theorem EndsAtLastAnchor.placesBlock {anchor head tail : List Char}
    (h : EndsAtLastAnchor anchor head tail) {block : List (List Char)}
    (hblock : ∀ line ∈ block, '\n' ∉ line) :
    PlacesBlock anchor block (head ++ tail) (head ++ Text.led '\n' block ++ tail) head tail := by
  refine ⟨rfl, rfl, h, ?_⟩
  obtain ⟨first, line, others, hhead, rfl, hline, hothers⟩ := h.lines
  have hlines : ∀ l ∈ block ++ others, '\n' ∉ l := by
    intro l hl
    exact (List.mem_append.mp hl).elim (hblock l) fun hl => (hothers l hl).1
  refine ⟨first, line, others, ?_, hline, fun l hl => (hothers l hl).2, ?_⟩
  · rw [Text.split_append_led (fun l hl => (hothers l hl).1), hhead]
    simp
  · rw [List.append_assoc, ← Text.led_append, Text.split_append_led hlines, hhead]
    simp

theorem newline_not_mem_endLine {line : List Char} (h : '\n' ∉ line) : '\n' ∉ endLine line := by
  rw [endLine]
  split
  · exact h
  · simp [h]

/-- Where a text without the marker has an anchor line, an inserter for block lines without a line
feed finds the place for them. -/
theorem exists_placesBlock {marker anchor : List Char} {lines : List (List Char)}
    (hlines : ∀ line ∈ lines, '\n' ∉ line) {text : List Char}
    (hmarker : (ofLines marker anchor lines).hasMarker text = false)
    (hanchor : ∃ line ∈ Text.split '\n' text, Text.occursIn anchor line = true) :
    ∃ after head tail, (ofLines marker anchor lines).ensure text = .ok (.inserted after) ∧
      PlacesBlock anchor (lines.map endLine) text after head tail := by
  obtain ⟨head, tail, rfl, hcut⟩ := exists_endsAtLastAnchor hanchor
  have hblock : ∀ line ∈ lines.map endLine, '\n' ∉ line := by
    intro line hline
    obtain ⟨l, hl, rfl⟩ := List.mem_map.mp hline
    exact newline_not_mem_endLine (hlines l hl)
  exact ⟨_, head, tail, EndsAtLastAnchor.ensure_eq hcut hmarker, hcut.placesBlock hblock⟩

/-- What an inserter for block lines without a line feed does to a text without the marker.  It is
refused exactly if no line of it holds the anchor.  Otherwise the block lines, each with a line
feed in front and a carriage return at its end, are put behind the last line that does, and all
lines of the text stay as they are. -/
theorem ensure_places_block {marker anchor : List Char} {lines : List (List Char)}
    (hlines : ∀ line ∈ lines, '\n' ∉ line) {text : List Char}
    (hmarker : (ofLines marker anchor lines).hasMarker text = false) :
    ((ofLines marker anchor lines).ensure text = .error ⟨anchor⟩ ↔
      ∀ line ∈ Text.split '\n' text, Text.occursIn anchor line = false) ∧
    ((∃ line ∈ Text.split '\n' text, Text.occursIn anchor line = true) → ∃ after head tail,
      (ofLines marker anchor lines).ensure text = .ok (.inserted after) ∧
        PlacesBlock anchor (lines.map endLine) text after head tail) := by
  refine ⟨⟨fun herror => ?_, fun hnone => ensure_eq_error hmarker hnone⟩,
    fun hanchor => exists_placesBlock hlines hmarker hanchor⟩
  by_contra hsome
  have hanchor : ∃ line ∈ Text.split '\n' text, Text.occursIn anchor line = true := by
    simpa using hsome
  obtain ⟨after, -, -, hinserted, -⟩ := exists_placesBlock hlines hmarker hanchor
  rw [herror] at hinserted
  cases hinserted

/-- Two anchors in one line, a line that only ends in a carriage return, the last anchor line at the
end of the text, and block lines that look like anchor lines. -/
theorem ensure_places_block_at_end :
    (∀ line ∈ ["#in M".toList, "x\r".toList], '\n' ∉ line) ∧
    (ofLines ['M'] ['#', 'i'] ["#in M".toList, "x\r".toList]).hasMarker "#i#i\n\r\n  #i".toList =
      false ∧
    (∃ line ∈ Text.split '\n' "#i#i\n\r\n  #i".toList, Text.occursIn ['#', 'i'] line = true) ∧
    ∃ after head tail, (ofLines ['M'] ['#', 'i'] ["#in M".toList, "x\r".toList]).ensure
        "#i#i\n\r\n  #i".toList = .ok (.inserted after) ∧
      PlacesBlock ['#', 'i'] ["#in M\r".toList, "x\r".toList] "#i#i\n\r\n  #i".toList after head
        tail := by
  have hlines : ∀ line ∈ ["#in M".toList, "x\r".toList], '\n' ∉ line := by decide
  have hmarker : (ofLines ['M'] ['#', 'i'] ["#in M".toList, "x\r".toList]).hasMarker
      "#i#i\n\r\n  #i".toList = false := by decide
  have hanchor : ∃ line ∈ Text.split '\n' "#i#i\n\r\n  #i".toList,
      Text.occursIn ['#', 'i'] line = true := by decide
  exact ⟨hlines, hmarker, hanchor, (ensure_places_block hlines hmarker).2 hanchor⟩

end MarkerBlock.Inserter

/-! ## §5 Valid settings -/

namespace MarkerBlock.Config

/-- Valid settings have an anchor, and the marker is in a line of the block. -/
theorem validate_eq_ok {c : Config} (h : c.validate = .ok ()) :
    c.inserter.anchor ≠ [] ∧
      ∃ line ∈ c.inserter.block, Text.occursIn c.inserter.marker line = true := by
  have hfault : c.fault? = none := by
    rw [validate] at h
    split at h
    · cases h
    · assumption
  rw [fault?] at hfault
  split_ifs at hfault with hmarker hanchor hblock hnewline hin
  refine ⟨?_, ?_⟩
  · intro hnil
    have hnil' : c.anchor.toList = [] := hnil
    exact hanchor (by rw [String.isEmpty_iff, ← String.toList_eq_nil_iff, hnil'])
  · rw [Bool.not_eq_true', Bool.not_eq_false, markerInBlock, List.any_eq_true] at hin
    obtain ⟨line, hmem, hline⟩ := hin
    refine ⟨Inserter.endLine line.toList, ?_, ?_⟩
    · exact List.mem_map_of_mem (List.mem_map_of_mem hmem)
    · rw [Inserter.endLine]
      split
      · exact hline
      · exact Text.occursIn_append_left hline ['\r']

end MarkerBlock.Config
