/-
MarkerBlock.Proofs.Report.Csv — tables of comma-separated values read back.

§1 is a reader after RFC 4180: a machine that takes one character at a time and
refuses what the format does not allow.  §2 follows it through a field, a row and a
table, whatever characters the fields hold (`read_rows`).  §3 takes a report, its
empty line and its summary included, for such a table (`render_eq_rows`), so that
reading it gives the reports back and tells them from the lines of the summary.
-/
import Mathlib
import MarkerBlock.CodePage.Tables
import MarkerBlock.Report.Csv

namespace MarkerBlock.Report.Csv

/-! ## §1 Reading -/

/-- The fields of a line. -/
abbrev Record := List (List Char)

/-- Where a reader is in a field. -/
inductive Phase where
  /-- Nothing of the field was read. -/
  | start
  | plain
  | quoted
  /-- After a quote in a quoted field: the field ends here, or this is the first of two. -/
  | closed
  /-- After a carriage return, which belongs to a line end. -/
  | returned
deriving Repr, DecidableEq

/-- A reader of comma-separated values. -/
structure Reader where
  phase : Phase := .start
  /-- What was read of the field. -/
  current : List Char := []
  /-- The fields of the line before this one. -/
  fields : Record := []
  /-- The lines before this one. -/
  records : List Record := []
deriving Repr, DecidableEq

namespace Reader

def push (r : Reader) (phase : Phase) (c : Char) : Reader :=
  { r with phase, current := r.current ++ [c] }

def endField (r : Reader) : Reader :=
  { r with phase := .start, current := [], fields := r.fields ++ [r.current] }

def endRecord (r : Reader) : Reader :=
  { records := r.records ++ [r.fields ++ [r.current]] }

/-- Take a character that may follow a field: a comma, or the beginning of a line end. -/
def separate? (r : Reader) (c : Char) : Option Reader :=
  if c = ',' then some r.endField
  else if c = '\n' then some r.endRecord
  else if c = '\r' then some { r with phase := .returned }
  else none

/-- Take a character, if it may stand where the reader is. -/
def step (r : Reader) (c : Char) : Option Reader :=
  match r.phase with
  | .start =>
    if c = '"' then some { r with phase := .quoted }
    else (r.separate? c).or (some (r.push .plain c))
  | .plain => if c = '"' then none else (r.separate? c).or (some (r.push .plain c))
  | .quoted => if c = '"' then some { r with phase := .closed } else some (r.push .quoted c)
  | .closed => if c = '"' then some (r.push .quoted c) else r.separate? c
  | .returned => if c = '\n' then some r.endRecord else none

/-- Take all characters of a text. -/
def run (r : Reader) (text : List Char) : Option Reader := text.foldlM step r

/-- All lines at the end of the text.  The last one may lack its line end. -/
def finish (r : Reader) : Option (List Record) :=
  match r.phase with
  | .start => some (if r.fields = [] then r.records else r.endRecord.records)
  | .plain | .closed => some r.endRecord.records
  | .quoted | .returned => none

/-- A reader at the beginning of a line. -/
def atLine (records : List Record) : Reader := { records }

end Reader

/-- The lines of a table. -/
def read (text : List Char) : Option (List Record) := (Reader.run {} text).bind Reader.finish

example : read "a,\"b \"\"c\"\"\r\n,d\"\r\n\n,".toList =
    some [["a".toList, "b \"c\"\r\n,d".toList], [[]], [[], []]] := by decide

example : read "a\"b\n".toList = none ∧ read "\"a\"b\n".toList = none ∧ read "\"a".toList = none := by
  decide

/-! ## §2 What was written -/

namespace Reader

@[simp] theorem run_nil (r : Reader) : r.run [] = some r := rfl

theorem run_cons (r : Reader) (c : Char) (text : List Char) :
    r.run (c :: text) = (r.step c).bind (·.run text) := rfl

theorem run_append (r : Reader) (x y : List Char) : r.run (x ++ y) = (r.run x).bind (·.run y) :=
  List.foldlM_append

/-- A character that needs no quotes is taken as it is. -/
theorem step_of_not_special {r : Reader} {c : Char} (hphase : r.phase = .start ∨ r.phase = .plain)
    (hc : isSpecial c = false) : r.step c = some (r.push .plain c) := by
  simp only [isSpecial, Bool.or_eq_false_iff, beq_eq_false_iff_ne, ne_eq] at hc
  obtain ⟨⟨⟨hcomma, hquote⟩, hfeed⟩, hreturn⟩ := hc
  rcases hphase with hphase | hphase <;>
    simp [step, separate?, hphase, hcomma, hquote, hfeed, hreturn]

theorem run_plain {text : List Char} (h : text.any isSpecial = false) {r : Reader}
    (hphase : r.phase = .plain) : r.run text = some { r with current := r.current ++ text } := by
  induction text generalizing r with
  | nil => simp
  | cons c rest ih =>
    rw [List.any_cons, Bool.or_eq_false_iff] at h
    rw [run_cons, step_of_not_special (.inr hphase) h.1, Option.bind_some, ih h.2 rfl]
    simp [push, hphase]

theorem run_doubleQuotes (text : List Char) {r : Reader} (hphase : r.phase = .quoted) :
    r.run (doubleQuotes text) = some { r with current := r.current ++ text } := by
  induction text generalizing r with
  | nil => simp [doubleQuotes]
  | cons c rest ih =>
    have hcons : doubleQuotes (c :: rest) = (if c = '"' then [c, c] else [c]) ++ doubleQuotes rest :=
      rfl
    have htaken : r.run (if c = '"' then [c, c] else [c]) = some (r.push .quoted c) := by
      by_cases hc : c = '"'
      · simp [hc, run_cons, step, push, hphase]
      · simp [hc, run_cons, step, hphase]
    rw [hcons, run_append, htaken, Option.bind_some, ih rfl]
    simp [push, hphase]

/-- What a field ends in: it was read as far as its text goes, in quotes or without. -/
theorem run_field (text : List Char) (fields : Record) (records : List Record) :
    ∃ phase, (phase = .start ∨ phase = .plain ∨ phase = .closed) ∧
      run { fields, records } (field text) = some ⟨phase, text, fields, records⟩ := by
  rw [field]
  cases hspecial : text.any isSpecial with
  | true =>
    refine ⟨.closed, .inr (.inr rfl), ?_⟩
    rw [if_pos rfl, List.cons_append, run_cons]
    have hopened : step { fields, records } '"' = some ⟨.quoted, [], fields, records⟩ := rfl
    rw [hopened, Option.bind_some, run_append, run_doubleQuotes text rfl]
    rfl
  | false =>
    rw [if_neg Bool.false_ne_true]
    cases text with
    | nil => exact ⟨.start, .inl rfl, rfl⟩
    | cons c rest =>
      rw [List.any_cons, Bool.or_eq_false_iff] at hspecial
      refine ⟨.plain, .inr (.inl rfl), ?_⟩
      rw [run_cons, step_of_not_special (.inl rfl) hspecial.1, Option.bind_some,
        run_plain hspecial.2 rfl]
      rfl

theorem run_field_comma (text : List Char) (fields : Record) (records : List Record)
    (rest : List Char) :
    run { fields, records } (field text ++ ',' :: rest) =
      run { fields := fields ++ [text], records } rest := by
  obtain ⟨phase, hphase, hrun⟩ := run_field text fields records
  rw [run_append, hrun, Option.bind_some, run_cons]
  rcases hphase with rfl | rfl | rfl <;> rfl

theorem run_field_feed (text : List Char) (fields : Record) (records : List Record)
    (rest : List Char) :
    run { fields, records } (field text ++ '\n' :: rest) =
      run (atLine (records ++ [fields ++ [text]])) rest := by
  obtain ⟨phase, hphase, hrun⟩ := run_field text fields records
  rw [run_append, hrun, Option.bind_some, run_cons]
  rcases hphase with rfl | rfl | rfl <;> rfl

/-- A row is read as its fields, after those of the line that were read before. -/
theorem run_row {texts : Record} (hne : texts ≠ []) (fields : Record) (records : List Record)
    (rest : List Char) :
    run { fields, records } (row texts ++ rest) =
      run (atLine (records ++ [fields ++ texts])) rest := by
  induction texts generalizing fields with
  | nil => exact absurd rfl hne
  | cons text others ih =>
    cases others with
    | nil =>
      have hrow : row [text] ++ rest = field text ++ '\n' :: rest := by
        simp [row]
      rw [hrow, run_field_feed]
    | cons other others =>
      have hrow : row (text :: other :: others) ++ rest =
          field text ++ ',' :: (row (other :: others) ++ rest) := by
        simp [row, List.intercalate_cons_cons]
      rw [hrow, run_field_comma, ih (List.cons_ne_nil _ _), List.append_assoc]
      rfl

theorem run_rows {lines : List Record} (hne : ∀ texts ∈ lines, texts ≠ [])
    (records : List Record) :
    run (atLine records) (lines.flatMap row) = some (atLine (records ++ lines)) := by
  induction lines generalizing records with
  | nil => simp
  | cons texts others ih =>
    rw [List.forall_mem_cons] at hne
    rw [List.flatMap_cons, atLine, run_row hne.1, ih hne.2]
    simp

end Reader

/-- A table is read as the rows that were written, whatever their fields are. -/
theorem read_rows {lines : List Record} (hne : ∀ texts ∈ lines, texts ≠ []) :
    read (lines.flatMap row) = some lines := by
  have hrun : Reader.run {} (lines.flatMap row) = some (Reader.atLine lines) :=
    Reader.run_rows hne []
  rw [read, hrun]
  rfl

/-! ## §3 A report -/

/-- The lines of the summary, after the empty line. -/
def summaryRecords (s : Summary) (now : String) : List Record :=
  ["# Summary".toList] :: (summaryLines s now).map fun (name, value) => [name.toList, value.toList]

theorem isSpecial_of_isDigit {c : Char} (h : c.isDigit = true) : isSpecial c = false := by
  cases hc : isSpecial c with
  | false => rfl
  | true =>
    simp only [isSpecial, Bool.or_eq_true, beq_iff_eq] at hc
    rcases hc with ((rfl | rfl) | rfl) | rfl <;> exact absurd h (by decide)

theorem any_isSpecial_digits (n : Nat) : (Nat.toDigits 10 n).any isSpecial = false := by
  refine List.any_eq_false.mpr fun c hc => ?_
  simp [isSpecial_of_isDigit (Nat.isDigit_of_mem_toDigits (by decide) (by decide) hc)]

theorem any_isSpecial_number (n : Nat) : (toString n).toList.any isSpecial = false := by
  have htext : (toString n).toList = Nat.toDigits 10 n := Nat.toList_repr
  rw [htext]
  exact any_isSpecial_digits n

theorem any_isSpecial_padded (width n : Nat) :
    (Decimal.padded width n).toList.any isSpecial = false := by
  have hzero : isSpecial '0' = false := rfl
  simp only [Decimal.padded, String.toList_ofList, List.any_append, any_isSpecial_digits,
    Bool.or_false, List.any_replicate, hzero]
  split <;> rfl

theorem any_isSpecial_fixed (places : Nat) (x : Decimal.Binary) :
    (Decimal.fixed places x).toList.any isSpecial = false := by
  have htext (whole : Nat) (rest : String) :
      s!"{whole}.{rest}".toList = (toString whole).toList ++ '.' :: rest.toList := by
    have hparts : s!"{whole}.{rest}" = toString whole ++ "." ++ rest := rfl
    rw [hparts]
    simp
  have hpoint : isSpecial '.' = false := rfl
  rw [Decimal.fixed, htext, List.any_append, List.any_cons, any_isSpecial_number,
    any_isSpecial_padded, hpoint]
  rfl

theorem field_of_not_special {text : List Char} (h : text.any isSpecial = false) :
    field text = text := by
  rw [field, h]
  rfl

theorem any_isSpecial_name {s : Summary} {now : String} {line : String × String}
    (h : line ∈ summaryLines s now) : line.1.toList.any isSpecial = false := by
  have hname : line.1 ∈ (summaryLines s now).map Prod.fst := List.mem_map_of_mem h
  have hnames : (summaryLines s now).map Prod.fst =
      ["Total files", "Files with marker", "Files missing marker", "Blocks inserted", "Files failed",
        "Files ignored", "Processing time (seconds)", "Generated on"] := rfl
  rw [hnames] at hname
  revert hname
  generalize line.1 = name
  revert name
  decide

theorem any_isSpecial_value {s : Summary} {now : String} (hnow : now.toList.any isSpecial = false)
    {line : String × String} (h : line ∈ summaryLines s now) :
    line.2.toList.any isSpecial = false := by
  simp only [summaryLines, List.mem_cons, List.not_mem_nil, or_false] at h
  rcases h with rfl | rfl | rfl | rfl | rfl | rfl | rfl | rfl
  case inr.inr.inr.inr.inr.inr.inl => exact any_isSpecial_fixed 2 s.seconds
  case inr.inr.inr.inr.inr.inr.inr => exact hnow
  all_goals exact any_isSpecial_number _

theorem line_eq_row {name value : String} (hname : name.toList.any isSpecial = false)
    (hvalue : value.toList.any isSpecial = false) :
    s!"{name},{value}\n".toList = row [name.toList, value.toList] := by
  have hparts : s!"{name},{value}\n" = name ++ "," ++ value ++ "\n" := rfl
  rw [hparts]
  simp [row, List.intercalate_cons_cons, field_of_not_special hname, field_of_not_special hvalue]

/-- The summary is written without quotes, and needs none. -/
theorem summaryText_eq_rows (s : Summary) {now : String} (hnow : now.toList.any isSpecial = false) :
    summaryText s now = ([[]] :: summaryRecords s now).flatMap row := by
  have htitle : "\n# Summary\n".toList = row [[]] ++ row ["# Summary".toList] := by decide
  have hlines : ((summaryLines s now).flatMap fun (name, value) => s!"{name},{value}\n".toList) =
      (summaryLines s now).flatMap fun (name, value) => row [name.toList, value.toList] := by
    refine List.flatMap_congr ?_
    rintro ⟨name, value⟩ hmem
    exact line_eq_row (any_isSpecial_name hmem) (any_isSpecial_value hnow hmem)
  unfold summaryText
  rw [htitle, hlines, summaryRecords, List.flatMap_cons, List.flatMap_cons, List.flatMap_map,
    List.append_assoc]

/-- A report is a table: the names of the columns, the files, an empty line, the summary. -/
theorem render_eq_rows (page : CodePage) (reports : List FileReport) (s : Summary) {now : String}
    (hnow : now.toList.any isSpecial = false) :
    render page reports s now =
      ((columns.map String.toList :: reports.map (fields page)) ++ [[]] :: summaryRecords s now).flatMap
        row := by
  have hfiles : reports.flatMap (fun r => row (fields page r)) =
      (reports.map (fields page)).flatMap row := by
    rw [List.flatMap_map]
  rw [render, hfiles, summaryText_eq_rows s hnow, List.flatMap_append]
  rfl

theorem fields_eq (page : CodePage) (r : FileReport) :
    fields page r =
      [r.path.text, (r.encoding.elim "" (·.displayName page)).toList,
        (if r.hasMarker then "true" else "false").toList, r.action.label.toList,
        (r.reason.getD "").toList] := by
  have hmarker : toString r.hasMarker = if r.hasMarker then "true" else "false" := by
    cases r.hasMarker <;> rfl
  have hencoding : r.encodingName page = r.encoding.elim "" (·.displayName page) := by
    rw [FileReport.encodingName]
    cases r.encoding <;> rfl
  rw [fields, hmarker, hencoding]

theorem length_of_mem_summaryRecords {s : Summary} {now : String} {line : Record}
    (h : line ∈ [[]] :: summaryRecords s now) : 0 < line.length ∧ line.length < 5 := by
  rw [summaryRecords, List.mem_cons, List.mem_cons, List.mem_map] at h
  rcases h with rfl | rfl | ⟨⟨name, value⟩, -, rfl⟩
  · decide
  · decide
  · simp

/-- A report reads back: the names of the columns, then for each file one line of five fields, in
their order, then one empty line and the summary.  No line of the summary has five fields. -/
theorem read_render (page : CodePage) (reports : List FileReport) (s : Summary) {now : String}
    (hnow : now.toList.any isSpecial = false) :
    ∃ files summary : List Record,
      read (render page reports s now) =
        some ((["file_path", "encoding", "has_marker", "action", "notes"].map String.toList :: files) ++
          [[]] :: summary) ∧
      files = reports.map (fun r =>
        [r.path.text, (r.encoding.elim "" (·.displayName page)).toList,
          (if r.hasMarker then "true" else "false").toList, r.action.label.toList,
          (r.reason.getD "").toList]) ∧
      summary = ["# Summary".toList] ::
        (summaryLines s now).map (fun line => [line.1.toList, line.2.toList]) ∧
      (∀ file ∈ files, file.length = 5) ∧ ∀ line ∈ [[]] :: summary, line.length < 5 := by
  have hne : ∀ texts ∈
      (columns.map String.toList :: reports.map (fields page)) ++ [[]] :: summaryRecords s now,
      texts ≠ [] := by
    intro texts htexts
    rw [List.mem_append, List.mem_cons, List.mem_map] at htexts
    rcases htexts with (rfl | ⟨r, -, rfl⟩) | hsummary
    · exact List.cons_ne_nil _ _
    · exact List.cons_ne_nil _ _
    · exact List.ne_nil_of_length_pos (length_of_mem_summaryRecords hsummary).1
  refine ⟨reports.map (fields page), summaryRecords s now, ?_, ?_, rfl, ?_, ?_⟩
  · rw [render_eq_rows page reports s hnow, read_rows hne]
    rfl
  · exact List.map_congr_left fun r _ => fields_eq page r
  · intro file hfile
    obtain ⟨r, -, rfl⟩ := List.mem_map.mp hfile
    rfl
  · exact fun line hline => (length_of_mem_summaryRecords hline).2

/-- A path that holds an empty line and a line of a summary stays one field. -/
theorem read_render_awkward :
    ("2026-01-02 03:04:05".toList.any isSpecial = false) ∧
    ∃ files summary : List Record,
      read (render .windows1252
          [⟨⟨"a,\"b\"\r\n\n# Summary\nTotal files,9".toList⟩, none, false, .failed, some "\""⟩]
          { total := 1, failed := 1 } "2026-01-02 03:04:05") =
        some ((["file_path", "encoding", "has_marker", "action", "notes"].map String.toList :: files) ++
          [[]] :: summary) ∧
      files = [["a,\"b\"\r\n\n# Summary\nTotal files,9".toList, [], "false".toList,
        "Failed".toList, "\"".toList]] ∧
      summary.length = 9 := by
  refine ⟨by decide, ?_⟩
  obtain ⟨files, summary, hread, hfiles, hsummary, -⟩ := read_render .windows1252
    [⟨⟨"a,\"b\"\r\n\n# Summary\nTotal files,9".toList⟩, none, false, .failed, some "\""⟩]
    { total := 1, failed := 1 } (by decide : "2026-01-02 03:04:05".toList.any isSpecial = false)
  exact ⟨files, summary, hread, hfiles, by rw [hsummary]; rfl⟩

end MarkerBlock.Report.Csv
