/-
MarkerBlock.Report.Csv — reports as a table of comma-separated values.

A header, one row for each file, an empty line, and the summary.  A field with a
comma, a quote or a line end in it is quoted, and a quote inside is written
twice.
-/
import MarkerBlock.Report.Basic

namespace MarkerBlock.Report.Csv

/-- Characters for which a field is quoted. -/
def isSpecial (c : Char) : Bool := c == ',' || c == '"' || c == '\n' || c == '\r'

/-- Text with every quote written twice. -/
def doubleQuotes (text : List Char) : List Char :=
  text.flatMap fun c => if c = '"' then [c, c] else [c]

/-- A field. -/
def field (text : List Char) : List Char :=
  if text.any isSpecial then '"' :: doubleQuotes text ++ ['"'] else text

/-- A row, with its line end. -/
def row (fields : List (List Char)) : List Char :=
  List.intercalate [','] (fields.map field) ++ ['\n']

/-- The names of the columns. -/
def columns : List String := ["file_path", "encoding", "has_marker", "action", "notes"]

/-- The fields of a file's row. -/
def fields (page : CodePage) (r : FileReport) : List (List Char) :=
  [r.path.text, (r.encodingName page).toList, (toString r.hasMarker).toList,
    r.action.label.toList, (r.reason.getD "").toList]

/-- The lines of the summary: a name and a value each. -/
def summaryLines (s : Summary) (now : String) : List (String × String) :=
  [("Total files", toString s.total),
   ("Files with marker", toString s.withMarker),
   ("Files missing marker", toString s.missing),
   ("Blocks inserted", toString s.inserted),
   ("Files failed", toString s.failed),
   ("Files ignored", toString s.ignored),
   ("Processing time (seconds)", Decimal.fixed 2 s.seconds),
   ("Generated on", now)]

/-- The summary, with an empty line and a title before it. -/
def summaryText (s : Summary) (now : String) : List Char :=
  "\n# Summary\n".toList ++
    (summaryLines s now).flatMap fun (name, value) => s!"{name},{value}\n".toList

/-- The whole table.  `now` is the date and time shown in it. -/
def render (page : CodePage) (reports : List FileReport) (s : Summary) (now : String) : List Char :=
  row (columns.map String.toList) ++ reports.flatMap (fun r => row (fields page r)) ++
    summaryText s now

end MarkerBlock.Report.Csv
