/-
MarkerBlock.Report.Writing — report formats, and writing a report to a file.
-/
import MarkerBlock.Encoding.Utf8
import MarkerBlock.FileTree
import MarkerBlock.Report.Csv
import MarkerBlock.Report.Json
import MarkerBlock.Text.LowerCase

namespace MarkerBlock.Report

/-- How a report is written. -/
inductive Format where
  | json
  | csv
deriving Repr, DecidableEq

/-- Name of a format. -/
def Format.name : Format → String
  | .json => "JSON"
  | .csv => "CSV"

/-- The text names no format. -/
structure UnknownFormat where
  text : String
deriving Repr, DecidableEq

/-- Wording of the error. -/
def UnknownFormat.message (e : UnknownFormat) : String := s!"Invalid report format: {e.text}"

/-- The format a text names, in whatever letter case. -/
def Format.ofText (text : String) : Except UnknownFormat Format :=
  match Text.lowerCase text with
  | "json" => .ok .json
  | "csv" => .ok .csv
  | _ => .error ⟨text⟩

/-- The text of a report. -/
def render (format : Format) (page : CodePage) (reports : List FileReport) (s : Summary)
    (now : String) : List Char :=
  match format with
  | .json => Json.render page reports s
  | .csv => Csv.render page reports s now

/-- A report could not be written. -/
structure WriteError where
  path : Path
  error : FileError
deriving Repr

/-- Wording: what was tried, and the cause. -/
def WriteError.chain (e : WriteError) : List String :=
  [s!"Failed to write report to {e.path}", e.error.message]

/-- Write a report to a file. -/
def write (tree : FileTree) (cwd : Place) (path : Path) (text : List Char) :
    Except WriteError FileTree :=
  match tree.write cwd path (Encoding.Utf8.encode text) with
  | .ok tree => .ok tree
  | .error e => .error ⟨path, e⟩

end MarkerBlock.Report
