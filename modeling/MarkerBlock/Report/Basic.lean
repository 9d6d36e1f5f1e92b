/-
MarkerBlock.Report.Basic — what came of each file, and of all together.

A report says what was done to one file.  `Summary.ofReports` counts reports by
action; `Categories.ofReports` sorts them by action and keeps their order.  A
file into which the block was inserted counts as one that lacked the marker.
-/
import MarkerBlock.Decimal.Text
import MarkerBlock.Encoding.Basic
import MarkerBlock.Path

namespace MarkerBlock

/-! ## §1 One file -/

/-- What was done to a file. -/
inductive Action where
  | inserted
  /-- The block is missing, and was not to be inserted. -/
  | missing
  /-- The marker was there. -/
  | present
  | skipped
  | failed
deriving Repr, DecidableEq

/-- The word for an action in a table. -/
def Action.label : Action → String
  | .inserted => "Inserted"
  | .missing => "Missing"
  | .present => "None"
  | .skipped => "Ignored"
  | .failed => "Failed"

/-- The word for an action as data. -/
def Action.key : Action → String
  | .inserted => "inserted"
  | .missing => "missing"
  | .present => "none"
  | .skipped => "skipped"
  | .failed => "failed"

/-- What came of one file. -/
structure FileReport where
  path : Path
  encoding : Option Encoding
  hasMarker : Bool
  action : Action
  reason : Option String := none
deriving Repr, DecidableEq

namespace FileReport

/-- The report on a file that a filter skipped. -/
def skipped (path : Path) (reason : String) : FileReport :=
  { path, encoding := none, hasMarker := false, action := .skipped, reason := some reason }

/-- The report on a file that could not be worked on. -/
def failed (path : Path) (encoding : Option Encoding) (reason : String) : FileReport :=
  { path, encoding, hasMarker := false, action := .failed, reason := some reason }

/-- Whether the file was skipped. -/
def isSkipped (r : FileReport) : Bool := r.action == .skipped

/-- Whether the file is a reason to call the run unsuccessful. -/
def isIssue (r : FileReport) : Bool := r.action == .failed || r.action == .missing

/-- Name of the encoding; empty if none was found out. -/
def encodingName (page : CodePage) (r : FileReport) : String :=
  match r.encoding with
  | some e => e.displayName page
  | none => ""

end FileReport

/-! ## §2 All files -/

/-- Counts over all files of a run. -/
structure Summary where
  total : Nat := 0
  withMarker : Nat := 0
  missing : Nat := 0
  inserted : Nat := 0
  failed : Nat := 0
  ignored : Nat := 0
  /-- How long the run took. -/
  nanoseconds : Nat := 0
  /-- Seconds from the beginning of 1970 to the run. -/
  timestamp : Option Int := none
deriving Repr, DecidableEq

namespace Summary

/-- Count one more file. -/
def add (s : Summary) (r : FileReport) : Summary :=
  let s := { s with total := s.total + 1 }
  match r.action with
  | .skipped => { s with ignored := s.ignored + 1 }
  | .failed => { s with failed := s.failed + 1 }
  | .present => { s with withMarker := s.withMarker + 1 }
  | .missing => { s with missing := s.missing + 1 }
  | .inserted => { s with missing := s.missing + 1, inserted := s.inserted + 1 }

/-- Count all files of a run. -/
def ofReports (reports : List FileReport) (nanoseconds : Nat) (timestamp : Option Int) : Summary :=
  reports.foldl add { nanoseconds, timestamp }

/-- How long the run took: whole seconds and the rest, added as fractions. -/
def seconds (s : Summary) : Decimal.Binary :=
  let unit := 1000000000
  (Decimal.Binary.ofRatio (s.nanoseconds / unit) 1).add
    (Decimal.Binary.ofRatio (s.nanoseconds % unit) unit)

end Summary

/-- Reports by action. -/
structure Categories where
  missing : List FileReport
  inserted : List FileReport
  failed : List FileReport
  present : List FileReport
  ignored : List FileReport
deriving Repr

namespace Categories

/-- Sort reports by action, keeping their order. -/
def ofReports (reports : List FileReport) : Categories :=
  let having (action : Action) := reports.filter (·.action == action)
  { missing := having .missing, inserted := having .inserted, failed := having .failed
    present := having .present, ignored := having .skipped }

/-- Number of files that were opened. -/
def processedCount (c : Categories) : Nat :=
  c.missing.length + c.inserted.length + c.failed.length + c.present.length

end Categories

end MarkerBlock
