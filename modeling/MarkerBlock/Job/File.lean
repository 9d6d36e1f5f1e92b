/-
MarkerBlock.Job.File — working on one file.

`plan` reads a file in an encoding and makes its new contents, complete down to
the octets, so that whatever can go wrong goes wrong before anything is written.
`Job.ensureAs` then writes the file, or shows the difference if the job only
examines.  `Job.ensure` finds the encoding first.
-/
import MarkerBlock.Job.Basic
import MarkerBlock.Report.Basic

namespace MarkerBlock

/-! ## §1 Planning -/

/-- A change to a file that is ready to be written. -/
structure Insertion where
  before : List Char
  after : List Char
  octets : List UInt8
deriving Repr, DecidableEq

/-- The insertion a file with these octets needs, if it needs one. -/
def plan (page : CodePage) (i : Inserter) (e : Encoding) (octets : List UInt8) :
    Except FileFailure (Option Insertion) :=
  match e.decode page octets with
  | .error err => .error (.decode err)
  | .ok before =>
    match i.ensure before with
    | .error err => .error (.noAnchor err)
    | .ok .present => .ok none
    | .ok (.inserted after) =>
      match e.encode page after with
      | .error err => .error (.encode err)
      | .ok octets => .ok (some { before, after, octets })

/-- What came of a file that was worked on. -/
inductive Status where
  /-- The marker was there. -/
  | present
  /-- The block was inserted. -/
  | inserted
  /-- The block is missing and was not to be inserted. -/
  | missing
deriving Repr, DecidableEq

/-- The files after one was worked on, what came of it, and what was said. -/
structure Handled where
  tree : FileTree
  result : Except FileFailure Status
  remarks : List Remark := []

namespace Job

/-- A path as it is shown: seen from the current directory. -/
def displayPath (s : Surroundings) (path : Path) : Path := path.relativeTo s.directory

/-! ## §2 Carrying out -/

/-- Show or save the difference an insertion makes. -/
def examine (job : Job) (s : Surroundings) (tree : FileTree) (path : Path) (i : Insertion) :
    Handled :=
  if job.diffs.isEnabled then
    let text := Diff.render (displayPath s path) i.before i.after
    let shown := job.diffs.remarks text
    match job.diffs.save tree s.cwd text with
    | .ok tree => { tree, result := .ok .missing, remarks := shown }
    | .error e =>
      let causes := ": ".intercalate e.chain
      let warning := s!"Failed to render diff for {path}: {causes}"
      { tree, result := .ok .missing, remarks := shown ++ [.diagnostic .warn warning] }
  else { tree, result := .ok .missing }

/-- Write the new contents of a file. -/
def writeBack (s : Surroundings) (tree : FileTree) (path : Path) (i : Insertion) : Handled :=
  match tree.write s.cwd path i.octets with
  | .error e => { tree, result := .error (.write path e) }
  | .ok tree =>
    let size := i.octets.length
    { tree, result := .ok .inserted
      remarks := [.diagnostic .debug s!"{path}: inserted block ({size} bytes written)"] }

/-- Make sure that a file, read in the encoding `e`, has the block. -/
def ensureAs (job : Job) (page : CodePage) (s : Surroundings) (tree : FileTree) (path : Path)
    (e : Encoding) : Handled :=
  match tree.read s.cwd path with
  | .error err => { tree, result := .error (.read path err) }
  | .ok octets =>
    match plan page job.inserter e octets with
    | .error failure => { tree, result := .error failure }
    | .ok none =>
      { tree, result := .ok .present
        remarks := [.diagnostic .trace s!"{path}: marker already present"] }
    | .ok (some insertion) =>
      if job.modifies then writeBack s tree path insertion else examine job s tree path insertion

/-- Make sure that a file has the block, in the encoding the job's detector
finds. -/
def ensure (job : Job) (page : CodePage) (s : Surroundings) (tree : FileTree) (path : Path) :
    Encoding × Handled :=
  let (e, remarks) := job.detector.detect page tree s.cwd path
  let handled := job.ensureAs page s tree path e
  (e, { handled with remarks := remarks ++ handled.remarks })

/-- The job that makes sure that a file has the standard block. -/
def standard (workspace : Path) : Job :=
  { workspace, inserter := .standard, filter := .all [] }

/-! ## §3 Reporting -/

/-- The action a status stands for. -/
def actionOf : Status → Action
  | .present => .present
  | .inserted => .inserted
  | .missing => .missing

/-- The report on a file that was worked on. -/
def reportOf (page : CodePage) (display : Path) (e : Encoding) :
    Except FileFailure Status → FileReport
  | .ok status =>
    { path := display, encoding := some e, hasMarker := status == .present
      action := actionOf status }
  | .error failure => .failed display (some e) (failure.message page)

/-- Work on a file and report on it. -/
def processFile (job : Job) (page : CodePage) (s : Surroundings) (tree : FileTree) (path : Path) :
    FileTree × FileReport × List Remark :=
  let (e, detection) := job.detector.detect page tree s.cwd path
  let found := Remark.detail s!"Detected {e.displayName page} for {path}"
  let handled := job.ensureAs page s tree path e
  let trouble := match handled.result with
    | .ok _ => []
    | .error failure => [Remark.diagnostic .debug s!"{path}: {failure.message page}"]
  (handled.tree, reportOf page (displayPath s path) e handled.result,
    detection ++ found :: handled.remarks ++ trouble)

end Job

end MarkerBlock
