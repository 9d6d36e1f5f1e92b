/-
MarkerBlock.Job.Batch — working on many files, one after another.

Every file gets a report.  A file that a filter skips is reported as skipped; one
that fails is reported as failed, and the batch goes on.  Only an ignore file
that cannot be loaded ends it; what was done before stays done and reported.

The ignore files of a directory are loaded once, when its first file comes up.
-/
import MarkerBlock.Job.File

namespace MarkerBlock.Job

/-! ## §1 Which files are skipped -/

/-- The ignore lists loaded so far, by the components of the directory. -/
abbrev Lists := List (List Path.Component × IgnoreList)

/-- Whether a file is skipped, and what is known afterwards. -/
structure Judged where
  reason : Option SkipReason := none
  lists : Lists
  remarks : List Remark := []

/-- The ignore list for a directory: one loaded earlier, or one loaded now. -/
def listFor (job : Job) (s : Surroundings) (tree : FileTree) (lists : Lists) (directory : Path) :
    Except (Ignore.Error × List Remark) (IgnoreList × Lists × List Remark) :=
  let key := directory.components
  match lists.find? fun entry => entry.1 == key with
  | some entry => .ok (entry.2, lists, [])
  | none =>
    match IgnoreList.load s tree { globs := [] } directory job.workspace with
    | (.ok list, remarks) => .ok (list, (key, list) :: lists, remarks)
    | (.error e, remarks) => .error (e, remarks)

/-- Decide whether a file is skipped: a link always is; then the job's filter is
asked about the path seen from the workspace, and the ignore list of its
directory about the path itself. -/
def judge (job : Job) (s : Surroundings) (tree : FileTree) (lists : Lists) (path : Path) :
    Except (Ignore.Error × List Remark) Judged :=
  match tree.statLink s.cwd path with
  | .ok (.link _) => .ok { reason := some .symlink, lists }
  | .error e => .ok { reason := some (.unstatable e), lists }
  | .ok _ =>
    let relative := path.relativeTo job.workspace
    match job.filter.judge relative with
    | some reason => .ok { reason := some reason, lists, remarks := reason.remarks relative }
    | none =>
      match path.parent? with
      | none => .ok { lists }
      | some directory =>
        match listFor job s tree lists directory with
        | .error e => .error e
        | .ok (list, lists, remarks) =>
          match list.cause? path with
          | none => .ok { lists, remarks }
          | some cause =>
            let reason := SkipReason.ignored cause
            .ok { reason := some reason, lists, remarks := remarks ++ reason.remarks path }

/-! ## §2 One file after another -/

/-- What is known after one file of a batch. -/
structure Step where
  tree : FileTree
  lists : Lists
  report : FileReport
  /-- The file was worked on, and failed or lacks the block. -/
  isIssue : Bool
  remarks : List Remark

/-- Skip a file or work on it. -/
def step (job : Job) (page : CodePage) (s : Surroundings) (tree : FileTree) (lists : Lists)
    (path : Path) : Except (Ignore.Error × List Remark) Step :=
  match job.judge s tree lists path with
  | .error e => .error e
  | .ok judged =>
    match judged.reason with
    | some reason =>
      let message := reason.message
      let skipping := Remark.diagnostic .trace s!"Skipping: {path} ({message})"
      .ok { tree, lists := judged.lists
            report := .skipped (displayPath s path) message
            isIssue := false
            remarks := judged.remarks ++ [skipping] }
    | none =>
      let (tree, report, remarks) := job.processFile page s tree path
      .ok { tree, lists := judged.lists, report, isIssue := report.isIssue
            remarks := judged.remarks ++ remarks }

/-- What came of a batch: the files afterwards, the reports, whether some file failed or
lacks the block, and the error that ended it early, if one did. -/
structure Batch where
  tree : FileTree
  reports : List FileReport := []
  hasIssues : Bool := false
  error : Option Ignore.Error := none
  remarks : List Remark := []

/-- Work on files in order, given the ignore lists loaded so far. -/
def runFrom (job : Job) (page : CodePage) (s : Surroundings) :
    FileTree → Lists → List Path → Batch
  | tree, _, [] => { tree }
  | tree, lists, path :: rest =>
    match job.step page s tree lists path with
    | .error (e, remarks) => { tree, error := some e, remarks }
    | .ok done =>
      let after := runFrom job page s done.tree done.lists rest
      { after with
        reports := done.report :: after.reports
        hasIssues := done.isIssue || after.hasIssues
        remarks := done.remarks ++ after.remarks }

/-- What is said at the end of a batch. -/
def closing (batch : Batch) : List Remark :=
  match batch.error with
  | some _ => []
  | none => [.diagnostic .debug s!"Processed {batch.reports.length} files in 0ms"]

/-- Work on files in order. -/
def run (job : Job) (page : CodePage) (s : Surroundings) (tree : FileTree) (paths : List Path) :
    Batch :=
  if paths.isEmpty then
    { tree, remarks := [.diagnostic .debug "No files to process"] }
  else
    let batch := job.runFrom page s tree [] paths
    { batch with remarks := batch.remarks ++ closing batch }

end MarkerBlock.Job
