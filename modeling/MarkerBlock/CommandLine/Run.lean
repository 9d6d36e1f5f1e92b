/-
MarkerBlock.CommandLine.Run — a whole run of the program.

A run takes arguments, surroundings and files to files, lines of output and a
status.  It first makes everything ready (`prepare`): settings, code page, the
file for differences, the job.  Then it selects the files, works on them
(`carryOut`), tells what came of them (`account`), and writes the reports that
were asked for.  Whatever ends it early is told on the error stream.
-/
import MarkerBlock.CommandLine.Arguments
import MarkerBlock.Config.Loading
import MarkerBlock.Console
import MarkerBlock.Job.Batch
import MarkerBlock.Report.Writing

namespace MarkerBlock

/-! ## §1 Runs -/

/-- What a run finds out about time. -/
structure Clock where
  /-- Date and time as shown in reports. -/
  now : String := ""
  /-- Seconds from the beginning of 1970. -/
  timestamp : Int := 0
  /-- How long the batch takes. -/
  nanoseconds : Nat := 0
deriving Repr

/-- What came of a run. -/
structure Outcome where
  tree : FileTree
  lines : List Line
  exitCode : Nat

/-- The causes of an error after the first, as a list of lines: each behind its
number if there are several, and indented. -/
def causeLines (causes : List String) : List String :=
  let numbered := 1 < causes.length
  (causes.zipIdx).flatMap fun (cause, i) =>
    let indent := if numbered then "       " else "    "
    let first := if numbered then s!"    {i}: " else "    "
    match Text.split '\n' cause.toList with
    | [] => []
    | line :: rest =>
      (first ++ String.ofList line) :: rest.map fun line => indent ++ String.ofList line

/-- An error and its causes as lines. -/
def errorLines (chain : List String) : List String :=
  match chain with
  | [] => []
  | [error] => [s!"Error: {error}"]
  | error :: causes => s!"Error: {error}" :: "" :: "Caused by:" :: causeLines causes

/-- The outcome of a run that ended early. -/
def Outcome.failed (tree : FileTree) (lines : List Line) (chain : List String) : Outcome :=
  { tree, lines := lines ++ Console.complain (errorLines chain), exitCode := 1 }

namespace Arguments

/-- The console that arguments ask for. -/
def console (a : Arguments) (terminalOut terminalErr : Bool) : Console :=
  let styled (terminal : Bool) := match a.colors.getD .auto with
    | .auto => terminal
    | .never => false
    | .always => true
  { mode := if a.verbosity != 0 then .verbose else if a.quiet then .quiet else .normal
    styledOut := styled terminalOut
    styledErr := styled terminalErr
    level :=
      if a.quiet then .error
      else if a.verbosity ≤ 1 then .warn
      else if a.verbosity = 2 then .debug
      else .trace }

/-- Whether files are to be changed. -/
def modifies (a : Arguments) : Bool := a.modify && !a.dryRun

/-- Where arguments send differences. -/
def diffs (a : Arguments) : Diff.Output :=
  { shown := a.showDiff, saved := a.saveDiff.map .ofString }

end Arguments

namespace Run

/-! ## §2 Making ready -/

/-- What a run works with once everything is ready. -/
structure Ready where
  tree : FileTree
  page : CodePage
  job : Job

/-- Why a run could not be made ready, and the files as they are then. -/
structure Stopped where
  tree : FileTree
  chain : List String

/-- The settings of a run: those found in a file, or the standard ones, with the
marker the arguments give.  A marker that does not fit the block is refused. -/
def settings (a : Arguments) (s : Surroundings) (tree : FileTree) (workspace : Path) :
    Except (List String) Config × List Remark :=
  match Config.find s tree (a.config.map .ofString) workspace a.noConfig with
  | (.error e, remarks) => (.error e.chain, remarks)
  | (.ok config, remarks) =>
    match a.marker with
    | none => (.ok config, remarks)
    | some marker =>
      let config := { config with marker }
      match config.fault? with
      | none => (.ok config, remarks)
      | some f =>
        let context := "The --marker override does not fit the configured block"
        (.error [context, f.message], remarks)

/-- The extensions a run works on. -/
def extensions (a : Arguments) (config : Config) : ExtensionFilter :=
  config.extensions.override a.includeExt a.excludeExt

/-- The job of a run; the file for differences is emptied. -/
def makeJob (a : Arguments) (s : Surroundings) (tree : FileTree) (workspace : Path)
    (config : Config) (page : CodePage) : Except Stopped Ready :=
  match a.diffs.prepare tree s.cwd with
  | .error e => .error ⟨tree, e.chain⟩
  | .ok tree =>
    match Filter.standard a.ignore (config.excludePaths ++ a.excludePath) (extensions a config) with
    | .error e => .error ⟨tree, e.chain⟩
    | .ok filter =>
      let job : Job :=
        { workspace, inserter := config.inserter, filter, modifies := a.modifies
          diffs := a.diffs }
      .ok { tree, page, job }

/-- Make everything ready. -/
def prepare (a : Arguments) (s : Surroundings) (tree : FileTree) :
    Except Stopped Ready × List Remark :=
  let workspace := Selection.workspaceRoot s tree a.patterns
  let opening := Remark.diagnostic .debug s!"Using workspace root: {workspace}"
  match settings a s tree workspace with
  | (.error chain, remarks) => (.error ⟨tree, chain⟩, opening :: remarks)
  | (.ok config, remarks) =>
    match (CodePage.register none (some config.legacyCodePage)).1 with
    | .error e =>
      let context := s!"Failed to set up legacy code page '{config.legacyCodePage}'"
      (.error ⟨tree, [context, e.message]⟩, opening :: remarks)
    | .ok page =>
      let pageRemark :=
        Remark.diagnostic .debug s!"Legacy code page support initialized: {page.name}"
      let filterRemarks :=
        if (extensions a config).isActive then
          [Remark.diagnostic .debug "Extension filtering is active"]
        else []
      (makeJob a s tree workspace config page, opening :: remarks ++ pageRemark :: filterRemarks)

/-! ## §3 Giving an account -/

/-- What is told after a batch. -/
def account (console : Console) (ready : Ready) (batch : Job.Batch) (summary : Summary) :
    List Line :=
  let marker := String.ofList ready.job.inserter.marker
  let categories := Categories.ofReports batch.reports
  let files :=
    if ready.job.modifies then console.inserted categories.inserted marker
    else console.missing categories.missing marker
  let allPresent :=
    if !batch.hasIssues && categories.inserted.isEmpty then console.allPresent marker else []
  let hint :=
    if !ready.job.modifies && !categories.missing.isEmpty then
      console.blank ++ console.note "Run with --modify to insert the missing blocks."
    else []
  console.blank ++ console.details ready.page categories ++ files ++
    console.failed categories.failed ++ allPresent ++ console.blank ++ console.summary summary ++
    hint

/-- Write a report, if one was asked for.  Failure is told and changes nothing
else. -/
def writeReport (console : Console) (s : Surroundings) (page : CodePage) (clock : Clock)
    (reports : List FileReport) (summary : Summary) (format : Report.Format)
    (target : Option String) (tree : FileTree) : FileTree × List Line :=
  match target with
  | none => (tree, [])
  | some text =>
    let path := Path.ofString text
    let rendered := Report.render format page reports summary clock.now
    match Report.write tree s.cwd path rendered with
    | .ok tree => (tree, console.note s!"Generated {format.name} report at {path}")
    | .error e =>
      let causes := ": ".intercalate e.chain
      (tree, Console.complain [s!"Error generating {format.name} report: {causes}"])

/-! ## §4 The run -/

/-- Tell what came of a batch, and write the reports. -/
def conclude (a : Arguments) (console : Console) (s : Surroundings) (clock : Clock)
    (ready : Ready) (batch : Job.Batch) : Outcome :=
  let summary := Summary.ofReports batch.reports clock.nanoseconds (some clock.timestamp)
  let write := writeReport console s ready.page clock batch.reports summary
  let (tree, jsonLines) := write .json a.reportJson batch.tree
  let (tree, csvLines) := write .csv a.reportCsv tree
  { tree
    lines := account console ready batch summary ++ jsonLines ++ csvLines
    exitCode := if batch.hasIssues then 1 else 0 }

/-- Select the files and work on them. -/
def carryOut (a : Arguments) (console : Console) (s : Surroundings) (clock : Clock)
    (ready : Ready) : Outcome :=
  match Selection.select s ready.tree a.patterns with
  | .error (e, remarks) => .failed ready.tree (console.remarks remarks) e.chain
  | .ok found =>
    let started :=
      console.remarks found.remarks ++ console.started found.paths.length ready.job.modifies
    if found.paths.isEmpty then
      { tree := ready.tree
        lines := started ++ console.blank ++
          console.allPresent (String.ofList ready.job.inserter.marker)
        exitCode := 0 }
    else
      let batch := ready.job.run ready.page s ready.tree found.paths
      let told := started ++ console.remarks batch.remarks
      match batch.error with
      | some e => .failed batch.tree told e.chain
      | none =>
        let outcome := conclude a console s clock ready batch
        { outcome with lines := told ++ outcome.lines }

end Run

/-- Run the program. -/
def run (a : Arguments) (console : Console) (s : Surroundings) (clock : Clock) (tree : FileTree) :
    Outcome :=
  match Run.prepare a s tree with
  | (.error stopped, remarks) =>
    .failed stopped.tree (console.remarks remarks) stopped.chain
  | (.ok ready, remarks) =>
    let outcome := Run.carryOut a console s clock ready
    { outcome with lines := console.remarks remarks ++ outcome.lines }

end MarkerBlock
