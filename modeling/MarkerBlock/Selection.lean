/-
MarkerBlock.Selection — the files a command line names.

* `walk` lists everything below a directory that is not a directory.  Links are
  listed, not followed, except that the directory itself may be one.
* `select` takes patterns one after another: a directory stands for all files
  below it, anything else that exists for itself, and the rest is read as a
  wildcard pattern.  The result is absolute, sorted by components, and names no
  path twice.
* `workspaceRoot` is the directory to which filters and ignore files refer.
-/
import MarkerBlock.Remark
import MarkerBlock.Wildcard.Expansion

namespace MarkerBlock

/-! ## §1 Surroundings -/

/-- What a run finds outside the file tree: the current directory, and the paths
given by environment variables. -/
structure Surroundings where
  cwd : Place
  configVariable : Option String := none
  ignoreVariable : Option String := none
deriving Repr

/-- The current directory as a path. -/
def Surroundings.directory (s : Surroundings) : Path := s.cwd.path

namespace Selection

/-! ## §2 Walking a directory -/

mutual

/-- Everything at or below a path, under which there is `node`, that is not a
directory, and the directories that could not be looked into. -/
def walkNode (p : Path) : Node → List (Except PathError Path)
  | .directory entries =>
    match FileTree.textFault? p with
    | some e => [.error ⟨p, e⟩]
    | none => walkEntries p entries
  | _ => [.ok p]

/-- The same for what a directory holds. -/
def walkEntries (p : Path) : List (List Char × Node) → List (Except PathError Path)
  | [] => []
  | (name, node) :: rest => walkNode (p.join ⟨name⟩) node ++ walkEntries p rest

end

/-- Everything at or below a path that is not a directory, and what could not be
looked into.  A link to a directory is listed before what lies behind it. -/
def walk (tree : FileTree) (cwd : Place) (p : Path) : List (Except PathError Path) :=
  match tree.statLink cwd p, tree.stat cwd p with
  | .ok (.link _), .ok (.directory entries) => .ok p :: walkEntries p entries
  | .ok (.link _), .error e => [.error ⟨p, e⟩]
  | .ok (.link _), .ok _ => [.ok p]
  | .ok node, _ => walkNode p node
  | .error e, _ => [.error ⟨p, e⟩]

/-- What a walk found. -/
def pathsOf (walked : List (Except PathError Path)) : List Path :=
  walked.filterMap Except.toOption

/-- What is said about something that could not be looked into. -/
def walkWarning? : Except PathError Path → Option Remark
  | .ok _ => none
  | .error e =>
    let operation := s!"IO error for operation on {e.path}: {e.error.message}"
    some (.diagnostic .warn s!"Error reading directory entry: {operation}")

/-- What is said about walking a directory. -/
def walkRemarks (directory : Path) (walked : List (Except PathError Path)) : List Remark :=
  let count := (pathsOf walked).length
  .diagnostic .debug s!"Scanning directory: {directory}" :: walked.filterMap walkWarning? ++
    [.diagnostic .debug s!"Found {count} files in 0ms"]

/-- The files at or below a path. -/
def filesBelow (tree : FileTree) (cwd : Place) (p : Path) : List Path :=
  pathsOf (walk tree cwd p)

/-! ## §3 Patterns -/

/-- A pattern that cannot be read. -/
structure Error where
  pattern : String
  error : Wildcard.Error
deriving Repr

/-- Wording of the error: what was tried, and the cause. -/
def Error.chain (e : Error) : List String :=
  [s!"Invalid glob pattern: {e.pattern}", e.error.message]

/-- Paths found, and what was said on the way. -/
structure Found where
  paths : List Path := []
  remarks : List Remark := []

/-- First one find, then another. -/
def Found.append (a b : Found) : Found :=
  { paths := a.paths ++ b.paths, remarks := a.remarks ++ b.remarks }

/-- What a path found by a pattern stands for: a directory for the files below
it, anything else for itself. -/
def ofMatch (tree : FileTree) (cwd : Place) (p : Path) : Found :=
  if tree.isDirectory cwd p then
    let walked := walk tree cwd p
    { paths := pathsOf walked, remarks := walkRemarks p walked }
  else { paths := [p] }

/-- What is said about a directory that a pattern leads into and that could not be
looked into. -/
def patternWarning (pattern : String) (e : PathError) : Remark :=
  let attempt :=
    s!"attempting to read \x60{e.path}\x60 resulted in an error: {e.error.message}"
  .diagnostic .warn s!"Error with glob pattern {pattern}: {attempt}"

/-- What one pattern of the command line stands for, as written. -/
def ofPattern (tree : FileTree) (cwd : Place) (pattern : String) : Except Error Found :=
  let p := Path.ofString pattern
  if tree.isDirectory cwd p || (tree.statLink cwd p).isOk then .ok (ofMatch tree cwd p)
  else
    match Wildcard.Pattern.parse p.text with
    | .error e => .error ⟨pattern, e⟩
    | .ok wildcard =>
      let add (found : Found) (m : Except PathError Path) : Found :=
        match m with
        | .ok p => found.append (ofMatch tree cwd p)
        | .error e => found.append { remarks := [patternWarning pattern e] }
      let found := (wildcard.expand tree cwd).foldl add {}
      if found.paths.isEmpty then
        .ok (found.append { remarks := [.diagnostic .warn s!"No files matched: {pattern}"] })
      else .ok found

/-- What all patterns stand for, in their order; with an error comes what was
said before it. -/
def ofPatterns (tree : FileTree) (cwd : Place) (found : Found) :
    List String → Except (Error × List Remark) Found
  | [] => .ok found
  | pattern :: rest =>
    match ofPattern tree cwd pattern with
    | .error e => .error (e, found.remarks)
    | .ok more => ofPatterns tree cwd (found.append more) rest

/-! ## §4 The list of files -/

/-- A path beside its components, by which it is sorted. -/
abbrev Keyed := List Path.Component × Path

/-- Drop every path that has the same components as the one before it. -/
def dropRepeats : List Keyed → List Keyed
  | [] => []
  | p :: rest =>
    match dropRepeats rest with
    | [] => [p]
    | q :: kept => if p.1 == q.1 then p :: kept else p :: q :: kept

/-- Sort by components and name no path twice. -/
def sorted (paths : List Path) : List Path :=
  let keyed := paths.map fun p => (p.components, p)
  let inOrder := keyed.mergeSort fun p q => Path.compareComponents p.1 q.1 != .gt
  (dropRepeats inOrder).map Prod.snd

/-- The files that patterns name. -/
def select (s : Surroundings) (tree : FileTree) (patterns : List String) :
    Except (Error × List Remark) Found :=
  match ofPatterns tree s.cwd {} patterns with
  | .error e => .error e
  | .ok found =>
    .ok { found with paths := sorted (found.paths.map (·.absoluteFrom s.directory)) }

/-! ## §5 The workspace -/

/-- The directory one pattern chooses: itself if it is a directory, its parent
if it is a file. -/
def workspaceOf? (s : Surroundings) (tree : FileTree) (pattern : String) : Option Path :=
  let p := Path.ofString pattern
  if tree.isDirectory s.cwd p then some (p.absoluteFrom s.directory)
  else if tree.isFile s.cwd p then
    match p.parent? with
    | none => some s.directory
    | some parent =>
      if parent.text.isEmpty then some s.directory else some (parent.absoluteFrom s.directory)
  else none

/-- The directory the first pattern that exists chooses, or the current one. -/
def workspaceRoot (s : Surroundings) (tree : FileTree) (patterns : List String) : Path :=
  (patterns.findSome? (workspaceOf? s tree)).getD s.directory

end Selection

end MarkerBlock
