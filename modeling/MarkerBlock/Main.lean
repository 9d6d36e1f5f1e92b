/-
MarkerBlock.Main — the program.

A run is a function on values.  What stands here takes the part of the file
system that the run can look at into a tree (§1, §2), finds out the rest of what
it needs (§3), and carries out what came of it (§4).

Files are taken in two steps: first where they are, then, for those that the
patterns name and those that control the run, what they hold.  No other file is
opened.
-/
import MarkerBlock.CommandLine.Run
import MarkerBlock.CommandLine.Usage
import Std.Time.Zoned

namespace MarkerBlock.Program

/-! ## §1 Taking places into the tree -/

/-- What was taken. -/
structure Taken where
  tree : FileTree := .empty
  /-- The directories everything below which was taken, and whether that includes
  what lies behind links. -/
  below : List (Place × Bool) := []

/-- An action that takes part of the file system into a tree. -/
abbrev Survey := StateT Taken IO

/-- The place a path denotes, all links followed. -/
def realPlace? (path : Path) : IO (Option Place) := do
  match ← (IO.FS.realPath (toString path)).toBaseIO with
  | .ok real =>
    return some ((Text.split '/' (toString real).toList).filter fun name => !name.isEmpty)
  | .error _ => return none

/-- A place as an entry of the directory it is in. -/
def entryAt (place : Place) : IO.FS.DirEntry :=
  { root := toString (Place.path place.dropLast)
    fileName := String.ofList (place.getLast?.getD []) }

/-- What is at a place.  A file is taken to be empty at first.  A link leads to
the real place behind it, or to a missing entry beside it. -/
def nodeAt? (place : Place) : IO (Option Node) := do
  match ← (entryAt place).path.symlinkMetadata.toBaseIO with
  | .error _ => return none
  | .ok metadata =>
    match metadata.type with
    | .dir => return some (.directory [])
    | .file => return some (.file [])
    | .symlink =>
      match ← realPlace? place.path with
      | some real => return some (.link real.path)
      | none => return some (.link ⟨(place.getLast?.getD []) ++ ".missing".toList⟩)
    | .other => return none

/-- Take what is at a place into the tree, unless it is there already. -/
def take (place : Place) : Survey (Option Node) := do
  match (← get).tree.node? place with
  | some node => return some node
  | none =>
    let node? ← nodeAt? place
    if let some node := node? then
      modify fun taken => { taken with tree := taken.tree.set place node }
    return node?

/-- The files that control a run in the directory they lie in. -/
def controlNames : List (List Char) := [Config.fileName.toList, IgnoreList.fileName.toList]

/-- Walk along segments from a place, take everything on the way into the tree,
with the files that control a run, and tell where the way ends. -/
partial def trace (place : Place) : List (List Char) → Survey Place
  | [] => return place
  | segment :: rest => do
    if Path.isBlank segment then trace place rest
    else if segment == ['.', '.'] then trace place.dropLast rest
    else
      let next := place ++ [segment]
      match ← take next with
      | some (.directory _) =>
        for name in controlNames do
          if let some (.link target) ← take (next ++ [name]) then
            let _ ← trace [] target.segments
        trace next rest
      | some (.link target) =>
        trace (if target.isAbsolute then [] else place) (target.segments ++ rest)
      | _ => return next

/-- Take everything a path passes into the tree, and tell where it ends. -/
def tracePath (cwd : Place) (path : Path) : Survey Place :=
  trace (if path.isAbsolute then [] else cwd) path.segments

/-- Take everything at and below a place into the tree.  Where a link leads to is
taken as well; what lies below it only if `through` is set. -/
partial def takeBelow (through : Bool) (place : Place) : Survey Unit := do
  match ← take place with
  | some (.directory _) =>
    if !(← get).below.contains (place, through) then
      modify fun taken => { taken with below := (place, through) :: taken.below }
      for entry in ← (entryAt place).path.readDir do
        takeBelow through (place ++ [entry.fileName.toList])
  | some (.link target) =>
    let goal ← tracePath place.dropLast target
    if through then takeBelow through goal
  | _ => return

/-! ## §2 What a run can look at -/

/-- The paths of single files a run looks at. -/
def controlPaths (a : Arguments) (s : Surroundings) : List Path :=
  [a.config, a.saveDiff, a.reportJson, a.reportCsv, s.configVariable,
    s.ignoreVariable].filterMap fun text => text.map Path.ofString

/-- Whether a segment of a pattern may stand for several names. -/
def isWild (segment : List Char) : Bool := segment.any ['*', '?', '['].contains

/-- Take what a pattern may name into the tree. -/
def takePattern (cwd : Place) (pattern : String) : Survey Unit := do
  let path := Path.ofString pattern
  let fixed := path.segments.takeWhile fun segment => !isWild segment
  let start ← trace (if path.isAbsolute then [] else cwd) fixed
  takeBelow (fixed.length < path.segments.length) start

/-- Take where everything is that a run can look at into the tree. -/
def takeAll (a : Arguments) (s : Surroundings) : Survey Unit := do
  let _ ← tracePath [] s.directory
  for path in controlPaths a s do
    let _ ← tracePath s.cwd path
  for pattern in a.patterns do
    takePattern s.cwd pattern

/-- Take the contents of the files a run may read into the tree.  A file that
cannot be read is taken to be missing. -/
def readAll (a : Arguments) (s : Surroundings) (tree : FileTree) : IO FileTree := do
  let selected := match Selection.select s tree a.patterns with
    | .ok found => found.paths
    | .error _ => []
  let wanted := (controlPaths a s ++ selected).filterMap fun path =>
    (tree.find s.cwd .see path).toOption.map Prod.fst
  let linked := tree.nodes.filterMap fun (place, _) =>
    if controlNames.contains (place.getLast?.getD []) then
      (tree.find [] .see place.path).toOption.map Prod.fst
    else none
  let mut tree := tree
  for place in wanted ++ linked do
    if let some (.file _) := tree.node? place then
      match ← (IO.FS.readBinFile (toString place.path)).toBaseIO with
      | .ok octets => tree := tree.set place (.file octets.toList)
      | .error _ => tree := tree.erase place
  return tree

/-! ## §3 Surroundings -/

/-- What a run finds outside the file tree. -/
def surroundings : IO Surroundings := do
  let here ← realPlace? (.ofString (toString (← IO.currentDir)))
  return { cwd := here.getD []
           configVariable := ← IO.getEnv Config.variableName
           ignoreVariable := ← IO.getEnv IgnoreList.variableName }

/-- Two digits of a number. -/
def twoDigits (n : Nat) : String := toString (n / 10 % 10) ++ toString (n % 10)

/-- The clock as it stands, before anything has taken time. -/
def clock : IO Clock := do
  let now ← Std.Time.DateTime.now
  let date := "-".intercalate
    [toString now.year.toInt, twoDigits now.month.toNat, twoDigits now.day.toNat]
  let time := ":".intercalate
    [twoDigits now.hour.toNat, twoDigits now.minute.toNat, twoDigits now.second.toNat]
  return { now := s!"{date} {time}", timestamp := now.toTimestamp.toSecondsSinceUnixEpoch.val }

/-! ## §4 Carrying out -/

/-- Print lines, each on its stream. -/
def print (lines : List Line) : IO Unit := do
  for line in lines do
    match line.stream with
    | .out => IO.println line.text
    | .err => IO.eprintln line.text

/-- Whether a place holds a file with other octets than these, or none. -/
def differs (tree : FileTree) (place : Place) (octets : List UInt8) : Bool :=
  match tree.node? place with
  | some (.file before) => before != octets
  | _ => true

/-- Write the files that a run changed. -/
def writeChanges (before after : FileTree) : IO Unit := do
  for (place, node) in after.nodes do
    if let .file octets := node then
      if differs before place octets then
        IO.FS.writeBinFile (toString place.path) ⟨octets.toArray⟩

/-- Carry out a run. -/
def carryOut (a : Arguments) : IO UInt32 := do
  let s ← surroundings
  let console := a.console (← (← IO.getStdout).isTty) (← (← IO.getStderr).isTty)
  let clock ← clock
  let started ← IO.monoNanosNow
  let (_, taken) ← (takeAll a s).run {}
  let tree ← readAll a s taken.tree
  let nanoseconds := (← IO.monoNanosNow) - started
  let outcome := MarkerBlock.run a console s { clock with nanoseconds } tree
  writeChanges tree outcome.tree
  print outcome.lines
  return outcome.exitCode.toUInt32

end MarkerBlock.Program

/-- Inserts the block into source files that lack it, or tells which do. -/
def main (arguments : List String) : IO UInt32 := do
  match MarkerBlock.Arguments.parse arguments with
  | .ok a => MarkerBlock.Program.carryOut a
  | .error refusal =>
    MarkerBlock.Program.print refusal.lines
    return refusal.exitCode.toUInt32
