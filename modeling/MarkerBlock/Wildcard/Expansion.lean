/-
MarkerBlock.Wildcard.Expansion — the paths of a file tree that a pattern names.

A pattern is taken component by component.  A component without wildcards is
looked up, any other is compared with the names in the directory reached, and
`**` goes down into every directory below, links to directories included.  The
names `.` and `..` are never found by a wildcard, unless the component begins
with a dot.  A slash at the end of the pattern keeps directories only.
-/
import MarkerBlock.FileTree
import MarkerBlock.Wildcard.Pattern

namespace MarkerBlock.Wildcard

/-! ## §1 Reading a pattern by components -/

/-- The pieces of a text between slashes; a slash at the end ends a piece. -/
def splitTerminated (text : List Char) : List (List Char) :=
  match Text.split '/' text with
  | [[]] => [[]]
  | pieces => if pieces.getLast? = some [] then pieces.dropLast else pieces

/-- A component of a pattern. -/
structure Component where
  tokens : List Token
deriving Repr

/-- The component `**`. -/
def Component.isRecursive (c : Component) : Bool := c.tokens.contains .anyDirectories

/-- A whole pattern. -/
structure Pattern where
  absolute : Bool
  components : List Component
  directoriesOnly : Bool
deriving Repr

/-- Read a pattern. -/
def Pattern.parse (text : List Char) : Except Error Pattern := do
  let _ ← Wildcard.parse text
  let absolute := text.head? == some '/'
  let pieces := splitTerminated (if absolute then text.drop 1 else text)
  let components ← pieces.mapM fun piece => (Wildcard.parse piece).map Component.mk
  return { absolute, components, directoriesOnly := text.getLast? == some '/' }

/-! ## §2 Walking the tree -/

/-- A path that was found, and whether it is a directory or a link to one. -/
structure Found where
  path : Path
  isDirectory : Bool

/-- The path of an entry of a directory; entries of the current directory go by
their names. -/
def entryPath (directory : Path) (name : List Char) : Path :=
  if directory.same ⟨['.']⟩ then ⟨name⟩ else directory.join ⟨name⟩

/-- Where a pattern is followed: the tree and the current directory. -/
structure Ground where
  tree : FileTree
  cwd : Place
  directoriesOnly : Bool

namespace Ground

/-- What a path leads to. -/
def found (g : Ground) (p : Path) : Found := ⟨p, g.tree.isDirectory g.cwd p⟩

/-- The path itself, if the pattern may end there. -/
def accept (g : Ground) (f : Found) : List (Except PathError Path) :=
  if g.directoriesOnly && !f.isDirectory then [] else [.ok f.path]

/-- The entry `name` of a directory without wildcards, if it exists. -/
def lookUp? (g : Ground) (directory : Found) (name : List Char) : Option Found :=
  let next := entryPath directory.path name
  let isThere :=
    if name = ['.'] || name = ['.', '.'] then directory.isDirectory
    else (g.tree.statLink g.cwd next).isOk
  if isThere then some (g.found next) else none

/-- The entries `..` and `.` of a directory, where a component admits them. -/
def dotEntries (g : Ground) (directory : Path) (c : Component) : List Found :=
  if c.tokens.head? = some (.literal '.') then
    ([['.', '.'], ['.']].filter (matchName c.tokens)).map fun name => g.found (directory.join ⟨name⟩)
  else []

/-- An entry of a directory.  Where its path leads is looked up only if it is a link. -/
def entry (g : Ground) (directory : Path) (name : List Char) (node : Node) : Found :=
  let p := entryPath directory name
  match node with
  | .directory _ => ⟨p, true⟩
  | .file _ => ⟨p, false⟩
  | .link _ => g.found p

/-- The entries of a directory, sorted by name. -/
def entries? (g : Ground) (directory : Path) : Except FileError Entries :=
  (g.tree.entries? g.cwd directory).map fun entries =>
    entries.mergeSort fun a b => Path.compareNames a.1 b.1 != .gt

/-- The paths that `components` name below `directory`: `..` and `.` first, then
entry by entry, a directory before what lies below it.  `fuel` bounds how deep
the walk goes. -/
def follow (g : Ground) : Nat → List Component → Found → List (Except PathError Path)
  | 0, _, _ => []
  | _ + 1, [], _ => []
  | fuel + 1, c :: rest, directory =>
    let go (f : Found) : List (Except PathError Path) :=
      if rest.isEmpty then g.accept f else g.follow fuel rest f
    match literalText? c.tokens with
    | some name => ((g.lookUp? directory name).map go).getD []
    | none =>
      let visit (name : List Char) (node : Node) : List (Except PathError Path) :=
        let f := g.entry directory.path name node
        if c.isRecursive then
          let left := rest.dropWhile Component.isRecursive
          let below := if f.isDirectory then g.follow fuel (c :: left) f else []
          match left with
          | [] => if f.isDirectory then .ok f.path :: below else []
          | next :: more =>
            if matchName next.tokens name then
              (if more.isEmpty then g.accept f else g.follow fuel more f) ++ below
            else below
        else if matchName c.tokens name then go f
        else []
      if !directory.isDirectory then []
      else
        match g.entries? directory.path with
        | .error e => [.error ⟨directory.path, e⟩]
        | .ok entries =>
          (g.dotEntries directory.path c).flatMap go ++
            entries.flatMap fun (name, node) => visit name node

end Ground

/-- Enough steps for any walk: each goes down one component of the pattern or one
level of the tree, and no path passes more links than the tree allows. -/
def stepLimit (tree : FileTree) (pattern : Pattern) : Nat :=
  pattern.components.length + (FileTree.linkLimit + 1) * (tree.nodes.length + 1) + 1

/-- The paths a pattern names, and the directories on the way that could not be
looked into. -/
def Pattern.expand (pattern : Pattern) (tree : FileTree) (cwd : Place) :
    List (Except PathError Path) :=
  let ground : Ground := { tree, cwd, directoriesOnly := pattern.directoriesOnly }
  ground.follow (stepLimit tree pattern) pattern.components
    (ground.found ⟨if pattern.absolute then ['/'] else ['.']⟩)

end MarkerBlock.Wildcard
