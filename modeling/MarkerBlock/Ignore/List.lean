/-
MarkerBlock.Ignore.List — which paths are left alone.

An ignore list has two parts: globs given for the run, and rules loaded from
ignore files.  A path is ignored if a glob matches it as it is, or if the rule
that decides about it, relative to the directory the rules were loaded for, is
not one that keeps it.

`load` reads the ignore files of a directory and of those above it, up to the
workspace root, outermost first, after the one file that holds for every
workspace.  A directory outside the workspace is its own root.
-/
import MarkerBlock.Encoding.Utf8
import MarkerBlock.Glob.Limits
import MarkerBlock.Ignore.Rule
import MarkerBlock.Selection

namespace MarkerBlock

/-- Rules, and the directory they were loaded for. -/
structure Ignore.Loaded where
  root : Path
  rules : List Ignore.Rule
deriving Repr

/-- What is left alone. -/
structure IgnoreList where
  globs : List Glob
  loaded : Option Ignore.Loaded := none
deriving Repr

namespace Ignore

/-! ## §1 Errors -/

/-- Why an ignore list could not be made or loaded. -/
inductive Error where
  | badPattern (pattern : String) (e : Glob.Error)
  | unreadable (file : Path) (e : FileError)
  | badLine (line : List Char) (file : Path) (e : Glob.Error)
  /-- The globs of the run cannot be carried out. -/
  | badGlobs (fault : Glob.ListFault)
  /-- The globs of the rules cannot be carried out. -/
  | badRules (fault : Glob.ListFault)
deriving Repr

/-- Wording: what was tried, and the cause. -/
def Error.chain : Error → List String
  | .badPattern pattern e => [s!"Invalid glob pattern: {pattern}", e.message]
  | .unreadable file e => [s!"Failed to read ignore file: {file}", e.message]
  | .badLine line file e => [s!"Invalid pattern '{String.ofList line}' in {file}", e.message]
  | .badGlobs fault => ["Failed to build glob set", fault.message]
  | .badRules fault => ["Failed to build ignore matcher", fault.message]

/-! ## §2 Globs of the run -/

/-- How the globs of a run are read: stars cross slashes, brackets must close. -/
def globOptions : Glob.Options := { literalSlash := false, unclosedClass := false }

/-- The globs one pattern stands for.  A name, with or without a slash at its
end, means the entry and everything below it, at any depth; a pattern with
wildcards means what it says, at any depth. -/
def expand (pattern : List Char) : List (List Char) :=
  let pattern := pattern.map fun c => if c = '\x5c' then '/' else c
  let anywhere := ['*', '*', '/']
  let below := ['/', '*', '*']
  let entry (name : List Char) := [name, name ++ below, anywhere ++ name, anywhere ++ name ++ below]
  if pattern.getLast? = some '/' then entry pattern.dropLast
  else if !pattern.any ['*', '?', '['].contains then entry pattern
  else if anywhere.isPrefixOf pattern then [pattern]
  else [pattern, anywhere ++ pattern]

/-- The globs of one pattern. -/
def globsOf (pattern : String) : Except Error (List Glob) :=
  (expand pattern.toList).mapM fun text =>
    match Glob.parse globOptions text with
    | .ok glob => .ok glob
    | .error e => .error (.badPattern pattern e)

end Ignore

namespace IgnoreList

open Ignore

/-- An ignore list from the patterns of a run. -/
def ofPatterns (patterns : List String) : Except Error IgnoreList :=
  match patterns.mapM globsOf with
  | .error e => .error e
  | .ok globs =>
    match Glob.fault? globs.flatten with
    | some fault => .error (.badGlobs fault)
    | none => .ok { globs := globs.flatten }

/-! ## §3 Ignore files -/

/-- The name of an ignore file. -/
def fileName : String := ".crtdebugignore"

/-- The environment variable that names the ignore file for every workspace. -/
def variableName : String := "CRTDEBUG_GLOBAL_IGNORE"

/-- A line that holds no rule: blank, or a comment. -/
def isIdle (line : List Char) : Bool :=
  match Text.trim line with
  | [] => true
  | c :: _ => c == '#'

/-- The rule in a line of `file`, if it holds one. -/
def ruleOf? (file : Path) (line : List Char) : Except Error (Option Rule) :=
  if isIdle line then .ok none
  else
    match Rule.ofLine? line with
    | .ok rule => .ok rule
    | .error e => .error (.badLine line file e)

/-- The rules in the lines of `file`. -/
def rulesOf (file : Path) (lines : List (List Char)) : Except Error (List Rule) :=
  match lines.mapM (ruleOf? file) with
  | .ok rules => .ok (rules.filterMap id)
  | .error e => .error e

/-- A file as text. -/
def readText (tree : FileTree) (cwd : Place) (p : Path) : Except FileError (List Char) :=
  match tree.read cwd p with
  | .error e => .error e
  | .ok octets =>
    match Encoding.Utf8.decode octets with
    | .ok text => .ok text
    | .error _ => .error .notUtf8

/-- The rules of an ignore file. -/
def readRules (tree : FileTree) (cwd : Place) (file : Path) : Except Error (List Rule) :=
  match readText tree cwd file with
  | .ok text => rulesOf file (Text.lines text)
  | .error e => .error (.unreadable file e)

/-- The directories whose ignore files hold for `directory`: those from it up to
`root`, outermost first. -/
def chain (directory root : Path) : List Path :=
  let above := directory.ancestors
  let below := above.takeWhile (!·.same root)
  (above.take (below.length + 1)).reverse

/-- The ignore files that exist for a directory, outermost first. -/
def ignoreFiles (tree : FileTree) (cwd : Place) (directory root : Path) : List Path :=
  ((chain directory root).map (·.join (.ofString fileName))).filter (tree.isFile cwd)

/-- Read several ignore files.  What is said about them is returned in any case. -/
def readAll (tree : FileTree) (cwd : Place) (say : Path → Remark) :
    List Path → Except Error (List Rule) × List Remark
  | [] => (.ok [], [])
  | file :: rest =>
    match readRules tree cwd file with
    | .error e => (.error e, [say file])
    | .ok rules =>
      match readAll tree cwd say rest with
      | (.ok more, remarks) => (.ok (rules ++ more), say file :: remarks)
      | (.error e, remarks) => (.error e, say file :: remarks)

/-- The directory the rules for `directory` refer to. -/
def rootFor (directory workspace : Path) : Path :=
  if directory.startsWith workspace then workspace else directory

/-- The rules of the ignore file that holds for every workspace. -/
def globalRules (s : Surroundings) (tree : FileTree) : Except Error (List Rule) × List Remark :=
  match s.ignoreVariable with
  | none => (.ok [], [])
  | some text =>
    let file := Path.ofString text
    if tree.isPresent s.cwd file then
      readAll tree s.cwd (fun file => .detail s!"Loading global ignore file: {file}") [file]
    else (.ok [], [.detail s!"Global ignore file not found: {file}"])

/-- Load the rules that hold in `directory`, in the place of those loaded before. -/
def load (s : Surroundings) (tree : FileTree) (list : IgnoreList) (directory workspace : Path) :
    Except Error IgnoreList × List Remark :=
  let root := rootFor directory workspace
  match globalRules s tree with
  | (.error e, remarks) => (.error e, remarks)
  | (.ok outer, remarks) =>
    match readAll tree s.cwd (fun file => .detail s!"Loading {fileName} file: {file}")
        (ignoreFiles tree s.cwd directory root) with
    | (.error e, more) => (.error e, remarks ++ more)
    | (.ok inner, more) =>
      let rules := outer ++ inner
      match Glob.fault? (rules.map (·.glob)) with
      | some fault => (.error (.badRules fault), remarks ++ more)
      | none => (.ok { list with loaded := some { root, rules } }, remarks ++ more)

/-! ## §4 Deciding -/

/-- What a path is ignored by: a glob, or a rule that saw it in full form. -/
inductive Cause where
  | glob
  | rule (full : Path)
deriving Repr, DecidableEq

/-- A path below the rules' root, as the rules see it.  Where the root is itself
a relative path, its text is taken off once more. -/
def underRoot (root relative : Path) : Path :=
  let rootText := if ['.', '/'].isPrefixOf root.text then root.text.drop 2 else root.text
  if !(Path.same ⟨rootText⟩ ⟨['.']⟩) && relative.text.contains '/'
      && rootText.isPrefixOf relative.text then
    let rest := relative.text.drop rootText.length
    if rest.head? = some '/' then ⟨rest.drop 1⟩ else ⟨rest⟩
  else relative

/-- The full form of a path, seen from the rules' root. -/
def fullPath (loaded : Loaded) (p : Path) : Path :=
  if p.isAbsolute then p else loaded.root.join p

/-- Whether the loaded rules ignore a path. -/
def Loaded.ignores (loaded : Loaded) (p : Path) : Bool :=
  match (fullPath loaded p).stripPrefix? loaded.root with
  | none => false
  | some relative =>
    match decidingRule? loaded.rules (underRoot loaded.root relative) with
    | some rule => !rule.keeps
    | none => false

/-- Why a path is ignored, if it is. -/
def cause? (list : IgnoreList) (p : Path) : Option Cause :=
  if list.globs.any (·.accepts p.text) then some .glob
  else
    match list.loaded with
    | some loaded => if Loaded.ignores loaded p then some (.rule (fullPath loaded p)) else none
    | none => none

/-- Whether a path is ignored. -/
def ignores (list : IgnoreList) (p : Path) : Bool := (list.cause? p).isSome

end IgnoreList

end MarkerBlock
