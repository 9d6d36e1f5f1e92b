/-
MarkerBlock.Config.Loading — settings in files.

A settings file is a TOML document.  Unknown keys are refused at the top, and
passed over in the tables for extensions and paths, unless they hold a number
that does not fit.  Such a table may also be given as an array of its values in
order.

`discover?` finds the file: the one that was asked for and no other; else the one
an environment variable names; else the one in the workspace.
-/
import MarkerBlock.Config.Basic
import MarkerBlock.Toml.Document

namespace MarkerBlock.Config

/-! ## §1 Reading settings -/

/-- A string. -/
def text? : Toml.Value → Option String
  | .string text => some (String.ofList text)
  | _ => none

/-- An array of strings. -/
def texts? : Toml.Value → Option (List String)
  | .array items => items.mapM text?
  | _ => none

/-- A value as it is read, or `default` if there is none. -/
def readOr {α : Type} (read : Toml.Value → Option α) (default : α) (v : Option Toml.Value) :
    Option α :=
  match v with
  | none => some default
  | some v => read v

/-- The value of a key in a table, in which every number must fit, or the item at a
place in an array; a date has no such values. -/
def part? (v : Toml.Value) (key : String) (place : Nat) : Option (Option Toml.Value) :=
  match v with
  | .table _ members =>
    if Toml.membersFit members then some (Toml.Members.get? members key.toList) else none
  | .array items => some items[place]?
  | .scalar .moment => some none
  | _ => none

/-- A list of strings among the values of a table, or `default` if it is not
given; the table itself may be missing, too. -/
def listIn? (table : Option Toml.Value) (key : String) (place : Nat) (default : List String) :
    Option (List String) :=
  match table with
  | none => some default
  | some v =>
    match part? v key place with
    | some value => readOr texts? default value
    | none => none

/-- The keys of a settings file. -/
def keys : List String := ["marker", "anchor", "block", "legacy-codepage", "extensions", "paths"]

/-- Settings from the members of a document. -/
def ofMembers? (members : Toml.Members) : Option Config :=
  if members.all fun m => keys.contains (String.ofList m.1) then do
    let base : Config := {}
    let at? (key : String) := members.get? key.toList
    let marker ← readOr text? base.marker (at? "marker")
    let anchor ← readOr text? base.anchor (at? "anchor")
    let block ← readOr texts? base.block (at? "block")
    let legacyCodePage ← readOr text? base.legacyCodePage (at? "legacy-codepage")
    let included ← listIn? (at? "extensions") "include" 0 base.included
    let excluded ← listIn? (at? "extensions") "exclude" 1 base.excluded
    let excludePaths ← listIn? (at? "paths") "exclude" 0 base.excludePaths
    return { marker, anchor, block, legacyCodePage
             included, excluded, excludePaths }
  else none

/-- Settings from the text of a file. -/
def parse? (text : List Char) : Option Config := (Toml.parse text).bind ofMembers?

/-! ## §2 Loading -/

/-- Why settings could not be loaded. -/
inductive Error where
  | unreadable (path : Path) (e : FileError)
  | malformed (path : Path)
  | invalid (f : Fault)
deriving Repr, DecidableEq

/-- Wording: what was tried, and the cause if it is another error. -/
def Error.chain : Error → List String
  | .unreadable path e => [s!"Failed to read config file '{path}': {e.message}", e.message]
  | .malformed path => [s!"Failed to parse config file '{path}': not a valid settings file"]
  | .invalid f => [f.message]

/-- Wording of the error alone. -/
def Error.message (e : Error) : String := e.chain.headD ""

/-- What is said when a settings file is loaded. -/
def loadRemark (path : Path) : Remark := .detail s!"Loading config from: {path}"

/-- Load settings from a file. -/
def load (tree : FileTree) (cwd : Place) (path : Path) : Except Error Config :=
  match IgnoreList.readText tree cwd path with
  | .error e => .error (.unreadable path e)
  | .ok text =>
    match parse? text with
    | none => .error (.malformed path)
    | some c =>
      match c.fault? with
      | some f => .error (.invalid f)
      | none => .ok c.normalize

/-! ## §3 Finding the file -/

/-- The name of a settings file. -/
def fileName : String := ".crtdebug.toml"

/-- The environment variable that names a settings file. -/
def variableName : String := "CRTDEBUG_CONFIG"

/-- The settings file of a workspace, if there is one, and what is said. -/
def inWorkspace? (s : Surroundings) (tree : FileTree) (workspace : Path) :
    Option Path × List Remark :=
  let path := workspace.join (.ofString fileName)
  if tree.isPresent s.cwd path then (some path, [.detail s!"Using workspace config: {path}"])
  else (none, [.detail "No config file found"])

/-- The settings file of a run, if there is one, and what is said. -/
def discover? (s : Surroundings) (tree : FileTree) (explicit : Option Path) (workspace : Path) :
    Option Path × List Remark :=
  match explicit, s.configVariable with
  | some path, _ =>
    if tree.isPresent s.cwd path then (some path, [.detail s!"Using explicit config path: {path}"])
    else (none, [.detail s!"Explicit config path does not exist: {path}"])
  | none, some text =>
    let path := Path.ofString text
    if tree.isPresent s.cwd path then
      (some path, [.detail s!"Using config from {variableName}: {path}"])
    else
      let (found, remarks) := inWorkspace? s tree workspace
      (found, .detail s!"{variableName} path does not exist: {text}" :: remarks)
  | none, none => inWorkspace? s tree workspace

/-- Settings of a run could not be loaded from the file that was found. -/
structure LoadError where
  path : Path
  error : Error
deriving Repr

/-- Wording: what was tried, and the causes. -/
def LoadError.chain (e : LoadError) : List String :=
  s!"Failed to load config from {e.path}" :: e.error.chain

/-- The settings of a run: those of the file that is found, or else the standard
ones. -/
def find (s : Surroundings) (tree : FileTree) (explicit : Option Path) (workspace : Path)
    (disabled : Bool) : Except LoadError Config × List Remark :=
  if disabled then (.ok {}, [.detail "Config file discovery disabled (--no-config)"])
  else
    match discover? s tree explicit workspace with
    | (none, remarks) => (.ok {}, remarks)
    | (some path, remarks) =>
      let remarks := remarks ++ [loadRemark path]
      match load tree s.cwd path with
      | .ok c => (.ok c, remarks)
      | .error e => (.error ⟨path, e⟩, remarks)

end MarkerBlock.Config
