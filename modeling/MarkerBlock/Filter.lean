/-
MarkerBlock.Filter — which files are worked on.

A filter judges a path: it lets the file through or skips it for a reason.

* An `ignoring` filter skips what an ignore list ignores.
* An `extensions` filter skips excluded extensions, and all but the included
  ones if any are included.  Letter case and leading dots do not count.
* A `fragments` filter skips paths that contain one of some texts, without
  regard to letter case; a path is read with slashes only and one in front.
* An `all` filter asks its parts in order; the first that skips decides.
-/
import MarkerBlock.Ignore.List
import MarkerBlock.Text.LowerCase

namespace MarkerBlock

/-! ## §1 Reasons -/

/-- Why a file is skipped. -/
inductive SkipReason where
  | ignored (cause : IgnoreList.Cause)
  | extensionExcluded (extension : List Char)
  | extensionNotIncluded (extension : List Char)
  | pathContains (fragment : List Char)
  | symlink
  | unstatable (e : FileError)
deriving Repr, DecidableEq

/-- Wording of a reason. -/
def SkipReason.message : SkipReason → String
  | .ignored _ => "Matches ignore pattern"
  | .extensionExcluded e => s!"Extension '{String.ofList e}' is excluded"
  | .extensionNotIncluded e => s!"Extension '{String.ofList e}' is not included"
  | .pathContains f => s!"Path contains '{String.ofList f}'"
  | .symlink => "Symlink"
  | .unstatable e => s!"Cannot stat file: {e.message}"

/-- What is said about a path that a filter skips. -/
def SkipReason.remarks (p : Path) : SkipReason → List Remark
  | .ignored .glob => [.detail s!"Skipping: {p} (matches CLI ignore pattern)"]
  | .ignored (.rule full) =>
    [.detail s!"Skipping: {full} (matches {IgnoreList.fileName} pattern)"]
  | .extensionExcluded e =>
    [.detail s!"Skipping: {p} (extension '{String.ofList e}' is excluded)"]
  | .extensionNotIncluded e =>
    [.detail s!"Skipping: {p} (extension '{String.ofList e}' is not included)"]
  | .pathContains f => [.detail s!"Skipping: {p} (path contains '{String.ofList f}')"]
  | .symlink | .unstatable _ => []

/-! ## §2 Extensions -/

/-- Which extensions are worked on. -/
structure ExtensionFilter where
  included : List (List Char)
  excluded : List (List Char)
deriving Repr, DecidableEq

namespace ExtensionFilter

/-- An extension without leading dots, in lower case. -/
def normalize (extension : List Char) : List Char :=
  Text.LowerCase.convert (extension.dropWhile (· == '.'))

/-- The extensions of a list that are not empty. -/
def normalizeAll (extensions : List String) : List (List Char) :=
  (extensions.map fun e => normalize e.toList).filter (!·.isEmpty)

/-- A filter from lists as they are written. -/
def ofLists (included excluded : List String) : ExtensionFilter :=
  { included := normalizeAll included, excluded := normalizeAll excluded }

/-- Further lists on top of a filter: an included list that is not empty takes
the place of the old one, excluded extensions are added. -/
def override (f : ExtensionFilter) (included excluded : List String) : ExtensionFilter :=
  { included := if included.isEmpty then f.included else normalizeAll included
    excluded := f.excluded ++ normalizeAll excluded }

/-- Whether the filter can skip anything. -/
def isActive (f : ExtensionFilter) : Bool := !f.included.isEmpty || !f.excluded.isEmpty

/-- The extension of a path as it is compared; empty if there is none. -/
def extensionOf (p : Path) : List Char := Text.LowerCase.convert (p.extension?.getD [])

/-- Why the filter skips a path, if it does. -/
def judge (f : ExtensionFilter) (p : Path) : Option SkipReason :=
  let extension := extensionOf p
  if f.excluded.contains extension then some (.extensionExcluded extension)
  else if !f.included.isEmpty && !f.included.contains extension then
    some (.extensionNotIncluded extension)
  else none

end ExtensionFilter

/-! ## §3 Fragments -/

/-- Texts that exclude a path. -/
structure FragmentFilter where
  fragments : List (List Char)
deriving Repr, DecidableEq

namespace FragmentFilter

/-- Text with slashes for backslashes, in lower case. -/
def fold (text : List Char) : List Char :=
  Text.LowerCase.convert (text.map fun c => if c = '\x5c' then '/' else c)

/-- A filter from texts as they are written; empty ones do not count. -/
def ofTexts (texts : List String) : FragmentFilter :=
  ⟨(texts.map fun t => fold t.toList).filter (!·.isEmpty)⟩

/-- A path as it is searched: folded, with one slash in front. -/
def haystack (p : Path) : List Char := '/' :: (fold p.text).dropWhile (· == '/')

/-- Why the filter skips a path, if it does. -/
def judge (f : FragmentFilter) (p : Path) : Option SkipReason :=
  let text := haystack p
  (f.fragments.find? (Text.occursIn · text)).map .pathContains

end FragmentFilter

/-! ## §4 Filters -/

/-- A filter. -/
inductive Filter where
  | ignoring (list : IgnoreList)
  | extensions (f : ExtensionFilter)
  | fragments (f : FragmentFilter)
  | all (parts : List Filter)
deriving Repr, Inhabited

namespace Filter

mutual

/-- Why a filter skips a path, if it does. -/
def judge : Filter → Path → Option SkipReason
  | .ignoring list, p => (list.cause? p).map .ignored
  | .extensions f, p => f.judge p
  | .fragments f, p => f.judge p
  | .all parts, p => judgeParts parts p

/-- Why the first of several filters that skips a path does so. -/
def judgeParts : List Filter → Path → Option SkipReason
  | [], _ => none
  | part :: rest, p => (part.judge p).or (judgeParts rest p)

end

/-- The filter of a run: ignore patterns, then fragments, then extensions; parts
that cannot skip anything are left out. -/
def standard (ignore excludePaths : List String) (extensions : ExtensionFilter) :
    Except Ignore.Error Filter :=
  match IgnoreList.ofPatterns ignore with
  | .error e => .error e
  | .ok list =>
    .ok (.all (.ignoring list ::
      ((if excludePaths.isEmpty then [] else [.fragments (.ofTexts excludePaths)]) ++
        (if extensions.isActive then [.extensions extensions] else []))))

end Filter

end MarkerBlock
