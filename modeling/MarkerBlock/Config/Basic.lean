/-
MarkerBlock.Config.Basic — the settings of a run, and what makes them valid.

Settings are valid if insertion makes sense with them: the marker and the anchor
are not empty, the block has lines, the marker is in one of them, the code page
exists, and extensions are given without dots.  `validate` names the first fault
in that order.
-/
import MarkerBlock.CodePage.Labels
import MarkerBlock.Filter
import MarkerBlock.Insertion

namespace MarkerBlock

/-- The settings of a run. -/
structure Config where
  marker : String := Inserter.defaultMarker
  anchor : String := Inserter.defaultAnchor
  block : List String := Inserter.defaultBlock
  /-- Label of the legacy code page. -/
  legacyCodePage : String := CodePage.defaultLabel
  /-- Extensions that are worked on; all if there are none. -/
  included : List String := ["cpp"]
  /-- Extensions that are not worked on. -/
  excluded : List String := []
  /-- Texts in paths that exclude a file. -/
  excludePaths : List String := ["CommonCpp", "stdafx", "/tests/", "/setup/", "interop"]
deriving Repr, DecidableEq

namespace Config

/-! ## §1 Validity -/

/-- What is wrong with settings. -/
inductive Fault where
  | emptyMarker
  | emptyAnchor
  | emptyBlock
  | newlineInBlock
  | markerNotInBlock (marker : String)
  | unknownCodePage (label : String)
  | leadingDot (extension : String)
deriving Repr, DecidableEq

/-- The setting that is at fault. -/
def Fault.key : Fault → String
  | .emptyMarker => "marker"
  | .emptyAnchor => "anchor"
  | .emptyBlock | .newlineInBlock | .markerNotInBlock _ => "block"
  | .unknownCodePage _ => "legacy-codepage"
  | .leadingDot _ => "extensions"

/-- What is wrong with it. -/
def Fault.problem : Fault → String
  | .emptyMarker => "marker cannot be empty"
  | .emptyAnchor => "anchor cannot be empty"
  | .emptyBlock => "block must have at least one line"
  | .newlineInBlock => "block lines cannot contain newlines"
  | .markerNotInBlock marker => s!"block must contain the marker '{marker}'"
  | .unknownCodePage label => s!"'{label}' is not a single-byte encoding"
  | .leadingDot extension => s!"extension '{extension}' should not include leading dot"

/-- Wording of a fault. -/
def Fault.message (f : Fault) : String := s!"Invalid value for '{f.key}': {f.problem}"

/-- Whether some line of the block contains the marker. -/
def markerInBlock (c : Config) : Bool :=
  c.block.any fun line => Text.occursIn c.marker.toList line.toList

/-- The first extension that is written with a dot. -/
def dottedExtension? (c : Config) : Option String :=
  (c.included ++ c.excluded).find? fun e => e.toList.head? == some '.'

/-- The first fault of some settings. -/
def fault? (c : Config) : Option Fault :=
  if c.marker.isEmpty then some .emptyMarker
  else if c.anchor.isEmpty then some .emptyAnchor
  else if c.block.isEmpty then some .emptyBlock
  else if c.block.any (·.toList.contains '\n') then some .newlineInBlock
  else if !c.markerInBlock then some (.markerNotInBlock c.marker)
  else if (CodePage.ofLabel? c.legacyCodePage).isNone then
    some (.unknownCodePage c.legacyCodePage)
  else c.dottedExtension?.map .leadingDot

/-- Accept settings without a fault. -/
def validate (c : Config) : Except Fault Unit :=
  match c.fault? with
  | some f => .error f
  | none => .ok ()

/-! ## §2 Use -/

/-- Settings with extensions in lower case. -/
def normalize (c : Config) : Config :=
  { c with included := c.included.map Text.lowerCase, excluded := c.excluded.map Text.lowerCase }

/-- The inserter that settings describe. -/
def inserter (c : Config) : Inserter :=
  .ofLines c.marker.toList c.anchor.toList (c.block.map String.toList)

/-- The extensions that settings describe. -/
def extensions (c : Config) : ExtensionFilter := .ofLists c.included c.excluded

end Config

end MarkerBlock
