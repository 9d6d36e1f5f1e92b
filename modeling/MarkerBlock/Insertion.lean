/-
MarkerBlock.Insertion — placing a block of lines after the last anchor line of
a text.

A text is cut into lines at line feeds only, so a carriage return stays part of
its line and line endings survive unchanged.  Every line of the block gets a
carriage return of its own.  A text that contains the marker anywhere is left
alone; a text without the marker and without an anchor line is refused.
-/
import MarkerBlock.Text.Split

namespace MarkerBlock

/-- What to look for in a text, and what to put into it. -/
structure Inserter where
  /-- The text whose presence means that the block is there. -/
  marker : List Char
  /-- The text that makes a line an anchor line. -/
  anchor : List Char
  /-- The lines of the block, each ending in a carriage return. -/
  block : List (List Char)
deriving Repr, DecidableEq

namespace Inserter

/-! ## §1 Making an inserter -/

/-- A block line with its carriage return. -/
def endLine (line : List Char) : List Char :=
  if line.getLast? = some '\r' then line else line ++ ['\r']

/-- An inserter for block lines that may or may not end in a carriage return. -/
def ofLines (marker anchor : List Char) (lines : List (List Char)) : Inserter :=
  { marker, anchor, block := lines.map endLine }

/-- The marker looked for unless another is chosen. -/
def defaultMarker : String := "DEBUG_NEW"

/-- The anchor looked for unless another is chosen. -/
def defaultAnchor : String := "#include"

/-- The block inserted unless another is chosen. -/
def defaultBlock : List String := ["", "#ifdef _DEBUG", "#define new DEBUG_NEW", "#endif"]

/-- The inserter used unless something else is chosen. -/
def standard : Inserter :=
  ofLines defaultMarker.toList defaultAnchor.toList (defaultBlock.map String.toList)

/-! ## §2 Inserting -/

/-- What came of a text. -/
inductive Outcome where
  /-- The marker is there; the text stays as it is. -/
  | present
  /-- The text with the block in it. -/
  | inserted (text : List Char)
deriving Repr, DecidableEq

/-- No line contains the anchor, so there is no place for the block. -/
structure NoAnchor where
  anchor : List Char
deriving Repr, DecidableEq

/-- Wording of the refusal. -/
def NoAnchor.message (e : NoAnchor) : String :=
  s!"no line contains '{String.ofList e.anchor}'; refusing to guess an insertion point"

/-- Whether a text contains the marker. -/
def hasMarker (i : Inserter) (text : List Char) : Bool := Text.occursIn i.marker text

/-- Put `block` after the last line that satisfies `isAnchor`, if there is one. -/
def spliceAfterLast (isAnchor : List Char → Bool) (block lines : List (List Char)) :
    Option (List (List Char)) :=
  match lines.reverse.dropWhile fun line => !isAnchor line with
  | [] => none
  | upToAnchor =>
    let after := lines.reverse.takeWhile fun line => !isAnchor line
    some (upToAnchor.reverse ++ block ++ after.reverse)

/-- Leave a text with the marker alone; put the block after the last anchor line
of any other. -/
def ensure (i : Inserter) (text : List Char) : Except NoAnchor Outcome :=
  if i.hasMarker text then .ok .present
  else
    match spliceAfterLast (Text.occursIn i.anchor) i.block (Text.split '\n' text) with
    | none => .error ⟨i.anchor⟩
    | some lines => .ok (.inserted (List.intercalate ['\n'] lines))

/-- The text an outcome stands for, given the text it came from. -/
def Outcome.text (before : List Char) : Outcome → List Char
  | .present => before
  | .inserted text => text

end Inserter

end MarkerBlock
