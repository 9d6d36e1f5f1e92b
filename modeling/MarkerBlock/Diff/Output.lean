/-
MarkerBlock.Diff.Output — where differences go.

Differences may be shown, line by line, and collected in a file.  `prepare`
empties the file at the start of a run; after that every difference is put at
its end.
-/
import MarkerBlock.Diff.Unified
import MarkerBlock.Encoding.Utf8
import MarkerBlock.FileTree
import MarkerBlock.Remark

namespace MarkerBlock.Diff

/-- Where differences go. -/
structure Output where
  shown : Bool := false
  saved : Option Path := none
deriving Repr

/-- The file for differences could not be used. -/
inductive OutputError where
  | create (path : Path) (error : FileError)
  | append (path : Path) (error : FileError)
deriving Repr

/-- Wording: what was tried, and the cause. -/
def OutputError.chain : OutputError → List String
  | .create path e => [s!"Failed to create diff file: {path}", e.message]
  | .append path e => [s!"Failed to open diff file: {path}", e.message]

namespace Output

/-- Whether differences go anywhere. -/
def isEnabled (o : Output) : Bool := o.shown || o.saved.isSome

/-- Make the file for differences an empty one. -/
def prepare (o : Output) (tree : FileTree) (cwd : Place) : Except OutputError FileTree :=
  match o.saved with
  | none => .ok tree
  | some path =>
    match tree.write cwd path [] with
    | .ok tree => .ok tree
    | .error e => .error (.create path e)

/-- Put text at the end of the file for differences. -/
def save (o : Output) (tree : FileTree) (cwd : Place) (text : List Char) :
    Except OutputError FileTree :=
  match o.saved with
  | none => .ok tree
  | some path =>
    match tree.append cwd path (Encoding.Utf8.encode text) with
    | .ok tree => .ok tree
    | .error e => .error (.append path e)

/-- The remarks that show a rendered difference. -/
def remarks (o : Output) (text : List Char) : List Remark :=
  if o.shown then (Text.lines text).map fun line => .diffLine (String.ofList line) else []

end Output

end MarkerBlock.Diff
