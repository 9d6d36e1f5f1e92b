/-
MarkerBlock.Diff.Unified — two texts compared line by line, in unified form.

Edits become pieces: stretches of lines that are the same in both texts, and
stretches that differ.  Pieces become hunks, which show differing lines with up
to three lines of context.  A hunk's header names its lines in both texts; lines
are marked by a blank, a minus or a plus, and a last line without a line end is
pointed out.
-/
import MarkerBlock.Diff.Slide
import MarkerBlock.Path
import MarkerBlock.Text.Lines

namespace MarkerBlock.Diff

/-! ## §1 Pieces -/

/-- A stretch of both texts. -/
structure Piece where
  /-- The lines are the same in both. -/
  same : Bool
  old : Nat
  oldSize : Nat
  new : Nat
  newSize : Nat
deriving Repr, DecidableEq

/-- The piece of an edit. -/
def Edit.piece (e : Edit) : Piece := ⟨e.kind = .keep, e.old, e.oldSize, e.new, e.newSize⟩

/-- Two pieces of one sort as one.  A place is that of the first piece with lines
on that side. -/
def Piece.join (p q : Piece) : Piece :=
  { same := p.same
    old := if p.oldSize = 0 && q.oldSize != 0 then q.old else p.old
    oldSize := p.oldSize + q.oldSize
    new := if p.newSize = 0 && q.newSize != 0 then q.new else p.new
    newSize := p.newSize + q.newSize }

/-- Put a piece in front of others, as one with the first if it is of its sort. -/
def consPiece (p : Piece) : List Piece → List Piece
  | [] => [p]
  | q :: rest => if p.same = q.same then p.join q :: rest else p :: q :: rest

/-- The pieces of a list of edits. -/
def pieces (edits : List Edit) : List Piece := (edits.map Edit.piece).foldr consPiece []

/-! ## §2 Hunks -/

/-- Lines of context around a difference. -/
def context : Nat := 3

/-- The last `context` lines of a piece. -/
def Piece.ending (p : Piece) : Piece :=
  let cut := p.oldSize - context
  { p with
    old := p.old + cut, oldSize := p.oldSize - cut, new := p.new + cut, newSize := p.newSize - cut }

/-- The first `context` lines of a piece. -/
def Piece.beginning (p : Piece) : Piece :=
  { p with oldSize := min p.oldSize context, newSize := min p.newSize context }

/-- Shorten the first piece to context, if it is the same in both texts. -/
def trimFirst : List Piece → List Piece
  | [] => []
  | p :: rest => if p.same then p.ending :: rest else p :: rest

/-- Shorten the last piece to context, if it is the same in both texts. -/
def trimLast (ps : List Piece) : List Piece :=
  match ps.reverse with
  | [] => []
  | p :: rest => ((if p.same then p.beginning else p) :: rest).reverse

/-- Cut pieces into hunks where a stretch without a difference is too long to be
context of both its sides.  `hunk` holds the pieces of the hunk so far, newest
first. -/
def cutHunks (hunk : List Piece) : List Piece → List (List Piece)
  | [] => if hunk.all (·.same) then [] else [hunk.reverse]
  | p :: rest =>
    if p.same && 2 * context < p.oldSize then
      (p.beginning :: hunk).reverse :: cutHunks [p.ending] rest
    else cutHunks (p :: hunk) rest

/-- The hunks of a list of pieces. -/
def hunks (ps : List Piece) : List (List Piece) := cutHunks [] (trimLast (trimFirst ps))

/-! ## §3 Text -/

/-- A range of lines: the number of its first line and, unless it is one, how many
lines it has; an empty range is named by the line before it. -/
def rangeText (start stop : Nat) : String :=
  match stop - start with
  | 0 => s!"{start},0"
  | 1 => s!"{start + 1}"
  | size => s!"{start + 1},{size}"

/-- The header of a hunk. -/
def headerText (hunk : List Piece) : String :=
  match hunk.head?, hunk.getLast? with
  | some p, some q =>
    let old := rangeText p.old (q.old + q.oldSize)
    let new := rangeText p.new (q.new + q.newSize)
    s!"@@ -{old} +{new} @@\n"
  | _, _ => ""

/-- A line with its mark; one that ends in no line end is followed by a note. -/
def markedLine (mark : Char) (line : List Char) : List Char :=
  let ended := line.getLast? = some '\n' || line.getLast? = some '\r'
  mark :: line ++ if ended then [] else "\n\x5c No newline at end of file\n".toList

/-- Lines of a text with a mark. -/
def markedLines (mark : Char) (lines : Array (List Char)) (start size : Nat) : List Char :=
  ((lines.toList.drop start).take size).flatMap (markedLine mark)

/-- The lines of a piece. -/
def pieceText (a b : Array (List Char)) (p : Piece) : List Char :=
  if p.same then markedLines ' ' a p.old p.oldSize
  else markedLines '-' a p.old p.oldSize ++ markedLines '+' b p.new p.newSize

/-- A hunk. -/
def hunkText (a b : Array (List Char)) (hunk : List Piece) : List Char :=
  (headerText hunk).toList ++ hunk.flatMap (pieceText a b)

/-- The two lines that name the file; they stand before the first hunk. -/
def titleText (path : Path) : List Char := s!"--- {path}\n+++ {path}\n".toList

/-- The difference between an old and a new text of a file.  It ends in a line
feed also where there is no difference. -/
def render (path : Path) (old new : List Char) : List Char :=
  let a := (Text.endedLines old).toArray
  let b := (Text.endedLines new).toArray
  let body := (hunks (pieces (edits a b))).flatMap (hunkText a b)
  let text := if body.isEmpty then [] else titleText path ++ body
  if text.getLast? = some '\n' then text else text ++ ['\n']

end MarkerBlock.Diff
