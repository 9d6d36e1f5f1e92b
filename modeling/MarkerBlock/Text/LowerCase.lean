/-
MarkerBlock.Text.LowerCase — text in lower case, by the full mapping of the
Unicode Standard without language-specific rules.

All letters but two map to one small letter whatever surrounds them.  The
capital I with a dot maps to two characters.  The capital sigma maps to the
final small sigma at the end of a word, that is, after a cased letter and not
before one, characters that are passed over aside.
-/
import MarkerBlock.Text.CharSet.Tables
import MarkerBlock.Text.LowerCase.Table

namespace MarkerBlock.Text.LowerCase

/-- The image of `n` in a run, if the run covers it. -/
def Run.image? (run : Run) (n : Nat) : Option Nat :=
  if run.first ≤ n && n ≤ run.last && (n - run.first) % run.step == 0 then
    some (run.image + (n - run.first))
  else none

/-- The small letter of a capital; any other character itself. -/
def simple (c : Char) : Char :=
  match runs.findSome? (·.image? c.toNat) with
  | some n => Char.ofNat n
  | none => c

/-- Whether the nearest character that is not passed over is a cased letter. -/
def meetsCased (neighbours : List Char) : Bool :=
  match neighbours.dropWhile CharSet.caseIgnorable.contains with
  | [] => false
  | c :: _ => CharSet.cased.contains c

/-- The capital letter I with a dot above. -/
def dottedCapitalI : Char := '\u0130'

/-- The capital letter sigma. -/
def capitalSigma : Char := 'Σ'

/-- The small form of a character between `before` (nearest first) and `after`. -/
def ofChar (before : List Char) (c : Char) (after : List Char) : List Char :=
  if c = dottedCapitalI then ['i', '\u0307']
  else if c = capitalSigma then
    if meetsCased before && !meetsCased after then ['ς'] else ['σ']
  else [simple c]

/-- The small form of `text`, which follows `before` (nearest first). -/
def convertAfter (before : List Char) : List Char → List Char
  | [] => []
  | c :: rest => ofChar before c rest ++ convertAfter (c :: before) rest

/-- Text in lower case. -/
def convert (text : List Char) : List Char := convertAfter [] text

end LowerCase

/-- A string in lower case. -/
def lowerCase (s : String) : String := String.ofList (LowerCase.convert s.toList)

end MarkerBlock.Text
