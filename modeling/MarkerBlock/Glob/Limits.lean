/-
MarkerBlock.Glob.Limits — which lists of globs can be carried out.

A regular expression must not nest too deeply, and the machine for it must not be
too large.  Globs that are tried on paths with their extension only are carried
out one by one; the others that need a regular expression are carried out
together, by one machine.  A glob that needs none may be as it likes.
-/
import MarkerBlock.Glob.Machine

namespace MarkerBlock.Glob

/-- Why regular expressions cannot be carried out. -/
inductive Excess where
  /-- The one at this place nests too deeply. -/
  | depth (place : Nat)
  /-- The machine for them is too large. -/
  | size
deriving Repr, DecidableEq

/-- Wording of an excess. -/
def Excess.message : Excess → String
  | .depth place => s!"error parsing pattern {place}"
  | .size => "error building NFA"

/-- Why a list of globs cannot be carried out. -/
inductive ListFault where
  /-- Because of a glob that is tried on some paths only. -/
  | alone (expression : List Char) (excess : Excess)
  /-- Because of the globs that are carried out together. -/
  | together (excess : Excess)
deriving Repr, DecidableEq

/-- Wording of a fault. -/
def ListFault.message : ListFault → String
  | .alone expression excess =>
    s!"error parsing glob '{String.ofList expression}': {excess.message}"
  | .together excess => excess.message

/-- Why some globs cannot be carried out by one machine, if they cannot. -/
def excess? (globs : List Glob) : Option Excess :=
  match globs.findIdx? isTooDeep with
  | some place => some (.depth place)
  | none => if areTooLarge globs then some .size else none

/-- Why a list of globs cannot be carried out, if it cannot. -/
def fault? (globs : List Glob) : Option ListFault :=
  let alone (g : Glob) : Option ListFault :=
    (excess? [g]).map fun excess => .alone g.expressionText excess
  match (globs.filter (·.method == .extensionFirst)).findSome? alone with
  | some fault => some fault
  | none => (excess? (globs.filter (·.method == .expression))).map .together

end MarkerBlock.Glob
