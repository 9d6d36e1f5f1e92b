/-
MarkerBlock.Text.Ends — matching a pattern from the back.

The ends of a text are the text itself, the text without its first item, and so
on down to nothing.  A matcher that knows from which ends the rest of a pattern
matches says in one pass from which ends the pattern with one more element in
front does.  So a pattern is matched in as many passes as it has elements,
however many stars it holds.
-/
namespace MarkerBlock.Text

/-- For each end of a text, from the whole to nothing, whether it is meant. -/
abbrev Ends := List Bool

namespace Ends

/-- The whole text is meant. -/
def whole (ends : Ends) : Bool := ends.headD false

/-- One end or the other. -/
def union (a b : Ends) : Ends := List.zipWith (· || ·) a b

variable {α : Type}

/-- No end. -/
def none (text : List α) : Ends := List.replicate (text.length + 1) false

/-- Nothing, the last end, alone. -/
def nothing (text : List α) : Ends := List.replicate text.length false ++ [true]

/-- The ends that begin with an item satisfying `p`, before one of `ends`. -/
def afterOne (p : α → Bool) : List α → Ends → Ends
  | item :: text, _ :: ends => (p item && whole ends) :: afterOne p text ends
  | _, _ => [false]

/-- The ends that begin with any number of items satisfying `p`, before one of
`ends`. -/
def afterRun (p : α → Bool) : List α → Ends → Ends
  | item :: text, here :: ends =>
    let later := afterRun p text ends
    (here || (p item && whole later)) :: later
  | _, ends => ends

/-- The ends that begin with any items, the last of which satisfies `p`, before
one of `ends`. -/
def afterSome (p : α → Bool) : List α → Ends → Ends
  | item :: text, _ :: ends =>
    let later := afterSome p text ends
    ((p item && whole ends) || whole later) :: later
  | _, _ => [false]

end Ends

end MarkerBlock.Text
