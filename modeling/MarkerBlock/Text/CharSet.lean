/-
MarkerBlock.Text.CharSet — sets of characters given by ranges of code points.
-/
namespace MarkerBlock.Text

/-- A set of characters: those whose code point lies in one of the ranges, both
ends included. -/
structure CharSet where
  ranges : List (Nat × Nat)

/-- Membership. -/
def CharSet.contains (set : CharSet) (c : Char) : Bool :=
  set.ranges.any fun range => range.1 ≤ c.toNat && c.toNat ≤ range.2

end MarkerBlock.Text
