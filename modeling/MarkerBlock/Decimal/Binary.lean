/-
MarkerBlock.Decimal.Binary — fractions with 53 significant binary digits.

`ofRatio` takes a ratio to the nearest such fraction, a tie to the even one;
`add` is exact addition rounded once.
-/
namespace MarkerBlock.Decimal

/-- The whole number nearest to n / d; a half goes to the even neighbour. -/
def roundDiv (n d : Nat) : Nat :=
  let floor := n / d
  let twice := 2 * (n % d)
  if twice < d || (twice == d && floor % 2 == 0) then floor else floor + 1

/-- A power of two. -/
def twoTo (n : Nat) : Nat := Nat.pow 2 n

/-- A power of ten. -/
def tenTo (n : Nat) : Nat := Nat.pow 10 n

/-- The fraction num / 2 ^ shift. -/
structure Binary where
  num : Nat
  shift : Nat
deriving Repr

namespace Binary

/-- Whether two fractions have one value. -/
def same (x y : Binary) : Bool := x.num * twoTo y.shift == y.num * twoTo x.shift

/-- The exponent of the largest power of two that is not above n / d. -/
def magnitude (n d : Nat) : Int :=
  let guess : Int := (n.log2 : Int) - d.log2
  if n * twoTo (-guess).toNat < d * twoTo guess.toNat then guess - 1 else guess

/-- Number of binary digits after the first. -/
def precision : Nat := 52

/-- The fraction nearest to n / d. -/
def ofRatio (n d : Nat) : Binary :=
  if n = 0 then ⟨0, 0⟩
  else
    let scale := (precision : Int) - magnitude n d
    let digits := roundDiv (n * twoTo scale.toNat) (d * twoTo (-scale).toNat)
    ⟨digits * twoTo (-scale).toNat, scale.toNat⟩

/-- The fraction nearest to a sum. -/
def add (x y : Binary) : Binary :=
  ofRatio (x.num * twoTo y.shift + y.num * twoTo x.shift) (twoTo (x.shift + y.shift))

end Binary

end MarkerBlock.Decimal
