/-
MarkerBlock.Decimal.Text — binary fractions as decimal text.

* `fixed` writes a given number of places, the nearest such decimal.
* `shortest` writes the fewest digits that read back as the same fraction, and
  of those the nearest decimal.  It is positional for numbers of ordinary size
  and always shows that the number is a fraction.
-/
import MarkerBlock.Decimal.Binary

namespace MarkerBlock.Decimal

/-- Digits of a number, at least `width` of them. -/
def padded (width n : Nat) : String :=
  let digits := Nat.toDigits 10 n
  String.ofList (List.replicate (width - digits.length) '0' ++ digits)

/-- A fraction with `places` digits after the point. -/
def fixed (places : Nat) (x : Binary) : String :=
  let n := roundDiv (x.num * tenTo places) (twoTo x.shift)
  s!"{n / tenTo places}.{padded places (n % tenTo places)}"

/-- The number `digits` · 10 ^ `exponent`. -/
structure Scientific where
  digits : Nat
  exponent : Int
deriving Repr

/-- The exponent of the largest power of ten that is not above a fraction. -/
def tens (x : Binary) : Int :=
  let whole := x.num / twoTo x.shift
  if whole = 0 then
    match (List.range (x.shift + 1)).find? fun k => twoTo x.shift ≤ x.num * tenTo k with
    | some k => -k
    | none => 0
  else ((Nat.toDigits 10 whole).length : Int) - 1

/-- Whether a decimal reads back as the fraction `x`. -/
def Scientific.readsAs (s : Scientific) (x : Binary) : Bool :=
  (Binary.ofRatio (s.digits * tenTo s.exponent.toNat) (tenTo (-s.exponent).toNat)).same x

/-- The decimal of `count` digits that reads back as `x`, if there is one; of two
the nearer. -/
def ofDigits? (x : Binary) (count : Nat) : Option Scientific :=
  let exponent := tens x - count + 1
  let n := x.num * tenTo (-exponent).toNat
  let d := twoTo x.shift * tenTo exponent.toNat
  let nearer := roundDiv n d
  let other := if nearer = n / d then nearer + 1 else nearer - 1
  [⟨nearer, exponent⟩, ⟨other, exponent⟩].find? fun s : Scientific => s.readsAs x

/-- Most digits a fraction needs. -/
def maxDigits : Nat := 17

/-- The shortest decimal that reads back as `x`. -/
def toScientific (x : Binary) : Scientific :=
  ((List.range maxDigits).findSome? fun i => ofDigits? x (i + 1)).getD ⟨0, 0⟩

/-- Largest number of digits before the point in positional form. -/
def maxWhole : Int := 16

/-- Largest number of zeros that may follow the point in positional form. -/
def maxZeros : Int := 4

/-- An exponent with its sign, `+` included. -/
def exponentText (exponent : Int) : List Char :=
  (if exponent < 0 then '-' else '+') :: Nat.toDigits 10 exponent.natAbs

/-- Text of a decimal that is not zero. -/
def Scientific.text (s : Scientific) : String :=
  let digits := Nat.toDigits 10 s.digits
  let point := (digits.length : Int) + s.exponent
  let body :=
    if 0 ≤ s.exponent && point ≤ maxWhole then
      digits ++ List.replicate s.exponent.toNat '0' ++ ['.', '0']
    else if 0 < point && point ≤ maxWhole then
      digits.take point.toNat ++ '.' :: digits.drop point.toNat
    else if -maxZeros ≤ point && point ≤ 0 then
      '0' :: '.' :: List.replicate (-point).toNat '0' ++ digits
    else
      let fraction := if digits.length = 1 then [] else '.' :: digits.drop 1
      digits.take 1 ++ fraction ++ 'e' :: exponentText (point - 1)
  String.ofList body

/-- The shortest text that reads back as `x`. -/
def shortest (x : Binary) : String :=
  if x.num = 0 then "0.0" else (toScientific x).text

end MarkerBlock.Decimal
