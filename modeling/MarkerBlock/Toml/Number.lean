/-
MarkerBlock.Toml.Number — numbers: their form, and whether they fit.

A number may be as long as it likes in a document.  One that is read must fit:
an integer into 128 bits, with or without a sign, and one with a fraction or an
exponent into a double.  No value is computed beyond what tells that.
-/
import MarkerBlock.Decimal.Binary
import MarkerBlock.Toml.Text
import MarkerBlock.Text.Split

namespace MarkerBlock.Toml

open Decimal

/-! ## §1 Form -/

/-- Digits of one sort; underscores may stand between two of them. -/
def areDigits (isDigit : Char → Bool) (cs : List Char) : Bool :=
  (Text.split '_' cs).all fun group => !group.isEmpty && group.all isDigit

/-- Decimal digits, perhaps with underscores. -/
def areDecimal (cs : List Char) : Bool := areDigits Char.isDigit cs

/-- A sign. -/
def isSign (c : Char) : Bool := c == '+' || c == '-'

/-- A text without a sign at its front. -/
def dropSign : List Char → List Char
  | '+' :: rest => rest
  | '-' :: rest => rest
  | cs => cs

/-- A decimal number without sign and leading zeros. -/
def isWhole (cs : List Char) : Bool := areDecimal cs && (cs.length == 1 || cs.head? != some '0')

/-- A hexadecimal digit. -/
def isHexDigit (c : Char) : Bool :=
  c.isDigit || ('a' ≤ c && c ≤ 'f') || ('A' ≤ c && c ≤ 'F')

/-- An octal digit. -/
def isOctalDigit (c : Char) : Bool := '0' ≤ c && c ≤ '7'

/-- A binary digit. -/
def isBinaryDigit (c : Char) : Bool := c == '0' || c == '1'

/-- An integer. -/
def isInteger (cs : List Char) : Bool :=
  match cs with
  | '0' :: 'x' :: digits => areDigits isHexDigit digits
  | '0' :: 'o' :: digits => areDigits isOctalDigit digits
  | '0' :: 'b' :: digits => areDigits isBinaryDigit digits
  | _ => isWhole (dropSign cs)

/-- The exponent of a number, after its letter. -/
def isExponent (cs : List Char) : Bool := areDecimal (dropSign cs)

/-- The letter before an exponent. -/
def isExponentMark (c : Char) : Bool := c == 'e' || c == 'E'

/-- A number with a fraction, an exponent or both, or one that is not finite. -/
def isFloat (cs : List Char) : Bool :=
  let body := dropSign cs
  if body = ['i', 'n', 'f'] || body = ['n', 'a', 'n'] then true
  else
    let mantissa := body.takeWhile (!isExponentMark ·)
    let exponent := body.dropWhile (!isExponentMark ·)
    let exponentFits := exponent.isEmpty || isExponent (exponent.drop 1)
    match Text.split '.' mantissa with
    | [whole] => isWhole whole && !exponent.isEmpty && exponentFits
    | [whole, fraction] => isWhole whole && areDecimal fraction && exponentFits
    | _ => false

/-! ## §2 Size -/

/-- The smallest whole number that does not fit into 128 bits. -/
def integerLimit : Nat := twoTo 128

/-- The value of a row of digits, and of underscores, which mean nothing.  One
that exceeds `limit` is not followed further. -/
def valueUpTo (limit base : Nat) (cs : List Char) : Nat :=
  cs.foldl
    (fun n c =>
      if limit < n then n
      else
        match hexValue? c with
        | some digit => n * base + digit
        | none => n)
    0

/-- Whether an integer fits into 128 bits; below zero, one of them is the sign. -/
def integerFits (cs : List Char) : Bool :=
  let value := valueUpTo integerLimit
  match cs with
  | '0' :: 'x' :: digits => value 16 digits < integerLimit
  | '0' :: 'o' :: digits => value 8 digits < integerLimit
  | '0' :: 'b' :: digits => value 2 digits < integerLimit
  | '-' :: digits => value 10 digits ≤ twoTo 127
  | _ => value 10 cs < integerLimit

/-- The smallest number that is nearer to infinity than to any double. -/
def floatLimit : Nat := twoTo 1024 - twoTo 970

/-- The value of an exponent, after its letter. -/
def exponentValue (cs : List Char) : Int :=
  let size := valueUpTo integerLimit 10 cs
  if cs.head? = some '-' then -size else size

/-- Digits before and after a point, perhaps with an exponent: the digits from the
first on that is not zero, and where among them the point is. -/
def significant (cs : List Char) : List Char × Int :=
  let mantissa := (cs.takeWhile (!isExponentMark ·)).filter (· != '_')
  let exponent := exponentValue ((cs.dropWhile (!isExponentMark ·)).drop 1)
  let whole := mantissa.takeWhile (· != '.')
  let digits := whole ++ (mantissa.dropWhile (· != '.')).drop 1
  let kept := digits.dropWhile (· == '0')
  (kept, whole.length + kept.length - digits.length + exponent)

/-- Number of digits of the largest double. -/
def floatDigits : Nat := 309

/-- Whether a number with a fraction or an exponent fits into a double.  Its whole
part decides. -/
def floatFits (cs : List Char) : Bool :=
  let (digits, point) := significant (dropSign cs)
  if digits.all (!·.isDigit) then true
  else if floatDigits < point then false
  else
    let places := point.toNat
    let whole := digits.take places ++ List.replicate (places - digits.length) '0'
    valueUpTo floatLimit 10 whole < floatLimit

end MarkerBlock.Toml
