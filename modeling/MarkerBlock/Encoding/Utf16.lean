/-
MarkerBlock.Encoding.Utf16 — text as 16-bit units, and units as octets.

* `units` writes a character as one unit, or as a surrogate pair above U+FFFF.
* `decodeUnits` reads units back and refuses every unpaired surrogate.
* `ByteOrder` says which octet of a unit comes first; `encode` and `decode`
  work on octets in a given order, and `decode` refuses an odd length.
-/
namespace MarkerBlock.Encoding

/-- Which octet of a 16-bit unit is written first. -/
inductive ByteOrder where
  | little
  | big
deriving Repr, DecidableEq

namespace Utf16

/-! ## §1 Characters and units -/

/-- The units of one character. -/
def unitsOf (c : Char) : List UInt16 :=
  let n := c.toNat
  if n < 0x10000 then [UInt16.ofNat n]
  else
    [UInt16.ofNat (0xD800 + (n - 0x10000) / 0x400), UInt16.ofNat (0xDC00 + (n - 0x10000) % 0x400)]

/-- The units of a text. -/
def units (text : List Char) : List UInt16 := text.flatMap unitsOf

/-- First half of a surrogate pair. -/
def isHigh (u : UInt16) : Bool := 0xD800 ≤ u && u ≤ 0xDBFF

/-- Second half of a surrogate pair. -/
def isLow (u : UInt16) : Bool := 0xDC00 ≤ u && u ≤ 0xDFFF

/-- Code point of a surrogate pair. -/
def pairValue (high low : UInt16) : Nat :=
  0x10000 + (high.toNat - 0xD800) * 0x400 + (low.toNat - 0xDC00)

/-- Read units onto the characters `read` (newest first). -/
def decodeOnto (read : List Char) : List UInt16 → Option (List Char)
  | [] => some read.reverse
  | [u] => if isHigh u || isLow u then none else some (Char.ofNat u.toNat :: read).reverse
  | u :: v :: rest =>
    if isHigh u then
      if isLow v then decodeOnto (Char.ofNat (pairValue u v) :: read) rest else none
    else if isLow u then none
    else decodeOnto (Char.ofNat u.toNat :: read) (v :: rest)

/-- Read units as text; none if a surrogate is unpaired. -/
def decodeUnits (us : List UInt16) : Option (List Char) := decodeOnto [] us

/-! ## §2 Units and octets -/

/-- The two octets of a unit. -/
def octetsOf (order : ByteOrder) (u : UInt16) : List UInt8 :=
  let high := UInt8.ofNat (u.toNat / 256)
  let low := UInt8.ofNat u.toNat
  match order with
  | .little => [low, high]
  | .big => [high, low]

/-- The unit of two octets in the order they are read. -/
def unitOf (order : ByteOrder) (first second : UInt8) : UInt16 :=
  match order with
  | .little => UInt16.ofNat (second.toNat * 256 + first.toNat)
  | .big => UInt16.ofNat (first.toNat * 256 + second.toNat)

/-- Pair octets into units onto `read` (newest first). -/
def pairOnto (order : ByteOrder) (read : List UInt16) : List UInt8 → Option (List UInt16)
  | [] => some read.reverse
  | [_] => none
  | a :: b :: rest => pairOnto order (unitOf order a b :: read) rest

/-- The units of an octet string; none if its length is odd. -/
def unitsOfOctets (order : ByteOrder) (octets : List UInt8) : Option (List UInt16) :=
  pairOnto order [] octets

/-- Write text in the given byte order, without a byte order mark. -/
def encode (order : ByteOrder) (text : List Char) : List UInt8 :=
  (units text).flatMap (octetsOf order)

/-- Read text in the given byte order; a leading U+FEFF is a character like any
other. -/
def decode (order : ByteOrder) (octets : List UInt8) : Option (List Char) :=
  (unitsOfOctets order octets).bind decodeUnits

end Utf16

end MarkerBlock.Encoding
