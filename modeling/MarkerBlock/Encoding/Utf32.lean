/-
MarkerBlock.Encoding.Utf32 — text as four octets per character, most
significant octet first.

`decode` refuses an incomplete last group before it looks at any value, and
otherwise the first group that is no Unicode scalar value.
-/
namespace MarkerBlock.Encoding.Utf32

/-- The four octets of one character. -/
def octetsOf (c : Char) : List UInt8 :=
  let n := c.toNat
  [UInt8.ofNat (n / 0x1000000), UInt8.ofNat (n / 0x10000), UInt8.ofNat (n / 0x100), UInt8.ofNat n]

/-- Write text without a byte order mark. -/
def encode (text : List Char) : List UInt8 := text.flatMap octetsOf

/-- The number four octets stand for. -/
def groupValue (a b c d : UInt8) : Nat :=
  ((a.toNat * 256 + b.toNat) * 256 + c.toNat) * 256 + d.toNat

/-- Read groups onto `read` (newest first), the first of them at `offset`. -/
def decodeOnto (offset : Nat) (read : List Char) : List UInt8 → Except Nat (List Char)
  | a :: b :: c :: d :: rest =>
    let n := groupValue a b c d
    if n.isValidChar then decodeOnto (offset + 4) (Char.ofNat n :: read) rest
    else .error offset
  | _ => .ok read.reverse

/-- Read text, or fail with the offset of the incomplete or invalid group. -/
def decode (octets : List UInt8) : Except Nat (List Char) :=
  let excess := octets.length % 4
  if excess ≠ 0 then .error (octets.length - excess) else decodeOnto 0 [] octets

end MarkerBlock.Encoding.Utf32
