/-
MarkerBlock.CodePage — single-byte code pages.

A code page keeps ASCII in its lower half.  Its upper half is a row of 128
entries: the code point that octet 0x80 + i stands for, or zero where the octet
is unassigned.  `Row.wellFormed` says what makes a row a code page: every entry
is a scalar value above ASCII, and no character has two octets.  Every
`CodePage` carries that fact, so reading and writing are inverse to each other.
-/
namespace MarkerBlock

/-- The upper half of a code page: 128 entries, the code points of the octets
0x80 to 0xFF in order, zero where unassigned. -/
abbrev Row := List Nat

/-- The code point `n` is not an entry. -/
def Row.lacks (n : Nat) : Row → Bool
  | [] => true
  | m :: rest => !Nat.beq n m && lacks n rest

/-- No assigned code point occurs twice. -/
def Row.injective : Row → Bool
  | [] => true
  | n :: rest => (Nat.beq n 0 || Row.lacks n rest) && injective rest

/-- An entry is zero or a scalar value above ASCII. -/
def Row.isEntry (n : Nat) : Bool :=
  Nat.beq n 0 || (Nat.ble 0x80 n && Nat.ble n 0xD7FF) || (Nat.ble 0xE000 n && Nat.ble n 0x10FFFF)

/-- Full length, entries only, no character twice. -/
def Row.wellFormed (row : Row) : Bool :=
  Nat.beq row.length 128 && row.all Row.isEntry && row.injective

/-- A single-byte code page. -/
structure CodePage where
  name : String
  row : Row
  wellFormed : row.wellFormed = true
deriving DecidableEq

namespace CodePage

/-- The character an octet stands for, if any. -/
def charOf (page : CodePage) (b : UInt8) : Option Char :=
  if b < 0x80 then some (Char.ofNat b.toNat)
  else
    match page.row[b.toNat - 0x80]? with
    | some n => if n = 0 then none else some (Char.ofNat n)
    | none => none

/-- The octet that stands for a character, if any. -/
def octetOf (page : CodePage) (c : Char) : Option UInt8 :=
  if c.toNat < 0x80 then some (UInt8.ofNat c.toNat)
  else (page.row.idxOf? c.toNat).map fun i => UInt8.ofNat (0x80 + i)

/-- Read octets; none if one of them is unassigned. -/
def decode (page : CodePage) (octets : List UInt8) : Option (List Char) :=
  octets.mapM page.charOf

/-- Write text, or fail with its first character that the page lacks. -/
def encode (page : CodePage) (text : List Char) : Except Char (List UInt8) :=
  text.mapM fun c =>
    match page.octetOf c with
    | some b => .ok b
    | none => .error c

end CodePage

end MarkerBlock
