/-
MarkerBlock.Encoding.Basic — the encodings a source file may be stored in.

* `Encoding` is the closed list of encodings, with or without a byte order mark
  where that is part of a file's identity.
* `decode` reads a whole file strictly: malformed input is an error that gives
  an offset, never a replacement character.  A byte order mark of the encoding
  is dropped; UTF-7 has none, its signature reads as the character U+FEFF.
* `encode` writes a whole file, mark first, or fails with the first character
  the encoding lacks.

The legacy code page is an argument wherever it matters.
-/
import MarkerBlock.CodePage
import MarkerBlock.Encoding.Utf7
import MarkerBlock.Encoding.Utf8
import MarkerBlock.Encoding.Utf16
import MarkerBlock.Encoding.Utf32

namespace MarkerBlock

/-- A text encoding. -/
inductive Encoding where
  /-- UTF-7, known by its signature. -/
  | utf7
  /-- UTF-8, with or without a byte order mark. -/
  | utf8 (bom : Bool)
  /-- UTF-16 in the given byte order, with or without a byte order mark. -/
  | utf16 (order : Encoding.ByteOrder) (bom : Bool)
  /-- UTF-32, most significant octet first, with a byte order mark. -/
  | utf32
  /-- Seven-bit ASCII. -/
  | ascii
  /-- The legacy single-byte code page. -/
  | legacy
deriving Repr, DecidableEq

namespace Encoding

/-! ## §1 Names and marks -/

/-- The octets a UTF-7 file with a signature begins with. -/
def utf7Signature : List UInt8 := [0x2B, 0x2F, 0x76]

/-- The byte order mark of an encoding; empty if it has none. -/
def bom : Encoding → List UInt8
  | .utf8 true => [0xEF, 0xBB, 0xBF]
  | .utf16 .little true => [0xFF, 0xFE]
  | .utf16 .big true => [0xFE, 0xFF]
  | .utf32 => [0x00, 0x00, 0xFE, 0xFF]
  | _ => []

/-- Display name; the legacy code page goes by its own. -/
def displayName (page : CodePage) : Encoding → String
  | .utf7 => "UTF-7"
  | .utf8 true => "UTF-8 (BOM)"
  | .utf8 false => "UTF-8"
  | .utf16 .little true => "UTF-16LE (BOM)"
  | .utf16 .little false => "UTF-16LE"
  | .utf16 .big true => "UTF-16BE (BOM)"
  | .utf16 .big false => "UTF-16BE"
  | .utf32 => "UTF-32BE (BOM)"
  | .ascii => "ASCII"
  | .legacy => page.name

/-- A file without the encoding's byte order mark, if it begins with one. -/
def dropBom (e : Encoding) (octets : List UInt8) : List UInt8 :=
  if e.bom.isPrefixOf octets then octets.drop e.bom.length else octets

/-! ## §2 Reading -/

/-- A file is malformed in `encoding`, at octet `offset`. -/
structure DecodeError where
  encoding : Encoding
  offset : Nat
deriving Repr, DecidableEq

/-- A reader that gives no position is wrong from the start of what it read. -/
def wholly : Option (List Char) → Except Nat (List Char)
  | some text => .ok text
  | none => .error 0

/-- Read ASCII, or fail with the offset of the first octet that is not. -/
def decodeAscii (octets : List UInt8) : Except Nat (List Char) :=
  match octets.findIdx? (0x80 ≤ ·) with
  | some offset => .error offset
  | none => .ok (octets.map fun b => Char.ofNat b.toNat)

/-- Read what follows the byte order mark; offsets count from there. -/
def decodeBody (page : CodePage) (e : Encoding) (body : List UInt8) : Except Nat (List Char) :=
  match e with
  | .utf7 => Utf7.decode body
  | .utf8 _ => Utf8.decode body
  | .utf16 order _ => wholly (Utf16.decode order body)
  | .utf32 => Utf32.decode body
  | .ascii => decodeAscii body
  | .legacy => wholly (page.decode body)

/-- Read a whole file. -/
def decode (page : CodePage) (e : Encoding) (octets : List UInt8) :
    Except DecodeError (List Char) :=
  let body := e.dropBom octets
  match e.decodeBody page body with
  | .ok text => .ok text
  | .error offset => .error ⟨e, octets.length - body.length + offset⟩

/-! ## §3 Writing -/

/-- `char` has no form in `encoding`. -/
structure EncodeError where
  encoding : Encoding
  char : Char
deriving Repr, DecidableEq

/-- Write ASCII, or fail with the first character beyond it. -/
def encodeAscii (text : List Char) : Except Char (List UInt8) :=
  match text.find? (0x80 ≤ ·.toNat) with
  | some c => .error c
  | none => .ok (text.map fun c => UInt8.ofNat c.toNat)

/-- Write what follows the byte order mark. -/
def encodeBody (page : CodePage) (e : Encoding) (text : List Char) : Except Char (List UInt8) :=
  match e with
  | .utf7 => .ok (Utf7.encode text)
  | .utf8 _ => .ok (Utf8.encode text)
  | .utf16 order _ => .ok (Utf16.encode order text)
  | .utf32 => .ok (Utf32.encode text)
  | .ascii => encodeAscii text
  | .legacy => page.encode text

/-- Write a whole file. -/
def encode (page : CodePage) (e : Encoding) (text : List Char) :
    Except EncodeError (List UInt8) :=
  match e.encodeBody page text with
  | .ok body => .ok (e.bom ++ body)
  | .error c => .error ⟨e, c⟩

end Encoding

end MarkerBlock
