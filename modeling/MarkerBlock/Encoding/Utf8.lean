/-
MarkerBlock.Encoding.Utf8 — UTF-8 as a scan of octets into pieces.

One left-to-right scan serves every reader of UTF-8 in this library.  It cuts
the octets into pieces: a `scalar` is one well-formed sequence, a `malformed`
piece is a maximal run of octets that starts like a sequence and cannot be
completed (a stray octet is a run of one).

* `decode` is the strict reader: the first malformed piece is an error, and the
  error is the offset at which that piece begins.
* `count` is the length of the text a replacing reader produces: every piece is
  one character, a malformed one being the replacement character U+FFFD.
* `encode` writes each character's octets.
-/
namespace MarkerBlock.Encoding.Utf8

/-! ## §1 The shape of a sequence -/

/-- Number of octets in the sequence a lead octet opens; zero if it opens none. -/
def width (lead : UInt8) : Nat :=
  if lead < 0x80 then 1
  else if lead < 0xC2 then 0
  else if lead < 0xE0 then 2
  else if lead < 0xF0 then 3
  else if lead < 0xF5 then 4
  else 0

/-- Continuation octets carry the bits `10` on top. -/
def isContinuation (b : UInt8) : Bool := 0x80 ≤ b && b ≤ 0xBF

/-- The second octet of a sequence is a continuation octet that makes the code
point neither overlong, nor a surrogate, nor above U+10FFFF. -/
def admitsSecond (lead b : UInt8) : Bool :=
  if lead = 0xE0 then 0xA0 ≤ b && b ≤ 0xBF
  else if lead = 0xED then 0x80 ≤ b && b ≤ 0x9F
  else if lead = 0xF0 then 0x90 ≤ b && b ≤ 0xBF
  else if lead = 0xF4 then 0x80 ≤ b && b ≤ 0x8F
  else isContinuation b

/-- Whether the unfinished sequence `pending` may go on with `b`. -/
def continues : List UInt8 → UInt8 → Bool
  | [], _ => false
  | [lead], b => admitsSecond lead b
  | _ :: _ :: _, b => isContinuation b

/-- Code point of a complete sequence: the payload bits of its octets, most
significant first. -/
def codePoint : List UInt8 → Nat
  | [] => 0
  | [a] => a.toNat
  | [a, b] => a.toNat % 32 * 64 + b.toNat % 64
  | [a, b, c] => (a.toNat % 16 * 64 + b.toNat % 64) * 64 + c.toNat % 64
  | a :: b :: c :: d :: _ =>
    ((a.toNat % 8 * 64 + b.toNat % 64) * 64 + c.toNat % 64) * 64 + d.toNat % 64

/-! ## §2 Pieces and the scan -/

/-- A stretch of octets that reads as one character, or as one error. -/
inductive Piece where
  | scalar (c : Char)
  | malformed (octets : List UInt8)
deriving Repr, DecidableEq

/-- Number of octets a piece was read from. -/
def Piece.size : Piece → Nat
  | .scalar c => c.utf8Size
  | .malformed octets => octets.length

/-- State of the scan: the octets of an unfinished sequence, and the pieces read
so far, newest first. -/
structure Scan where
  pending : List UInt8 := []
  pieces : List Piece := []
deriving Repr, DecidableEq

/-- Read `b` where no sequence is unfinished. -/
def Scan.openWith (pieces : List Piece) (b : UInt8) : Scan :=
  match width b with
  | 0 => { pieces := .malformed [b] :: pieces }
  | 1 => { pieces := .scalar (Char.ofNat b.toNat) :: pieces }
  | _ => { pending := [b], pieces }

/-- Read one octet.  An octet that cannot continue the unfinished sequence ends
it as malformed and is then read afresh. -/
def Scan.push (s : Scan) (b : UInt8) : Scan :=
  match s.pending with
  | [] => .openWith s.pieces b
  | lead :: more =>
    if continues (lead :: more) b then
      let sequence := lead :: (more ++ [b])
      if sequence.length = width lead then
        { pieces := .scalar (Char.ofNat (codePoint sequence)) :: s.pieces }
      else
        { pending := sequence, pieces := s.pieces }
    else
      .openWith (.malformed (lead :: more) :: s.pieces) b

/-- The pieces at the end of input, where an unfinished sequence is malformed. -/
def Scan.finish (s : Scan) : List Piece :=
  match s.pending with
  | [] => s.pieces.reverse
  | pending => (.malformed pending :: s.pieces).reverse

/-- The pieces of a whole octet string, in order. -/
def pieces (octets : List UInt8) : List Piece :=
  (octets.foldl Scan.push {}).finish

/-! ## §3 Readers and writer -/

/-- Collect the characters of `pieces`, which start at offset `at`; fail with
the offset of the first malformed piece. -/
def collect (offset : Nat) (read : List Char) : List Piece → Except Nat (List Char)
  | [] => .ok read.reverse
  | .scalar c :: rest => collect (offset + c.utf8Size) (c :: read) rest
  | .malformed _ :: _ => .error offset

/-- Read octets as UTF-8, or fail with the offset of the first octet that is
not part of a well-formed sequence. -/
def decode (octets : List UInt8) : Except Nat (List Char) :=
  collect 0 [] (pieces octets)

/-- Number of characters a replacing reader sees. -/
def count (octets : List UInt8) : Nat := (pieces octets).length

/-- Write text as UTF-8. -/
def encode (text : List Char) : List UInt8 := text.flatMap String.utf8EncodeChar

end MarkerBlock.Encoding.Utf8
