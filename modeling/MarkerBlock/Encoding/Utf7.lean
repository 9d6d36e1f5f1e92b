/-
MarkerBlock.Encoding.Utf7 — the mail-safe encoding of RFC 2152.

Text is written with ASCII octets only.  A direct character stands for itself;
every other run of characters is a shift sequence: a `+`, the run's UTF-16
units in base-64 digits, and a closing `-`.  Outside a shift sequence `+-` is a
plain `+`.

* `BitBuffer` holds the bits that wait between a 16-bit unit and its 6-bit
  digits.  It is a 32-bit word; fewer than six bits wait when a unit arrives,
  and fewer than sixteen when a digit arrives, so no bit is ever pushed out.
* `encode` writes only the characters of the RFC's set D, space, tab, CR and LF
  directly, and closes every shift sequence with an explicit `-`.
* `decode` is strict: the padding bits at the end of a shift sequence must be
  fewer than six and all zero.
-/
import MarkerBlock.Encoding.Utf16

namespace MarkerBlock.Encoding.Utf7

/-! ## §1 Digits and direct characters -/

/-- Characters that stand for themselves. -/
def isDirect (c : Char) : Bool :=
  c.isAlphanum || "'(),-./:? \t\r\n".toList.contains c

/-- ASCII octet of the base-64 digit with the given value. -/
def digit (value : UInt32) : UInt8 :=
  let n := value.toNat
  if n < 26 then UInt8.ofNat (n + 65)
  else if n < 52 then UInt8.ofNat (n - 26 + 97)
  else if n < 62 then UInt8.ofNat (n - 52 + 48)
  else if n = 62 then 43
  else 47

/-- Value of a base-64 digit. -/
def digitValue (b : UInt8) : Option UInt32 :=
  let n := b.toNat
  if 65 ≤ n && n ≤ 90 then some (UInt32.ofNat (n - 65))
  else if 97 ≤ n && n ≤ 122 then some (UInt32.ofNat (n - 97 + 26))
  else if 48 ≤ n && n ≤ 57 then some (UInt32.ofNat (n - 48 + 52))
  else if n = 43 then some 62
  else if n = 47 then some 63
  else none

/-! ## §2 The bit buffer -/

/-- Bits waiting to be written or read: the low `size` bits of `bits`, the
oldest of them on top. -/
structure BitBuffer where
  bits : UInt32 := 0
  size : Nat := 0
deriving Repr, DecidableEq

/-- Append a value of `width` bits. -/
def BitBuffer.push (buffer : BitBuffer) (width : Nat) (value : UInt32) : BitBuffer :=
  { bits := (buffer.bits <<< UInt32.ofNat width) ||| value, size := buffer.size + width }

/-- The oldest `width` bits, as a number. -/
def BitBuffer.front (buffer : BitBuffer) (width : Nat) : UInt32 :=
  buffer.bits >>> UInt32.ofNat (buffer.size - width)

/-- The buffer without its oldest `width` bits. -/
def BitBuffer.dropFront (buffer : BitBuffer) (width : Nat) : BitBuffer :=
  let size := buffer.size - width
  { bits := buffer.bits &&& ((1 <<< UInt32.ofNat size) - 1), size }

/-- The last digit of a shift sequence: the waiting bits, filled up with zeros. -/
def BitBuffer.lastDigit (buffer : BitBuffer) : UInt32 :=
  buffer.bits <<< UInt32.ofNat (6 - buffer.size)

/-! ## §3 Writing -/

/-- State of the writer: the octets written so far, newest first, and the
waiting bits while a shift sequence is open. -/
structure Writer where
  written : List UInt8 := []
  shift : Option BitBuffer := none
deriving Repr, DecidableEq

/-- Write every complete digit of the buffer. -/
def drainDigits (written : List UInt8) (buffer : BitBuffer) : List UInt8 × BitBuffer :=
  if 6 ≤ buffer.size then
    drainDigits (digit (buffer.front 6) :: written) (buffer.dropFront 6)
  else
    (written, buffer)
termination_by buffer.size
decreasing_by simp only [BitBuffer.dropFront]; omega

/-- Write one unit inside a shift sequence. -/
def writeUnit (state : List UInt8 × BitBuffer) (unit : UInt16) : List UInt8 × BitBuffer :=
  drainDigits state.1 (state.2.push 16 unit.toUInt32)

/-- Write the last digit, if bits wait, and the closing `-`. -/
def closeShift (written : List UInt8) (buffer : BitBuffer) : List UInt8 :=
  if 0 < buffer.size then 45 :: digit buffer.lastDigit :: written else 45 :: written

/-- Write a character that is not direct inside a shift sequence. -/
def writeShifted (written : List UInt8) (buffer : BitBuffer) (c : Char) : Writer :=
  let (written, buffer) := (Utf16.unitsOf c).foldl writeUnit (written, buffer)
  { written, shift := some buffer }

/-- Write one character. -/
def Writer.push (w : Writer) (c : Char) : Writer :=
  match w.shift with
  | none =>
    if isDirect c then { written := UInt8.ofNat c.toNat :: w.written }
    else if c = '+' then { written := 45 :: 43 :: w.written }
    else writeShifted (43 :: w.written) {} c
  | some buffer =>
    if isDirect c then { written := UInt8.ofNat c.toNat :: closeShift w.written buffer }
    else writeShifted w.written buffer c

/-- The octets at the end of the text, where an open shift sequence is closed. -/
def Writer.finish (w : Writer) : List UInt8 :=
  match w.shift with
  | none => w.written.reverse
  | some buffer => (closeShift w.written buffer).reverse

/-- Write text as UTF-7. -/
def encode (text : List Char) : List UInt8 := (text.foldl Writer.push {}).finish

/-! ## §4 Reading -/

/-- Where the reader stands. -/
inductive Mode where
  /-- Outside a shift sequence. -/
  | direct
  /-- Just after the `+` at offset `start`. -/
  | opened (start : Nat)
  /-- In a shift sequence that began at offset `start` and has had a digit. -/
  | shifted (start : Nat) (buffer : BitBuffer)
deriving Repr, DecidableEq

/-- State of the reader: the offset of the next octet, the units read so far,
newest first, and the mode. -/
structure Reader where
  offset : Nat := 0
  units : List UInt16 := []
  mode : Mode := .direct
deriving Repr, DecidableEq

/-- Read an octet outside a shift sequence. -/
def Reader.pushDirect (r : Reader) (b : UInt8) : Except Nat Reader :=
  if 0x80 ≤ b then .error r.offset
  else if b = 43 then .ok { r with offset := r.offset + 1, mode := .opened r.offset }
  else .ok { offset := r.offset + 1, units := b.toUInt16 :: r.units, mode := .direct }

/-- Read a digit of the shift sequence that began at `start`. -/
def Reader.pushDigit (r : Reader) (start : Nat) (buffer : BitBuffer) (value : UInt32) : Reader :=
  let buffer := buffer.push 6 value
  if 16 ≤ buffer.size then
    { offset := r.offset + 1
      units := (buffer.front 16).toUInt16 :: r.units
      mode := .shifted start (buffer.dropFront 16) }
  else
    { r with offset := r.offset + 1, mode := .shifted start buffer }

/-- The bits left over at the end of a shift sequence are padding: fewer than
six, all zero. -/
def BitBuffer.isPadding (buffer : BitBuffer) : Bool := buffer.size < 6 && buffer.bits == 0

/-- Read an octet that ends the shift sequence begun at `start`: a `-` is
swallowed, anything else is read outside the sequence. -/
def Reader.endShift (r : Reader) (start : Nat) (buffer : BitBuffer) (b : UInt8) :
    Except Nat Reader :=
  if buffer.isPadding then
    if b = 45 then .ok { r with offset := r.offset + 1, mode := .direct }
    else r.pushDirect b
  else .error start

/-- Read one octet. -/
def Reader.push (r : Reader) (b : UInt8) : Except Nat Reader :=
  match r.mode with
  | .direct => r.pushDirect b
  | .opened start =>
    if b = 45 then
      .ok { offset := r.offset + 1, units := 43 :: r.units, mode := .direct }
    else
      match digitValue b with
      | some value => .ok (r.pushDigit start {} value)
      | none => r.pushDirect b
  | .shifted start buffer =>
    match digitValue b with
    | some value => .ok (r.pushDigit start buffer value)
    | none => r.endShift start buffer b

/-- The units at the end of input, which also ends an open shift sequence. -/
def Reader.finish (r : Reader) : Except Nat (List UInt16) :=
  match r.mode with
  | .shifted start buffer => if buffer.isPadding then .ok r.units.reverse else .error start
  | _ => .ok r.units.reverse

/-- Read octets as UTF-16 units. -/
def decodeUnits (octets : List UInt8) : Except Nat (List UInt16) := do
  (← octets.foldlM Reader.push {}).finish

/-- Read octets as text, or fail with the offset of the first fault: a
non-ASCII octet, the start of a shift sequence with bad padding, or the end of
input if the units hold an unpaired surrogate. -/
def decode (octets : List UInt8) : Except Nat (List Char) :=
  match decodeUnits octets with
  | .error offset => .error offset
  | .ok units =>
    match Utf16.decodeUnits units with
    | some text => .ok text
    | none => .error octets.length

end MarkerBlock.Encoding.Utf7
