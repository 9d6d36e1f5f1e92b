/-
MarkerBlock.Proofs.Encoding.Unbounded — the bit buffers of UTF-7 lose no bit.

`Unbounded` is the codec once more, with natural numbers in place of words of 32 bits.
Every operation on them is checked: a shift by the width of a word or more, a shift that
takes a set bit out of a word, a size below zero and a value without a digit all stop the
computation.  A word that holds its bits (`BitBuffer.Fits`) takes every step its natural
number takes, so the two codecs go through the same states, and the checks never fail
(`words_lose_no_bit`).

The sizes are what keeps the words from filling up.  Units have sixteen bits and digits six,
so a size is always even: between two characters fewer than six bits wait in the writer,
between two octets fewer than sixteen in the reader.
-/
import Mathlib
import MarkerBlock.Proofs.Encoding.BitBuffer
import MarkerBlock.Proofs.Encoding.Utf7

namespace MarkerBlock.Encoding.Utf7

/-! ## §1 The codec over natural numbers -/

namespace Unbounded

/-- Why the codec over natural numbers stops. -/
inductive Stop where
  /-- A fault of the octets, at this offset. -/
  | malformed (offset : Nat)
  /-- A word of 32 bits would not hold the number. -/
  | overflow
deriving Repr, DecidableEq

/-- A number shifted left by less than the width of a word, when no set bit leaves the word. -/
def shiftLeft (bits amount : Nat) : Except Stop Nat :=
  if amount < 32 ∧ bits <<< amount < 2 ^ 32 then .ok (bits <<< amount) else .error .overflow

/-- A number shifted right by less than the width of a word. -/
def shiftRight (bits amount : Nat) : Except Stop Nat :=
  if amount < 32 then .ok (bits >>> amount) else .error .overflow

/-- A difference that is not below zero. -/
def minus (n m : Nat) : Except Stop Nat := if m ≤ n then .ok (n - m) else .error .overflow

/-- The digits, in the order of their values. -/
def alphabet : List UInt8 :=
  "ABCDEFGHIJKLMNOPQRSTUVWXYZabcdefghijklmnopqrstuvwxyz0123456789+/".toList.map
    fun c => UInt8.ofNat c.toNat

/-- The digit with the given value, if there is one. -/
def digit (value : Nat) : Except Stop UInt8 :=
  match alphabet[value]? with
  | some octet => .ok octet
  | none => .error .overflow

/-- Waiting bits: the low `size` bits of `bits`, the oldest of them on top. -/
structure Buffer where
  bits : Nat := 0
  size : Nat := 0
deriving Repr, DecidableEq

def Buffer.push (buffer : Buffer) (width value : Nat) : Except Stop Buffer := do
  return { bits := (← shiftLeft buffer.bits width) ||| value, size := buffer.size + width }

def Buffer.front (buffer : Buffer) (width : Nat) : Except Stop Nat := do
  shiftRight buffer.bits (← minus buffer.size width)

/-- The last `size` bits of the buffer. -/
def Buffer.low (buffer : Buffer) (size : Nat) : Except Stop Nat := do
  return buffer.bits &&& (← minus (← shiftLeft 1 size) 1)

def Buffer.lastDigit (buffer : Buffer) : Except Stop Nat := do
  shiftLeft buffer.bits (← minus 6 buffer.size)

/-- State of the writer. -/
structure Writer where
  written : List UInt8 := []
  shift : Option Buffer := none
deriving Repr, DecidableEq

def drainDigits (written : List UInt8) (buffer : Buffer) : Except Stop (List UInt8 × Buffer) :=
  if 6 ≤ buffer.size then do
    let octet ← digit (← buffer.front 6)
    let bits ← buffer.low (buffer.size - 6)
    drainDigits (octet :: written) { bits, size := buffer.size - 6 }
  else
    .ok (written, buffer)
termination_by buffer.size

def writeUnit (state : List UInt8 × Buffer) (unit : UInt16) : Except Stop (List UInt8 × Buffer) := do
  drainDigits state.1 (← state.2.push 16 unit.toNat)

def closeShift (written : List UInt8) (buffer : Buffer) : Except Stop (List UInt8) := do
  if 0 < buffer.size then
    return 45 :: (← digit (← buffer.lastDigit)) :: written
  else
    return 45 :: written

def writeShifted (written : List UInt8) (buffer : Buffer) (c : Char) : Except Stop Writer := do
  let (written, buffer) ← (Utf16.unitsOf c).foldlM writeUnit (written, buffer)
  return { written, shift := some buffer }

def Writer.push (w : Writer) (c : Char) : Except Stop Writer :=
  match w.shift with
  | none =>
    if isDirect c then .ok { written := UInt8.ofNat c.toNat :: w.written }
    else if c = '+' then .ok { written := 45 :: 43 :: w.written }
    else writeShifted (43 :: w.written) {} c
  | some buffer =>
    if isDirect c then do
      return { written := UInt8.ofNat c.toNat :: (← closeShift w.written buffer) }
    else writeShifted w.written buffer c

def Writer.finish (w : Writer) : Except Stop (List UInt8) :=
  match w.shift with
  | none => .ok w.written.reverse
  | some buffer => do return (← closeShift w.written buffer).reverse

/-- Write text as UTF-7. -/
def encode (text : List Char) : Except Stop (List UInt8) := do
  (← text.foldlM Writer.push {}).finish

/-- Where the reader stands. -/
inductive Mode where
  | direct
  | opened (start : Nat)
  | shifted (start : Nat) (buffer : Buffer)
deriving Repr, DecidableEq

/-- State of the reader. -/
structure Reader where
  offset : Nat := 0
  units : List UInt16 := []
  mode : Mode := .direct
deriving Repr, DecidableEq

/-- A number as a unit, if a unit holds it. -/
def toUnit (value : Nat) : Except Stop UInt16 :=
  if value < 2 ^ 16 then .ok (UInt16.ofNat value) else .error .overflow

def Reader.pushDirect (r : Reader) (b : UInt8) : Except Stop Reader :=
  if 0x80 ≤ b then .error (.malformed r.offset)
  else if b = 43 then .ok { r with offset := r.offset + 1, mode := .opened r.offset }
  else .ok { offset := r.offset + 1, units := b.toUInt16 :: r.units, mode := .direct }

def Reader.pushDigit (r : Reader) (start : Nat) (buffer : Buffer) (value : Nat) :
    Except Stop Reader := do
  let buffer ← buffer.push 6 value
  if 16 ≤ buffer.size then
    let unit ← toUnit (← buffer.front 16)
    let bits ← buffer.low (buffer.size - 16)
    return { offset := r.offset + 1
             units := unit :: r.units
             mode := .shifted start { bits, size := buffer.size - 16 } }
  else
    return { r with offset := r.offset + 1, mode := .shifted start buffer }

def Buffer.isPadding (buffer : Buffer) : Bool := buffer.size < 6 && buffer.bits == 0

def Reader.endShift (r : Reader) (start : Nat) (buffer : Buffer) (b : UInt8) : Except Stop Reader :=
  if buffer.isPadding then
    if b = 45 then .ok { r with offset := r.offset + 1, mode := .direct }
    else r.pushDirect b
  else .error (.malformed start)

def Reader.push (r : Reader) (b : UInt8) : Except Stop Reader :=
  match r.mode with
  | .direct => r.pushDirect b
  | .opened start =>
    if b = 45 then
      .ok { offset := r.offset + 1, units := 43 :: r.units, mode := .direct }
    else
      match digitValue b with
      | some value => r.pushDigit start {} value.toNat
      | none => r.pushDirect b
  | .shifted start buffer =>
    match digitValue b with
    | some value => r.pushDigit start buffer value.toNat
    | none => r.endShift start buffer b

def Reader.finish (r : Reader) : Except Stop (List UInt16) :=
  match r.mode with
  | .shifted start buffer =>
    if buffer.isPadding then .ok r.units.reverse else .error (.malformed start)
  | _ => .ok r.units.reverse

/-- Read octets as UTF-16 units. -/
def decodeUnits (octets : List UInt8) : Except Stop (List UInt16) := do
  (← octets.foldlM Reader.push {}).finish

/-- Read octets as text. -/
def decode (octets : List UInt8) : Except Stop (List Char) := do
  match Utf16.decodeUnits (← decodeUnits octets) with
  | some text => return text
  | none => .error (.malformed octets.length)

end Unbounded

/-! ## §2 Words and their numbers -/

namespace BitBuffer

variable {b : BitBuffer}

/-- The buffer with its word as a natural number. -/
def unbounded (b : BitBuffer) : Unbounded.Buffer := { bits := b.bits.toNat, size := b.size }

/-- What is pushed into a word does not push a bit out of it. -/
theorem unbounded_push (hb : b.Fits) {width : Nat} (hsize : b.size + width < 32) {v : UInt32}
    (hv : v.toNat < 2 ^ width) : b.unbounded.push width v.toNat = .ok (b.push width v).unbounded := by
  have hbits : b.bits.toNat <<< width ||| v.toNat = (b.push width v).bits.toNat := by
    rw [toNat_push hb hsize hv, ← Nat.shiftLeft_add_eq_or_of_lt hv, Nat.shiftLeft_eq]
  have hword : b.bits.toNat <<< width < 2 ^ 32 :=
    lt_of_le_of_lt (Nat.left_le_or.trans_eq hbits) (b.push width v).bits.toNat_lt
  have hwidth : width < 32 := by omega
  rw [Unbounded.Buffer.push, Unbounded.shiftLeft, if_pos ⟨hwidth, hword⟩]
  show Except.ok (⟨b.bits.toNat <<< width ||| v.toNat, b.size + width⟩ : Unbounded.Buffer) = _
  rw [hbits]
  rfl

theorem unbounded_front (hb : b.Fits) {width : Nat} (hwidth : width ≤ b.size) :
    b.unbounded.front width = .ok (b.front width).toNat := by
  have hsize := hb.size_lt
  have hamount : b.size - width < 32 := by omega
  rw [toNat_front hb, Unbounded.Buffer.front, Unbounded.minus]
  show (if width ≤ b.size then Except.ok (b.size - width) else _) >>= _ = _
  rw [if_pos hwidth]
  exact if_pos hamount

/-- A mask for fewer bits than a word has is a word. -/
theorem unbounded_low (hb : b.Fits) (width : Nat) :
    b.unbounded.low (b.size - width) = .ok (b.dropFront width).bits.toNat := by
  have hsize := hb.size_lt
  have hamount : b.size - width < 32 := by omega
  have hword : 1 <<< (b.size - width) < 2 ^ 32 := by
    rw [Nat.one_shiftLeft]
    exact Nat.pow_lt_pow_right (by decide) hamount
  have hone : 1 ≤ 1 <<< (b.size - width) := by
    rw [Nat.one_shiftLeft]
    exact Nat.one_le_two_pow
  rw [toNat_dropFront hb, ← Nat.and_two_pow_sub_one_eq_mod, ← Nat.one_shiftLeft,
    Unbounded.Buffer.low, Unbounded.shiftLeft, if_pos ⟨hamount, hword⟩]
  show Unbounded.minus (1 <<< (b.size - width)) 1 >>= _ = _
  rw [Unbounded.minus, if_pos hone]
  rfl

theorem unbounded_lastDigit (hb : b.Fits) (hsize : b.size ≤ 6) :
    b.unbounded.lastDigit = .ok b.lastDigit.toNat := by
  obtain ⟨hbits, hlt⟩ := toNat_lastDigit hb hsize
  rw [← Nat.shiftLeft_eq] at hbits
  have hword : b.bits.toNat <<< (6 - b.size) < 2 ^ 32 := by omega
  have hamount : 6 - b.size < 32 := by omega
  rw [hbits, Unbounded.Buffer.lastDigit, Unbounded.minus]
  show (if b.size ≤ 6 then Except.ok (6 - b.size) else _) >>= _ = _
  rw [if_pos hsize]
  exact if_pos ⟨hamount, hword⟩

theorem unbounded_isPadding (b : BitBuffer) : b.unbounded.isPadding = b.isPadding := by
  have hzero : (b.bits.toNat == 0) = (b.bits == 0) := by
    rw [Bool.eq_iff_iff, beq_iff_eq, beq_iff_eq]
    exact UInt32.toNat_inj (b := 0)
  rw [Unbounded.Buffer.isPadding, isPadding, ← hzero]
  rfl

end BitBuffer

/-- Every value below 64 has its digit in the alphabet. -/
theorem unbounded_digit {v : UInt32} (h : v.toNat < 64) : Unbounded.digit v.toNat = .ok (digit v) := by
  have hall : ∀ n < 64, Unbounded.alphabet[n]? = some (digit (UInt32.ofNat n)) := by decide +kernel
  have hv := hall v.toNat h
  rw [UInt32.ofNat_toNat] at hv
  rw [Unbounded.digit, hv]

/-! ## §3 Writing -/

/-- Few bits wait: all of them in the word, an even number of them, fewer than `bound`. -/
structure BitBuffer.FewWait (bound : Nat) (b : BitBuffer) : Prop where
  bits_lt : b.bits.toNat < 2 ^ b.size
  even : Even b.size
  size_lt : b.size < bound

theorem BitBuffer.FewWait.fits {bound : Nat} {b : BitBuffer} (h : b.FewWait bound)
    (hbound : bound ≤ 32) : b.Fits :=
  ⟨h.bits_lt, lt_of_lt_of_le h.size_lt hbound⟩

theorem BitBuffer.fewWait_empty {bound : Nat} (hbound : 0 < bound) : FewWait bound {} :=
  ⟨Nat.zero_lt_one, Even.zero, hbound⟩

/-- Digits take an even number of bits out of the buffer. -/
theorem Writes.fewWait {bits : List Bool} {s s' : List UInt8 × BitBuffer} (h : Writes bits s s')
    (hs : Even s.2.size) (hbits : Even bits.length) : s'.2.FewWait 6 := by
  obtain ⟨ds, -, -, hfits, hsize, hall⟩ := h
  have hdigits : (digitBits ds).length = 6 * ds.length := by
    rw [digitBits, List.length_flatMap]
    simp [Nat.mul_comm]
  have hlength := congrArg List.length hall
  rw [List.length_append, List.length_append, hdigits, BitBuffer.length_view,
    BitBuffer.length_view] at hlength
  refine ⟨hfits.bits_lt, ?_, hsize⟩
  rw [Nat.even_iff] at hs hbits ⊢
  omega

/-- Octets written and a buffer, with its word as a natural number. -/
def unboundedPair (s : List UInt8 × BitBuffer) : List UInt8 × Unbounded.Buffer :=
  (s.1, s.2.unbounded)

theorem unbounded_drainDigits {written : List UInt8} {b : BitBuffer} (hb : b.Fits) :
    Unbounded.drainDigits written b.unbounded = .ok (unboundedPair (drainDigits written b)) := by
  fun_induction drainDigits written b with
  | case1 written b hsize ih =>
    have hdigit := unbounded_digit (BitBuffer.front_lt hb hsize)
    have hfull : 6 ≤ b.unbounded.size := hsize
    rw [Unbounded.drainDigits, if_pos hfull, BitBuffer.unbounded_front hb hsize]
    show Unbounded.digit (b.front 6).toNat >>= _ = _
    rw [hdigit]
    show b.unbounded.low (b.size - 6) >>= _ = _
    rw [BitBuffer.unbounded_low hb 6]
    exact ih (hb.dropFront 6)
  | case2 written b hsize =>
    rw [Unbounded.drainDigits]
    exact if_neg hsize

theorem unbounded_writeUnit {s : List UInt8 × BitBuffer} (hs : s.2.FewWait 6) (u : UInt16) :
    Unbounded.writeUnit (unboundedPair s) u = .ok (unboundedPair (writeUnit s u)) ∧
      (writeUnit s u).2.FewWait 6 := by
  have hfits := hs.fits (by decide)
  have hsize := hs.size_lt
  have hu : u.toUInt32.toNat < 2 ^ 16 := by
    rw [UInt16.toNat_toUInt32]
    exact u.toNat_lt
  have hpush := BitBuffer.unbounded_push hfits (by omega) hu
  rw [UInt16.toNat_toUInt32] at hpush
  constructor
  · rw [Unbounded.writeUnit]
    show s.2.unbounded.push 16 u.toNat >>= _ = _
    rw [hpush]
    exact unbounded_drainDigits (hfits.push (by omega) hu)
  · exact (writes_writeUnit hfits hsize u).fewWait hs.even (by rw [length_bitsOf]; decide)

theorem unbounded_units {s : List UInt8 × BitBuffer} (hs : s.2.FewWait 6) (us : List UInt16) :
    us.foldlM Unbounded.writeUnit (unboundedPair s) = .ok (unboundedPair (us.foldl writeUnit s)) ∧
      (us.foldl writeUnit s).2.FewWait 6 := by
  induction us generalizing s with
  | nil => exact ⟨rfl, hs⟩
  | cons u us ih =>
    obtain ⟨hunit, hfew⟩ := unbounded_writeUnit hs u
    rw [List.foldlM_cons, hunit]
    exact ih hfew

theorem unbounded_closeShift (written : List UInt8) {b : BitBuffer} (hb : b.FewWait 6) :
    Unbounded.closeShift written b.unbounded = .ok (closeShift written b) := by
  have hfits := hb.fits (by decide)
  have hsize := hb.size_lt.le
  rw [Unbounded.closeShift, closeShift]
  show (if 0 < b.size then _ else _) = _
  split
  · rw [BitBuffer.unbounded_lastDigit hfits hsize]
    show Unbounded.digit b.lastDigit.toNat >>= _ = _
    rw [unbounded_digit (BitBuffer.toNat_lastDigit hfits hsize).2]
    rfl
  · rfl

/-- The writer with its word as a natural number. -/
def Writer.unbounded (w : Writer) : Unbounded.Writer :=
  { written := w.written, shift := w.shift.map BitBuffer.unbounded }

/-- Few bits wait in the writer, if any do. -/
def Writer.FewWait (w : Writer) : Prop := ∀ b ∈ w.shift, b.FewWait 6

theorem Writer.fewWait_of_none {w : Writer} (h : w.shift = none) : w.FewWait := by
  intro b hb
  rw [h] at hb
  cases hb

theorem unbounded_writeShifted (written : List UInt8) {b : BitBuffer} (hb : b.FewWait 6) (c : Char) :
    Unbounded.writeShifted written b.unbounded c = .ok (writeShifted written b c).unbounded ∧
      (writeShifted written b c).FewWait := by
  obtain ⟨hunits, hfew⟩ := unbounded_units (s := (written, b)) hb (Utf16.unitsOf c)
  constructor
  · rw [Unbounded.writeShifted]
    show (Utf16.unitsOf c).foldlM Unbounded.writeUnit (unboundedPair (written, b)) >>= _ = _
    rw [hunits]
    rfl
  · intro buffer hbuffer
    cases hbuffer
    exact hfew

theorem unbounded_writer_push {w : Writer} (hw : w.FewWait) (c : Char) :
    w.unbounded.push c = .ok (w.push c).unbounded ∧ (w.push c).FewWait := by
  obtain ⟨written, shift⟩ := w
  rw [Writer.push, Unbounded.Writer.push, Writer.unbounded]
  cases shift with
  | none =>
    simp only [Option.map_none]
    split_ifs
    · exact ⟨rfl, Writer.fewWait_of_none rfl⟩
    · exact ⟨rfl, Writer.fewWait_of_none rfl⟩
    · exact unbounded_writeShifted (43 :: written) (BitBuffer.fewWait_empty (by decide)) c
  | some b =>
    have hb : b.FewWait 6 := hw b rfl
    simp only [Option.map_some]
    split_ifs
    · refine ⟨?_, Writer.fewWait_of_none rfl⟩
      rw [unbounded_closeShift written hb]
      rfl
    · exact unbounded_writeShifted written hb c

theorem unbounded_writer {w : Writer} (hw : w.FewWait) (text : List Char) :
    text.foldlM Unbounded.Writer.push w.unbounded = .ok (text.foldl Writer.push w).unbounded ∧
      (text.foldl Writer.push w).FewWait := by
  induction text generalizing w with
  | nil => exact ⟨rfl, hw⟩
  | cons c text ih =>
    obtain ⟨hpush, hfew⟩ := unbounded_writer_push hw c
    rw [List.foldlM_cons, hpush]
    exact ih hfew

theorem fewWait_writer (text : List Char) : (text.foldl Writer.push {}).FewWait :=
  (unbounded_writer (w := {}) (Writer.fewWait_of_none rfl) text).2

theorem unbounded_encode (text : List Char) : Unbounded.encode text = .ok (encode text) := by
  have hrun : text.foldlM Unbounded.Writer.push {} = .ok (text.foldl Writer.push {}).unbounded :=
    (unbounded_writer (w := {}) (Writer.fewWait_of_none rfl) text).1
  have hfew := fewWait_writer text
  rw [Unbounded.encode, encode, hrun]
  generalize text.foldl Writer.push {} = w at hfew
  obtain ⟨written, shift⟩ := w
  cases shift with
  | none => rfl
  | some b =>
    show Unbounded.closeShift written b.unbounded >>= _ = _
    rw [unbounded_closeShift written (hfew b rfl)]
    rfl

/-! ## §4 Reading -/

/-- Where the reader stands, with its word as a natural number. -/
def Mode.unbounded : Mode → Unbounded.Mode
  | .direct => .direct
  | .opened start => .opened start
  | .shifted start b => .shifted start b.unbounded

/-- The reader with its word as a natural number. -/
def Reader.unbounded (r : Reader) : Unbounded.Reader :=
  { offset := r.offset, units := r.units, mode := r.mode.unbounded }

/-- Few bits wait in the reader, if any do. -/
def Reader.FewWait (r : Reader) : Prop := ∀ start b, r.mode = .shifted start b → b.FewWait 16

theorem Reader.fewWait_of_direct {r : Reader} (h : r.mode = .direct) : r.FewWait := by
  intro start b hmode
  cases h.symm.trans hmode

theorem Reader.fewWait_of_opened {r : Reader} {start : Nat} (h : r.mode = .opened start) :
    r.FewWait := by
  intro start b hmode
  cases h.symm.trans hmode

/-- What the codec over natural numbers gives where this one gives `result`. -/
def unboundedResult {α β : Type} (f : α → β) : Except Nat α → Except Unbounded.Stop β
  | .ok a => .ok (f a)
  | .error offset => .error (.malformed offset)

/-- The two readers go on alike, and few bits wait. -/
def StepAgrees (result : Except Nat Reader) (result' : Except Unbounded.Stop Unbounded.Reader) :
    Prop :=
  result' = unboundedResult Reader.unbounded result ∧ ∀ r, result = .ok r → r.FewWait

theorem stepAgrees_error (offset : Nat) :
    StepAgrees (.error offset) (.error (.malformed offset)) := by
  refine ⟨rfl, ?_⟩
  rintro _ ⟨⟩

theorem stepAgrees_ok {r : Reader} (h : r.FewWait) : StepAgrees (.ok r) (.ok r.unbounded) := by
  refine ⟨rfl, ?_⟩
  rintro _ ⟨⟩
  exact h

theorem stepAgrees_pushDirect (r : Reader) (b : UInt8) :
    StepAgrees (r.pushDirect b) (r.unbounded.pushDirect b) := by
  rw [Reader.pushDirect, Unbounded.Reader.pushDirect]
  split_ifs
  · exact stepAgrees_error r.offset
  · exact stepAgrees_ok (r := { r with offset := r.offset + 1, mode := .opened r.offset })
      (Reader.fewWait_of_opened rfl)
  · exact stepAgrees_ok
      (r := { offset := r.offset + 1, units := b.toUInt16 :: r.units, mode := .direct })
      (Reader.fewWait_of_direct rfl)

theorem stepAgrees_pushDigit (r : Reader) (start : Nat) {b : BitBuffer} (hb : b.FewWait 16)
    {v : UInt32} (hv : v.toNat < 64) :
    StepAgrees (.ok (r.pushDigit start b v))
      (r.unbounded.pushDigit start b.unbounded v.toNat) := by
  have hfits := hb.fits (by decide)
  have hroom : b.size + 6 < 32 := by
    have hsize := hb.size_lt
    omega
  have hvalue : v.toNat < 2 ^ 6 := hv
  have hpush := hfits.push hroom hvalue
  have hsize : (b.push 6 v).size = b.size + 6 := rfl
  have heven : Even (b.push 6 v).size := hb.even.add (by decide)
  rw [Reader.pushDigit, Unbounded.Reader.pushDigit, BitBuffer.unbounded_push hfits hroom hvalue]
  show StepAgrees _ (if 16 ≤ (b.push 6 v).size then _ else _)
  split_ifs with hfull
  · have hunit : Unbounded.toUnit ((b.push 6 v).front 16).toNat = .ok ((b.push 6 v).front 16).toUInt16 :=
      if_pos (BitBuffer.front_lt hpush hfull)
    have hlow := BitBuffer.unbounded_low hpush 16
    rw [BitBuffer.unbounded_front hpush hfull]
    show StepAgrees _ (Unbounded.toUnit ((b.push 6 v).front 16).toNat >>= _)
    rw [hunit]
    show StepAgrees _ ((b.push 6 v).unbounded.low ((b.push 6 v).size - 16) >>= _)
    rw [hlow]
    refine stepAgrees_ok (r := ⟨_, _, .shifted start ((b.push 6 v).dropFront 16)⟩) ?_
    rintro _ _ ⟨⟩
    refine ⟨(hpush.dropFront 16).bits_lt, ?_, ?_⟩
    · exact (Nat.even_sub hfull).mpr ⟨fun _ => by decide, fun _ => heven⟩
    · have hlt := hb.size_lt
      show (b.push 6 v).size - 16 < 16
      omega
  · refine stepAgrees_ok (r := { r with offset := r.offset + 1, mode := .shifted start (b.push 6 v) }) ?_
    rintro _ _ ⟨⟩
    exact ⟨hpush.bits_lt, heven, Nat.lt_of_not_le hfull⟩

theorem stepAgrees_endShift (r : Reader) (start : Nat) (buffer : BitBuffer) (b : UInt8) :
    StepAgrees (r.endShift start buffer b) (r.unbounded.endShift start buffer.unbounded b) := by
  rw [Reader.endShift, Unbounded.Reader.endShift, BitBuffer.unbounded_isPadding]
  split_ifs
  · exact stepAgrees_ok (r := { r with offset := r.offset + 1, mode := .direct })
      (Reader.fewWait_of_direct rfl)
  · exact stepAgrees_pushDirect r b
  · exact stepAgrees_error start

theorem stepAgrees_push {r : Reader} (hr : r.FewWait) (b : UInt8) :
    StepAgrees (r.push b) (r.unbounded.push b) := by
  rw [Reader.push, Unbounded.Reader.push]
  show StepAgrees _ (match r.mode.unbounded with
    | .direct => _
    | .opened start => _
    | .shifted start buffer => _)
  cases hmode : r.mode with
  | direct => exact stepAgrees_pushDirect r b
  | opened start =>
    simp only [Mode.unbounded]
    split_ifs
    · exact stepAgrees_ok
        (r := { offset := r.offset + 1, units := 43 :: r.units, mode := .direct })
        (Reader.fewWait_of_direct rfl)
    · cases hvalue : digitValue b with
      | none => exact stepAgrees_pushDirect r b
      | some v =>
        exact stepAgrees_pushDigit r start (BitBuffer.fewWait_empty (by decide)) (digitValue_lt hvalue)
  | shifted start buffer =>
    simp only [Mode.unbounded]
    cases hvalue : digitValue b with
    | none => exact stepAgrees_endShift r start buffer b
    | some v => exact stepAgrees_pushDigit r start (hr start buffer hmode) (digitValue_lt hvalue)

theorem runAgrees {r : Reader} (hr : r.FewWait) (octets : List UInt8) :
    StepAgrees (octets.foldlM Reader.push r) (octets.foldlM Unbounded.Reader.push r.unbounded) := by
  induction octets generalizing r with
  | nil => exact stepAgrees_ok hr
  | cons b octets ih =>
    obtain ⟨hpush, hfew⟩ := stepAgrees_push hr b
    rw [List.foldlM_cons, List.foldlM_cons, hpush]
    cases hb : r.push b with
    | error offset => exact stepAgrees_error offset
    | ok r' => exact ih (hfew r' hb)

theorem runAgrees_start (octets : List UInt8) :
    StepAgrees (octets.foldlM Reader.push {}) (octets.foldlM Unbounded.Reader.push {}) :=
  runAgrees (r := {}) (Reader.fewWait_of_direct rfl) octets

theorem unbounded_reader_finish (r : Reader) :
    r.unbounded.finish = unboundedResult id r.finish := by
  rw [Reader.finish, Unbounded.Reader.finish]
  show (match r.mode.unbounded with
    | .shifted start buffer => _
    | _ => _) = _
  cases r.mode with
  | direct => rfl
  | opened start => rfl
  | shifted start b =>
    simp only [Mode.unbounded, BitBuffer.unbounded_isPadding]
    split_ifs <;> rfl

theorem unbounded_decodeUnits (octets : List UInt8) :
    Unbounded.decodeUnits octets = unboundedResult id (decodeUnits octets) := by
  rw [Unbounded.decodeUnits, decodeUnits, (runAgrees_start octets).1]
  cases octets.foldlM Reader.push {} with
  | error offset => rfl
  | ok r => exact unbounded_reader_finish r

theorem unbounded_decode (octets : List UInt8) :
    Unbounded.decode octets = unboundedResult id (decode octets) := by
  rw [Unbounded.decode, decode, unbounded_decodeUnits]
  cases decodeUnits octets with
  | error offset => rfl
  | ok us =>
    simp only [unboundedResult, id_eq]
    show (match Utf16.decodeUnits us with
      | some text => _
      | none => _) = _
    cases Utf16.decodeUnits us with
    | none => rfl
    | some text => rfl

/-! ## §5 No bit is lost -/

/-- Between two characters the writer's word holds its 0, 2 or 4 waiting bits, between two
octets the reader's word holds an even number of them below sixteen.  Written or read, the
codec over natural numbers, which stops at a shift by the width of a word, at a bit that
leaves the word, below zero and at a value that has no digit, gives the same. -/
theorem words_lose_no_bit :
    (∀ (text : List Char) (n : Nat), ∀ b ∈ ((text.take n).foldl Writer.push {}).shift,
        b.bits.toNat < 2 ^ b.size ∧ b.size ∈ [0, 2, 4]) ∧
      (∀ text : List Char, Unbounded.encode text = .ok (encode text)) ∧
      (∀ (octets : List UInt8) (n : Nat) (r : Reader) (start : Nat) (b : BitBuffer),
        (octets.take n).foldlM Reader.push {} = .ok r → r.mode = .shifted start b →
          b.bits.toNat < 2 ^ b.size ∧ Even b.size ∧ b.size < 16) ∧
      ∀ octets : List UInt8, Unbounded.decode octets =
        match decode octets with
        | .ok text => .ok text
        | .error offset => .error (.malformed offset) := by
  refine ⟨?_, unbounded_encode, ?_, ?_⟩
  · intro text n b hb
    obtain ⟨hbits, heven, hsize⟩ := fewWait_writer (text.take n) b hb
    obtain ⟨half, hhalf⟩ := heven
    refine ⟨hbits, ?_⟩
    simp only [List.mem_cons, List.not_mem_nil, or_false]
    omega
  · intro octets n r start b hr hmode
    obtain ⟨hbits, heven, hsize⟩ := (runAgrees_start (octets.take n)).2 r hr start b hmode
    exact ⟨hbits, heven, hsize⟩
  · intro octets
    rw [unbounded_decode]
    cases decode octets <;> rfl

end MarkerBlock.Encoding.Utf7
