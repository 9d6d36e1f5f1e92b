/-
MarkerBlock.Proofs.Encoding.BitBuffer — the waiting bits as a list.

A buffer is looked at through `BitBuffer.view`, its bits with the oldest first.
Seen so, `push` puts the bits of a value at the end, `front` and `dropFront` split
the list, and `lastDigit` fills it up with zeros.  All of it holds for buffers that
have no bit outside their size (`BitBuffer.Fits`), which is every buffer that
writing and reading make.
-/
import Mathlib
import MarkerBlock.Encoding.Utf7

namespace MarkerBlock.Encoding.Utf7

/-! ## §1 Bits of a number -/

/-- The low `width` bits of a number, the highest first. -/
def bitsOf : Nat → Nat → List Bool
  | 0, _ => []
  | width + 1, n => n.testBit width :: bitsOf width n

@[simp] theorem length_bitsOf (width n : Nat) : (bitsOf width n).length = width := by
  induction width with
  | zero => rfl
  | succ width ih => rw [bitsOf, List.length_cons, ih]

theorem bitsOf_congr {width n m : Nat} (h : ∀ i < width, n.testBit i = m.testBit i) :
    bitsOf width n = bitsOf width m := by
  induction width with
  | zero => rfl
  | succ width ih =>
    rw [bitsOf, bitsOf, h width (Nat.lt_succ_self width),
      ih fun i hi => h i (Nat.lt_succ_of_lt hi)]

/-- Higher bits stand before lower ones. -/
theorem bitsOf_add (a b n : Nat) : bitsOf (a + b) n = bitsOf a (n >>> b) ++ bitsOf b n := by
  induction a with
  | zero => rw [Nat.zero_add]; rfl
  | succ a ih =>
    rw [Nat.succ_add, bitsOf, ih, bitsOf, Nat.testBit_shiftRight, List.cons_append, Nat.add_comm b a]

theorem bitsOf_mod (width n : Nat) : bitsOf width (n % 2 ^ width) = bitsOf width n := by
  refine bitsOf_congr fun i hi => ?_
  rw [Nat.testBit_mod_two_pow, decide_eq_true hi, Bool.true_and]

/-- The bits of two numbers one after the other. -/
theorem bitsOf_mul_add {width v : Nat} (hv : v < 2 ^ width) (a n : Nat) :
    bitsOf (a + width) (n * 2 ^ width + v) = bitsOf a n ++ bitsOf width v := by
  have hhigh : (n * 2 ^ width + v) >>> width = n := by
    rw [Nat.shiftRight_eq_div_pow, Nat.mul_comm, Nat.mul_add_div (Nat.two_pow_pos width),
      Nat.div_eq_of_lt hv, Nat.add_zero]
  have hlow : (n * 2 ^ width + v) % 2 ^ width = v := by
    rw [Nat.mul_comm, Nat.mul_add_mod, Nat.mod_eq_of_lt hv]
  rw [bitsOf_add, hhigh, ← bitsOf_mod width (n * 2 ^ width + v), hlow]

theorem bitsOf_zero (width : Nat) : bitsOf width 0 = List.replicate width false := by
  induction width with
  | zero => rfl
  | succ width ih => rw [bitsOf, Nat.zero_testBit, ih, List.replicate_succ]

/-- A number that fits is known from its bits. -/
theorem bitsOf_inj {width n m : Nat} (hn : n < 2 ^ width) (hm : m < 2 ^ width)
    (h : bitsOf width n = bitsOf width m) : n = m := by
  induction width generalizing n m with
  | zero => omega
  | succ width ih =>
    rw [bitsOf, bitsOf, List.cons_eq_cons] at h
    obtain ⟨htop, hrest⟩ := h
    have hlow : n % 2 ^ width = m % 2 ^ width := by
      refine ih (Nat.mod_lt _ (Nat.two_pow_pos _)) (Nat.mod_lt _ (Nat.two_pow_pos _)) ?_
      rw [bitsOf_mod, bitsOf_mod, hrest]
    rw [Nat.testBit_eq_decide_div_mod_eq, Nat.testBit_eq_decide_div_mod_eq, decide_eq_decide] at htop
    have hn' : n / 2 ^ width < 2 := Nat.div_lt_of_lt_mul (by rw [← Nat.pow_succ]; exact hn)
    have hm' : m / 2 ^ width < 2 := Nat.div_lt_of_lt_mul (by rw [← Nat.pow_succ]; exact hm)
    have hbit : ∀ a b : Nat, a < 2 → b < 2 → (a % 2 = 1 ↔ b % 2 = 1) → a = b := by omega
    have hhigh := hbit _ _ hn' hm' htop
    rw [← Nat.div_add_mod n (2 ^ width), ← Nat.div_add_mod m (2 ^ width), hlow, hhigh]

/-! ## §2 Digits -/

/-- A digit is read as the value it was written for. -/
theorem digitValue_digit {v : UInt32} (h : v.toNat < 64) : digitValue (digit v) = some v := by
  have hall : ∀ n < 64, digitValue (digit (UInt32.ofNat n)) = some (UInt32.ofNat n) := by decide
  have hv := hall v.toNat h
  rwa [UInt32.ofNat_toNat] at hv

theorem digitValue_lt {b : UInt8} {v : UInt32} (h : digitValue b = some v) : v.toNat < 64 := by
  have hall : ∀ n < 256, (digitValue (UInt8.ofNat n)).all (fun v => v.toNat < 64) = true := by
    decide +kernel
  have hb := hall b.toNat b.toNat_lt
  rw [UInt8.ofNat_toNat, h] at hb
  exact of_decide_eq_true hb

theorem digitValue_ascii {b : UInt8} {v : UInt32} (h : digitValue b = some v) : b < 0x80 := by
  have hall : ∀ n < 256, digitValue (UInt8.ofNat n) = none ∨ UInt8.ofNat n < 0x80 := by
    decide +kernel
  have hb := hall b.toNat b.toNat_lt
  rw [UInt8.ofNat_toNat, h] at hb
  exact hb.resolve_left (Option.some_ne_none v)

/-! ## §3 Buffers -/

namespace BitBuffer

/-- The buffer has no bit outside its size. -/
structure Fits (b : BitBuffer) : Prop where
  bits_lt : b.bits.toNat < 2 ^ b.size
  size_lt : b.size < 32

/-- The waiting bits, the oldest first. -/
def view (b : BitBuffer) : List Bool := bitsOf b.size b.bits.toNat

variable {b : BitBuffer}

@[simp] theorem length_view (b : BitBuffer) : b.view.length = b.size := length_bitsOf _ _

theorem fits_empty : Fits {} := ⟨by decide, by decide⟩

/-- Shifts by less than the width of a word are what they say. -/
theorem shift_mod {n : Nat} (h : n < 32) : (UInt32.ofNat n).toNat % 32 = n := by
  rw [UInt32.toNat_ofNat']
  omega

theorem toNat_push (hb : b.Fits) {width : Nat} (hsize : b.size + width < 32) {v : UInt32}
    (hv : v.toNat < 2 ^ width) : (b.push width v).bits.toNat = b.bits.toNat * 2 ^ width + v.toNat := by
  have hwidth : width < 32 := by omega
  have hlt : b.bits.toNat * 2 ^ width < 2 ^ 32 := by
    calc b.bits.toNat * 2 ^ width < 2 ^ b.size * 2 ^ width :=
          Nat.mul_lt_mul_of_pos_right hb.bits_lt (Nat.two_pow_pos width)
      _ = 2 ^ (b.size + width) := (Nat.pow_add 2 b.size width).symm
      _ ≤ 2 ^ 32 := Nat.pow_le_pow_right (by decide) (by omega)
  rw [push, UInt32.toNat_or, UInt32.toNat_shiftLeft, shift_mod hwidth, Nat.shiftLeft_eq, Nat.mod_eq_of_lt hlt,
    ← Nat.shiftLeft_eq, ← Nat.shiftLeft_add_eq_or_of_lt hv]

/-- A value that is pushed goes to the end. -/
theorem view_push (hb : b.Fits) {width : Nat} (hsize : b.size + width < 32) {v : UInt32}
    (hv : v.toNat < 2 ^ width) : (b.push width v).view = b.view ++ bitsOf width v.toNat := by
  rw [view, toNat_push hb hsize hv]
  exact bitsOf_mul_add hv b.size b.bits.toNat

theorem Fits.push (hb : b.Fits) {width : Nat} (hsize : b.size + width < 32) {v : UInt32}
    (hv : v.toNat < 2 ^ width) : (b.push width v).Fits := by
  refine ⟨?_, hsize⟩
  rw [toNat_push hb hsize hv]
  have hbits := hb.bits_lt
  show b.bits.toNat * 2 ^ width + v.toNat < 2 ^ (b.size + width)
  rw [Nat.pow_add]
  nlinarith

theorem toNat_front (hb : b.Fits) (width : Nat) :
    (b.front width).toNat = b.bits.toNat >>> (b.size - width) := by
  have hsize := hb.size_lt
  rw [front, UInt32.toNat_shiftRight, shift_mod (by omega)]

theorem front_lt (hb : b.Fits) {width : Nat} (hwidth : width ≤ b.size) :
    (b.front width).toNat < 2 ^ width := by
  rw [toNat_front hb, Nat.shiftRight_eq_div_pow]
  refine Nat.div_lt_of_lt_mul ?_
  rw [← Nat.pow_add, Nat.sub_add_cancel hwidth]
  exact hb.bits_lt

theorem toNat_dropFront (hb : b.Fits) (width : Nat) :
    (b.dropFront width).bits.toNat = b.bits.toNat % 2 ^ (b.size - width) := by
  have hsize := hb.size_lt
  have hone : ((1 : UInt32) <<< UInt32.ofNat (b.size - width)).toNat = 2 ^ (b.size - width) := by
    have hlt : 2 ^ (b.size - width) < 2 ^ 32 := Nat.pow_lt_pow_right (by decide) (by omega)
    rw [UInt32.toNat_shiftLeft, shift_mod (by omega), Nat.shiftLeft_eq]
    show 1 * 2 ^ (b.size - width) % 2 ^ 32 = _
    rw [Nat.one_mul, Nat.mod_eq_of_lt hlt]
  have hle : (1 : UInt32) ≤ (1 : UInt32) <<< UInt32.ofNat (b.size - width) :=
    UInt32.le_iff_toNat_le.mpr (hone ▸ Nat.one_le_two_pow)
  have hmask : ((1 : UInt32) <<< UInt32.ofNat (b.size - width) - 1).toNat
      = 2 ^ (b.size - width) - 1 := by
    rw [UInt32.toNat_sub_of_le _ _ hle, hone]
    rfl
  rw [dropFront, UInt32.toNat_and, hmask, Nat.and_two_pow_sub_one_eq_mod]

/-- The oldest bits, and those after them. -/
theorem view_eq (hb : b.Fits) {width : Nat} (hwidth : width ≤ b.size) :
    b.view = bitsOf width (b.front width).toNat ++ (b.dropFront width).view := by
  rw [view, view, toNat_front hb, toNat_dropFront hb]
  show _ = _ ++ bitsOf (b.size - width) _
  rw [bitsOf_mod, ← bitsOf_add, Nat.add_sub_cancel' hwidth]

theorem Fits.dropFront (hb : b.Fits) (width : Nat) : (b.dropFront width).Fits := by
  refine ⟨?_, ?_⟩
  · rw [toNat_dropFront hb]
    exact Nat.mod_lt _ (Nat.two_pow_pos _)
  · have hsize := hb.size_lt
    show b.size - width < 32
    omega

theorem toNat_lastDigit (hb : b.Fits) (hsize : b.size ≤ 6) :
    b.lastDigit.toNat = b.bits.toNat * 2 ^ (6 - b.size) ∧ b.lastDigit.toNat < 64 := by
  have hlt : b.bits.toNat * 2 ^ (6 - b.size) < 64 := by
    calc b.bits.toNat * 2 ^ (6 - b.size) < 2 ^ b.size * 2 ^ (6 - b.size) :=
          Nat.mul_lt_mul_of_pos_right hb.bits_lt (Nat.two_pow_pos _)
      _ = 2 ^ (b.size + (6 - b.size)) := (Nat.pow_add 2 _ _).symm
      _ = 64 := by rw [Nat.add_sub_cancel' hsize]; rfl
  have hdigit : b.lastDigit.toNat = b.bits.toNat * 2 ^ (6 - b.size) := by
    rw [lastDigit, UInt32.toNat_shiftLeft, shift_mod (by omega), Nat.shiftLeft_eq,
      Nat.mod_eq_of_lt (by omega)]
  exact ⟨hdigit, hdigit ▸ hlt⟩

/-- The last digit has the waiting bits and zeros after them. -/
theorem bitsOf_lastDigit (hb : b.Fits) (hsize : b.size ≤ 6) :
    bitsOf 6 b.lastDigit.toNat = b.view ++ List.replicate (6 - b.size) false := by
  have h := bitsOf_mul_add (Nat.two_pow_pos (6 - b.size)) b.size b.bits.toNat
  rw [Nat.add_sub_cancel' hsize, Nat.add_zero, bitsOf_zero] at h
  rw [(toNat_lastDigit hb hsize).1]
  exact h

/-- Padding is fewer than six waiting bits that are all zero. -/
theorem isPadding_iff (hb : b.Fits) :
    b.isPadding = true ↔ ∃ zeros < 6, b.view = List.replicate zeros false := by
  have hunfold : b.isPadding = true ↔ b.size < 6 ∧ b.bits = 0 := by
    rw [isPadding, Bool.and_eq_true, decide_eq_true_eq, beq_iff_eq]
  rw [hunfold]
  constructor
  · rintro ⟨hsize, hzero⟩
    refine ⟨b.size, hsize, ?_⟩
    rw [view, hzero]
    exact bitsOf_zero b.size
  · rintro ⟨zeros, hzeros, hview⟩
    have hsize : b.size = zeros := by
      have hlength := congrArg List.length hview
      rwa [length_view, List.length_replicate] at hlength
    have hbits : b.bits.toNat = 0 := by
      refine bitsOf_inj hb.bits_lt (Nat.two_pow_pos _) ?_
      rw [bitsOf_zero, hsize, ← hview, view, hsize]
    exact ⟨hsize ▸ hzeros, UInt32.toNat_inj.mp hbits⟩

end BitBuffer

end MarkerBlock.Encoding.Utf7
