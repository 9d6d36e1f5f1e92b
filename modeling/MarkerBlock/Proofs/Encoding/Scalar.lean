/-
MarkerBlock.Proofs.Encoding.Scalar — code points of characters, as numbers.

A code point lies below the surrogates or between them and the last one.  An
octet is the code point of a character, and an ASCII character is the one that
its octet stands for.
-/
import Mathlib

namespace MarkerBlock.Encoding

/-- A code point is below the surrogates, or between them and the last one. -/
theorem toNat_range (c : Char) : c.toNat < 0xD800 ∨ 0xDFFF < c.toNat ∧ c.toNat < 0x110000 :=
  c.valid

theorem toNat_ofNat {n : Nat} (h : n < 0xD800 ∨ 0xDFFF < n ∧ n < 0x110000) :
    (Char.ofNat n).toNat = n :=
  (Char.toNat_ofNat n).trans (if_pos h)

theorem toNat_ofNat_octet (b : UInt8) : (Char.ofNat b.toNat).toNat = b.toNat :=
  toNat_ofNat (Or.inl (by have := b.toNat_lt; omega))

/-- The octet of a character below U+0100 is its code point. -/
theorem toNat_octet {c : Char} (h : c.toNat < 0x100) : (UInt8.ofNat c.toNat).toNat = c.toNat := by
  rw [UInt8.toNat_ofNat']
  omega

/-- A character below U+0100 is the one its octet is the code point of. -/
theorem ofNat_octet {c : Char} (h : c.toNat < 0x100) : Char.ofNat (UInt8.ofNat c.toNat).toNat = c := by
  rw [toNat_octet h, Char.ofNat_toNat]

theorem octet_ofNat (b : UInt8) : UInt8.ofNat (Char.ofNat b.toNat).toNat = b := by
  rw [toNat_ofNat_octet, UInt8.ofNat_toNat]

end MarkerBlock.Encoding
