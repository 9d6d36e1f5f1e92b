/-
MarkerBlock.Proofs.Encoding.Utf32 — UTF-32 is read and written without loss.

Four octets stand for one number, and a number that is a scalar value for one
character: `decode_eq_ok_iff`.  An incomplete last group is refused before any
value is looked at, which is why the reader's recursion is followed only on
octet strings whose length is a multiple of four.
-/
import MarkerBlock.Encoding.Utf32
import MarkerBlock.Proofs.Encoding.Scalar

namespace MarkerBlock.Encoding.Utf32

/-! ## §1 One group -/

/-- The octets of a character are four, and stand for its code point. -/
theorem octetsOf_eq (c : Char) :
    ∃ w x y z, octetsOf c = [w, x, y, z] ∧ groupValue w x y z = c.toNat := by
  have hc := toNat_range c
  refine ⟨_, _, _, _, rfl, ?_⟩
  simp only [groupValue, UInt8.toNat_ofNat']
  omega

theorem octetsOf_groupValue {w x y z : UInt8} (h : (groupValue w x y z).isValidChar) :
    octetsOf (Char.ofNat (groupValue w x y z)) = [w, x, y, z] := by
  have hw := w.toNat_lt
  have hx := x.toNat_lt
  have hy := y.toNat_lt
  have hz := z.toNat_lt
  have hg : groupValue w x y z
      = ((w.toNat * 256 + x.toNat) * 256 + y.toNat) * 256 + z.toNat := rfl
  have hn : (Char.ofNat (groupValue w x y z)).toNat = groupValue w x y z := toNat_ofNat h
  simp only [octetsOf, hn, List.cons.injEq, and_true, ← UInt8.toNat_inj, UInt8.toNat_ofNat']
  omega

/-! ## §2 Text -/

@[simp] theorem encode_nil : encode [] = [] := rfl

@[simp] theorem encode_cons (c : Char) (text : List Char) :
    encode (c :: text) = octetsOf c ++ encode text := rfl

@[simp] theorem encode_append (a b : List Char) : encode (a ++ b) = encode a ++ encode b :=
  List.flatMap_append

theorem length_encode (text : List Char) : (encode text).length = 4 * text.length := by
  induction text with
  | nil => rfl
  | cons c text ih => simp only [encode_cons, List.length_append, ih, octetsOf, List.length_cons,
      List.length_nil]; omega

theorem decodeOnto_encode (offset : Nat) (read text : List Char) :
    decodeOnto offset read (encode text) = .ok (read.reverse ++ text) := by
  induction text generalizing offset read with
  | nil => simp [decodeOnto]
  | cons c text ih =>
    obtain ⟨w, x, y, z, hc, hg⟩ := octetsOf_eq c
    have hvalid : c.toNat.isValidChar := c.valid
    rw [encode_cons, hc]
    simp only [List.cons_append, List.nil_append, decodeOnto, hg]
    rw [if_pos hvalid, ih, Char.ofNat_toNat]
    simp

/-- What was read of whole groups is written back as those groups. -/
theorem encode_of_decodeOnto {offset : Nat} {read out : List Char} {octets : List UInt8}
    (hlen : octets.length % 4 = 0) (h : decodeOnto offset read octets = .ok out) :
    ∃ text, out = read.reverse ++ text ∧ encode text = octets := by
  fun_induction decodeOnto offset read octets with
  | case1 offset read w x y z rest n hn ih =>
    obtain ⟨text, rfl, rfl⟩ := ih (by simp only [List.length_cons] at hlen; omega) h
    exact ⟨Char.ofNat n :: text, by simp, by simp [octetsOf_groupValue hn, n]⟩
  | case2 => cases h
  | case3 octets offset read hshort =>
    cases h
    have hnil : octets = [] := by
      rcases octets with _ | ⟨w, _ | ⟨x, _ | ⟨y, _ | ⟨z, rest⟩⟩⟩⟩
      · rfl
      · simp at hlen
      · simp at hlen
      · simp at hlen
      · exact (hshort w x y z rest rfl).elim
    exact ⟨[], by simp, by rw [hnil, encode_nil]⟩

/-- Octets are read as the text they are written for, and not otherwise. -/
theorem decode_eq_ok_iff {octets : List UInt8} {text : List Char} :
    decode octets = .ok text ↔ encode text = octets := by
  constructor
  · intro h
    simp only [decode] at h
    split at h
    · cases h
    · next hlen =>
      obtain ⟨text', htext, hoctets⟩ := encode_of_decodeOnto (by omega) h
      rw [List.reverse_nil, List.nil_append] at htext
      rw [htext, hoctets]
  · rintro rfl
    simp only [decode]
    rw [if_neg (by rw [length_encode]; omega), decodeOnto_encode]
    simp

end MarkerBlock.Encoding.Utf32
