/-
MarkerBlock.Proofs.Encoding.Utf7Signature — the octets a UTF-7 file begins with.

The signature `+/v` opens a shift sequence with the first twelve bits of a unit from
U+FEF0 to U+FEFF.  A file that begins with it is therefore read as text that begins
with one of these characters (`signature_of_decode`), and text that does is written
with the signature and at least one octet more (`signature_of_encode`); no other text is
written with the signature (`signature_prefix_encode_iff`).
-/
import Mathlib
import MarkerBlock.Encoding.Basic
import MarkerBlock.Proofs.Encoding.Utf7

namespace MarkerBlock.Encoding.Utf7

open Utf16 (units unitsOf)

/-- The characters whose base-64 form begins with the signature. -/
def IsSignature (c : Char) : Prop := 0xFEF0 ≤ c.toNat ∧ c.toNat ≤ 0xFEFF

/-! ## §1 What is written stays -/

theorem suffix_drainDigits (written : List UInt8) (b : BitBuffer) :
    written <:+ (drainDigits written b).1 := by
  fun_induction drainDigits written b with
  | case1 written b _ ih => exact (List.suffix_cons _ written).trans ih
  | case2 written b _ => exact List.suffix_refl written

theorem suffix_writeUnits (us : List UInt16) (s : List UInt8 × BitBuffer) :
    s.1 <:+ (us.foldl writeUnit s).1 := by
  induction us generalizing s with
  | nil => exact List.suffix_refl s.1
  | cons u us ih => exact (suffix_drainDigits s.1 _).trans (ih (writeUnit s u))

theorem suffix_closeShift (written : List UInt8) (b : BitBuffer) :
    ∃ octet, octet :: written <:+ closeShift written b := by
  rw [closeShift]
  split
  · exact ⟨_, List.suffix_cons _ _⟩
  · exact ⟨_, List.suffix_refl _⟩

/-- What has been written stays, and an open shift sequence stays open or gets its
end. -/
theorem push_grows (w : Writer) (c : Char) :
    w.written <:+ (w.push c).written ∧ (w.shift.isSome = true →
      w.written.length < (w.push c).written.length ∨ (w.push c).shift.isSome = true) := by
  obtain ⟨written, shift⟩ := w
  rw [Writer.push]
  cases shift with
  | none =>
    refine ⟨?_, fun h => by cases h⟩
    by_cases hc : isDirect c = true
    · simp only [if_pos hc]
      exact List.suffix_cons _ written
    · by_cases hplus : c = '+'
      · simp only [if_neg hc, if_pos hplus]
        exact (List.suffix_cons _ written).trans (List.suffix_cons _ _)
      · simp only [if_neg hc, if_neg hplus]
        exact (List.suffix_cons _ written).trans (suffix_writeUnits _ (43 :: written, {}))
  | some b =>
    by_cases hc : isDirect c = true
    · simp only [if_pos hc]
      obtain ⟨octet, hclose⟩ := suffix_closeShift written b
      have hmore : octet :: written <:+ UInt8.ofNat c.toNat :: closeShift written b :=
        hclose.trans (List.suffix_cons _ _)
      exact ⟨(List.suffix_cons octet written).trans hmore, fun _ => .inl hmore.length_le⟩
    · simp only [if_neg hc]
      exact ⟨suffix_writeUnits _ (written, b), fun _ => .inr rfl⟩

theorem finish_grows (text : List Char) (w : Writer) :
    w.written.reverse <+: (text.foldl Writer.push w).finish ∧
      (w.shift.isSome = true → w.written.length < (text.foldl Writer.push w).finish.length) := by
  induction text generalizing w with
  | nil =>
    obtain ⟨written, shift⟩ := w
    show written.reverse <+: Writer.finish ⟨written, shift⟩ ∧ _
    cases shift with
    | none => exact ⟨List.prefix_refl _, fun h => by cases h⟩
    | some b =>
      obtain ⟨octet, hclose⟩ := suffix_closeShift written b
      refine ⟨List.reverse_prefix.mpr ((List.suffix_cons octet written).trans hclose), fun _ => ?_⟩
      show written.length < (closeShift written b).reverse.length
      rw [List.length_reverse]
      exact hclose.length_le
  | cons c text ih =>
    obtain ⟨hsuffix, hopen⟩ := push_grows w c
    obtain ⟨hkept, hend⟩ := ih (w.push c)
    refine ⟨(List.reverse_prefix.mpr hsuffix).trans hkept, fun h => ?_⟩
    have hle := hkept.length_le
    rw [List.length_reverse] at hle
    rcases hopen h with hlt | hsome
    · exact hlt.trans_le hle
    · exact hsuffix.length_le.trans_lt (hend hsome)

/-! ## §2 The signature is written -/

/-- The digit whose bits come first. -/
theorem first_digit {ds : List UInt32} {v : Nat} {a rest : List Bool}
    (hds : ∀ d ∈ ds, d.toNat < 64) (hv : v < 64) (ha : a.length < 6)
    (h : digitBits ds ++ a = bitsOf 6 v ++ rest) :
    ∃ ds', ds = UInt32.ofNat v :: ds' ∧ digitBits ds' ++ a = rest := by
  cases ds with
  | nil =>
    have hlength := congrArg List.length h
    simp at hlength
    omega
  | cons d ds =>
    rw [digitBits_cons, List.append_assoc] at h
    obtain ⟨hfirst, hrest⟩ := List.append_inj h (by simp)
    have hd : d.toNat = v := bitsOf_inj (hds d List.mem_cons_self) hv hfirst
    exact ⟨ds, by rw [← hd, UInt32.ofNat_toNat], hrest⟩

/-- The bits of such a unit are those of the signature's two digits, and four more. -/
theorem bitsOf_signature {n : Nat} (hlow : 0xFEF0 ≤ n) (hhigh : n ≤ 0xFEFF) :
    bitsOf 16 n = bitsOf 6 63 ++ (bitsOf 6 47 ++ bitsOf 4 n) := by
  have hfirst : n >>> 10 = 63 := by
    rw [Nat.shiftRight_eq_div_pow]
    omega
  have hsecond : n >>> 4 % 2 ^ 6 = 47 := by
    rw [Nat.shiftRight_eq_div_pow]
    omega
  rw [bitsOf_add 6 10, hfirst, bitsOf_add 6 4, ← bitsOf_mod 6 (n >>> 4), hsecond]

/-- A shift sequence that begins with such a character begins with the signature, and
has a rest. -/
theorem push_signature {c : Char} (hc : IsSignature c) :
    ∃ b, Writer.push {} c = { written := utf7Signature.reverse, shift := some b } := by
  obtain ⟨hlow, hhigh⟩ := hc
  have hdirect : ¬isDirect c = true := fun h => by
    have hascii := (isDirect_spec h).1
    omega
  have hplus : c ≠ '+' := by
    rintro rfl
    revert hlow
    decide
  obtain ⟨ds, hds, hout, hfits, hrest, hbits⟩ :=
    writes_units (s := ([43], {})) BitBuffer.fits_empty (Nat.zero_lt_succ 5) (unitsOf c)
  have hunits : unitsOf c = [UInt16.ofNat c.toNat] := by
    rw [unitsOf, if_pos (by omega)]
  have hvalue : (UInt16.ofNat c.toNat).toNat = c.toNat := by
    rw [UInt16.toNat_ofNat']
    omega
  rw [hunits, unitBits_cons, unitBits_nil, List.append_nil, hvalue,
    bitsOf_signature hlow hhigh] at hbits
  have hwait : (List.foldl writeUnit ([43], {}) [UInt16.ofNat c.toNat]).2.view.length < 6 := by
    rwa [BitBuffer.length_view, ← hunits]
  obtain ⟨ds₁, rfl, hbits₁⟩ := first_digit hds (by decide) hwait hbits
  have hds₁ : ∀ d ∈ ds₁, d.toNat < 64 := fun d hd => hds d (List.mem_cons_of_mem _ hd)
  obtain ⟨ds₂, rfl, hbits₂⟩ := first_digit hds₁ (by decide) hwait hbits₁
  have hnil : ds₂ = [] := by
    cases ds₂ with
    | nil => rfl
    | cons d ds₂ =>
      have hlength := congrArg List.length hbits₂
      simp at hlength
      omega
  subst hnil
  refine ⟨((unitsOf c).foldl writeUnit ([43], {})).2, ?_⟩
  show Writer.push ⟨[], none⟩ c = _
  rw [Writer.push]
  simp only [if_neg hdirect, if_neg hplus]
  rw [writeShifted_eq, hout]
  rfl

/-- Text that begins with such a character is written with the signature, and more
than the signature. -/
theorem signature_of_encode {c : Char} (hc : IsSignature c) (text : List Char) :
    utf7Signature <+: encode (c :: text) ∧ 4 ≤ (encode (c :: text)).length := by
  obtain ⟨b, hpush⟩ := push_signature hc
  obtain ⟨hkept, hmore⟩ := finish_grows text (Writer.push {} c)
  rw [hpush] at hkept hmore
  rw [encode, List.foldl_cons, hpush]
  refine ⟨?_, hmore rfl⟩
  rwa [List.reverse_reverse] at hkept

/-! ## §3 The signature is read -/

/-- Units that were read stay read. -/
theorem suffix_push {r r' : Reader} {b : UInt8} (h : r.push b = .ok r') :
    r.units <:+ r'.units := by
  rcases push_cases h with ⟨start, buffer, value, -, rfl⟩ | ⟨-, hkept⟩ | hdirect
  · rw [Reader.pushDigit]
    split
    · exact List.suffix_cons _ _
    · exact List.suffix_refl _
  · exact hkept
  · rw [Reader.pushDirect] at hdirect
    split_ifs at hdirect <;> cases hdirect
    · exact List.suffix_refl _
    · exact List.suffix_cons _ _

theorem suffix_foldlM {octets : List UInt8} {r r' : Reader}
    (h : octets.foldlM Reader.push r = .ok r') : r.units <:+ r'.units := by
  induction octets generalizing r with
  | nil =>
    cases h
    exact List.suffix_refl _
  | cons b octets ih =>
    cases hb : r.push b with
    | error e =>
      rw [List.foldlM_cons, hb] at h
      cases h
    | ok r₁ =>
      rw [foldlM_push_cons hb] at h
      exact (suffix_push hb).trans (ih h)

/-- The reader that has read the signature: twelve bits wait for the next digit. -/
def afterSignature : Reader :=
  { offset := 3, units := [], mode := .shifted 0 ⟨4079, 12⟩ }

theorem reads_signature : Reads utf7Signature afterSignature := rfl

/-- Twelve bits are no padding, so only a digit can follow. -/
theorem push_afterSignature_of_none {b : UInt8} (h : digitValue b = none) :
    afterSignature.push b = .error 0 := by
  simp only [Reader.push, afterSignature, h]
  rfl

/-- The next digit makes the first unit whole. -/
theorem push_afterSignature_of_some {b : UInt8} {v : UInt32} (h : digitValue b = some v) :
    ∃ r u, afterSignature.push b = .ok r ∧ r.units = [u] ∧
      0xFEF0 ≤ u.toNat ∧ u.toNat ≤ 0xFEFF := by
  have hfits : BitBuffer.Fits ⟨4079, 12⟩ := ⟨by decide, by decide⟩
  have hsize : 12 + 6 < 32 := by decide
  have hvalue : v.toNat < 2 ^ 6 := digitValue_lt h
  have hfront := BitBuffer.toNat_front (hfits.push hsize hvalue) 16
  rw [BitBuffer.toNat_push hfits hsize hvalue, Nat.shiftRight_eq_div_pow] at hfront
  have hunit : ((BitBuffer.push ⟨4079, 12⟩ 6 v).front 16).toNat = (4079 * 2 ^ 6 + v.toNat) / 2 ^ 2 :=
    hfront
  refine ⟨afterSignature.pushDigit 0 ⟨4079, 12⟩ v,
    ((BitBuffer.push ⟨4079, 12⟩ 6 v).front 16).toUInt16, ?_, ?_, ?_⟩
  · simp only [Reader.push, afterSignature, h]
  · rw [Reader.pushDigit]
    exact congrArg Reader.units (if_pos (show 16 ≤ 12 + 6 by decide))
  · rw [UInt32.toNat_toUInt16, hunit]
    omega

theorem units_of_finish {r : Reader} {us : List UInt16} (h : r.finish = .ok us) :
    us = r.units.reverse := by
  rw [Reader.finish] at h
  split at h
  · split_ifs at h
    cases h
    rfl
  · cases h
    rfl

/-- The first unit of octets that begin with the signature. -/
theorem first_unit_of_signature {octets : List UInt8} {us : List UInt16}
    (hsig : utf7Signature <+: octets) (h : decodeUnits octets = .ok us) :
    ∃ u rest, us = u :: rest ∧ 0xFEF0 ≤ u.toNat ∧ u.toNat ≤ 0xFEFF := by
  obtain ⟨rest, rfl⟩ := hsig
  obtain ⟨r, hr, hfinish⟩ := decodeUnits_eq_ok h
  have hrest : rest.foldlM Reader.push afterSignature = .ok r := by
    rw [Reads, List.foldlM_append, reads_signature] at hr
    exact hr
  cases rest with
  | nil =>
    cases hrest
    cases hfinish
  | cons b rest =>
    cases hv : digitValue b with
    | none =>
      rw [List.foldlM_cons, push_afterSignature_of_none hv] at hrest
      cases hrest
    | some v =>
      obtain ⟨first, u, hpush, hunits, hrange⟩ := push_afterSignature_of_some hv
      rw [foldlM_push_cons hpush] at hrest
      obtain ⟨more, hmore⟩ := suffix_foldlM hrest
      refine ⟨u, more.reverse, ?_, hrange⟩
      rw [units_of_finish hfinish, ← hmore, hunits, List.reverse_append]
      rfl

/-- A file that begins with the signature is read as text that begins with such a
character. -/
theorem signature_of_decode {octets : List UInt8} {text : List Char}
    (hsig : utf7Signature <+: octets) (h : decode octets = .ok text) :
    ∃ c rest, text = c :: rest ∧ IsSignature c := by
  obtain ⟨u, rest, hunits, hlow, hhigh⟩ := first_unit_of_signature hsig (decode_eq_ok_iff.mp h)
  cases text with
  | nil => cases hunits
  | cons c text =>
    refine ⟨c, text, rfl, ?_⟩
    rw [Utf16.units_cons] at hunits
    -- no surrogate begins a pair here, so the unit is the character
    rcases Utf16.unitsOf_cases c with ⟨u', hc, -, -, hvalue⟩ | ⟨u', v, hc, hsurrogate, -, -⟩
    · rw [hc, List.cons_append, List.cons_eq_cons] at hunits
      rw [IsSignature, ← hvalue, hunits.1]
      exact ⟨hlow, hhigh⟩
    · rw [hc, List.cons_append, List.cons_eq_cons] at hunits
      rw [Utf16.isHigh_iff, hunits.1] at hsurrogate
      omega

/-- The signature alone is not read: its twelve bits are no unit. -/
theorem length_of_signature {octets : List UInt8} {text : List Char}
    (hsig : utf7Signature <+: octets) (h : decode octets = .ok text) : 4 ≤ octets.length := by
  obtain ⟨rest, rfl⟩ := hsig
  cases rest with
  | nil =>
    have hfault : decode (utf7Signature ++ []) = .error 0 := rfl
    rw [hfault] at h
    cases h
  | cons b rest =>
    have hlength : utf7Signature.length = 3 := rfl
    rw [List.length_append, List.length_cons, hlength]
    omega

/-- The texts that are written with the signature. -/
theorem signature_prefix_encode_iff {text : List Char} :
    utf7Signature <+: encode text ↔ ∃ c rest, text = c :: rest ∧ IsSignature c := by
  constructor
  · intro hsig
    exact signature_of_decode hsig (decode_encode text)
  · rintro ⟨c, rest, rfl, hc⟩
    exact (signature_of_encode hc rest).1

end MarkerBlock.Encoding.Utf7
