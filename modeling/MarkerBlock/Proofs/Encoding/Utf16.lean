/-
MarkerBlock.Proofs.Encoding.Utf16 — UTF-16 is read and written without loss.

A text has one sequence of units, and a sequence of units is read only if it is
the one of some text: `decodeUnits_eq_some_iff`.  Octets are the same with a
byte order: `decode_eq_some_iff`.  So an odd number of octets and an unpaired
surrogate are never read, and what is read is written back octet for octet.

Both halves go by the two shapes a character can have (`unitsOf_cases`): one
unit that is no surrogate, or a surrogate pair.
-/
import MarkerBlock.Encoding.Utf16
import MarkerBlock.Proofs.Encoding.Scalar

namespace MarkerBlock.Encoding.Utf16

/-! ## §1 The shapes of a character -/

theorem isHigh_iff (u : UInt16) : isHigh u = true ↔ 0xD800 ≤ u.toNat ∧ u.toNat ≤ 0xDBFF := by
  simp [isHigh, UInt16.le_iff_toNat_le]

theorem isLow_iff (u : UInt16) : isLow u = true ↔ 0xDC00 ≤ u.toNat ∧ u.toNat ≤ 0xDFFF := by
  simp [isLow, UInt16.le_iff_toNat_le]

/-- A unit that is no surrogate is the one unit of its character. -/
theorem unitsOf_ofNat {u : UInt16} (hh : isHigh u = false) (hl : isLow u = false) :
    unitsOf (Char.ofNat u.toNat) = [u] := by
  have hlt := u.toNat_lt
  rw [← Bool.not_eq_true, isHigh_iff] at hh
  rw [← Bool.not_eq_true, isLow_iff] at hl
  have hn : (Char.ofNat u.toNat).toNat = u.toNat := toNat_ofNat (by omega)
  simp only [unitsOf, hn]
  rw [if_pos (by omega), UInt16.ofNat_toNat]

/-- A surrogate pair is the two units of the character it stands for. -/
theorem unitsOf_pairValue {u v : UInt16} (hu : isHigh u = true) (hv : isLow v = true) :
    unitsOf (Char.ofNat (pairValue u v)) = [u, v] := by
  rw [isHigh_iff] at hu
  rw [isLow_iff] at hv
  have hp : pairValue u v = 0x10000 + (u.toNat - 0xD800) * 0x400 + (v.toNat - 0xDC00) := rfl
  have hn : (Char.ofNat (pairValue u v)).toNat = pairValue u v := toNat_ofNat (by omega)
  simp only [unitsOf, hn]
  rw [if_neg (by omega)]
  simp only [List.cons.injEq, and_true, ← UInt16.toNat_inj, UInt16.toNat_ofNat']
  omega

/-- One unit that is no surrogate, or a surrogate pair. -/
theorem unitsOf_cases (c : Char) :
    (∃ u, unitsOf c = [u] ∧ isHigh u = false ∧ isLow u = false ∧ u.toNat = c.toNat) ∨
      ∃ u v, unitsOf c = [u, v] ∧ isHigh u = true ∧ isLow v = true ∧
        pairValue u v = c.toNat := by
  have hc := toNat_range c
  by_cases h : c.toNat < 0x10000
  · left
    have hu : (UInt16.ofNat c.toNat).toNat = c.toNat := UInt16.toNat_ofNat_of_lt' h
    refine ⟨UInt16.ofNat c.toNat, by simp only [unitsOf]; rw [if_pos h], ?_, ?_, hu⟩
    · rw [← Bool.not_eq_true, isHigh_iff]; omega
    · rw [← Bool.not_eq_true, isLow_iff]; omega
  · right
    have hc' : unitsOf c = [UInt16.ofNat (0xD800 + (c.toNat - 0x10000) / 0x400),
        UInt16.ofNat (0xDC00 + (c.toNat - 0x10000) % 0x400)] := by
      simp only [unitsOf]; rw [if_neg h]
    have hu := UInt16.toNat_ofNat_of_lt' (n := 0xD800 + (c.toNat - 0x10000) / 0x400)
      (by simp only [UInt16.size]; omega)
    have hv := UInt16.toNat_ofNat_of_lt' (n := 0xDC00 + (c.toNat - 0x10000) % 0x400)
      (by simp only [UInt16.size]; omega)
    generalize UInt16.ofNat (0xD800 + (c.toNat - 0x10000) / 0x400) = u at hc' hu
    generalize UInt16.ofNat (0xDC00 + (c.toNat - 0x10000) % 0x400) = v at hc' hv
    have hp : pairValue u v = 0x10000 + (u.toNat - 0xD800) * 0x400 + (v.toNat - 0xDC00) := rfl
    refine ⟨u, v, hc', ?_, ?_, by omega⟩
    · rw [isHigh_iff]; omega
    · rw [isLow_iff]; omega

/-! ## §2 Characters and units -/

@[simp] theorem units_nil : units [] = [] := rfl

@[simp] theorem units_cons (c : Char) (text : List Char) :
    units (c :: text) = unitsOf c ++ units text := rfl

@[simp] theorem units_append (a b : List Char) : units (a ++ b) = units a ++ units b :=
  List.flatMap_append

/-- No character is without units, and none has a low surrogate in front. -/
theorem decodeOnto_unitsOf (read : List Char) (c : Char) (us : List UInt16) :
    decodeOnto read (unitsOf c ++ us) = decodeOnto (c :: read) us := by
  rcases unitsOf_cases c with ⟨u, hc, hh, hl, hn⟩ | ⟨u, v, hc, hh, hl, hn⟩
  · have hchar : Char.ofNat u.toNat = c := by rw [hn, Char.ofNat_toNat]
    rw [hc]
    cases us with
    | nil => simp [decodeOnto, hh, hl, hchar]
    | cons v rest => simp [decodeOnto, hh, hl, hchar]
  · have hchar : Char.ofNat (pairValue u v) = c := by rw [hn, Char.ofNat_toNat]
    rw [hc]
    simp [decodeOnto, hh, hl, hchar]

theorem decodeOnto_units (read text : List Char) :
    decodeOnto read (units text) = some (read.reverse ++ text) := by
  induction text generalizing read with
  | nil => simp [decodeOnto]
  | cons c text ih => rw [units_cons, decodeOnto_unitsOf, ih]; simp

/-- What was read of units is written back as those units. -/
theorem units_of_decodeOnto {read out : List Char} {us : List UInt16}
    (h : decodeOnto read us = some out) : ∃ text, out = read.reverse ++ text ∧ units text = us := by
  fun_induction decodeOnto read us with
  | case1 read =>
    cases h
    exact ⟨[], by simp, rfl⟩
  | case2 => cases h
  | case3 read u hs =>
    cases h
    simp only [Bool.or_eq_true, not_or, Bool.not_eq_true] at hs
    exact ⟨[Char.ofNat u.toNat], by simp, by simp [unitsOf_ofNat hs.1 hs.2]⟩
  | case4 read u v rest hu hv ih =>
    obtain ⟨text, rfl, rfl⟩ := ih h
    exact ⟨Char.ofNat (pairValue u v) :: text, by simp, by simp [unitsOf_pairValue hu hv]⟩
  | case5 => cases h
  | case6 => cases h
  | case7 read u v rest hu hl ih =>
    obtain ⟨text, rfl, htext⟩ := ih h
    rw [Bool.not_eq_true] at hu hl
    exact ⟨Char.ofNat u.toNat :: text, by simp, by simp [unitsOf_ofNat hu hl, htext]⟩

/-- Units are read as the text they are the units of, and not otherwise. -/
theorem decodeUnits_eq_some_iff {us : List UInt16} {text : List Char} :
    decodeUnits us = some text ↔ units text = us := by
  constructor
  · intro h
    obtain ⟨text', htext, hus⟩ := units_of_decodeOnto h
    rw [List.reverse_nil, List.nil_append] at htext
    rw [htext, hus]
  · rintro rfl
    rw [decodeUnits, decodeOnto_units, List.reverse_nil, List.nil_append]

/-- Every surrogate is one of a pair, the high one first. -/
inductive Paired : List UInt16 → Prop
  | nil : Paired []
  | plain {u : UInt16} {us : List UInt16} : isHigh u = false → isLow u = false → Paired us →
      Paired (u :: us)
  | pair {u v : UInt16} {us : List UInt16} : isHigh u = true → isLow v = true → Paired us →
      Paired (u :: v :: us)

theorem paired_units (text : List Char) : Paired (units text) := by
  induction text with
  | nil => exact .nil
  | cons c text ih =>
    rcases unitsOf_cases c with ⟨u, hc, hh, hl, -⟩ | ⟨u, v, hc, hh, hl, -⟩
    · rw [units_cons, hc]; exact .plain hh hl ih
    · rw [units_cons, hc]; exact .pair hh hl ih

/-- Units are those of some text exactly if no surrogate is unpaired. -/
theorem exists_units_iff {us : List UInt16} : (∃ text, units text = us) ↔ Paired us := by
  constructor
  · rintro ⟨text, rfl⟩
    exact paired_units text
  · intro h
    induction h with
    | nil => exact ⟨[], rfl⟩
    | plain hh hl _ ih =>
      obtain ⟨text, rfl⟩ := ih
      exact ⟨_ :: text, by rw [units_cons, unitsOf_ofNat hh hl]; rfl⟩
    | pair hu hv _ ih =>
      obtain ⟨text, rfl⟩ := ih
      exact ⟨_ :: text, by rw [units_cons, unitsOf_pairValue hu hv]; rfl⟩

/-! ## §3 Units and octets -/

theorem unitOf_octetsOf (order : ByteOrder) (u : UInt16) (rest : List UInt8) :
    ∃ a b, octetsOf order u ++ rest = a :: b :: rest ∧ unitOf order a b = u := by
  have hlt := u.toNat_lt
  cases order with
  | little =>
    refine ⟨_, _, rfl, ?_⟩
    simp only [unitOf, ← UInt16.toNat_inj, UInt16.toNat_ofNat', UInt8.toNat_ofNat']
    omega
  | big =>
    refine ⟨_, _, rfl, ?_⟩
    simp only [unitOf, ← UInt16.toNat_inj, UInt16.toNat_ofNat', UInt8.toNat_ofNat']
    omega

theorem octetsOf_unitOf (order : ByteOrder) (a b : UInt8) :
    octetsOf order (unitOf order a b) = [a, b] := by
  have ha := a.toNat_lt
  have hb := b.toNat_lt
  cases order with
  | little =>
    simp only [octetsOf, unitOf, List.cons.injEq, and_true, ← UInt8.toNat_inj,
      UInt16.toNat_ofNat', UInt8.toNat_ofNat']
    omega
  | big =>
    simp only [octetsOf, unitOf, List.cons.injEq, and_true, ← UInt8.toNat_inj,
      UInt16.toNat_ofNat', UInt8.toNat_ofNat']
    omega

theorem pairOnto_octets (order : ByteOrder) (read us : List UInt16) :
    pairOnto order read (us.flatMap (octetsOf order)) = some (read.reverse ++ us) := by
  induction us generalizing read with
  | nil => simp [pairOnto]
  | cons u us ih =>
    obtain ⟨a, b, hab, hu⟩ := unitOf_octetsOf order u (us.flatMap (octetsOf order))
    rw [List.flatMap_cons, hab, pairOnto, hu, ih]
    simp

theorem octets_of_pairOnto {order : ByteOrder} {read out : List UInt16} {octets : List UInt8}
    (h : pairOnto order read octets = some out) :
    ∃ us, out = read.reverse ++ us ∧ us.flatMap (octetsOf order) = octets := by
  fun_induction pairOnto order read octets with
  | case1 read =>
    cases h
    exact ⟨[], by simp, rfl⟩
  | case2 => cases h
  | case3 read a b rest ih =>
    obtain ⟨us, rfl, rfl⟩ := ih h
    exact ⟨unitOf order a b :: us, by simp, by simp [octetsOf_unitOf]⟩

/-- Octets are paired into the units they are the octets of, and not otherwise. -/
theorem unitsOfOctets_eq_some_iff {order : ByteOrder} {octets : List UInt8} {us : List UInt16} :
    unitsOfOctets order octets = some us ↔ us.flatMap (octetsOf order) = octets := by
  constructor
  · intro h
    obtain ⟨us', hus, hoctets⟩ := octets_of_pairOnto h
    rw [List.reverse_nil, List.nil_append] at hus
    rw [hus, hoctets]
  · rintro rfl
    rw [unitsOfOctets, pairOnto_octets, List.reverse_nil, List.nil_append]

/-! ## §4 Text and octets -/

@[simp] theorem encode_append (order : ByteOrder) (a b : List Char) :
    encode order (a ++ b) = encode order a ++ encode order b := by
  simp [encode]

/-- Octets are read as the text they are written for, and not otherwise. -/
theorem decode_eq_some_iff {order : ByteOrder} {octets : List UInt8} {text : List Char} :
    decode order octets = some text ↔ encode order text = octets := by
  rw [decode, Option.bind_eq_some_iff]
  constructor
  · rintro ⟨us, hus, htext⟩
    rw [unitsOfOctets_eq_some_iff] at hus
    rw [decodeUnits_eq_some_iff] at htext
    rw [encode, htext, hus]
  · rintro rfl
    exact ⟨units text, unitsOfOctets_eq_some_iff.mpr rfl, decodeUnits_eq_some_iff.mpr rfl⟩

/-- Octets are read exactly if they are whole units without an unpaired surrogate. -/
theorem exists_decode_iff {order : ByteOrder} {octets : List UInt8} :
    (∃ text, decode order octets = some text) ↔
      ∃ us, Paired us ∧ us.flatMap (octetsOf order) = octets := by
  simp only [decode_eq_some_iff]
  constructor
  · rintro ⟨text, rfl⟩
    exact ⟨units text, paired_units text, rfl⟩
  · rintro ⟨us, hus, rfl⟩
    obtain ⟨text, rfl⟩ := exists_units_iff.mpr hus
    exact ⟨text, rfl⟩

end MarkerBlock.Encoding.Utf16
