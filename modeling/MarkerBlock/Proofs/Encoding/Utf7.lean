/-
MarkerBlock.Proofs.Encoding.Utf7 — what is written as UTF-7 is read back.

Inside a shift sequence writer and reader pass on one stream of bits: the writer
cuts the units' bits into digits, the reader cuts the digits' bits into units.
After every character the units read so far, the bits that wait in the reader and
those that wait in the writer are together the bits of the text so far (`Tracks`);
`decode_encode` follows at the end of the text.

A reader that goes on has read an ASCII octet (`ascii_of_push`), so what is read back is
ASCII (`encode_is_ascii_and_read_back`).
-/
import Mathlib
import MarkerBlock.Proofs.Encoding.BitBuffer
import MarkerBlock.Proofs.Encoding.Utf16

namespace MarkerBlock.Encoding.Utf7

open Utf16 (units unitsOf)

/-! ## §1 Streams of bits -/

/-- The bits of digits. -/
def digitBits (ds : List UInt32) : List Bool := ds.flatMap fun d => bitsOf 6 d.toNat

/-- The bits of units. -/
def unitBits (us : List UInt16) : List Bool := us.flatMap fun u => bitsOf 16 u.toNat

@[simp] theorem digitBits_nil : digitBits [] = [] := rfl

@[simp] theorem digitBits_cons (d : UInt32) (ds : List UInt32) :
    digitBits (d :: ds) = bitsOf 6 d.toNat ++ digitBits ds := rfl

@[simp] theorem digitBits_append (a b : List UInt32) :
    digitBits (a ++ b) = digitBits a ++ digitBits b :=
  List.flatMap_append

@[simp] theorem unitBits_nil : unitBits [] = [] := rfl

@[simp] theorem unitBits_cons (u : UInt16) (us : List UInt16) :
    unitBits (u :: us) = bitsOf 16 u.toNat ++ unitBits us := rfl

@[simp] theorem unitBits_append (a b : List UInt16) :
    unitBits (a ++ b) = unitBits a ++ unitBits b :=
  List.flatMap_append

/-- Whole units are known from their bits, and so is a rest that is no unit. -/
theorem unitBits_inj {us vs : List UInt16} {a b : List Bool} (ha : a.length < 16)
    (hb : b.length < 16) (h : unitBits us ++ a = unitBits vs ++ b) : us = vs ∧ a = b := by
  induction us generalizing vs with
  | nil =>
    cases vs with
    | nil => exact ⟨rfl, h⟩
    | cons v vs =>
      have hlength := congrArg List.length h
      simp at hlength
      omega
  | cons u us ih =>
    cases vs with
    | nil =>
      have hlength := congrArg List.length h
      simp at hlength
      omega
    | cons v vs =>
      rw [unitBits_cons, unitBits_cons, List.append_assoc, List.append_assoc] at h
      obtain ⟨hfirst, hrest⟩ := List.append_inj h (by simp)
      obtain ⟨hus, hab⟩ := ih hrest
      have huv := bitsOf_inj u.toNat_lt v.toNat_lt hfirst
      exact ⟨by rw [UInt16.toNat_inj.mp huv, hus], hab⟩

/-! ## §2 Writing inside a shift sequence -/

/-- `s'` is reached from `s` by writing digits, which along with the bits that wait
have taken up `bits`. -/
def Writes (bits : List Bool) (s s' : List UInt8 × BitBuffer) : Prop :=
  ∃ ds : List UInt32, (∀ d ∈ ds, d.toNat < 64) ∧ s'.1 = (ds.map digit).reverse ++ s.1 ∧
    s'.2.Fits ∧ s'.2.size < 6 ∧ digitBits ds ++ s'.2.view = s.2.view ++ bits

theorem Writes.trans {bits bits' : List Bool} {s s' s'' : List UInt8 × BitBuffer}
    (h : Writes bits s s') (h' : Writes bits' s' s'') : Writes (bits ++ bits') s s'' := by
  obtain ⟨ds, hds, hout, -, -, hbits⟩ := h
  obtain ⟨ds', hds', hout', hfits', hsize', hbits'⟩ := h'
  refine ⟨ds ++ ds', ?_, ?_, hfits', hsize', ?_⟩
  · intro d hd
    exact (List.mem_append.mp hd).elim (hds d) (hds' d)
  · rw [hout', hout, List.map_append, List.reverse_append, List.append_assoc]
  · rw [digitBits_append, List.append_assoc, hbits', ← List.append_assoc, hbits, List.append_assoc]

theorem writes_drainDigits {written : List UInt8} {b : BitBuffer} (hb : b.Fits) :
    Writes [] (written, b) (drainDigits written b) := by
  fun_induction drainDigits written b with
  | case1 written b hsize ih =>
    obtain ⟨ds, hds, hout, hfits, hrest, hbits⟩ := ih (hb.dropFront 6)
    refine ⟨b.front 6 :: ds, ?_, ?_, hfits, hrest, ?_⟩
    · intro d hd
      rcases List.mem_cons.mp hd with rfl | hd
      · exact BitBuffer.front_lt hb hsize
      · exact hds d hd
    · rw [hout, List.map_cons, List.reverse_cons, List.append_assoc]
      rfl
    · rw [digitBits_cons, List.append_assoc, hbits, List.append_nil, List.append_nil,
        ← BitBuffer.view_eq hb hsize]
  | case2 written b hsize =>
    refine ⟨[], by simp, rfl, hb, Nat.lt_of_not_le hsize, ?_⟩
    rw [digitBits_nil, List.nil_append, List.append_nil]

theorem writes_writeUnit {s : List UInt8 × BitBuffer} (hs : s.2.Fits) (hsize : s.2.size < 6)
    (u : UInt16) : Writes (bitsOf 16 u.toNat) s (writeUnit s u) := by
  have hu : u.toUInt32.toNat < 2 ^ 16 := by
    rw [UInt16.toNat_toUInt32]
    exact u.toNat_lt
  have hpush := BitBuffer.Fits.push hs (by omega) hu
  have hdrain : Writes [] (s.1, s.2.push 16 u.toUInt32) (writeUnit s u) := writes_drainDigits hpush
  obtain ⟨ds, hds, hout, hfits, hrest, hbits⟩ := hdrain
  refine ⟨ds, hds, hout, hfits, hrest, ?_⟩
  rw [hbits, List.append_nil]
  show (s.2.push 16 u.toUInt32).view = _
  rw [BitBuffer.view_push hs (by omega) hu, UInt16.toNat_toUInt32]

theorem writes_units {s : List UInt8 × BitBuffer} (hs : s.2.Fits) (hsize : s.2.size < 6)
    (us : List UInt16) : Writes (unitBits us) s (us.foldl writeUnit s) := by
  induction us generalizing s with
  | nil =>
    refine ⟨[], by simp, rfl, hs, hsize, ?_⟩
    simp
  | cons u us ih =>
    have hfirst := writes_writeUnit hs hsize u
    have ⟨_, _, _, hfits, hrest, _⟩ := hfirst
    exact hfirst.trans (ih hfits hrest)

/-- A digit at least is written for a unit. -/
theorem Writes.digits_ne_nil {ds : List UInt32} {b b' : BitBuffer} {us : List UInt16}
    (hus : us ≠ []) (hsize : b'.size < 6)
    (h : digitBits ds ++ b'.view = b.view ++ unitBits us) : ds ≠ [] := by
  rintro rfl
  obtain ⟨u, rest, rfl⟩ := List.exists_cons_of_ne_nil hus
  have hlength := congrArg List.length h
  simp at hlength
  omega

/-! ## §3 Reading -/

/-- The reader has read `octets`. -/
def Reads (octets : List UInt8) (r : Reader) : Prop := octets.foldlM Reader.push {} = .ok r

theorem reads_append {octets more : List UInt8} {r r' : Reader} (h : Reads octets r)
    (h' : more.foldlM Reader.push r = .ok r') : Reads (octets ++ more) r' := by
  rw [Reads, List.foldlM_append, h]
  exact h'

theorem foldlM_push_cons {r r' : Reader} {b : UInt8} {rest : List UInt8} (h : r.push b = .ok r') :
    (b :: rest).foldlM Reader.push r = rest.foldlM Reader.push r' := by
  rw [List.foldlM_cons, h]
  rfl

/-- The reader is in a shift sequence that has had a digit, and `bits` are the bits
of the units read so far and of those that wait. -/
def Shifted (r : Reader) (bits : List Bool) : Prop :=
  ∃ start b, r.mode = .shifted start b ∧ b.Fits ∧ b.size < 16 ∧
    unitBits r.units.reverse ++ b.view = bits

theorem shifted_pushDigit {b : BitBuffer} (hb : b.Fits) (hsize : b.size < 16) {v : UInt32}
    (hv : v.toNat < 64) (r : Reader) (start : Nat) :
    Shifted (r.pushDigit start b v) (unitBits r.units.reverse ++ b.view ++ bitsOf 6 v.toNat) := by
  have hvalue : v.toNat < 2 ^ 6 := hv
  have hpush := hb.push (by omega) hvalue
  have hview := BitBuffer.view_push hb (by omega) hvalue
  have hwidth : (b.push 6 v).size = b.size + 6 := rfl
  rw [Reader.pushDigit]
  by_cases hfull : 16 ≤ (b.push 6 v).size
  · have hfront := BitBuffer.front_lt hpush hfull
    have hunit : ((b.push 6 v).front 16).toUInt16.toNat = ((b.push 6 v).front 16).toNat := by
      rw [UInt32.toNat_toUInt16]
      exact Nat.mod_eq_of_lt hfront
    rw [if_pos hfull]
    refine ⟨start, (b.push 6 v).dropFront 16, rfl, hpush.dropFront 16, ?_, ?_⟩
    · show (b.push 6 v).size - 16 < 16
      omega
    · rw [List.reverse_cons, unitBits_append, unitBits_cons, unitBits_nil, List.append_nil, hunit,
        List.append_assoc, ← BitBuffer.view_eq hpush hfull, hview, List.append_assoc]
  · rw [if_neg hfull]
    exact ⟨start, b.push 6 v, rfl, hpush, by omega, by rw [hview, List.append_assoc]⟩

theorem shifted_push {r : Reader} {bits : List Bool} (h : Shifted r bits) {d : UInt8} {v : UInt32}
    (hv : digitValue d = some v) :
    ∃ r', r.push d = .ok r' ∧ Shifted r' (bits ++ bitsOf 6 v.toNat) := by
  obtain ⟨start, b, hmode, hb, hsize, rfl⟩ := h
  refine ⟨r.pushDigit start b v, ?_, shifted_pushDigit hb hsize (digitValue_lt hv) r start⟩
  rw [Reader.push, hmode]
  simp only [hv]

/-- The octets are digits of these values. -/
def AreDigits (octets : List UInt8) (values : List UInt32) : Prop :=
  List.Forall₂ (fun d v => digitValue d = some v) octets values

/-- Digits are those of the values they were written for. -/
theorem areDigits_digit {values : List UInt32} (h : ∀ v ∈ values, v.toNat < 64) :
    AreDigits (values.map digit) values :=
  List.forall₂_map_left_iff.mpr (List.forall₂_same.mpr fun v hv => digitValue_digit (h v hv))

theorem shifted_digits {r : Reader} {bits : List Bool} (h : Shifted r bits) {octets : List UInt8}
    {values : List UInt32} (hdigits : AreDigits octets values) :
    ∃ r', octets.foldlM Reader.push r = .ok r' ∧ Shifted r' (bits ++ digitBits values) := by
  induction hdigits generalizing r bits with
  | nil => exact ⟨r, rfl, by rwa [digitBits_nil, List.append_nil]⟩
  | cons hv _ ih =>
    obtain ⟨r₁, hr₁, hshift⟩ := shifted_push h hv
    obtain ⟨r₂, hr₂, hshift'⟩ := ih hshift
    refine ⟨r₂, ?_, ?_⟩
    · rw [foldlM_push_cons hr₁, hr₂]
    · rwa [digitBits_cons, ← List.append_assoc]

/-- A plus sign opens a shift sequence. -/
theorem push_plus {r : Reader} (hmode : r.mode = .direct) :
    r.push 43 = .ok { r with offset := r.offset + 1, mode := .opened r.offset } := by
  rw [Reader.push, hmode]
  rfl

/-- A plus sign and digits open a shift sequence. -/
theorem shifted_open {r : Reader} (hmode : r.mode = .direct) {octets : List UInt8}
    {values : List UInt32} (hne : octets ≠ []) (hdigits : AreDigits octets values) :
    ∃ r', (43 :: octets).foldlM Reader.push r = .ok r' ∧
      Shifted r' (unitBits r.units.reverse ++ digitBits values) := by
  cases hdigits with
  | nil => exact absurd rfl hne
  | @cons d v octets values hv hmore =>
    have hplus := push_plus hmode
    generalize hopen : ({ r with offset := r.offset + 1, mode := .opened r.offset } : Reader) = r₀
      at hplus
    have hfirst : r₀.push d = .ok (r₀.pushDigit r.offset {} v) := by
      have hhyphen : d ≠ 45 := by
        rintro rfl
        cases hv
      rw [Reader.push, ← hopen]
      simp only [if_neg hhyphen, hv]
    have hshift := shifted_pushDigit BitBuffer.fits_empty (by decide) (digitValue_lt hv) r₀ r.offset
    obtain ⟨r', hr', hshift'⟩ := shifted_digits hshift hmore
    refine ⟨r', ?_, ?_⟩
    · rw [foldlM_push_cons hplus, foldlM_push_cons hfirst, hr']
    · have hunits : r₀.units = r.units := by rw [← hopen]
      rw [hunits] at hshift'
      simpa [BitBuffer.view, bitsOf] using hshift'

/-- A hyphen closes a shift sequence that ends with padding. -/
theorem push_hyphen {r : Reader} {start : Nat} {b : BitBuffer} (hmode : r.mode = .shifted start b)
    (hpadding : b.isPadding = true) :
    r.push 45 = .ok { r with offset := r.offset + 1, mode := .direct } := by
  have hhyphen : digitValue 45 = none := by decide
  rw [Reader.push, hmode]
  simp only [hhyphen, Reader.endShift, if_pos hpadding, if_true]

/-- A hyphen closes a shift sequence whose bits are those of units and padding. -/
theorem reads_hyphen {octets : List UInt8} {r : Reader} {us : List UInt16} {zeros : Nat}
    (hzeros : zeros < 6) (hr : Reads octets r)
    (hshift : Shifted r (unitBits us ++ List.replicate zeros false)) :
    ∃ r', Reads (octets ++ [45]) r' ∧ r'.mode = .direct ∧ r'.units.reverse = us := by
  obtain ⟨start, rest, hmode, hrest, hlt, hall⟩ := hshift
  obtain ⟨hunits, hview⟩ := unitBits_inj (by simpa using hlt) (by simp; omega) hall
  have hpadding := (BitBuffer.isPadding_iff hrest).mpr ⟨zeros, hzeros, hview⟩
  exact ⟨_, reads_append hr (foldlM_push_cons (push_hyphen hmode hpadding)), rfl, hunits⟩

/-- The end of a shift sequence is read as the units whose bits were written. -/
theorem reads_closeShift {written : List UInt8} {b : BitBuffer} {r : Reader} {bits : List Bool}
    {us : List UInt16} (hr : Reads written.reverse r) (hshift : Shifted r bits) (hb : b.Fits)
    (hsize : b.size < 6) (hbits : bits ++ b.view = unitBits us) :
    ∃ r', Reads (closeShift written b).reverse r' ∧ r'.mode = .direct ∧ r'.units.reverse = us := by
  rw [closeShift]
  by_cases hwait : 0 < b.size
  · have hdigit := digitValue_digit (BitBuffer.toNat_lastDigit hb (by omega)).2
    obtain ⟨r', hr', hshift'⟩ := shifted_push hshift hdigit
    rw [BitBuffer.bitsOf_lastDigit hb (by omega), ← List.append_assoc, hbits] at hshift'
    have hread : Reads (written.reverse ++ [digit b.lastDigit]) r' :=
      reads_append hr (foldlM_push_cons hr')
    have hzeros : 6 - b.size < 6 := by omega
    rw [if_pos hwait, List.reverse_cons, List.reverse_cons]
    exact reads_hyphen hzeros hread hshift'
  · have hempty : b.view = [] := List.eq_nil_of_length_eq_zero (by simp; omega)
    rw [hempty, List.append_nil] at hbits
    have hnothing : Shifted r (unitBits us ++ List.replicate 0 false) := by
      simpa [hbits] using hshift
    rw [if_neg hwait, List.reverse_cons]
    exact reads_hyphen (Nat.zero_lt_succ 5) hr hnothing

/-! ## §4 Texts -/

/-- What the writer has written so far is read as the text so far, but for the bits
that wait. -/
def Tracks (w : Writer) (text : List Char) : Prop :=
  ∃ r, Reads w.written.reverse r ∧
    match w.shift with
    | none => r.mode = .direct ∧ r.units.reverse = units text
    | some b => b.Fits ∧ b.size < 6 ∧ ∃ bits, Shifted r bits ∧ bits ++ b.view = unitBits (units text)

theorem writeShifted_eq (written : List UInt8) (b : BitBuffer) (c : Char) :
    writeShifted written b c =
      { written := ((unitsOf c).foldl writeUnit (written, b)).1
        shift := some ((unitsOf c).foldl writeUnit (written, b)).2 } := rfl

theorem unitsOf_ne_nil (c : Char) : unitsOf c ≠ [] := by
  rw [unitsOf]
  split <;> simp

/-- A direct character is ASCII and not a plus sign. -/
theorem isDirect_spec {c : Char} (h : isDirect c = true) : c.toNat < 128 ∧ c ≠ '+' := by
  rw [isDirect, Bool.or_eq_true, List.contains_iff_mem] at h
  rcases h with h | h
  · simp only [Char.isAlphanum, Char.isAlpha, Char.isUpper, Char.isLower, Char.isDigit,
      Bool.or_eq_true, Bool.and_eq_true, decide_eq_true_eq, UInt32.le_iff_toNat_le] at h
    have hc : c.toNat = c.val.toNat := rfl
    refine ⟨?_, ?_⟩
    · simp at h
      omega
    · rintro rfl
      revert h
      decide
  · simp at h
    rcases h with rfl | rfl | rfl | rfl | rfl | rfl | rfl | rfl | rfl | rfl | rfl | rfl | rfl <;>
      decide

/-- An ASCII character that is not a plus sign is read outside a shift sequence. -/
theorem push_direct {r : Reader} (hmode : r.mode = .direct) {c : Char} (hc : isDirect c = true) :
    ∃ r', r.push (UInt8.ofNat c.toNat) = .ok r' ∧ r'.mode = .direct ∧
      r'.units.reverse = r.units.reverse ++ unitsOf c := by
  obtain ⟨hascii, hplus⟩ := isDirect_spec hc
  have hb : (UInt8.ofNat c.toNat).toNat = c.toNat := toNat_octet (by omega)
  have hhigh : ¬0x80 ≤ UInt8.ofNat c.toNat := by
    rw [UInt8.le_iff_toNat_le, hb]
    simp
    omega
  have hne : UInt8.ofNat c.toNat ≠ 43 := by
    intro h
    have hn : c.toNat = 43 := by rw [← hb, h]; rfl
    exact hplus (Char.toNat_inj.mp hn)
  have hunits : unitsOf c = [(UInt8.ofNat c.toNat).toUInt16] := by
    rw [unitsOf, if_pos (by omega)]
    congr 1
    rw [← UInt16.toNat_inj, UInt8.toNat_toUInt16, hb, UInt16.toNat_ofNat']
    omega
  refine ⟨{ offset := r.offset + 1, units := (UInt8.ofNat c.toNat).toUInt16 :: r.units,
            mode := .direct }, ?_, rfl, ?_⟩
  · rw [Reader.push, hmode]
    show r.pushDirect _ = _
    rw [Reader.pushDirect, if_neg hhigh, if_neg hne]
  · rw [List.reverse_cons, hunits]

/-- A character that is not direct goes into the shift sequence. -/
theorem tracks_writeShifted {written : List UInt8} {b : BitBuffer} {r : Reader} {bits : List Bool}
    {text : List Char} (hr : Reads written.reverse r) (hshift : Shifted r bits) (hb : b.Fits)
    (hsize : b.size < 6) (hbits : bits ++ b.view = unitBits (units text)) (c : Char) :
    Tracks (writeShifted written b c) (text ++ [c]) := by
  obtain ⟨ds, hds, hout, hfits, hrest, hmore⟩ :=
    writes_units (s := (written, b)) hb hsize (unitsOf c)
  obtain ⟨r', hr', hshift'⟩ := shifted_digits hshift (areDigits_digit hds)
  have hread := reads_append hr hr'
  rw [writeShifted_eq]
  refine ⟨r', ?_, hfits, hrest, bits ++ digitBits ds, hshift', ?_⟩
  · rw [hout, List.reverse_append, List.reverse_reverse]
    exact hread
  · rw [List.append_assoc, hmore, ← List.append_assoc, hbits, Utf16.units_append, unitBits_append]
    simp

/-- A character that is not direct opens a shift sequence. -/
theorem tracks_openShift {written : List UInt8} {r : Reader} {text : List Char}
    (hr : Reads written.reverse r) (hmode : r.mode = .direct)
    (hunits : r.units.reverse = units text) (c : Char) :
    Tracks (writeShifted (43 :: written) {} c) (text ++ [c]) := by
  obtain ⟨ds, hds, hout, hfits, hrest, hmore⟩ :=
    writes_units (s := (43 :: written, {})) BitBuffer.fits_empty (Nat.zero_lt_succ 5) (unitsOf c)
  have hne := Writes.digits_ne_nil (unitsOf_ne_nil c) hrest hmore
  obtain ⟨r', hr', hshift⟩ :=
    shifted_open hmode (mt List.map_eq_nil_iff.mp hne) (areDigits_digit hds)
  have hread := reads_append hr hr'
  rw [writeShifted_eq]
  refine ⟨r', ?_, hfits, hrest, _, hshift, ?_⟩
  · rw [hout, List.reverse_append, List.reverse_reverse, List.reverse_cons, List.append_assoc]
    exact hread
  · rw [List.append_assoc, hmore, hunits, Utf16.units_append, unitBits_append]
    simp [BitBuffer.view, bitsOf]

theorem tracks_push {w : Writer} {text : List Char} (h : Tracks w text) (c : Char) :
    Tracks (w.push c) (text ++ [c]) := by
  obtain ⟨written, shift⟩ := w
  obtain ⟨r, hr, hstate⟩ := h
  rw [Writer.push]
  cases shift with
  | none =>
    obtain ⟨hmode, hunits⟩ := hstate
    by_cases hc : isDirect c = true
    · obtain ⟨r', hpush, hmode', hunits'⟩ := push_direct hmode hc
      simp only [if_pos hc]
      refine ⟨r', ?_, hmode', by rw [hunits', hunits]; simp⟩
      rw [List.reverse_cons]
      exact reads_append hr (foldlM_push_cons hpush)
    · by_cases hplus : c = '+'
      · subst hplus
        simp only [if_neg hc, if_true]
        refine ⟨{ offset := r.offset + 1 + 1, units := 43 :: r.units, mode := .direct }, ?_, rfl, ?_⟩
        · rw [List.reverse_cons, List.reverse_cons, List.append_assoc]
          refine reads_append hr ?_
          exact foldlM_push_cons (push_plus hmode)
        · rw [List.reverse_cons, hunits, Utf16.units_append]
          rfl
      · simp only [if_neg hc, if_neg hplus]
        exact tracks_openShift hr hmode hunits c
  | some b =>
    obtain ⟨hb, hsize, bits, hshift, hbits⟩ := hstate
    by_cases hc : isDirect c = true
    · obtain ⟨r', hclose, hmode', hunits'⟩ := reads_closeShift hr hshift hb hsize hbits
      obtain ⟨r'', hpush, hmode'', hunits''⟩ := push_direct hmode' hc
      simp only [if_pos hc]
      refine ⟨r'', ?_, hmode'', by rw [hunits'', hunits']; simp⟩
      rw [List.reverse_cons]
      exact reads_append hclose (foldlM_push_cons hpush)
    · simp only [if_neg hc]
      exact tracks_writeShifted hr hshift hb hsize hbits c

theorem tracks_foldl {w : Writer} {read : List Char} (h : Tracks w read) (text : List Char) :
    Tracks (text.foldl Writer.push w) (read ++ text) := by
  induction text generalizing w read with
  | nil => rwa [List.append_nil]
  | cons c text ih =>
    rw [List.foldl_cons, ← List.singleton_append, ← List.append_assoc]
    exact ih (tracks_push h c)

theorem decodeUnits_encode (text : List Char) : decodeUnits (encode text) = .ok (units text) := by
  have hstart : Tracks {} [] := ⟨{}, rfl, rfl, rfl⟩
  obtain ⟨r, hr, hstate⟩ := tracks_foldl hstart text
  -- whatever the writer leaves open, the end of the text closes
  have hend : ∃ r', Reads (encode text) r' ∧ r'.mode = .direct ∧ r'.units.reverse = units text := by
    rw [encode, Writer.finish]
    cases hshift : (text.foldl Writer.push {}).shift with
    | none =>
      rw [hshift] at hstate
      exact ⟨r, hr, hstate.1, hstate.2⟩
    | some b =>
      rw [hshift] at hstate
      obtain ⟨hb, hsize, bits, hopen, hbits⟩ := hstate
      exact reads_closeShift hr hopen hb hsize hbits
  obtain ⟨r', hr', hmode, hunits⟩ := hend
  rw [decodeUnits, hr']
  show r'.finish = _
  rw [Reader.finish, hmode, hunits]

/-- Text is read from units. -/
theorem decode_eq_ok_iff {octets : List UInt8} {text : List Char} :
    decode octets = .ok text ↔ decodeUnits octets = .ok (units text) := by
  unfold decode
  split
  · next e he => simp [he]
  · next us hus =>
    rw [hus, Except.ok.injEq, eq_comm (a := us), ← Utf16.decodeUnits_eq_some_iff]
    cases Utf16.decodeUnits us <;> simp

/-- Text written as UTF-7 is read back. -/
theorem decode_encode (text : List Char) : decode (encode text) = .ok text :=
  decode_eq_ok_iff.mpr (decodeUnits_encode text)

/-! ## §5 Octets that are accepted -/

theorem decodeUnits_eq_ok {octets : List UInt8} {us : List UInt16}
    (h : decodeUnits octets = .ok us) : ∃ r, Reads octets r ∧ r.finish = .ok us := by
  rw [decodeUnits] at h
  cases hr : octets.foldlM Reader.push {} with
  | error e =>
    rw [hr] at h
    cases h
  | ok r =>
    rw [hr] at h
    exact ⟨r, hr, h⟩

/-- What an octet that is accepted can be: a digit, a hyphen, or an octet that is read outside
a shift sequence. -/
theorem push_cases {r r' : Reader} {b : UInt8} (h : r.push b = .ok r') :
    (∃ start buffer value, digitValue b = some value ∧ r' = r.pushDigit start buffer value) ∨
      (b = 45 ∧ r.units <:+ r'.units) ∨ r.pushDirect b = .ok r' := by
  rw [Reader.push] at h
  split at h
  · exact .inr (.inr h)
  · split_ifs at h with hhyphen
    · cases h
      exact .inr (.inl ⟨hhyphen, List.suffix_cons _ _⟩)
    · split at h
      · next start _ _ value hvalue =>
        cases h
        exact .inl ⟨_, _, value, hvalue, rfl⟩
      · exact .inr (.inr h)
  · split at h
    · next value hvalue =>
      cases h
      exact .inl ⟨_, _, value, hvalue, rfl⟩
    · rw [Reader.endShift] at h
      split_ifs at h with hpadding hhyphen
      · cases h
        exact .inr (.inl ⟨hhyphen, List.suffix_refl _⟩)
      · exact .inr (.inr h)

/-- The reader goes on at ASCII octets only. -/
theorem ascii_of_push {r r' : Reader} {b : UInt8} (h : r.push b = .ok r') : b < 0x80 := by
  rcases push_cases h with ⟨start, buffer, value, hvalue, -⟩ | ⟨rfl, -⟩ | hdirect
  · exact digitValue_ascii hvalue
  · decide
  · rw [Reader.pushDirect] at hdirect
    split_ifs at hdirect with hhigh
    all_goals exact UInt8.not_le.mp hhigh

theorem ascii_of_reads {octets : List UInt8} {r r' : Reader}
    (h : octets.foldlM Reader.push r = .ok r') : ∀ b ∈ octets, b < 0x80 := by
  induction octets generalizing r with
  | nil => exact fun b hb => absurd hb List.not_mem_nil
  | cons b octets ih =>
    cases hb : r.push b with
    | error e =>
      rw [List.foldlM_cons, hb] at h
      cases h
    | ok r₁ =>
      rw [foldlM_push_cons hb] at h
      exact List.forall_mem_cons.mpr ⟨ascii_of_push hb, ih h⟩

theorem ascii_of_decodeUnits {octets : List UInt8} {us : List UInt16}
    (h : decodeUnits octets = .ok us) : ∀ b ∈ octets, b < 0x80 := by
  obtain ⟨r, hr, -⟩ := decodeUnits_eq_ok h
  exact ascii_of_reads hr

/-- Every text is written as ASCII octets, and these are read back as the text. -/
theorem encode_is_ascii_and_read_back (text : List Char) :
    decode (encode text) = .ok text ∧ ∀ b ∈ encode text, b < 0x80 :=
  ⟨decode_encode text, ascii_of_decodeUnits (decodeUnits_encode text)⟩

end MarkerBlock.Encoding.Utf7
