/-
MarkerBlock.Proofs.Encoding.Utf7Segment — what becomes of the plus signs of a UTF-7 file.

Octets are cut at the plus signs that open a shift sequence (`segments`): such a plus sign, the
digits after it and a hyphen, if it comes next, are one segment, and every octet outside is
another.  What a segment stands for is said without the reader (`Segment.Reads`), and the reader
reads the segments one after another (`yields_iff`).

A plus sign that neither a digit nor a hyphen follows is a segment that stands for nothing, and the
reader accepts it.  No other segment stands for nothing (`Segment.Reads.eq_nil_iff`), so this
is the one way in which a plus sign can be lost (`plus_signs_of_decode`).
-/
import Mathlib
import MarkerBlock.Proofs.Encoding.Utf7Signature

namespace MarkerBlock.Encoding.Utf7

open Utf16 (units)

/-! ## §1 Segments -/

/-- The octet is a base-64 digit. -/
def isDigit (b : UInt8) : Bool := (digitValue b).isSome

/-- A stretch of a UTF-7 file. -/
inductive Segment where
  /-- An octet outside a shift sequence. -/
  | direct (b : UInt8)
  /-- A plus sign, the digits after it, and a hyphen if `closed`. -/
  | shift (digits : List UInt8) (closed : Bool)
deriving Repr, DecidableEq

/-- The octets of a segment. -/
def Segment.octets : Segment → List UInt8
  | .direct b => [b]
  | .shift digits closed => 43 :: (digits ++ if closed then [45] else [])

/-- The segments of octets. -/
def segments : List UInt8 → List Segment
  | [] => []
  | b :: rest =>
    if b = 43 then
      let digits := rest.takeWhile isDigit
      let after := rest.dropWhile isDigit
      if after.head? = some 45 then .shift digits true :: segments after.tail
      else .shift digits false :: segments after
    else .direct b :: segments rest
termination_by octets => octets.length
decreasing_by
  all_goals
    have hle := List.length_dropWhile_le isDigit rest
    simp only [List.length_tail, List.length_cons]
    omega

/-- The segment ends where `rest` begins. -/
def Segment.EndsAt (rest : List UInt8) : Segment → Prop
  | .direct b => b ≠ 43
  | .shift digits closed => (∀ d ∈ digits, isDigit d = true) ∧
      (closed = false → ∀ b ∈ rest.head?, isDigit b = false ∧ b ≠ 45)

/-- The octets are cut into the segments. -/
inductive Cut : List UInt8 → List Segment → Prop
  | nil : Cut [] []
  | cons {g : Segment} {rest : List UInt8} {gs : List Segment} :
      g.EndsAt rest → Cut rest gs → Cut (g.octets ++ rest) (g :: gs)

theorem cut_segments (octets : List UInt8) : Cut octets (segments octets) := by
  fun_induction segments octets with
  | case1 => exact .nil
  | case2 rest digits after hhyphen ih =>
    have hsplit : 43 :: rest = (Segment.shift digits true).octets ++ after.tail := by
      obtain ⟨more, hmore⟩ : ∃ more, after = 45 :: more := by
        cases hafter : after with
        | nil => simp [hafter] at hhyphen
        | cons b more => exact ⟨more, by simpa [hafter] using hhyphen⟩
      have hrest : digits ++ after = rest := List.takeWhile_append_dropWhile
      rw [← hrest, hmore]
      simp [Segment.octets]
    rw [hsplit]
    exact .cons ⟨fun d hd => List.mem_takeWhile_imp hd, fun h => by cases h⟩ ih
  | case3 rest digits after hhyphen ih =>
    have hsplit : 43 :: rest = (Segment.shift digits false).octets ++ after := by
      have hrest : digits ++ after = rest := List.takeWhile_append_dropWhile
      rw [← hrest]
      simp [Segment.octets]
    rw [hsplit]
    refine .cons ⟨fun d hd => List.mem_takeWhile_imp hd, fun _ b hb => ⟨?_, ?_⟩⟩ ih
    · have hnot := List.head?_dropWhile_not isDigit rest
      rw [show rest.dropWhile isDigit = after from rfl, hb] at hnot
      simpa using hnot
    · rintro rfl
      exact hhyphen hb
  | case4 b rest hb ih => exact .cons (g := .direct b) hb ih

/-- Nothing is lost in cutting. -/
theorem Cut.octets_eq {octets : List UInt8} {gs : List Segment} (h : Cut octets gs) :
    gs.flatMap Segment.octets = octets := by
  induction h with
  | nil => rfl
  | cons _ _ ih => rw [List.flatMap_cons, ih]

/-! ## §2 What segments stand for -/

/-- The units that a segment stands for. -/
inductive Segment.Reads : Segment → List UInt16 → Prop
  /-- Outside a shift sequence an ASCII octet is a unit. -/
  | direct {b : UInt8} : b < 0x80 → Reads (.direct b) [b.toUInt16]
  /-- A plus sign with a hyphen right after it stands for a plus sign. -/
  | escape : Reads (.shift [] true) [43]
  /-- A plus sign without digits and hyphen stands for nothing. -/
  | bare : Reads (.shift [] false) []
  /-- The bits of the digits are those of the units and fewer than six zeros. -/
  | digits {ds : List UInt8} {values : List UInt32} {us : List UInt16} {zeros : Nat}
      (closed : Bool) : ds ≠ [] → AreDigits ds values → zeros < 6 →
      digitBits values = unitBits us ++ List.replicate zeros false → Reads (.shift ds closed) us

@[simp] theorem length_digitBits (values : List UInt32) :
    (digitBits values).length = 6 * values.length := by
  simp [digitBits, List.length_flatMap, Nat.mul_comm]

/-- Digits stand for a unit at least. -/
theorem ne_nil_of_digitBits {values : List UInt32} {us : List UInt16} {zeros : Nat}
    (hne : values ≠ []) (hzeros : zeros < 6)
    (h : digitBits values = unitBits us ++ List.replicate zeros false) : us ≠ [] := by
  rintro rfl
  have hpos := List.length_pos_of_ne_nil hne
  have hlength := congrArg List.length h
  rw [length_digitBits, unitBits_nil, List.nil_append, List.length_replicate] at hlength
  omega

/-- Nothing but a plus sign without digits and hyphen stands for nothing. -/
theorem Segment.Reads.eq_nil_iff {g : Segment} {part : List UInt16} (h : g.Reads part) :
    part = [] ↔ g = .shift [] false := by
  cases h with
  | direct _ => simp
  | escape => simp
  | bare => simp
  | digits closed hne hdigits hzeros hbits =>
    have hvalues := mt List.length_eq_zero_iff.mp hne
    rw [hdigits.length_eq, List.length_eq_zero_iff] at hvalues
    simp [hne, ne_nil_of_digitBits hvalues hzeros hbits]

/-! ## §3 The reader, segment by segment -/

/-- The reader goes through `octets` and gives the units `us`. -/
def Yields (r : Reader) (octets : List UInt8) (us : List UInt16) : Prop :=
  ∃ r', octets.foldlM Reader.push r = .ok r' ∧ r'.finish = .ok us

variable {r : Reader} {us : List UInt16} {rest : List UInt8}

theorem yields_append {octets : List UInt8} {r' : Reader}
    (h : octets.foldlM Reader.push r = .ok r') : Yields r (octets ++ rest) us ↔ Yields r' rest us := by
  rw [Yields, Yields, List.foldlM_append, h]
  rfl

theorem yields_cons {b : UInt8} {r' : Reader} (h : r.push b = .ok r') :
    Yields r (b :: rest) us ↔ Yields r' rest us := by
  rw [Yields, Yields, foldlM_push_cons h]

theorem not_yields_cons {b : UInt8} {e : Nat} (h : r.push b = .error e) :
    ¬Yields r (b :: rest) us := by
  rintro ⟨r', hr', -⟩
  rw [List.foldlM_cons, h] at hr'
  cases hr'

/-- The reader outside a shift sequence, with the same octets and units behind it. -/
def Reader.outside (r : Reader) : Reader := { r with mode := .direct }

/-- A shift sequence may end here: what is neither a digit nor a hyphen is read outside it, and so
is the end of input. -/
structure MayLeave (r : Reader) : Prop where
  push : ∀ b, isDigit b = false → b ≠ 45 → r.push b = r.outside.push b
  finish : r.finish = r.outside.finish

theorem mayLeave_of_opened {start : Nat} (hmode : r.mode = .opened start) : MayLeave r := by
  constructor
  case push =>
    intro b hb hne
    have hvalue : digitValue b = none := by simpa [isDigit] using hb
    rw [Reader.push, hmode]
    simp only [if_neg hne, hvalue]
    rfl
  case finish =>
    rw [Reader.finish, hmode]
    rfl

theorem mayLeave_of_padding {start : Nat} {buffer : BitBuffer} (hmode : r.mode = .shifted start buffer)
    (hpadding : buffer.isPadding = true) : MayLeave r := by
  constructor
  case push =>
    intro b hb hne
    have hvalue : digitValue b = none := by simpa [isDigit] using hb
    rw [Reader.push, hmode]
    simp only [hvalue, Reader.endShift, if_pos hpadding, if_neg hne]
    rfl
  case finish =>
    rw [Reader.finish, hmode]
    simp only [if_pos hpadding]
    rfl

theorem MayLeave.yields_iff (h : MayLeave r) (hends : ∀ b ∈ rest.head?, isDigit b = false ∧ b ≠ 45) :
    Yields r rest us ↔ Yields r.outside rest us := by
  cases rest with
  | nil => simp [Yields, h.finish, pure, Except.pure]
  | cons b rest =>
    obtain ⟨hb, hne⟩ := hends b rfl
    rw [Yields, Yields, List.foldlM_cons, List.foldlM_cons, h.push b hb hne]

/-- A shift sequence that is accepted ends with padding. -/
theorem padding_of_yields {start : Nat} {buffer : BitBuffer} (hmode : r.mode = .shifted start buffer)
    (hends : ∀ b ∈ rest.head?, isDigit b = false) (h : Yields r rest us) : buffer.isPadding = true := by
  by_contra hnot
  cases rest with
  | nil =>
    obtain ⟨r', hr', hfinish⟩ := h
    cases hr'
    rw [Reader.finish, hmode] at hfinish
    simp only [if_neg hnot] at hfinish
    cases hfinish
  | cons b rest =>
    have hvalue : digitValue b = none := by simpa [isDigit] using hends b rfl
    have hpush : r.push b = .error start := by
      rw [Reader.push, hmode]
      simp only [hvalue, Reader.endShift, if_neg hnot]
    exact not_yields_cons hpush h

/-- The units that a shift sequence adds have the bits of its digits, but for those that wait. -/
theorem digitBits_of_shifted {values : List UInt32} {octets : List UInt8} {r' : Reader}
    (hr' : octets.foldlM Reader.push r = .ok r') {bits : List Bool}
    (h : unitBits r'.units.reverse ++ bits = unitBits r.units.reverse ++ digitBits values) :
    ∃ part, r'.units.reverse = r.units.reverse ++ part ∧ digitBits values = unitBits part ++ bits := by
  obtain ⟨more, hmore⟩ := suffix_foldlM hr'
  have hunits : r'.units.reverse = r.units.reverse ++ more.reverse := by
    rw [← hmore, List.reverse_append]
  rw [hunits, unitBits_append, List.append_assoc, List.append_cancel_left_eq] at h
  exact ⟨more.reverse, hunits, h.symm⟩

theorem exists_areDigits {ds : List UInt8} (h : ∀ d ∈ ds, isDigit d = true) :
    ∃ values, AreDigits ds values := by
  induction ds with
  | nil => exact ⟨[], .nil⟩
  | cons d ds ih =>
    rw [List.forall_mem_cons] at h
    obtain ⟨v, hv⟩ := Option.isSome_iff_exists.mp h.1
    obtain ⟨values, hvalues⟩ := ih h.2
    exact ⟨v :: values, .cons hv hvalues⟩

/-- The octets of a shift sequence are its plus sign and digits, and its hyphen if it has one. -/
theorem octets_shift_append (ds : List UInt8) (closed : Bool) (rest : List UInt8) :
    (Segment.shift ds closed).octets ++ rest =
      (43 :: ds) ++ ((if closed then [45] else []) ++ rest) := by
  simp [Segment.octets]

/-- A segment that is accepted stands for something, if only for no units. -/
theorem reads_of_yields (hmode : r.mode = .direct) {g : Segment} (hends : g.EndsAt rest)
    (h : Yields r (g.octets ++ rest) us) : ∃ part, g.Reads part := by
  cases g with
  | direct b =>
    obtain ⟨r', hr', -⟩ := h
    exact ⟨_, .direct (ascii_of_reads hr' b List.mem_cons_self)⟩
  | shift ds closed =>
    obtain ⟨hdigits, hstop⟩ := hends
    by_cases hne : ds = []
    · subst hne
      cases closed
      · exact ⟨_, .bare⟩
      · exact ⟨_, .escape⟩
    · obtain ⟨values, hvalues⟩ := exists_areDigits hdigits
      obtain ⟨r', hr', start, buffer, hmode', hfits, -, hbits⟩ := shifted_open hmode hne hvalues
      rw [octets_shift_append, yields_append hr'] at h
      have hnext : ∀ b ∈ ((if closed then [45] else []) ++ rest).head?, isDigit b = false := by
        cases closed
        · exact fun b hb => (hstop rfl b hb).1
        · rintro b ⟨⟩
          rfl
      obtain ⟨zeros, hzeros, hview⟩ :=
        (BitBuffer.isPadding_iff hfits).mp (padding_of_yields hmode' hnext h)
      rw [hview] at hbits
      obtain ⟨part, -, hpart⟩ := digitBits_of_shifted hr' hbits
      exact ⟨part, .digits closed hne hvalues hzeros hpart⟩

/-- The reader goes through a segment, and is outside shift sequences after it with the units of the
segment read. -/
theorem yields_segment (hmode : r.mode = .direct) {g : Segment} {part : List UInt16}
    (hends : g.EndsAt rest) (h : g.Reads part) :
    ∃ r', r'.mode = .direct ∧ r'.units.reverse = r.units.reverse ++ part ∧
      (Yields r (g.octets ++ rest) us ↔ Yields r' rest us) := by
  cases h with
  | @direct b hascii =>
    have hpush : r.push b = .ok
        { offset := r.offset + 1, units := b.toUInt16 :: r.units, mode := .direct } := by
      rw [Reader.push, hmode]
      show r.pushDirect b = _
      rw [Reader.pushDirect, if_neg (UInt8.not_le.mpr hascii), if_neg hends]
    exact ⟨_, rfl, by simp, yields_cons hpush⟩
  | escape =>
    have hplus := push_plus hmode
    generalize hopened : ({ r with offset := r.offset + 1, mode := .opened r.offset } : Reader) = r₀
      at hplus
    have hhyphen : r₀.push 45 = .ok
        { offset := r₀.offset + 1, units := 43 :: r₀.units, mode := .direct } := by
      rw [Reader.push, ← hopened]
      rfl
    have hunits : r₀.units = r.units := by rw [← hopened]
    exact ⟨_, rfl, by simp [hunits], (yields_cons hplus).trans (yields_cons hhyphen)⟩
  | bare =>
    have hleave := mayLeave_of_opened (r := { r with offset := r.offset + 1, mode := .opened r.offset })
      rfl
    refine ⟨_, rfl, ?_, (yields_cons (push_plus hmode)).trans (hleave.yields_iff (hends.2 rfl))⟩
    exact (List.append_nil _).symm
  | @digits ds values part zeros closed hne hdigits hzeros hbits =>
    obtain ⟨r₁, hr₁, start, buffer, hmode₁, hfits, hsize, hread⟩ := shifted_open hmode hne hdigits
    rw [hbits, ← List.append_assoc, ← unitBits_append] at hread
    obtain ⟨hunits, hview⟩ := unitBits_inj (by simpa using hsize) (by simp; omega) hread
    have hpadding := (BitBuffer.isPadding_iff hfits).mpr ⟨zeros, hzeros, hview⟩
    rw [octets_shift_append, yields_append hr₁]
    cases closed with
    | false =>
      exact ⟨r₁.outside, rfl, hunits,
        (mayLeave_of_padding hmode₁ hpadding).yields_iff (hends.2 rfl)⟩
    | true =>
      exact ⟨{ r₁ with offset := r₁.offset + 1, mode := .direct }, rfl, hunits,
        yields_cons (push_hyphen hmode₁ hpadding)⟩

/-- The reader gives the units that the segments stand for, one after another, and reads nothing
else. -/
theorem yields_iff {octets : List UInt8} {gs : List Segment} (hcut : Cut octets gs)
    (hmode : r.mode = .direct) :
    Yields r octets us ↔
      ∃ parts, List.Forall₂ Segment.Reads gs parts ∧ us = r.units.reverse ++ parts.flatten := by
  induction hcut generalizing r with
  | nil =>
    have hfinish : r.finish = .ok r.units.reverse := by rw [Reader.finish, hmode]
    simp [Yields, hfinish, pure, Except.pure, eq_comm]
  | cons hends _ ih =>
    constructor
    · intro h
      obtain ⟨part, hpart⟩ := reads_of_yields hmode hends h
      obtain ⟨r', hmode', hunits, hrest⟩ := yields_segment hmode hends hpart
      obtain ⟨parts, hparts, hus⟩ := (ih hmode').mp (hrest.mp h)
      exact ⟨part :: parts, .cons hpart hparts, by simp [hus, hunits]⟩
    · rintro ⟨parts, hparts, hus⟩
      cases hparts with
      | cons hpart hparts =>
        obtain ⟨r', hmode', hunits, hrest⟩ := yields_segment hmode hends hpart
        exact hrest.mpr ((ih hmode').mpr ⟨_, hparts, by simp [hus, hunits]⟩)

/-! ## §4 Plus signs -/

theorem decode_eq_ok_iff_segments {octets : List UInt8} {text : List Char} :
    decode octets = .ok text ↔
      ∃ parts, List.Forall₂ Segment.Reads (segments octets) parts ∧ parts.flatten = units text := by
  have hyields : decodeUnits octets = .ok (units text) ↔ Yields {} octets (units text) := by
    constructor
    · exact decodeUnits_eq_ok
    · rintro ⟨r, hr, hfinish⟩
      rw [decodeUnits, hr]
      exact hfinish
  rw [decode_eq_ok_iff, hyields, yields_iff (cut_segments octets) rfl]
  simp [eq_comm]

/-- A plus sign that opens a shift sequence is escaped, or digits follow that stand for a unit at
least. -/
def Segment.KeepsPlus : Segment → Prop
  | .direct _ => True
  | .shift ds closed => (ds = [] ∧ closed = true) ∨
      ds ≠ [] ∧ ∃ part, (Segment.shift ds closed).Reads part ∧ part ≠ []

/-- Of the segments that are accepted, the bare plus sign alone is not kept. -/
theorem Segment.Reads.keepsPlus_iff {g : Segment} {part : List UInt16} (h : g.Reads part) :
    g.KeepsPlus ↔ g ≠ .shift [] false := by
  cases h with
  | direct _ => simp [KeepsPlus]
  | escape => simp [KeepsPlus]
  | bare => simp [KeepsPlus]
  | digits closed hne hdigits hzeros hbits =>
    have hreads := Reads.digits closed hne hdigits hzeros hbits
    have hpart : part ≠ [] := by
      rw [ne_eq, hreads.eq_nil_iff]
      simp [hne]
    have hkept : KeepsPlus (.shift _ closed) := .inr ⟨hne, part, hreads, hpart⟩
    simp [hkept, hne]

theorem exists_reads {gs : List Segment} {parts : List (List UInt16)}
    (h : List.Forall₂ Segment.Reads gs parts) : ∀ g ∈ gs, ∃ part, g.Reads part := by
  induction h with
  | nil => exact fun g hg => absurd hg List.not_mem_nil
  | cons hpart _ ih => exact List.forall_mem_cons.mpr ⟨⟨_, hpart⟩, ih⟩

/-- What is read as text is read segment by segment, and every plus sign that opens a shift sequence
is kept, unless it is bare: then neither a digit nor a hyphen follows it, and it stands for
nothing. -/
theorem plus_signs_of_decode {octets : List UInt8} {text : List Char} (h : decode octets = .ok text) :
    (segments octets).flatMap Segment.octets = octets ∧
      (∃ parts, List.Forall₂ Segment.Reads (segments octets) parts ∧ parts.flatten = units text) ∧
      (∀ g ∈ segments octets, g.KeepsPlus ↔ g ≠ .shift [] false) ∧
      ∀ part, (Segment.shift [] false).Reads part ↔ part = [] := by
  obtain ⟨parts, hparts, htext⟩ := decode_eq_ok_iff_segments.mp h
  refine ⟨(cut_segments octets).octets_eq, ⟨parts, hparts, htext⟩, fun g hg => ?_, fun part => ?_⟩
  · obtain ⟨part, hpart⟩ := exists_reads hparts g hg
    exact hpart.keepsPlus_iff
  · constructor
    · exact fun hreads => hreads.eq_nil_iff.mpr rfl
    · rintro rfl
      exact .bare

/-- Between the digits of `=` and an escaped plus sign one is kept, and the one before the space is
lost. -/
theorem plus_signs_of_decode_sum :
    decode [0x31, 43, 0x41, 0x44, 0x30, 45, 43, 45, 43, 0x20, 0x32] = .ok ['1', '=', '+', ' ', '2'] ∧
    segments [0x31, 43, 0x41, 0x44, 0x30, 45, 43, 45, 43, 0x20, 0x32] =
      [.direct 0x31, .shift [0x41, 0x44, 0x30] true, .shift [] true, .shift [] false, .direct 0x20,
        .direct 0x32] ∧
    (Segment.shift [0x41, 0x44, 0x30] true).KeepsPlus ∧ (Segment.shift [] true).KeepsPlus ∧
    ¬(Segment.shift [] false).KeepsPlus := by
  have hdecode : decode [0x31, 43, 0x41, 0x44, 0x30, 45, 43, 45, 43, 0x20, 0x32] =
      .ok ['1', '=', '+', ' ', '2'] := by rfl
  have hcut : segments [0x31, 43, 0x41, 0x44, 0x30, 45, 43, 45, 43, 0x20, 0x32] =
      [.direct 0x31, .shift [0x41, 0x44, 0x30] true, .shift [] true, .shift [] false, .direct 0x20,
        .direct 0x32] := by cbv
  have hkept := (plus_signs_of_decode hdecode).2.2.1
  rw [hcut] at hkept
  exact ⟨hdecode, hcut, (hkept _ (by decide)).mpr (by decide), (hkept _ (by decide)).mpr (by decide),
    fun h => (hkept _ (by decide)).mp h rfl⟩

/-- A plus sign before a space is accepted, and lost. -/
theorem plus_sign_is_lost :
    ¬∀ (octets : List UInt8) (text : List Char), decode octets = .ok text →
      ∀ g ∈ segments octets, g.KeepsPlus := by
  intro hall
  have hcut : segments [0x31, 0x20, 43, 0x20, 0x32] =
      [.direct 0x31, .direct 0x20, .shift [] false, .direct 0x20, .direct 0x32] := by cbv
  have hkept := hall [0x31, 0x20, 43, 0x20, 0x32] ['1', ' ', ' ', '2'] rfl (.shift [] false)
    (by rw [hcut]; decide)
  simp [Segment.KeepsPlus] at hkept

end MarkerBlock.Encoding.Utf7
