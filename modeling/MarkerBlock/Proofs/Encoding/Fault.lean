/-
MarkerBlock.Proofs.Encoding.Fault — the offset of a malformed file.

The readers find their offsets in different ways: the first octet that is no ASCII, the end
of what is well-formed UTF-8, the start of a shift sequence, a group of four octets, or the
whole of what follows the mark.  Before the offset there should be nothing but well-formed
octets, and of the readers but two that is true.

* The UTF-7 reader looks for surrogates when it has read everything.  An unpaired one has
  the length of the file for its offset, and does not keep an earlier one from being passed
  over when octets behind it are refused.
* The UTF-32 reader looks at the number of octets first.  An incomplete last group is
  reported whatever stands before it.

`fault_offset` says what holds of all files.
-/
import Mathlib
import MarkerBlock.Proofs.Encoding.Codec

namespace MarkerBlock.Encoding

/-! ## §1 UTF-8 -/

namespace Utf8

theorem length_encode_cons (c : Char) (text : List Char) :
    (encode (c :: text)).length = c.utf8Size + (encode text).length := by
  rw [encode, List.flatMap_cons, List.length_append, String.length_utf8EncodeChar]
  rfl

/-- The first malformed piece follows the text whose octets come before its offset. -/
theorem collect_eq_error {offset k : Nat} {read : List Char} {ps : List Piece}
    (h : collect offset read ps = .error k) : ∃ text rest,
      ps = text.map .scalar ++ rest ∧ k = offset + (encode text).length := by
  induction ps generalizing offset read with
  | nil => cases h
  | cons p ps ih =>
    cases p with
    | malformed octets =>
      cases h
      exact ⟨[], .malformed octets :: ps, rfl, rfl⟩
    | scalar c =>
      obtain ⟨text, rest, hps, hk⟩ := ih h
      refine ⟨c :: text, rest, congrArg (Piece.scalar c :: ·) hps, ?_⟩
      rw [hk, length_encode_cons, Nat.add_assoc]

/-- What comes before the first malformed piece is read as text. -/
theorem decode_take_of_error {octets : List UInt8} {k : Nat} (h : decode octets = .error k) :
    ∃ text, decode (octets.take k) = .ok text := by
  obtain ⟨text, rest, hpieces, hk⟩ := collect_eq_error h
  refine ⟨text, decode_eq_ok_iff.mpr ?_⟩
  have hoctets := flatMap_octets_pieces octets
  have htext : (text.map Piece.scalar).flatMap Piece.octets = encode text := by
    rw [List.flatMap_map]
    rfl
  rw [hpieces, List.flatMap_append, htext] at hoctets
  rw [← hoctets, hk, Nat.zero_add, List.take_left]

end Utf8

/-! ## §2 UTF-32 -/

namespace Utf32

/-- The first group that is no character follows groups that are. -/
theorem decodeOnto_eq_error {offset k : Nat} {read : List Char} {octets : List UInt8}
    (h : decodeOnto offset read octets = .error k) :
    ∃ text rest, octets = encode text ++ rest ∧ k = offset + (encode text).length ∧ rest ≠ [] := by
  fun_induction decodeOnto offset read octets with
  | case1 offset read w x y z rest n hn ih =>
    obtain ⟨text, more, hrest, hk, hmore⟩ := ih h
    have hgroup : octetsOf (Char.ofNat n) = [w, x, y, z] := octetsOf_groupValue hn
    refine ⟨Char.ofNat n :: text, more, ?_, ?_, hmore⟩
    · rw [encode_cons, hgroup, hrest]
      rfl
    · rw [hk, encode_cons, hgroup, List.length_append, ← Nat.add_assoc]
      rfl
  | case2 offset read w x y z rest n hn =>
    cases h
    exact ⟨[], w :: x :: y :: z :: rest, rfl, rfl, List.cons_ne_nil _ _⟩
  | case3 => cases h

/-- What comes before the offset is read as text, or it is the incomplete last group that is
reported and there is a fault before it. -/
theorem decode_take_of_error {octets : List UInt8} {k : Nat} (h : decode octets = .error k) :
    (∃ text, decode (octets.take k) = .ok text) ∨
      octets.length % 4 ≠ 0 ∧ k < octets.length ∧
        ∃ earlier < k, decode (octets.take k) = .error earlier := by
  simp only [decode] at h
  split at h
  · next hexcess =>
    cases h
    cases hfront : decode (octets.take (octets.length - octets.length % 4)) with
    | ok text => exact .inl ⟨text, rfl⟩
    | error earlier =>
      refine .inr ⟨hexcess, by omega, earlier, ?_, rfl⟩
      have hwhole : (octets.take (octets.length - octets.length % 4)).length % 4 = 0 := by
        rw [List.length_take]
        omega
      simp only [decode] at hfront
      rw [if_neg (by simpa using hwhole)] at hfront
      obtain ⟨text, rest, htake, hearlier, hrest⟩ := decodeOnto_eq_error hfront
      have hlength := congrArg List.length htake
      rw [List.length_take, List.length_append] at hlength
      have hpos := List.length_pos_iff.mpr hrest
      omega
  · obtain ⟨text, rest, hoctets, hk, -⟩ := decodeOnto_eq_error h
    refine .inl ⟨text, decode_eq_ok_iff.mpr ?_⟩
    rw [hoctets, hk, Nat.zero_add, List.take_left]

end Utf32

/-! ## §3 ASCII, UTF-16 and code pages -/

theorem decodeAscii_take_of_error {octets : List UInt8} {k : Nat} (h : decodeAscii octets = .error k) :
    ∃ text, decodeAscii (octets.take k) = .ok text := by
  rw [decodeAscii] at h
  split at h
  · next i hi =>
    cases h
    obtain ⟨_, -, hbefore⟩ := List.findIdx?_eq_some_iff_getElem.mp hi
    refine ⟨_, decodeAscii_eq_ok_iff.mpr ⟨?_, rfl⟩⟩
    intro b hb
    obtain ⟨j, hj, rfl⟩ := List.mem_take_iff_getElem.mp hb
    have hlow := hbefore j (by omega)
    simpa [UInt8.le_iff_toNat_le] using hlow
  · cases h

/-- A reader that gives no position reads nothing as the empty text. -/
theorem wholly_take_of_error {read : List UInt8 → Option (List Char)} (hnil : read [] = some [])
    {octets : List UInt8} {k : Nat} (h : wholly (read octets) = .error k) :
    ∃ text, wholly (read (octets.take k)) = .ok text := by
  cases hread : read octets with
  | some text =>
    rw [hread] at h
    cases h
  | none =>
    rw [hread] at h
    cases h
    rw [List.take_zero, hnil]
    exact ⟨[], rfl⟩

/-! ## §4 UTF-7 -/

namespace Utf7

/-- The octets are read as units, but not all surrogates among these are in pairs. -/
def IsUnpaired (octets : List UInt8) : Prop :=
  ∃ us, decodeUnits octets = .ok us ∧ Utf16.decodeUnits us = none

/-- The octets are read as units. -/
def IsRead (octets : List UInt8) : Prop := ∃ us, decodeUnits octets = .ok us

/-- Where the shift sequence begins that the reader is in. -/
def Mode.start? : Mode → Option Nat
  | .direct => none
  | .opened start => some start
  | .shifted start _ => some start

/-- The reader has read `before`, and what stands before an open shift sequence is read as units. -/
structure Stands (before : List UInt8) (r : Reader) : Prop where
  reads : Reads before r
  offset : r.offset = before.length
  start : ∀ start ∈ r.mode.start?, start ≤ before.length ∧ IsRead (before.take start)

theorem stands_nil : Stands [] {} :=
  ⟨rfl, rfl, fun start hmem => absurd hmem (Option.not_mem_none start)⟩

theorem isRead_of_finish {before : List UInt8} {r : Reader} (hreads : Reads before r)
    {us : List UInt16} (h : r.finish = .ok us) : IsRead before := by
  refine ⟨us, ?_⟩
  rw [decodeUnits, hreads]
  exact h

/-- An octet that is refused has an offset before which all is read as units; one that is accepted
leaves the reader standing. -/
def StepStands (before : List UInt8) (b : UInt8) : Except Nat Reader → Prop
  | .ok r => Stands (before ++ [b]) r
  | .error k => k ≤ before.length ∧ IsRead (before.take k)

section step

variable {before : List UInt8} {r : Reader} (h : Stands before r)
include h

/-- A shift sequence that is open after an octet was open before it, or it begins with the octet. -/
theorem Stands.push {b : UInt8} {r' : Reader} (hr' : r.push b = .ok r') (hoffset : r'.offset = r.offset + 1)
    (hstart : ∀ start ∈ r'.mode.start?, start ∈ r.mode.start? ∨ start = before.length ∧ IsRead before) :
    Stands (before ++ [b]) r' where
  reads := reads_append h.reads (foldlM_push_cons hr')
  offset := by rw [hoffset, h.offset, List.length_append, List.length_singleton]
  start := by
    intro start hmem
    rcases hstart start hmem with hopen | ⟨rfl, hread⟩
    · obtain ⟨hle, hread⟩ := h.start start hopen
      rw [List.take_append_of_le_length hle, List.length_append]
      exact ⟨Nat.le_add_right_of_le hle, hread⟩
    · rw [List.take_left, List.length_append]
      exact ⟨Nat.le_add_right _ _, hread⟩

/-- An octet may leave no shift sequence open. -/
theorem Stands.push_closed {b : UInt8} {r' : Reader} (hr' : r.push b = .ok r')
    (hoffset : r'.offset = r.offset + 1) (hclosed : r'.mode.start? = none) :
    Stands (before ++ [b]) r' := by
  refine h.push hr' hoffset ?_
  rw [hclosed]
  exact fun start hmem => absurd hmem (Option.not_mem_none start)

theorem Stands.push_direct {b : UInt8} (hread : IsRead before) (hpush : r.push b = r.pushDirect b) :
    StepStands before b (r.push b) := by
  cases hresult : r.push b with
  | error k =>
    rw [hpush, Reader.pushDirect] at hresult
    split_ifs at hresult
    cases hresult
    rw [StepStands, h.offset, List.take_length]
    exact ⟨le_rfl, hread⟩
  | ok r' =>
    have hr' := hresult
    rw [hpush, Reader.pushDirect] at hr'
    split_ifs at hr'
    · cases hr'
      refine h.push hresult rfl ?_
      rintro _ ⟨⟩
      exact .inr ⟨h.offset, hread⟩
    · cases hr'
      exact h.push_closed hresult rfl rfl

theorem Stands.push_digit {start : Nat} {buffer : BitBuffer} {b : UInt8} {v : UInt32}
    (hstart : r.mode.start? = some start) (hpush : r.push b = .ok (r.pushDigit start buffer v)) :
    StepStands before b (r.push b) := by
  have hdigit : (r.pushDigit start buffer v).offset = r.offset + 1 ∧
      (r.pushDigit start buffer v).mode.start? = some start := by
    rw [Reader.pushDigit]
    split <;> exact ⟨rfl, rfl⟩
  rw [hpush]
  refine h.push hpush hdigit.1 ?_
  rw [hdigit.2, hstart]
  exact fun _ => .inl

theorem Stands.step (b : UInt8) : StepStands before b (r.push b) := by
  cases hmode : r.mode with
  | direct =>
    have hfinish : r.finish = .ok r.units.reverse := by rw [Reader.finish, hmode]
    exact h.push_direct (isRead_of_finish h.reads hfinish) (by rw [Reader.push, hmode])
  | opened start =>
    have hfinish : r.finish = .ok r.units.reverse := by rw [Reader.finish, hmode]
    by_cases hhyphen : b = 45
    · have hpush : r.push b = .ok { offset := r.offset + 1, units := 43 :: r.units, mode := .direct } := by
        simp only [Reader.push, hmode, if_pos hhyphen]
      rw [hpush]
      exact h.push_closed hpush rfl rfl
    · cases hvalue : digitValue b with
      | none =>
        refine h.push_direct (isRead_of_finish h.reads hfinish) ?_
        simp only [Reader.push, hmode, if_neg hhyphen, hvalue]
      | some v =>
        have hpush : r.push b = .ok (r.pushDigit start {} v) := by
          simp only [Reader.push, hmode, if_neg hhyphen, hvalue]
        exact h.push_digit (by rw [hmode]; rfl) hpush
  | shifted start buffer =>
    have hstart : r.mode.start? = some start := by rw [hmode]; rfl
    cases hvalue : digitValue b with
    | some v =>
      have hpush : r.push b = .ok (r.pushDigit start buffer v) := by
        simp only [Reader.push, hmode, hvalue]
      exact h.push_digit hstart hpush
    | none =>
      have hpush : r.push b = r.endShift start buffer b := by
        simp only [Reader.push, hmode, hvalue]
      by_cases hpadding : buffer.isPadding = true
      · have hfinish : r.finish = .ok r.units.reverse := by
          simp only [Reader.finish, hmode, if_pos hpadding]
        by_cases hhyphen : b = 45
        · have hend : r.push b = .ok { r with offset := r.offset + 1, mode := .direct } := by
            rw [hpush, Reader.endShift, if_pos hpadding, if_pos hhyphen]
          rw [hend]
          exact h.push_closed hend rfl rfl
        · refine h.push_direct (isRead_of_finish h.reads hfinish) ?_
          rw [hpush, Reader.endShift, if_pos hpadding, if_neg hhyphen]
      · rw [hpush, Reader.endShift, if_neg hpadding]
        exact h.start start hstart

end step

/-- From where the reader stands, it goes on to the end, or to an octet it refuses with an offset
before which all is read as units. -/
theorem Stands.run {before : List UInt8} {r : Reader} (h : Stands before r) (octets : List UInt8) :
    (∃ r', Stands (before ++ octets) r' ∧ octets.foldlM Reader.push r = .ok r') ∨
      ∃ k, IsRead ((before ++ octets).take k) ∧ octets.foldlM Reader.push r = .error k := by
  induction octets generalizing before r with
  | nil => exact .inl ⟨r, by rwa [List.append_nil], rfl⟩
  | cons b octets ih =>
    have hstep := h.step b
    rw [List.foldlM_cons]
    cases hpush : r.push b with
    | error k =>
      rw [hpush] at hstep
      obtain ⟨hle, hread⟩ := hstep
      refine .inr ⟨k, ?_, rfl⟩
      rwa [List.take_append_of_le_length hle]
    | ok r' =>
      rw [hpush] at hstep
      have hafter : Stands (before ++ [b]) r' := hstep
      have hrest := ih hafter
      rwa [List.append_assoc, List.singleton_append] at hrest

/-- What stands before an octet that is refused, or before a shift sequence with bad padding, is
read as units. -/
theorem isRead_take_of_error {octets : List UInt8} {k : Nat} (h : decodeUnits octets = .error k) :
    IsRead (octets.take k) := by
  rw [decodeUnits] at h
  rcases stands_nil.run octets with ⟨r, hstands, hrun⟩ | ⟨k', hread, hrun⟩
  · rw [hrun] at h
    have hfinish : r.finish = .error k := h
    rw [Reader.finish] at hfinish
    cases hmode : r.mode with
    | direct => simp [hmode] at hfinish
    | opened start => simp [hmode] at hfinish
    | shifted start buffer =>
      simp only [hmode] at hfinish
      split_ifs at hfinish
      cases hfinish
      exact (hstands.start k (by rw [hmode]; rfl)).2
  · rw [hrun] at h
    cases h
    exact hread

theorem decode_of_isUnpaired {octets : List UInt8} (h : IsUnpaired octets) :
    decode octets = .error octets.length := by
  obtain ⟨us, hunits, hnone⟩ := h
  simp only [decode, hunits, hnone]

/-- Octets that are read as units are read as text, or a surrogate is unpaired. -/
theorem IsRead.text_or_unpaired {octets : List UInt8} (h : IsRead octets) :
    (∃ text, decode octets = .ok text) ∨ IsUnpaired octets := by
  obtain ⟨us, hunits⟩ := h
  cases htext : Utf16.decodeUnits us with
  | none => exact .inr ⟨us, hunits, htext⟩
  | some text => exact .inl ⟨text, by simp only [decode, hunits, htext]⟩

theorem decode_take_of_error {octets : List UInt8} {k : Nat} (h : decode octets = .error k) :
    IsUnpaired octets ∧ k = octets.length ∨ k < octets.length ∧ IsRead (octets.take k) := by
  cases hunits : decodeUnits octets with
  | ok us =>
    refine .inl ?_
    rcases IsRead.text_or_unpaired ⟨us, hunits⟩ with ⟨text, htext⟩ | hunpaired
    · rw [htext] at h
      cases h
    · rw [decode_of_isUnpaired hunpaired] at h
      cases h
      exact ⟨hunpaired, rfl⟩
  | error k' =>
    rw [decode, hunits] at h
    cases h
    have hread := isRead_take_of_error hunits
    refine .inr ⟨?_, hread⟩
    by_contra hlong
    obtain ⟨us, hwhole⟩ := hread
    rw [List.take_of_length_le (Nat.le_of_not_lt hlong), hunits] at hwhole
    cases hwhole

end Utf7

/-! ## §5 Files -/

variable {page : CodePage} {e : Encoding}

/-- An offset before which all is well is not behind the end. -/
theorem lt_length_of_take {body : List UInt8} {k : Nat} (h : e.decodeBody page body = .error k)
    (hfront : ∃ text, e.decodeBody page (body.take k) = .ok text) : k < body.length := by
  by_contra hlong
  obtain ⟨text, htext⟩ := hfront
  rw [List.take_of_length_le (Nat.le_of_not_lt hlong), h] at htext
  cases htext

/-- What is well and what is not before the offset of a fault in what follows the mark. -/
theorem decodeBody_eq_error {body : List UInt8} {k : Nat} (h : e.decodeBody page body = .error k) :
    e = .utf7 ∧ Utf7.IsUnpaired body ∧ k = body.length ∨
      k < body.length ∧
        ((∃ text, e.decodeBody page (body.take k) = .ok text) ∨
          e = .utf7 ∧ Utf7.IsUnpaired (body.take k) ∨
          e = .utf32 ∧ body.length % 4 ≠ 0 ∧
            ∃ earlier < k, e.decodeBody page (body.take k) = .error earlier) := by
  have hwell (hfront : ∃ text, e.decodeBody page (body.take k) = .ok text) :
      k < body.length ∧ ∃ text, e.decodeBody page (body.take k) = .ok text :=
    ⟨lt_length_of_take h hfront, hfront⟩
  cases e with
  | utf7 =>
    rcases Utf7.decode_take_of_error h with ⟨hunpaired, hk⟩ | ⟨hlt, hread⟩
    · exact .inl ⟨rfl, hunpaired, hk⟩
    · refine .inr ⟨hlt, ?_⟩
      rcases hread.text_or_unpaired with htext | hunpaired
      · exact .inl htext
      · exact .inr (.inl ⟨rfl, hunpaired⟩)
  | utf8 marked => exact .inr ((hwell (Utf8.decode_take_of_error h)).imp_right .inl)
  | utf16 order marked => exact .inr ((hwell (wholly_take_of_error rfl h)).imp_right .inl)
  | utf32 =>
    rcases Utf32.decode_take_of_error h with hfront | ⟨hexcess, hlt, hearlier⟩
    · exact .inr ((hwell hfront).imp_right .inl)
    · exact .inr ⟨hlt, .inr (.inr ⟨rfl, hexcess, hearlier⟩)⟩
  | ascii => exact .inr ((hwell (decodeAscii_take_of_error h)).imp_right .inl)
  | legacy => exact .inr ((hwell (wholly_take_of_error rfl h)).imp_right .inl)

/-- A file is the mark, or nothing, and what is read; and any part of the latter is read alike. -/
theorem exists_mark (e : Encoding) (octets : List UInt8) : ∃ mark body,
    octets = mark ++ body ∧ ∀ front, front <+: body → e.dropBom (mark ++ front) = front := by
  by_cases hmark : e.bom <+: octets
  · obtain ⟨body, rfl⟩ := hmark
    exact ⟨e.bom, body, rfl, fun front _ => dropBom_bom_append e front⟩
  · refine ⟨[], octets, rfl, ?_⟩
    intro front hfront
    have hnot : ¬e.bom.isPrefixOf front = true :=
      fun h => hmark ((List.isPrefixOf_iff_prefix.mp h).trans hfront)
    rw [List.nil_append, dropBom, if_neg hnot]

/-- A file is read as what follows the mark; an offset counts the octets of the mark. -/
theorem decode_mark_append {mark body : List UInt8} (h : e.dropBom (mark ++ body) = body) :
    e.decode page (mark ++ body) =
      match e.decodeBody page body with
      | .ok text => .ok text
      | .error k => .error ⟨e, mark.length + k⟩ := by
  simp only [decode, h]
  cases e.decodeBody page body with
  | ok text => rfl
  | error k => simp

/-- A malformed file has an offset that lies in it, and the octets before that are read, but for
two cases.  A UTF-7 file with nothing but an unpaired surrogate against it has its length for the
offset, and one with another fault may have such a surrogate before that.  A UTF-32 file with an
incomplete last group may have other faults before it. -/
theorem fault_offset {octets : List UInt8} {fault : DecodeError}
    (h : e.decode page octets = .error fault) :
    fault.encoding = e ∧
      (e = .utf7 ∧ Utf7.IsUnpaired octets ∧ fault.offset = octets.length ∨
        fault.offset < octets.length ∧
          ((∃ text, e.decode page (octets.take fault.offset) = .ok text) ∨
            e = .utf7 ∧ Utf7.IsUnpaired (octets.take fault.offset) ∨
            e = .utf32 ∧ (e.dropBom octets).length % 4 ≠ 0 ∧
              ∃ earlier, e.decode page (octets.take fault.offset) = .error earlier ∧
                earlier.offset < fault.offset)) := by
  obtain ⟨mark, body, rfl, hmark⟩ := exists_mark e octets
  have hbody := hmark body List.prefix_rfl
  rw [decode_mark_append hbody] at h
  cases hfault : e.decodeBody page body with
  | ok text =>
    rw [hfault] at h
    cases h
  | error k =>
    rw [hfault] at h
    cases h
    have htake : (mark ++ body).take (mark.length + k) = mark ++ body.take k :=
      List.take_length_add_append k
    have hfront := hmark (body.take k) (List.take_prefix k body)
    have hdecode : e.decode page (mark ++ body.take k) =
        match e.decodeBody page (body.take k) with
        | .ok text => .ok text
        | .error j => .error ⟨e, mark.length + j⟩ := decode_mark_append hfront
    simp only [List.length_append, Nat.add_lt_add_iff_left, Nat.add_left_cancel_iff, htake, hbody]
    refine ⟨trivial, ?_⟩
    rcases decodeBody_eq_error hfault with ⟨rfl, hunpaired, hk⟩ | ⟨hlt, hbefore⟩
    · have hwhole : mark ++ body = body := hbody
      exact .inl ⟨rfl, by rwa [hwhole], hk⟩
    refine .inr ⟨hlt, ?_⟩
    rcases hbefore with ⟨text, htext⟩ | ⟨rfl, hunpaired⟩ | ⟨rfl, hexcess, earlier, hbefore, hearlier⟩
    · rw [htext] at hdecode
      exact .inl ⟨text, hdecode⟩
    · have hwhole : mark ++ body.take k = body.take k := hfront
      exact .inr (.inl ⟨rfl, by rwa [hwhole]⟩)
    · rw [hearlier] at hdecode
      exact .inr (.inr ⟨rfl, hexcess, _, hdecode, Nat.add_lt_add_left hbefore _⟩)

/-- The digits of an unpaired surrogate, and an octet behind them that is no ASCII. -/
theorem fault_offset_of_surrogate :
    Encoding.utf7.decode .windows1252 [0x2B, 0x32, 0x41, 0x41, 0x2D, 0xE9] = .error ⟨.utf7, 5⟩ ∧
      Utf7.IsUnpaired [0x2B, 0x32, 0x41, 0x41, 0x2D] := by
  have hfault : Encoding.utf7.decode .windows1252 [0x2B, 0x32, 0x41, 0x41, 0x2D, 0xE9] =
      .error ⟨.utf7, 5⟩ := by cbv
  refine ⟨hfault, ?_⟩
  rcases (fault_offset hfault).2 with ⟨-, -, hlength⟩ | ⟨-, ⟨text, htext⟩ | ⟨-, hunpaired⟩ | ⟨h, -⟩⟩
  · cases hlength
  · cases htext
  · exact hunpaired
  · cases h

/-- The offset need not lie in the file, and where it does, what comes before it need not be
read. -/
theorem offset_passes_over_fault :
    (¬∀ (page : CodePage) (e : Encoding) (octets : List UInt8) (fault : DecodeError),
        e.decode page octets = .error fault → fault.offset < octets.length) ∧
      ∀ e ∈ [Encoding.utf7, Encoding.utf32],
        ¬∀ (page : CodePage) (octets : List UInt8) (fault : DecodeError),
          e.decode page octets = .error fault → fault.offset < octets.length →
            ∃ text, e.decode page (octets.take fault.offset) = .ok text := by
  refine ⟨?_, ?_⟩
  · intro hall
    have hlt := hall .windows1252 .utf7 [0x2B, 0x32, 0x41, 0x41, 0x2D] ⟨.utf7, 5⟩ (by cbv)
    exact absurd hlt (by decide)
  · rw [List.forall_mem_cons, List.forall_mem_singleton]
    refine ⟨?_, ?_⟩
    · intro hall
      obtain ⟨text, htext⟩ := hall .windows1252 [0x2B, 0x32, 0x41, 0x41, 0x2D, 0xE9] ⟨.utf7, 5⟩
        (by cbv) (by decide)
      cases htext
    · intro hall
      obtain ⟨text, htext⟩ := hall .windows1252 [0x00, 0x00, 0xD8, 0x00, 0x00] ⟨.utf32, 4⟩
        (by cbv) (by decide)
      cases htext

end MarkerBlock.Encoding
