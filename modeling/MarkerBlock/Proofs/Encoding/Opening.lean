/-
MarkerBlock.Proofs.Encoding.Opening — when a file without signature and zeros is UTF-8.

A replacing reader sees one character more at every octet, unless the octet goes on with
an unfinished sequence (`length_finish_push`).  The first octet that goes on stands
behind a lead octet and is one that may stand second there (`IsOpening`).  So the
reader sees fewer characters than octets exactly if there is such a pair somewhere
(`count_lt_length_iff`), whatever comes of the sequence that it opens, and one pair is
enough for the whole file to be taken for UTF-8 (`detect_plain_iff`).
-/
import Mathlib
import MarkerBlock.CodePage.Tables
import MarkerBlock.Proofs.Encoding.Recognition

namespace MarkerBlock.Encoding

namespace Utf8

/-! ## §1 Openings -/

/-- Lead octets, by the first and the last of them, and the octets that may stand second
after each, in the same way. -/
structure OpeningRange where
  lead : Nat × Nat
  second : Nat × Nat
deriving Repr, DecidableEq

/-- The ranges of well-formed sequences: neither overlong, nor a surrogate, nor above
U+10FFFF. -/
def openingRanges : List OpeningRange :=
  [⟨(0xC2, 0xDF), (0x80, 0xBF)⟩, ⟨(0xE0, 0xE0), (0xA0, 0xBF)⟩, ⟨(0xE1, 0xEC), (0x80, 0xBF)⟩,
    ⟨(0xED, 0xED), (0x80, 0x9F)⟩, ⟨(0xEE, 0xEF), (0x80, 0xBF)⟩, ⟨(0xF0, 0xF0), (0x90, 0xBF)⟩,
    ⟨(0xF1, 0xF3), (0x80, 0xBF)⟩, ⟨(0xF4, 0xF4), (0x80, 0x8F)⟩]

/-- The octets lie in a range. -/
def OpeningRange.Holds (r : OpeningRange) (a b : UInt8) : Prop :=
  (r.lead.1 ≤ a.toNat ∧ a.toNat ≤ r.lead.2) ∧ r.second.1 ≤ b.toNat ∧ b.toNat ≤ r.second.2

instance (r : OpeningRange) (a b : UInt8) : Decidable (r.Holds a b) :=
  inferInstanceAs (Decidable (_ ∧ _))

/-- A lead octet, and an octet that may stand second after it. -/
def IsOpening (a b : UInt8) : Prop := ∃ r ∈ openingRanges, r.Holds a b

instance (a b : UInt8) : Decidable (IsOpening a b) :=
  inferInstanceAs (Decidable (∃ r ∈ openingRanges, _))

/-- Somewhere in the octets a sequence is opened. -/
def HasOpening (octets : List UInt8) : Prop :=
  ∃ front a b rest, octets = front ++ a :: b :: rest ∧ IsOpening a b

theorem isOpening_iff (a b : UInt8) :
    IsOpening a b ↔ 2 ≤ width a ∧ continues [a] b = true := by
  have hrange : IsOpening a b ↔
      (0xC2 ≤ a.toNat ∧ a.toNat < 0xF5) ∧ (0x80 ≤ b.toNat ∧ b.toNat ≤ 0xBF) ∧
        (a.toNat = 0xE0 → 0xA0 ≤ b.toNat) ∧ (a.toNat = 0xED → b.toNat ≤ 0x9F) ∧
        (a.toNat = 0xF0 → 0x90 ≤ b.toNat) ∧ (a.toNat = 0xF4 → b.toNat ≤ 0x8F) := by
    simp only [IsOpening, openingRanges, OpeningRange.Holds, List.exists_mem_cons_iff,
      List.not_mem_nil, false_and, exists_false, or_false]
    omega
  have hlead : 2 ≤ width a ↔ 0xC2 ≤ a.toNat ∧ a.toNat < 0xF5 := by
    have hwidth := width_spec a
    omega
  rw [hrange, hlead, continues, admitsSecond_iff]

/-- A lead octet continues no sequence. -/
theorem continues_lead {a : UInt8} (ha : 2 ≤ width a) (pending : List UInt8) :
    continues pending a = false := by
  rw [← Bool.not_eq_true]
  intro hcont
  have hwidth := width_spec a
  have hrange := (isContinuation_iff _).mp (isContinuation_of_continues hcont)
  omega

/-! ## §2 The number of characters, octet by octet -/

theorem length_finish_openWith (ps : List Piece) (b : UInt8) :
    (Scan.openWith ps b).finish.length = ps.length + 1 := by
  rw [Scan.openWith]
  split <;> simp [Scan.finish]

theorem pending_openWith (ps : List Piece) (b : UInt8) :
    (Scan.openWith ps b).pending = if 2 ≤ width b then [b] else [] := by
  rw [Scan.openWith]
  split
  · next h => simp [h]
  · next h => simp [h]
  · next h0 h1 =>
    have h0' : width b ≠ 0 := h0
    have h1' : width b ≠ 1 := h1
    rw [if_pos (by omega)]

/-- An octet is one character more, unless it goes on with the unfinished sequence. -/
theorem length_finish_push (s : Scan) (b : UInt8) :
    (s.push b).finish.length = s.finish.length + if continues s.pending b then 0 else 1 := by
  cases hcont : continues s.pending b with
  | false =>
    rw [push_of_not_continues hcont, length_finish_openWith, List.length_reverse]
    rfl
  | true =>
    obtain ⟨pending, ps⟩ := s
    cases pending with
    | nil => cases hcont
    | cons lead more =>
      rw [Scan.push]
      simp only [hcont, if_true]
      split <;> simp [Scan.finish]

/-- The scan of octets, before the end of input. -/
def scanned (octets : List UInt8) : Scan := octets.foldl Scan.push {}

theorem scanned_concat (octets : List UInt8) (b : UInt8) :
    scanned (octets ++ [b]) = (scanned octets).push b := by
  rw [scanned, List.foldl_append]
  rfl

theorem count_concat (octets : List UInt8) (b : UInt8) :
    count (octets ++ [b]) = count octets + if continues (scanned octets).pending b then 0 else 1 := by
  rw [count, pieces, ← scanned, scanned_concat, length_finish_push]
  rfl

theorem count_append_le (octets more : List UInt8) :
    count (octets ++ more) ≤ count octets + more.length := by
  induction more using List.reverseRecOn with
  | nil => simp
  | append_singleton more b ih =>
    rw [← List.append_assoc, count_concat, List.length_append, List.length_singleton]
    split <;> omega

theorem count_le_length (octets : List UInt8) : count octets ≤ octets.length := by
  have hle := count_append_le [] octets
  simpa using hle

/-! ## §3 Fewer characters than octets -/

/-- After a lead octet its sequence is pending, whatever stands before. -/
theorem pending_scanned_lead (front : List UInt8) {a : UInt8} (ha : 2 ≤ width a) :
    (scanned (front ++ [a])).pending = [a] := by
  rw [scanned_concat, push_of_not_continues (continues_lead ha _), pending_openWith, if_pos ha]

/-- An opening costs a character. -/
theorem count_lt_length {octets : List UInt8} (h : HasOpening octets) :
    count octets < octets.length := by
  obtain ⟨front, a, b, rest, rfl, hopening⟩ := h
  obtain ⟨ha, hb⟩ := (isOpening_iff a b).mp hopening
  have hpair : count (front ++ [a] ++ [b]) = count (front ++ [a]) := by
    rw [count_concat, pending_scanned_lead front ha, if_pos hb, Nat.add_zero]
  have hfront := count_le_length (front ++ [a])
  have hrest := count_append_le (front ++ [a] ++ [b]) rest
  have hsplit : front ++ a :: b :: rest = front ++ [a] ++ [b] ++ rest := by simp
  rw [hsplit]
  simp only [List.length_append, List.length_singleton] at hfront ⊢
  omega

theorem HasOpening.append {octets : List UInt8} (h : HasOpening octets) (more : List UInt8) :
    HasOpening (octets ++ more) := by
  obtain ⟨front, a, b, rest, rfl, hopening⟩ := h
  exact ⟨front, a, b, rest ++ more, by simp, hopening⟩

/-- Where nothing is opened, no octet goes on with a sequence: at most a lead octet is pending,
and it is the last octet. -/
theorem not_continues_scanned {octets : List UInt8} {b : UInt8} (h : ¬HasOpening (octets ++ [b])) :
    continues (scanned octets).pending b = false := by
  induction octets using List.reverseRecOn generalizing b with
  | nil => rfl
  | append_singleton front a ih =>
    have hfront := ih fun hopening => h (hopening.append [b])
    rw [scanned_concat, push_of_not_continues hfront, pending_openWith]
    split
    · next ha =>
      rw [← Bool.not_eq_true]
      intro hb
      exact h ⟨front, a, b, [], by simp, (isOpening_iff a b).mpr ⟨ha, hb⟩⟩
    · rfl

theorem count_eq_length {octets : List UInt8} (h : ¬HasOpening octets) :
    count octets = octets.length := by
  induction octets using List.reverseRecOn with
  | nil => rfl
  | append_singleton octets b ih =>
    rw [count_concat, not_continues_scanned h, ih fun hopening => h (hopening.append [b]),
      List.length_append]
    rfl

/-- A replacing reader sees fewer characters than octets where a sequence is opened, and only
there. -/
theorem count_lt_length_iff (octets : List UInt8) :
    count octets < octets.length ↔ HasOpening octets := by
  constructor
  · intro hlt
    by_contra hnone
    exact absurd (count_eq_length hnone) hlt.ne
  · exact count_lt_length

end Utf8

/-! ## §4 Detection -/

/-- A file of four octets or more without zeros and signature is taken for UTF-8 if somewhere in it
a lead octet is followed by an octet that may stand second after it, and for the legacy page
otherwise. -/
theorem detect_plain_iff (page : CodePage) {octets : List UInt8} (hlength : 4 ≤ octets.length)
    (hnull : 0 ∉ octets) (hsig : ∀ e : Encoding, e.signature ≠ [] → ¬e.signature <+: octets) :
    (detect page octets = .utf8 false ↔ Utf8.HasOpening octets) ∧
      (detect page octets = .legacy ↔ ¬Utf8.HasOpening octets) := by
  have hnone : ofSignature? octets = none := by
    refine Option.eq_none_iff_forall_ne_some.mpr fun e he => ?_
    obtain ⟨hmark, hstart⟩ := ofSignature?_eq_some_iff.mp he
    exact hsig e hmark hstart
  have hdetect : detect page octets =
      if Utf8.count octets < octets.length then .utf8 false else .legacy := by
    rw [← detectFile_some, detectFile_of_plain hlength hnone hnull, ofWhole_eq]
  rw [hdetect, ← Utf8.count_lt_length_iff]
  by_cases hfewer : Utf8.count octets < octets.length <;> simp [hfewer]

/-- A sequence of three octets that is broken off after the second, and an octet of a code page. -/
theorem detect_plain_iff_of_broken_sequence :
    4 ≤ [0x61, 0xE9, 0xE2, 0x82, 0x20].length ∧ (0 : UInt8) ∉ [0x61, 0xE9, 0xE2, 0x82, 0x20] ∧
    (∀ e : Encoding, e.signature ≠ [] → ¬e.signature <+: [0x61, 0xE9, 0xE2, 0x82, 0x20]) ∧
    detect CodePage.windows1252 [0x61, 0xE9, 0xE2, 0x82, 0x20] = .utf8 false := by
  have hsig : ∀ e : Encoding, e.signature ≠ [] → ¬e.signature <+: [0x61, 0xE9, 0xE2, 0x82, 0x20] := by
    intro e hne hstart
    have hnone : ofSignature? [0x61, 0xE9, 0xE2, 0x82, 0x20] = some e :=
      ofSignature?_eq_some_iff.mpr ⟨hne, hstart⟩
    cases hnone
  have hopening : Utf8.HasOpening [0x61, 0xE9, 0xE2, 0x82, 0x20] :=
    ⟨[0x61, 0xE9], 0xE2, 0x82, [0x20], rfl, by decide⟩
  exact ⟨by decide, by decide, hsig,
    (detect_plain_iff CodePage.windows1252 (by decide) (by decide) hsig).1.mpr hopening⟩

end MarkerBlock.Encoding
