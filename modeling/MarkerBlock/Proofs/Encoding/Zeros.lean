/-
MarkerBlock.Proofs.Encoding.Zeros — what zeros say about a byte order.

The rule for zeros counts them at even offsets for the little order and at odd offsets for
the big one (`zerosFor`, `ofNulls?_eq_some_iff`).  ASCII text in UTF-16 has its zeros where
the most significant octets are, and these come second in the little order and first in the
big one.  So the rule finds the other order than the one the text was written in
(`detect_utf16_ascii`), and every character is read with its octets exchanged (`mirrored`).
-/
import Mathlib
import MarkerBlock.CodePage.Tables
import MarkerBlock.Proofs.Encoding.Codec
import MarkerBlock.Proofs.Encoding.Recognition

namespace MarkerBlock.Encoding

/-! ## §1 Zeros on one parity -/

/-- The other byte order. -/
def ByteOrder.other : ByteOrder → ByteOrder
  | .little => .big
  | .big => .little

@[simp] theorem ByteOrder.other_other (order : ByteOrder) : order.other.other = order := by
  cases order <;> rfl

/-- Number of zeros that count for a byte order: those at even offsets for the little one, those
at odd offsets for the big one. -/
def zerosFor : ByteOrder → List UInt8 → Nat
  | _, [] => 0
  | .little, b :: rest => (if b = 0 then 1 else 0) + zerosFor .big rest
  | .big, _ :: rest => zerosFor .little rest

@[simp] theorem zerosFor_nil (order : ByteOrder) : zerosFor order [] = 0 := by
  cases order <;> rfl

theorem zerosFor_little_cons (b : UInt8) (rest : List UInt8) :
    zerosFor .little (b :: rest) = (if b = 0 then 1 else 0) + zerosFor .big rest := rfl

theorem zerosFor_big_cons (b : UInt8) (rest : List UInt8) :
    zerosFor .big (b :: rest) = zerosFor .little rest := rfl

/-- Both numbers are found in one pass. -/
theorem count_eq (octets : List UInt8) (nulls : Nulls) :
    Nulls.count nulls true octets =
        ⟨nulls.evens + zerosFor .little octets, nulls.odds + zerosFor .big octets⟩ ∧
      Nulls.count nulls false octets =
        ⟨nulls.evens + zerosFor .big octets, nulls.odds + zerosFor .little octets⟩ := by
  induction octets generalizing nulls with
  | nil => exact ⟨rfl, rfl⟩
  | cons b rest ih =>
    rw [Nulls.count, Nulls.count, Bool.not_true, Bool.not_false, (ih _).1, (ih _).2,
      zerosFor_little_cons, zerosFor_big_cons]
    by_cases hb : b = 0
    · simp [Nulls.add, hb, Nat.add_assoc]
    · simp [Nulls.add, hb]

theorem zerosFor_le (order : ByteOrder) (octets : List UInt8) :
    zerosFor order octets ≤ octets.length := by
  induction octets generalizing order with
  | nil => simp
  | cons b rest ih =>
    cases order with
    | little =>
      have hrest := ih .big
      rw [zerosFor_little_cons, List.length_cons]
      split <;> omega
    | big =>
      have hrest := ih .little
      rw [zerosFor_big_cons, List.length_cons]
      omega

/-- Behind an even number of octets the parities are as they were, and behind an odd number
they are exchanged. -/
theorem zerosFor_append (order : ByteOrder) (a b : List UInt8) :
    zerosFor order (a ++ b) =
      zerosFor order a + zerosFor (if a.length % 2 = 0 then order else order.other) b := by
  induction a generalizing order with
  | nil => simp
  | cons c rest ih =>
    have hparity : (rest.length + 1) % 2 = 0 ↔ ¬rest.length % 2 = 0 := by omega
    simp only [List.length_cons, hparity, List.cons_append]
    cases order with
    | little =>
      rw [zerosFor_little_cons, zerosFor_little_cons, ih]
      by_cases h : rest.length % 2 = 0 <;> simp [h, ByteOrder.other, Nat.add_assoc]
    | big =>
      rw [zerosFor_big_cons, zerosFor_big_cons, ih]
      by_cases h : rest.length % 2 = 0 <;> simp [h, ByteOrder.other]

theorem zerosFor_append_even (order : ByteOrder) {a : List UInt8} (h : a.length % 2 = 0)
    (b : List UInt8) : zerosFor order (a ++ b) = zerosFor order a + zerosFor order b := by
  rw [zerosFor_append, if_pos h]

/-- A part at the end adds no more zeros than it has octets. -/
theorem zerosFor_append_le (order : ByteOrder) (a b : List UInt8) :
    zerosFor order a ≤ zerosFor order (a ++ b) ∧
      zerosFor order (a ++ b) ≤ zerosFor order a + b.length := by
  rw [zerosFor_append]
  have hrest := zerosFor_le (if a.length % 2 = 0 then order else order.other) b
  omega

/-! ## §2 What the rule finds -/

/-- The zeros of a sample speak for a byte order. -/
def SpeaksFor (order : ByteOrder) (sample : List UInt8) : Prop :=
  2 * sample.length < 5 * zerosFor order sample ∧ 10 * zerosFor order.other sample < sample.length

/-- Zeros do not speak for both byte orders. -/
theorem SpeaksFor.not_other {order : ByteOrder} {sample : List UInt8} (h : SpeaksFor order sample) :
    ¬SpeaksFor order.other sample := by
  intro hother
  have hfew := h.2
  have hmany := hother.1
  omega

/-- The rule for zeros finds the byte order they speak for, and nothing else. -/
theorem ofNulls?_eq_some_iff {sample : List UInt8} {e : Encoding} :
    ofNulls? sample = some e ↔ ∃ order, e = .utf16 order false ∧ SpeaksFor order sample := by
  have hcount := (count_eq sample {}).1
  simp only [Nat.zero_add] at hcount
  have hlopsided (order : ByteOrder) :
      isLopsided (zerosFor order sample) (zerosFor order.other sample) sample.length = true ↔
        SpeaksFor order sample := by
    simp [isLopsided, SpeaksFor]
  have hlittle : isLopsided (zerosFor .little sample) (zerosFor .big sample) sample.length = true ↔
      SpeaksFor .little sample := hlopsided .little
  have hbig : isLopsided (zerosFor .big sample) (zerosFor .little sample) sample.length = true ↔
      SpeaksFor .big sample := hlopsided .big
  unfold ofNulls?
  simp only [hcount]
  constructor
  · intro h
    split_ifs at h with hyes hno
    · exact ⟨.little, (Option.some.inj h).symm, hlittle.mp hyes⟩
    · exact ⟨.big, (Option.some.inj h).symm, hbig.mp hno⟩
  · rintro ⟨order, rfl, hspeaks⟩
    cases order with
    | little => rw [if_pos (hlittle.mpr hspeaks)]
    | big =>
      have hnot : ¬isLopsided (zerosFor .little sample) (zerosFor .big sample) sample.length = true :=
        fun h => hspeaks.not_other (hlittle.mp h)
      rw [if_neg hnot, if_pos (hbig.mpr hspeaks)]

/-- A file that is found to be UTF-16 without a mark has no signature, and its zeros speak for the
byte order. -/
theorem detectFile_eq_utf16_iff {page : CodePage} {octets : List UInt8} {order : ByteOrder} :
    detectFile page (some octets) = .utf16 order false ↔
      4 ≤ octets.length ∧ ofSignature? octets = none ∧ SpeaksFor order (octets.take sampleSize) := by
  by_cases hlength : 4 ≤ octets.length
  · rw [detectFile_eq hlength]
    cases hsig : ofSignature? octets with
    | some e =>
      have hne := (ofSignature?_eq_some_iff.mp hsig).1
      simp only [Option.some_or, Option.getD_some, reduceCtorEq, false_and, and_false, iff_false]
      rintro rfl
      cases order <;> exact hne rfl
    | none =>
      rw [Option.none_or]
      cases hnulls : ofNulls? (octets.take sampleSize) with
      | some e =>
        obtain ⟨order', rfl, hspeaks⟩ := ofNulls?_eq_some_iff.mp hnulls
        have hiff : order' = order ↔ SpeaksFor order (octets.take sampleSize) := by
          constructor
          · rintro rfl
            exact hspeaks
          · intro hother
            cases order <;> cases order' <;> first | rfl | exact absurd hspeaks hother.not_other
        simpa [hlength] using hiff
      | none =>
        have hnot : ¬SpeaksFor order (octets.take sampleSize) := fun hspeaks => by
          rw [ofNulls?_eq_some_iff.mpr ⟨order, rfl, hspeaks⟩] at hnulls
          cases hnulls
        simp only [Option.getD_none, ofWhole_eq, hnot, and_false, iff_false]
        split <;> simp
  · have hshort : octets.length < signatureSize := Nat.not_le.mp hlength
    simp only [detectFile, ofSample?, if_pos hshort, hlength, false_and, iff_false]
    simp

/-- Where neither a signature nor zeros decide, the lengths do. -/
theorem detectFile_of_neither {page : CodePage} {octets : List UInt8} (hlength : 4 ≤ octets.length)
    (hsig : ofSignature? octets = none)
    (hnot : ∀ order, ¬SpeaksFor order (octets.take sampleSize)) :
    detectFile page (some octets) = .utf8 false ∨ detectFile page (some octets) = .legacy := by
  have hnulls : ofNulls? (octets.take sampleSize) = none := by
    rw [Option.eq_none_iff_forall_ne_some]
    intro e he
    obtain ⟨order, -, hspeaks⟩ := ofNulls?_eq_some_iff.mp he
    exact hnot order hspeaks
  rw [detectFile_eq hlength, hsig, hnulls, Option.none_or, Option.getD_none, ofWhole_eq]
  split
  · exact .inl rfl
  · exact .inr rfl

/-! ## §3 ASCII in UTF-16 -/

/-- Characters of ASCII other than NUL. -/
def IsAsciiText (text : List Char) : Prop := ∀ c ∈ text, 0 < c.toNat ∧ c.toNat < 0x80

theorem IsAsciiText.of_cons {c : Char} {text : List Char} (h : IsAsciiText (c :: text)) :
    0 < c.toNat ∧ c.toNat < 0x80 ∧ IsAsciiText text :=
  ⟨(h c List.mem_cons_self).1, (h c List.mem_cons_self).2,
    fun d hd => h d (List.mem_cons_of_mem c hd)⟩

/-- The octets of an ASCII character: itself and a zero, which comes second in the little order and
first in the big one. -/
theorem encode_cons_ascii (order : ByteOrder) {c : Char} (hc : c.toNat < 0x80) (text : List Char) :
    Utf16.encode order (c :: text) =
      (match order with
        | .little => [UInt8.ofNat c.toNat, 0]
        | .big => [0, UInt8.ofNat c.toNat]) ++ Utf16.encode order text := by
  have hunits : Utf16.unitsOf c = [UInt16.ofNat c.toNat] := by
    simp only [Utf16.unitsOf]
    rw [if_pos (by omega)]
  have hvalue : (UInt16.ofNat c.toNat).toNat = c.toNat :=
    UInt16.toNat_ofNat_of_lt' (by simp only [UInt16.size]; omega)
  have hhigh : c.toNat / 256 = 0 := by omega
  cases order <;>
    simp [Utf16.encode, hunits, Utf16.octetsOf, hvalue, hhigh]

/-- Every unit has two octets. -/
theorem length_encode_even (order : ByteOrder) (text : List Char) :
    (Utf16.encode order text).length % 2 = 0 := by
  have htwo (u : UInt16) : (Utf16.octetsOf order u).length = 2 := by cases order <;> rfl
  rw [Utf16.encode, List.length_flatMap]
  simp [htwo]

theorem length_encode_ascii (order : ByteOrder) {text : List Char} (h : IsAsciiText text) :
    (Utf16.encode order text).length = 2 * text.length := by
  induction text with
  | nil => rfl
  | cons c text ih =>
    obtain ⟨-, hc, htext⟩ := h.of_cons
    rw [encode_cons_ascii order hc, List.length_append, ih htext, List.length_cons]
    cases order <;> simp only [List.length_cons, List.length_nil] <;> omega

/-- All zeros of ASCII text count for the other order. -/
theorem zerosFor_encode_ascii (order : ByteOrder) {text : List Char} (h : IsAsciiText text) :
    zerosFor order (Utf16.encode order text) = 0 ∧
      zerosFor order.other (Utf16.encode order text) = text.length := by
  induction text with
  | nil => exact ⟨by rw [Utf16.encode]; simp, by rw [Utf16.encode]; simp⟩
  | cons c text ih =>
    obtain ⟨hpos, hc, htext⟩ := h.of_cons
    obtain ⟨hnone, hall⟩ := ih htext
    have hne : UInt8.ofNat c.toNat ≠ 0 := by
      rw [Ne, ← UInt8.toNat_inj, toNat_octet (by omega)]
      exact Nat.pos_iff_ne_zero.mp hpos
    rw [encode_cons_ascii order hc]
    cases order with
    | little =>
      simp only [ByteOrder.other] at hall ⊢
      simp [zerosFor_little_cons, zerosFor_big_cons, hne, hnone, hall, Nat.add_comm]
    | big =>
      simp only [ByteOrder.other] at hall ⊢
      simp [zerosFor_little_cons, zerosFor_big_cons, hne, hnone, hall, Nat.add_comm]

/-- ASCII text anywhere in a text has its zeros there as well. -/
theorem length_le_zerosFor {order : ByteOrder} {part text : List Char} (h : IsAsciiText part)
    (hin : part <:+: text) : part.length ≤ zerosFor order.other (Utf16.encode order text) := by
  obtain ⟨a, b, rfl⟩ := hin
  have hall := (zerosFor_encode_ascii order h).2
  rw [List.append_assoc, Utf16.encode_append, Utf16.encode_append,
    zerosFor_append_even _ (length_encode_even order a),
    zerosFor_append_even _ (length_encode_even order part), hall]
  omega

theorem take_encode_ascii (order : ByteOrder) {text : List Char} (h : IsAsciiText text) (n : Nat) :
    (Utf16.encode order text).take (2 * n) = Utf16.encode order (text.take n) := by
  by_cases hn : n ≤ text.length
  · have hfront : IsAsciiText (text.take n) := fun c hc => h c (List.mem_of_mem_take hc)
    have hlength : (Utf16.encode order (text.take n)).length = 2 * n := by
      rw [length_encode_ascii order hfront, List.length_take, Nat.min_eq_left hn]
    have hsplit : Utf16.encode order text =
        Utf16.encode order (text.take n) ++ Utf16.encode order (text.drop n) := by
      rw [← Utf16.encode_append, List.take_append_drop]
    rw [hsplit, List.take_left' hlength]
  · rw [List.take_of_length_le, List.take_of_length_le (by omega)]
    rw [length_encode_ascii order h]
    omega

/-- No signature begins with an octet of ASCII and a zero, in either order. -/
theorem ofSignature?_encode_ascii (order : ByteOrder) {text : List Char} (h : IsAsciiText text) :
    ofSignature? (Utf16.encode order text) = none := by
  cases text with
  | nil => rfl
  | cons c text =>
    obtain ⟨hpos, hc, -⟩ := h.of_cons
    have hvalue : (UInt8.ofNat c.toNat).toNat = c.toNat := toNat_octet (by omega)
    rw [encode_cons_ascii order hc]
    generalize UInt8.ofNat c.toNat = b at hvalue
    have hne : b ≠ 0 := by
      rintro rfl
      have hzero : (0 : UInt8).toNat = 0 := rfl
      omega
    cases order with
    | little => simp [ofSignature?, utf7Signature, bom, Ne.symm hne]
    | big => simp [ofSignature?, utf7Signature, bom, Ne.symm hne]

/-! ## §4 The byte order that is found -/

/-- The character whose unit has the octets of the unit of `c` in the other order, for `c` in
ASCII. -/
def mirrored (c : Char) : Char := Char.ofNat (256 * c.toNat)

theorem toNat_mirrored {c : Char} (hc : c.toNat < 0x80) : (mirrored c).toNat = 256 * c.toNat :=
  toNat_ofNat (by omega)

/-- Read in the other order, ASCII text is its mirrored characters. -/
theorem encode_mirrored (order : ByteOrder) {text : List Char} (h : IsAsciiText text) :
    Utf16.encode order.other (text.map mirrored) = Utf16.encode order text := by
  induction text with
  | nil => rfl
  | cons c text ih =>
    obtain ⟨-, hc, htext⟩ := h.of_cons
    have hunits : Utf16.unitsOf (mirrored c) = [UInt16.ofNat (256 * c.toNat)] := by
      simp only [Utf16.unitsOf, toNat_mirrored hc]
      rw [if_pos (by omega)]
    have hvalue : (UInt16.ofNat (256 * c.toNat)).toNat = 256 * c.toNat :=
      UInt16.toNat_ofNat_of_lt' (by simp only [UInt16.size]; omega)
    have hlow : UInt8.ofNat (256 * c.toNat) = 0 := by
      rw [← UInt8.toNat_inj, UInt8.toNat_ofNat']
      simp
    have hhigh : 256 * c.toNat / 256 = c.toNat := by omega
    generalize UInt16.ofNat (256 * c.toNat) = u at hunits hvalue
    rw [encode_cons_ascii order hc, ← ih htext]
    cases order <;>
      simp [Utf16.encode, Utf16.octetsOf, ByteOrder.other, hunits, hvalue, hlow, hhigh]

theorem detect_encode_ascii (page : CodePage) (order : ByteOrder) {text : List Char}
    (hlength : 2 ≤ text.length) (h : IsAsciiText text) :
    detect page (Utf16.encode order text) = .utf16 order.other false := by
  have hsize := length_encode_ascii order h
  have hsample : (Utf16.encode order text).take sampleSize = Utf16.encode order (text.take 16384) :=
    take_encode_ascii order h 16384
  have hfront : IsAsciiText (text.take 16384) := fun c hc => h c (List.mem_of_mem_take hc)
  have hspeaks : SpeaksFor order.other (Utf16.encode order (text.take 16384)) := by
    obtain ⟨hnone, hall⟩ := zerosFor_encode_ascii order hfront
    rw [SpeaksFor, ByteOrder.other_other, hnone, hall, length_encode_ascii order hfront,
      List.length_take]
    omega
  rw [← detectFile_some, detectFile_eq (by omega), ofSignature?_encode_ascii order h, hsample,
    ofNulls?_eq_some_iff.mpr ⟨order.other, rfl, hspeaks⟩]
  rfl

/-- ASCII text of two characters or more that was written in UTF-16 without a mark is taken for
UTF-16 in the other byte order, and read as its mirrored characters; it is not found in its own
order, and not read as what was written. -/
theorem detect_utf16_ascii (page : CodePage) (order : ByteOrder) {text : List Char}
    (hlength : 2 ≤ text.length) (h : IsAsciiText text) :
    ∃ octets, (Encoding.utf16 order false).encode page text = .ok octets ∧
      detect page octets = .utf16 order.other false ∧
      detect page octets ≠ .utf16 order false ∧
      (detect page octets).decode page octets = .ok (text.map mirrored) ∧
      text.map mirrored ≠ text := by
  have hfound := detect_encode_ascii page order hlength h
  refine ⟨Utf16.encode order text, ?_, hfound, ?_, ?_, ?_⟩
  · cases order <;> rfl
  · rw [hfound]
    cases order <;> decide
  · rw [hfound]
    apply decode_of_encode
    rw [← encode_mirrored order h]
    cases order <;> rfl
  · intro hsame
    obtain ⟨c, rest, rfl⟩ := List.exists_cons_of_ne_nil (l := text) (by rintro rfl; simp at hlength)
    obtain ⟨hpos, hc, -⟩ := h.of_cons
    have hvalue := toNat_mirrored hc
    rw [List.map_cons, List.cons_eq_cons] at hsame
    rw [hsame.1] at hvalue
    omega

theorem detect_utf16_ascii_ab :
    2 ≤ ['a', 'b'].length ∧ IsAsciiText ['a', 'b'] ∧
    ∃ octets, (Encoding.utf16 .little false).encode CodePage.windows1252 ['a', 'b'] = .ok octets ∧
      detect CodePage.windows1252 octets = .utf16 .big false := by
  have hascii : IsAsciiText ['a', 'b'] := by simp [IsAsciiText]
  obtain ⟨octets, hencode, hfound, -⟩ :=
    detect_utf16_ascii CodePage.windows1252 .little (by decide) hascii
  exact ⟨by decide, hascii, octets, hencode, hfound⟩

/-- UTF-16 without a mark is not found in the order it was written in. -/
theorem detect_utf16_mistaken :
    ¬∀ (page : CodePage) (order : ByteOrder) (text : List Char) (octets : List UInt8),
      2 ≤ text.length → IsAsciiText text →
      (Encoding.utf16 order false).encode page text = .ok octets →
        detect page octets = .utf16 order false := by
  intro hall
  have hfound := hall CodePage.windows1252 .little ['a', 'b'] [0x61, 0, 0x62, 0] (by decide)
    (by simp [IsAsciiText]) rfl
  revert hfound
  decide

end MarkerBlock.Encoding
