/-
MarkerBlock.Proofs.Encoding.Detection — what decides an encoding, and what does not.

A signature decides whatever follows it, since no signature begins another one
(`ofSignature?_eq_some_iff`).  Without signature and zeros the lengths decide; the
length as UTF-8 is additive at ASCII octets, so ASCII lines put behind a line feed
make both lengths grow by the same number and the verdict stays
(`detectFile_splice`).
-/
import Mathlib
import MarkerBlock.Encoding.Detection
import MarkerBlock.Proofs.Encoding.Utf8

namespace MarkerBlock.Encoding

/-! ## §1 Signatures -/

/-- The octets an encoding is known by; empty if there are none. -/
def signature : Encoding → List UInt8
  | .utf7 => utf7Signature
  | e => e.bom

/-- Where an encoding other than UTF-7 has a signature, it is the mark. -/
theorem signature_eq_bom {e : Encoding} (he : e ≠ .utf7) : e.signature = e.bom := by
  cases e with
  | utf7 => exact absurd rfl he
  | _ => rfl

/-- A signature at the start decides, and nothing else does in this step. -/
theorem ofSignature?_eq_some_iff {octets : List UInt8} {e : Encoding} :
    ofSignature? octets = some e ↔ e.signature ≠ [] ∧ e.signature <+: octets := by
  constructor
  · intro h
    rw [ofSignature?] at h
    split at h
    · next hseven =>
      cases h
      exact ⟨by decide, List.isPrefixOf_iff_prefix.mp hseven⟩
    · have hmem := List.mem_of_find?_eq_some h
      have hfound := List.find?_some h
      have hmark := List.isPrefixOf_iff_prefix.mp hfound
      simp only [List.mem_cons, List.not_mem_nil, or_false] at hmem
      rcases hmem with rfl | rfl | rfl | rfl
      all_goals exact ⟨by decide, hmark⟩
  · rintro ⟨hne, rest, rfl⟩
    rcases e with _ | (_ | _) | ⟨_ | _, _ | _⟩ | _ | _ | _
    all_goals first | exact absurd rfl hne | rfl

theorem signature_length_le (e : Encoding) : e.signature.length ≤ signatureSize := by
  rcases e with _ | (_ | _) | ⟨_ | _, _ | _⟩ | _ | _ | _ <;> decide

/-- No signature holds a line feed. -/
theorem newline_not_mem_signature (e : Encoding) : 0x0A ∉ e.signature := by
  rcases e with _ | (_ | _) | ⟨_ | _, _ | _⟩ | _ | _ | _ <;> decide

/-- The signatures of UTF-16 and UTF-32 hold an octet that no UTF-8 has. -/
theorem signature_cases {e : Encoding} (h : e.signature ≠ []) :
    e = .utf7 ∨ e = .utf8 true ∨ 0xFE ∈ e.signature := by
  rcases e with _ | (_ | _) | ⟨_ | _, _ | _⟩ | _ | _ | _
  all_goals first | exact absurd rfl h | decide

/-- The sample has the signature that the file has. -/
theorem ofSignature?_take (octets : List UInt8) :
    ofSignature? (octets.take sampleSize) = ofSignature? octets := by
  have hiff (e : Encoding) : ofSignature? (octets.take sampleSize) = some e ↔
      ofSignature? octets = some e := by
    have hlength : e.signature.length ≤ sampleSize :=
      (signature_length_le e).trans (by decide)
    rw [ofSignature?_eq_some_iff, ofSignature?_eq_some_iff, List.prefix_take_iff]
    tauto
  exact Option.ext hiff

/-- What stands behind the first octets has no part in a signature. -/
theorem ofSignature?_append {p : List UInt8} (h : signatureSize ≤ p.length) (rest : List UInt8) :
    ofSignature? (p ++ rest) = ofSignature? p := by
  refine Option.ext fun e => ?_
  rw [ofSignature?_eq_some_iff, ofSignature?_eq_some_iff]
  refine and_congr_right fun _ => ⟨fun hsig => ?_, fun hsig => hsig.trans (List.prefix_append _ _)⟩
  exact List.prefix_of_prefix_length_le hsig (List.prefix_append p rest)
    ((signature_length_le e).trans h)

/-- What stands behind a line feed has no part in a signature. -/
theorem ofSignature?_append_newline (p rest : List UInt8) :
    ofSignature? (p ++ 0x0A :: rest) = ofSignature? p := by
  refine Option.ext fun e => ?_
  rw [ofSignature?_eq_some_iff, ofSignature?_eq_some_iff]
  refine and_congr_right fun _ => ⟨fun h => ?_, fun h => h.trans (List.prefix_append _ _)⟩
  rcases List.prefix_or_prefix_of_prefix h (List.prefix_append p _) with hsig | ⟨more, hmore⟩
  · exact hsig
  · rw [← hmore, List.prefix_append_right_inj, List.prefix_cons_iff] at h
    rcases h with rfl | ⟨more, rfl, -⟩
    · rw [← hmore, List.append_nil]
    · have hmem := newline_not_mem_signature e
      rw [← hmore] at hmem
      simp at hmem

/-! ## §2 Zeros -/

theorem count_of_not_mem {octets : List UInt8} (h : 0 ∉ octets) (nulls : Nulls) (even : Bool) :
    Nulls.count nulls even octets = nulls := by
  induction octets generalizing even with
  | nil => rfl
  | cons b octets ih =>
    rw [List.mem_cons, not_or] at h
    rw [Nulls.count, Nulls.add, if_neg (Ne.symm h.1)]
    exact ih h.2 _

/-- Where there are no zeros, zeros decide nothing. -/
theorem ofNulls?_eq_none {sample : List UInt8} (h : 0 ∉ sample) : ofNulls? sample = none := by
  have hnot : isLopsided 0 0 sample.length = false := by
    rw [isLopsided]
    simp
  rw [ofNulls?, count_of_not_mem h]
  simp only [hnot]
  rfl

/-! ## §3 Lengths -/

theorem length_ascii (page : CodePage) (octets : List UInt8) :
    length page .ascii octets = .finite octets.length := rfl

/-- Without a mark no octets are dropped before the characters are counted. -/
theorem length_utf8 (page : CodePage) (octets : List UInt8) :
    length page (.utf8 false) octets = .finite (Utf8.count octets) := rfl

/-- The lengths of a file that is read as UTF-8 and as ASCII. -/
theorem ofWhole_eq (page : CodePage) (octets : List UInt8) :
    ofWhole page octets = if Utf8.count octets < octets.length then .utf8 false else .legacy := by
  rw [ofWhole, length_ascii, length_utf8, ofLengths, Length.cmp]
  simp only [Nat.compare_eq_lt]

/-- A part of a file that is empty, or begins with a line feed. -/
def StartsLine (part : List UInt8) : Prop := part = [] ∨ ∃ rest, part = 0x0A :: rest

theorem StartsLine.besideAscii {part : List UInt8} (h : StartsLine part) (p : List UInt8) :
    Utf8.BesideAscii p part := by
  rcases h with rfl | ⟨rest, rfl⟩
  · exact .inr nofun
  · exact Utf8.besideAscii_cons (by decide) p rest

theorem ofSignature?_append_line (p : List UInt8) {part : List UInt8} (h : StartsLine part) :
    ofSignature? (p ++ part) = ofSignature? p := by
  rcases h with rfl | ⟨rest, rfl⟩
  · rw [List.append_nil]
  · exact ofSignature?_append_newline p rest

theorem length_ascii_splice (page : CodePage) (p x part : List UInt8) :
    length page .ascii (p ++ x ++ part) = .finite ((p ++ part).length + x.length) := by
  have hlength : (p ++ x ++ part).length = (p ++ part).length + x.length := by
    simp only [List.length_append]
    omega
  rw [length_ascii, hlength]

theorem length_utf8_splice (page : CodePage) {p x part : List UInt8} (hx : ∀ b ∈ x, b < 0x80)
    (h : Utf8.BesideAscii p part) :
    length page (.utf8 false) (p ++ x ++ part) = .finite (Utf8.count (p ++ part) + x.length) := by
  rw [length_utf8, Utf8.count_insert_ascii hx h]

/-- Beside an ASCII octet, or at an end, ASCII octets add as many characters in UTF-8 as in
ASCII, so the verdict stays. -/
theorem ofWhole_splice (page : CodePage) {p x part : List UInt8} (hx : ∀ b ∈ x, b < 0x80)
    (h : Utf8.BesideAscii p part) : ofWhole page (p ++ x ++ part) = ofWhole page (p ++ part) := by
  rw [ofWhole, length_ascii_splice, length_utf8_splice page hx h, ofWhole_eq, ofLengths, Length.cmp]
  simp only [Nat.compare_eq_lt, Nat.add_lt_add_iff_right]

/-! ## §4 Files -/

/-- The rules in order, for a file that is long enough. -/
theorem detectFile_eq {octets : List UInt8} (hlength : 4 ≤ octets.length) (page : CodePage) :
    detectFile page (some octets) =
      ((ofSignature? octets).or (ofNulls? (octets.take sampleSize))).getD (ofWhole page octets) := by
  have hlong : ¬octets.length < signatureSize := Nat.not_lt.mpr hlength
  simp only [detectFile, ofSample?, if_neg hlong, ofSignature?_take]
  cases (ofSignature? octets).or (ofNulls? (octets.take sampleSize)) with
  | none => rfl
  | some e => rfl

theorem detectFile_of_signature {page : CodePage} {octets : List UInt8} {e : Encoding}
    (hlength : 4 ≤ octets.length) (h : ofSignature? octets = some e) :
    detectFile page (some octets) = e := by
  rw [detectFile_eq hlength, h]
  rfl

theorem detectFile_of_plain {page : CodePage} {octets : List UInt8}
    (hlength : 4 ≤ octets.length) (h : ofSignature? octets = none) (hnull : 0 ∉ octets) :
    detectFile page (some octets) = ofWhole page octets := by
  have hsample : 0 ∉ octets.take sampleSize := fun hmem => hnull (List.mem_of_mem_take hmem)
  rw [detectFile_eq hlength, h, ofNulls?_eq_none hsample]
  rfl

/-- The mark of the encoding that is found is at the start of the file. -/
theorem bom_prefix_of_detectFile (page : CodePage) (octets : List UInt8) :
    (detectFile page (some octets)).bom <+: octets := by
  by_cases hlength : 4 ≤ octets.length
  · rw [detectFile_eq hlength]
    cases hsig : ofSignature? octets with
    | some e =>
      show e.bom <+: octets
      by_cases he : e = .utf7
      · subst he
        exact List.nil_prefix
      · rw [← signature_eq_bom he]
        exact (ofSignature?_eq_some_iff.mp hsig).2
    | none =>
      -- neither zeros nor lengths choose an encoding with a mark
      have hnone : ∀ e, (ofNulls? (octets.take sampleSize)).getD (ofWhole page octets) = e →
          e.bom = [] := by
        rintro e rfl
        rw [ofNulls?]
        split_ifs
        · rfl
        · rfl
        · rw [Option.getD_none, ofWhole_eq]
          split <;> rfl
      exact (hnone _ rfl).symm ▸ List.nil_prefix
  · have hshort : octets.length < signatureSize := Nat.not_le.mp hlength
    simp only [detectFile, ofSample?, if_pos hshort]
    exact List.nil_prefix

/-- A file without signature and zeros into which ASCII lines are put is read as
before. -/
theorem detectFile_splice {page : CodePage} {p x part : List UInt8}
    (hlength : 4 ≤ (p ++ part).length) (hsig : ofSignature? (p ++ part) = none)
    (hnull : 0 ∉ p ++ part) (hx : ∀ b ∈ x, b < 0x80 ∧ b ≠ 0) (hline : StartsLine x)
    (hpart : StartsLine part) :
    detectFile page (some (p ++ x ++ part)) = detectFile page (some (p ++ part)) := by
  have hsig' : ofSignature? (p ++ x ++ part) = none := by
    rw [List.append_assoc]
    rw [ofSignature?_append_line p hpart] at hsig
    rcases hline with rfl | ⟨rest, rfl⟩
    · rwa [List.nil_append, ofSignature?_append_line p hpart]
    · rwa [List.cons_append, ofSignature?_append_newline]
  have hnull' : 0 ∉ p ++ x ++ part := by
    simp only [List.mem_append, not_or] at hnull ⊢
    exact ⟨⟨hnull.1, fun hmem => (hx 0 hmem).2 rfl⟩, hnull.2⟩
  have hlength' : 4 ≤ (p ++ x ++ part).length := by
    simp only [List.length_append] at hlength ⊢
    omega
  rw [detectFile_of_plain hlength' hsig' hnull', detectFile_of_plain hlength hsig hnull,
    ofWhole_splice page (fun b hb => (hx b hb).1) (hpart.besideAscii p)]

end MarkerBlock.Encoding
