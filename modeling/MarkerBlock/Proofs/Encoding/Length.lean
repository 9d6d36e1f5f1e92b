/-
MarkerBlock.Proofs.Encoding.Length — the lengths of candidate readings and what is read.

A candidate is measured before any reading is chosen, and not always by reading it: ASCII and the
code page count octets, and UTF-8 counts what a replacing reader sees.  Where the strict reader
succeeds, all of these numbers are the number of characters it reads (`length_of_decode`).  Where
it fails they are still numbers, and never more than there are octets; UTF-7, UTF-16 and UTF-32 are
measured by the strict reader itself and have no length then (`length_agrees_with_decode`).

The two candidates that are compared without signature and zeros are measured part by part.  As
ASCII every octet counts; as UTF-8 the parts on the two sides of an ASCII octet count as if they
stood alone, malformed or not, so ASCII text at the end of a line makes both grow by the same
number and the verdict stays (`length_additive_at_ascii`).
-/
import Mathlib
import MarkerBlock.CodePage.Tables
import MarkerBlock.Encoding.Detection
import MarkerBlock.Proofs.Encoding.Codec
import MarkerBlock.Proofs.Encoding.Opening

namespace MarkerBlock.Encoding

/-! ## §1 Readers that replace nothing -/

/-- Where nothing is malformed, a replacing reader sees the characters of the text. -/
theorem Utf8.count_of_decode {octets : List UInt8} {text : List Char}
    (h : Utf8.decode octets = .ok text) : Utf8.count octets = text.length := by
  rw [Utf8.decode_eq_ok_iff] at h
  rw [← h, Utf8.count, Utf8.pieces_encode, List.length_map]

theorem length_of_decodeAscii {octets : List UInt8} {text : List Char}
    (h : decodeAscii octets = .ok text) : text.length = octets.length := by
  obtain ⟨-, rfl⟩ := decodeAscii_eq_ok_iff.mp h
  simp

theorem length_dropBom_le (e : Encoding) (octets : List UInt8) :
    (e.dropBom octets).length ≤ octets.length := by
  rw [dropBom]
  split <;> simp

/-! ## §2 Lengths -/

/-- The length of a file that is read is the number of characters that are read. -/
theorem length_of_decode {page : CodePage} {e : Encoding} {octets : List UInt8} {text : List Char}
    (h : e.decode page octets = .ok text) : length page e octets = .finite text.length := by
  have hbody := decode_eq_ok_iff.mp h
  cases e with
  | utf7 => simp only [length, h]
  | utf16 order marked => simp only [length, h]
  | utf32 => simp only [length, h]
  | utf8 marked => rw [length, Utf8.count_of_decode hbody]
  | ascii =>
    have hread : decodeAscii octets = .ok text := hbody
    rw [length, length_of_decodeAscii hread]
  | legacy =>
    have hread : page.decode octets = some text := wholly_eq_ok_iff.mp hbody
    rw [length, CodePage.length_of_decode hread]

/-- An encoding that is measured by its strict reader has no length where that reader fails. -/
theorem length_eq_unbounded_iff {page : CodePage} {e : Encoding} {octets : List UInt8}
    (h : length page e octets = match e.decode page octets with
      | .ok text => .finite text.length
      | .error _ => .unbounded) :
    length page e octets = .unbounded ↔ ∃ err, e.decode page octets = .error err := by
  rw [h]
  cases e.decode page octets <;> simp

/-- Lengths agree with strict reading.  Whatever is read has as many characters as were counted.
UTF-7, UTF-16 and UTF-32 have no length exactly where they are not read; ASCII, UTF-8 and the code
page always have one, which is no larger than the file. -/
theorem length_agrees_with_decode (page : CodePage) (e : Encoding) (octets : List UInt8) :
    (∀ text, e.decode page octets = .ok text → length page e octets = .finite text.length) ∧
    match e with
    | .utf7 | .utf16 _ _ | .utf32 =>
      length page e octets = .unbounded ↔ ∃ err, e.decode page octets = .error err
    | .utf8 _ | .ascii | .legacy => ∃ n ≤ octets.length, length page e octets = .finite n := by
  refine ⟨fun text h => length_of_decode h, ?_⟩
  cases e with
  | utf7 => exact length_eq_unbounded_iff rfl
  | utf16 order marked => exact length_eq_unbounded_iff rfl
  | utf32 => exact length_eq_unbounded_iff rfl
  | utf8 marked =>
    have hcount := Utf8.count_le_length ((Encoding.utf8 marked).dropBom octets)
    exact ⟨_, hcount.trans (length_dropBom_le _ octets), rfl⟩
  | ascii => exact ⟨octets.length, le_rfl, rfl⟩
  | legacy => exact ⟨octets.length, le_rfl, rfl⟩

/-- A file with two marks, the second of which is text, and a high surrogate alone. -/
theorem length_agrees_with_decode_two_marks :
    (Encoding.utf8 true).decode CodePage.windows1252 [0xEF, 0xBB, 0xBF, 0xEF, 0xBB, 0xBF, 0x61] =
        .ok ['\uFEFF', 'a'] ∧
      length CodePage.windows1252 (.utf8 true) [0xEF, 0xBB, 0xBF, 0xEF, 0xBB, 0xBF, 0x61] =
        .finite 2 ∧
      length CodePage.windows1252 (.utf16 .little false) [0x00, 0xD8] = .unbounded := by
  have hread : (Encoding.utf8 true).decode CodePage.windows1252
      [0xEF, 0xBB, 0xBF, 0xEF, 0xBB, 0xBF, 0x61] = .ok ['\uFEFF', 'a'] := by decide
  refine ⟨hread, (length_agrees_with_decode _ _ _).1 _ hread, ?_⟩
  exact (length_agrees_with_decode CodePage.windows1252 (.utf16 .little false) _).2.mpr
    ⟨⟨.utf16 .little false, 0⟩, rfl⟩

/-! ## §3 Lengths of parts -/

/-- The length as UTF-8 is additive at an ASCII octet, whatever the octets before and after it:
a sequence that is broken off there is one replacement character, as at the end of a file, and
stray octets behind it go on with nothing.  So ASCII text that is put in at the end of a line, or
anywhere beside an ASCII octet, makes the lengths as ASCII and as UTF-8 grow by the number of its
octets, and what is decided from the two lengths stays. -/
theorem length_additive_at_ascii (page : CodePage) :
    (∀ (x y : List UInt8) (a : UInt8), a < 0x80 → ∃ m n,
      length page (.utf8 false) x = .finite m ∧ length page (.utf8 false) y = .finite n ∧
      length page (.utf8 false) (x ++ [a] ++ y) = .finite (m + 1 + n) ∧
      length page (.utf8 false) (x ++ [a]) = .finite (m + 1)) ∧
    ∀ front text back : List UInt8, (∀ b ∈ text, b < 0x80) → Utf8.BesideAscii front back →
      ∃ ascii utf8,
        length page .ascii (front ++ back) = .finite ascii ∧
        length page .ascii (front ++ text ++ back) = .finite (ascii + text.length) ∧
        length page (.utf8 false) (front ++ back) = .finite utf8 ∧
        length page (.utf8 false) (front ++ text ++ back) = .finite (utf8 + text.length) ∧
        ofWhole page (front ++ text ++ back) = ofWhole page (front ++ back) := by
  constructor
  · intro x y a ha
    have hboth : Utf8.count (x ++ [a] ++ y) = Utf8.count x + 1 + Utf8.count y := by
      rw [List.append_assoc, List.singleton_append, Utf8.count_append_ascii x y ha]
    have hone : Utf8.count (x ++ [a]) = Utf8.count x + 1 := by
      rw [Utf8.count_append_ascii x [] ha, Utf8.count_nil, Nat.add_zero]
    refine ⟨Utf8.count x, Utf8.count y, length_utf8 page x, length_utf8 page y, ?_, ?_⟩
    · rw [length_utf8, hboth]
    · rw [length_utf8, hone]
  · intro front text back htext hplace
    exact ⟨(front ++ back).length, Utf8.count (front ++ back), length_ascii page _,
      length_ascii_splice page front text back, length_utf8 page _,
      length_utf8_splice page htext hplace, ofWhole_splice page htext hplace⟩

/-- The sequence of the euro sign is cut by a line feed into a part that is broken off and a stray
octet; and a line goes in between the two. -/
theorem length_additive_at_ascii_cut_sequence :
    (0x0A : UInt8) < 0x80 ∧ (∀ b ∈ [0x0A, 0x62], b < (0x80 : UInt8)) ∧
    Utf8.BesideAscii [0x61, 0xE2, 0x82] [0x0A, 0xAC] ∧
    length CodePage.windows1252 (.utf8 false) ([0xE2, 0x82] ++ [0x0A] ++ [0xAC]) = .finite 3 ∧
    length CodePage.windows1252 (.utf8 false) ([0x61, 0xE2, 0x82] ++ [0x0A, 0x62] ++ [0x0A, 0xAC]) =
      .finite 6 ∧
    ofWhole CodePage.windows1252 ([0x61, 0xE2, 0x82] ++ [0x0A, 0x62] ++ [0x0A, 0xAC]) =
      .utf8 false := by
  have htext : ∀ b ∈ [0x0A, 0x62], b < (0x80 : UInt8) := by simp
  have hplace : Utf8.BesideAscii [0x61, 0xE2, 0x82] [0x0A, 0xAC] :=
    Utf8.besideAscii_cons (by decide) _ _
  obtain ⟨hcut, hline⟩ := length_additive_at_ascii CodePage.windows1252
  obtain ⟨m, n, hm, hn, hboth, -⟩ := hcut [0xE2, 0x82] [0xAC] 0x0A (by decide)
  obtain ⟨-, utf8, -, -, hbefore, hafter, hverdict⟩ := hline _ _ _ htext hplace
  have hbroken : Utf8.count [0xE2, 0x82] = 1 := by decide
  have hstray : Utf8.count [0xAC] = 1 := by decide
  have hlines : Utf8.count ([0x61, 0xE2, 0x82] ++ [0x0A, 0xAC]) = 4 := by decide
  rw [length_utf8, hbroken] at hm
  rw [length_utf8, hstray] at hn
  rw [length_utf8, hlines] at hbefore
  have hfewer : ofWhole CodePage.windows1252 ([0x61, 0xE2, 0x82] ++ [0x0A, 0xAC]) =
      .utf8 false := by
    rw [ofWhole_eq, hlines]
    rfl
  cases hm
  cases hn
  cases hbefore
  exact ⟨by decide, htext, hplace, hboth, hafter, hverdict.trans hfewer⟩

end MarkerBlock.Encoding
