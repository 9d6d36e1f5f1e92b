/-
MarkerBlock.Proofs.Encoding.Coverage — which texts can be written, and where writing fails.

An encoding covers a character if some file is read in it as text with this character.  The
Unicode encodings cover every character, ASCII and a code page do not (`covers_iff`).  Writing
goes through the text and stops at the first character that `lacks` finds
(`encode_eq_error_iff`); that this is the first one not covered is the main statement,
`encode_fails_at_first_uncovered`.

Beside the strict writer of a code page stands a lenient one, which puts a numeric character
reference where the page has no octet (`CodePage.lenient`).  What the strict writer writes is what
the lenient one does on a text for which it needs no reference.
-/
import Mathlib
import MarkerBlock.Proofs.Encoding.Codec

namespace MarkerBlock

/-! ## §1 Code pages -/

/-- The numeric character reference of a character: `&#`, its code point in decimal, and `;`. -/
def reference (c : Char) : List UInt8 :=
  ('&' :: '#' :: (Nat.toDigits 10 c.toNat ++ [';'])).map fun d => UInt8.ofNat d.toNat

namespace CodePage

/-- A character as a writer that never fails puts it: its octet, or its numeric character
reference if the page has none. -/
def lenient (page : CodePage) (c : Char) : List UInt8 :=
  match page.octetOf c with
  | some b => [b]
  | none => reference c

/-- A reference is longer than an octet. -/
theorem lenient_eq_reference_iff {page : CodePage} {c : Char} :
    page.lenient c = reference c ↔ page.octetOf c = none := by
  rw [lenient]
  cases page.octetOf c with
  | none => simp
  | some b => simp [reference]

/-- Writing fails at the first character that has no octet. -/
theorem encode_eq_error_iff {page : CodePage} {text : List Char} {c : Char} :
    page.encode text = .error c ↔ text.find? (fun d => (page.octetOf d).isNone) = some c := by
  induction text with
  | nil => simp [encode, pure, Except.pure]
  | cons d text ih =>
    rw [encode_cons, List.find?_cons]
    cases page.octetOf d with
    | none => simp
    | some b =>
      rw [Option.isNone_some, ← ih]
      cases page.encode text <;> simp [Except.map]

/-- Every character is one octet. -/
theorem length_of_encode {page : CodePage} {text : List Char} {octets : List UInt8}
    (h : page.encode text = .ok octets) : octets.length = text.length :=
  (length_of_decode (decode_eq_some_iff.mpr h)).symm

/-- The strict writer puts what the lenient one does, if that needs no reference. -/
theorem encode_eq_ok_iff_lenient {page : CodePage} {text : List Char} {octets : List UInt8} :
    page.encode text = .ok octets ↔
      (∀ c ∈ text, page.lenient c ≠ reference c) ∧ octets = text.flatMap page.lenient := by
  induction text generalizing octets with
  | nil => simp [encode, pure, Except.pure, eq_comm]
  | cons c text ih =>
    rw [encode_cons_eq_ok_iff, List.forall_mem_cons, List.flatMap_cons, Ne,
      lenient_eq_reference_iff]
    constructor
    · rintro ⟨b, rest, hc, hrest, rfl⟩
      obtain ⟨hkept, rfl⟩ := ih.mp hrest
      refine ⟨⟨by simp [hc], hkept⟩, ?_⟩
      simp [lenient, hc]
    · rintro ⟨⟨hc, hkept⟩, rfl⟩
      obtain ⟨b, hb⟩ := Option.ne_none_iff_exists'.mp hc
      refine ⟨b, text.flatMap page.lenient, hb, ih.mpr ⟨hkept, rfl⟩, ?_⟩
      simp [lenient, hb]

end CodePage

namespace Encoding

/-! ## §2 Where writing fails -/

/-- The writer of an encoding stops at this character. -/
def lacks (page : CodePage) : Encoding → Char → Bool
  | .ascii, c => 0x80 ≤ c.toNat
  | .legacy, c => (page.octetOf c).isNone
  | _, _ => false

theorem encodeBody_eq_error_iff {page : CodePage} {e : Encoding} {text : List Char} {c : Char} :
    e.encodeBody page text = .error c ↔ text.find? (e.lacks page) = some c := by
  have hnever : ¬text.find? (fun _ => false) = some c :=
    fun h => Bool.false_ne_true (List.find?_some h)
  cases e with
  | ascii =>
    rw [encodeBody, encodeAscii]
    have hfind : text.find? (Encoding.lacks page .ascii) = text.find? (0x80 ≤ ·.toNat) := rfl
    rw [hfind]
    cases text.find? (0x80 ≤ ·.toNat) <;> simp
  | legacy => exact CodePage.encode_eq_error_iff
  | utf7 => exact iff_of_false (by simp [encodeBody]) hnever
  | utf8 marked => exact iff_of_false (by simp [encodeBody]) hnever
  | utf16 order marked => exact iff_of_false (by simp [encodeBody]) hnever
  | utf32 => exact iff_of_false (by simp [encodeBody]) hnever

/-- Writing fails at the first character at which the writer stops. -/
theorem encode_eq_error_iff {page : CodePage} {e : Encoding} {text : List Char}
    {err : EncodeError} :
    e.encode page text = .error err ↔
      err.encoding = e ∧ text.find? (e.lacks page) = some err.char := by
  rw [← encodeBody_eq_error_iff, encode]
  obtain ⟨encoding, char⟩ := err
  cases e.encodeBody page text <;> simp [eq_comm]

theorem exists_error_iff {page : CodePage} {e : Encoding} {text : List Char} :
    (∃ err, e.encode page text = .error err) ↔ ∃ c ∈ text, e.lacks page c = true := by
  rw [← List.find?_isSome, Option.isSome_iff_exists]
  constructor
  · rintro ⟨err, h⟩
    exact ⟨err.char, (encode_eq_error_iff.mp h).2⟩
  · rintro ⟨c, h⟩
    exact ⟨⟨e, c⟩, encode_eq_error_iff.mpr ⟨rfl, h⟩⟩

/-! ## §3 What is covered -/

/-- Some file is read in the encoding as text with this character. -/
def Covers (page : CodePage) (e : Encoding) (c : Char) : Prop :=
  ∃ octets text, e.decode page octets = .ok text ∧ c ∈ text

/-- The writer stops at no character of a text that some file is read as. -/
theorem lacks_of_decode {page : CodePage} {e : Encoding} {octets : List UInt8} {text : List Char}
    (h : e.decode page octets = .ok text) {c : Char} (hc : c ∈ text) : e.lacks page c = false := by
  by_cases he : e = .utf7
  · rw [he]
    rfl
  · rw [decode_eq_ok_iff, decodeBody_eq_ok_iff he] at h
    cases hfind : text.find? (e.lacks page) with
    | none => simpa using List.find?_eq_none.mp hfind c hc
    | some d =>
      rw [encodeBody_eq_error_iff.mpr hfind] at h
      cases h

/-- The characters that are not covered are those at which the writer stops. -/
theorem covers_iff {page : CodePage} {e : Encoding} {c : Char} :
    e.Covers page c ↔ e.lacks page c = false := by
  constructor
  · rintro ⟨octets, text, h, hc⟩
    exact lacks_of_decode h hc
  · intro hc
    cases hwritten : e.encode page [c] with
    | ok octets => exact ⟨octets, [c], decode_of_encode hwritten, List.mem_singleton.mpr rfl⟩
    | error err =>
      obtain ⟨d, hd, hlacks⟩ := exists_error_iff.mp ⟨err, hwritten⟩
      rw [List.mem_singleton.mp hd, hc] at hlacks
      cases hlacks

theorem not_covers_iff {page : CodePage} {e : Encoding} {c : Char} :
    ¬e.Covers page c ↔ e.lacks page c = true := by
  rw [covers_iff, Bool.not_eq_false]

/-- In ASCII and in a code page every character is one octet. -/
theorem length_of_encode {page : CodePage} {e : Encoding} (he : e = .ascii ∨ e = .legacy)
    {text : List Char} {octets : List UInt8} (h : e.encode page text = .ok octets) :
    octets.length = text.length := by
  obtain ⟨body, hbody, rfl⟩ := encode_eq_ok_iff.mp h
  rcases he with rfl | rfl
  · obtain ⟨-, rfl⟩ := encodeAscii_eq_ok_iff.mp hbody
    exact List.length_map _
  · exact CodePage.length_of_encode hbody

/-- Writing fails exactly for texts with a character that the encoding does not cover, and the
error names the first one.  Only in ASCII and in a code page can that happen; these two write one
octet for each character.  In a code page no text is written for which a lenient writer would put
a numeric character reference, and any other text is written as by that writer. -/
theorem encode_fails_at_first_uncovered (page : CodePage) (e : Encoding) (text : List Char) :
    ((∃ err, e.encode page text = .error err) ↔ ∃ c ∈ text, ¬e.Covers page c) ∧
    (∀ err, e.encode page text = .error err ↔
      err.encoding = e ∧ ¬e.Covers page err.char ∧ ∃ before after,
        text = before ++ err.char :: after ∧ ∀ c ∈ before, e.Covers page c) ∧
    ((∃ err, e.encode page text = .error err) → e = .ascii ∨ e = .legacy) ∧
    (e = .ascii ∨ e = .legacy → ∀ octets, e.encode page text = .ok octets →
      octets.length = text.length) ∧
    (e = .legacy → ∀ octets, e.encode page text = .ok octets ↔
      (∀ c ∈ text, page.lenient c ≠ reference c) ∧ octets = text.flatMap page.lenient) := by
  refine ⟨?_, fun err => ?_, ?_, fun he octets => length_of_encode he, ?_⟩
  · simp only [not_covers_iff]
    exact exists_error_iff
  · rw [encode_eq_error_iff, List.find?_eq_some_iff_append]
    simp only [covers_iff, Bool.not_eq_true', Bool.not_eq_false]
  · intro hfails
    obtain ⟨c, -, hc⟩ := exists_error_iff.mp hfails
    cases e with
    | ascii => exact .inl rfl
    | legacy => exact .inr rfl
    | _ => cases hc
  · rintro rfl octets
    rw [encode_eq_ok_iff, ← CodePage.encode_eq_ok_iff_lenient]
    simp [encodeBody, bom]

/-- Windows-1252 has no octet for a Chinese character, and does not write its reference. -/
example : Encoding.legacy.encode .windows1252 ['a', '漢'] = .error ⟨.legacy, '漢'⟩ ∧
    reference '漢' = [0x26, 0x23, 0x32, 0x38, 0x34, 0x35, 0x30, 0x3B] := by decide

end Encoding

end MarkerBlock
