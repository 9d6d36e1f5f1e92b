/-
MarkerBlock.Proofs.Encoding.Codec — reading and writing whole files.

Every encoding but UTF-7 reads octets as the text they are written for, and not
otherwise: `decodeBody_eq_ok_iff` collects that from the encodings.  They also
write a text piece by piece (`encodeBody_append_eq_ok_iff`), because a character
has the same octets wherever it stands.

A byte order mark is put in front once and taken away once, so what holds of
bodies holds of files, as long as the file begins with the mark of its encoding.

UTF-7 has more than one form for a text, so of it only one direction is true: what
was written is read back (`decode_of_encode`).
-/
import MarkerBlock.CodePage.Tables
import MarkerBlock.Encoding.Basic
import MarkerBlock.Proofs.CodePage
import MarkerBlock.Proofs.Encoding.Utf16
import MarkerBlock.Proofs.Encoding.Utf32
import MarkerBlock.Proofs.Encoding.Utf7
import MarkerBlock.Proofs.Encoding.Utf8

namespace MarkerBlock.Encoding

/-! ## §1 ASCII -/

theorem encodeAscii_eq_ok_iff {text : List Char} {octets : List UInt8} :
    encodeAscii text = .ok octets ↔
      (∀ c ∈ text, c.toNat < 0x80) ∧ text.map (fun c => UInt8.ofNat c.toNat) = octets := by
  rw [encodeAscii]
  split
  · next c hc =>
    have hmem := List.mem_of_find?_eq_some hc
    have hge := List.find?_some hc
    simp only [decide_eq_true_eq] at hge
    constructor
    · intro h; cases h
    · rintro ⟨hall, -⟩
      exact absurd (hall c hmem) (by omega)
  · next hnone =>
    simp only [List.find?_eq_none, decide_eq_true_eq, Nat.not_le] at hnone
    rw [Except.ok.injEq]
    exact ⟨fun h => ⟨hnone, h⟩, fun h => h.2⟩

theorem decodeAscii_eq_ok_iff {octets : List UInt8} {text : List Char} :
    decodeAscii octets = .ok text ↔
      (∀ b ∈ octets, b.toNat < 0x80) ∧ octets.map (fun b => Char.ofNat b.toNat) = text := by
  rw [decodeAscii]
  split
  · next i hi =>
    obtain ⟨hlt, hge, -⟩ := List.findIdx?_eq_some_iff_getElem.mp hi
    simp only [decide_eq_true_eq, UInt8.le_iff_toNat_le, UInt8.reduceToNat] at hge
    constructor
    · intro h; cases h
    · rintro ⟨hall, -⟩
      exact absurd (hall _ (List.getElem_mem hlt)) (by omega)
  · next hnone =>
    simp only [List.findIdx?_eq_none_iff, decide_eq_false_iff_not, UInt8.le_iff_toNat_le,
      UInt8.reduceToNat, Nat.not_le] at hnone
    rw [Except.ok.injEq]
    exact ⟨fun h => ⟨hnone, h⟩, fun h => h.2⟩

/-- Octets are read as the ASCII text they are written for, and not otherwise. -/
theorem decodeAscii_eq_ok_iff_encodeAscii {octets : List UInt8} {text : List Char} :
    decodeAscii octets = .ok text ↔ encodeAscii text = .ok octets := by
  rw [decodeAscii_eq_ok_iff, encodeAscii_eq_ok_iff]
  constructor
  · rintro ⟨hall, rfl⟩
    refine ⟨?_, ?_⟩
    · intro c hc
      obtain ⟨b, hb, rfl⟩ := List.mem_map.mp hc
      rw [toNat_ofNat_octet]
      exact hall b hb
    · simp [octet_ofNat, Function.comp_def]
  · rintro ⟨hall, rfl⟩
    refine ⟨?_, ?_⟩
    · intro b hb
      obtain ⟨c, hc, rfl⟩ := List.mem_map.mp hb
      have := hall c hc
      rw [toNat_octet (by omega)]
      exact this
    · rw [List.map_map]
      conv => rhs; rw [← List.map_id text]
      exact List.map_congr_left fun c hc => ofNat_octet (by have := hall c hc; omega)

/-! ## §2 What follows the mark -/

theorem wholly_eq_ok_iff {read : Option (List Char)} {text : List Char} :
    wholly read = .ok text ↔ read = some text := by
  cases read <;> simp [wholly]

/-- Octets are read as the text they are written for, and not otherwise. -/
theorem decodeBody_eq_ok_iff {page : CodePage} {e : Encoding} (he : e ≠ .utf7)
    {body : List UInt8} {text : List Char} :
    e.decodeBody page body = .ok text ↔ e.encodeBody page text = .ok body := by
  cases e with
  | utf7 => exact absurd rfl he
  | utf8 bom => simp only [decodeBody, encodeBody, Utf8.decode_eq_ok_iff, Except.ok.injEq]
  | utf16 order bom =>
    simp only [decodeBody, encodeBody, wholly_eq_ok_iff, Utf16.decode_eq_some_iff, Except.ok.injEq]
  | utf32 => simp only [decodeBody, encodeBody, Utf32.decode_eq_ok_iff, Except.ok.injEq]
  | ascii => exact decodeAscii_eq_ok_iff_encodeAscii
  | legacy =>
    simp only [decodeBody, encodeBody, wholly_eq_ok_iff, CodePage.decode_eq_some_iff]

/-- A text is written piece by piece. -/
theorem encodeBody_append_eq_ok_iff {page : CodePage} {e : Encoding} (he : e ≠ .utf7)
    {x y : List Char} {body : List UInt8} :
    e.encodeBody page (x ++ y) = .ok body ↔
      ∃ a b, e.encodeBody page x = .ok a ∧ e.encodeBody page y = .ok b ∧ body = a ++ b := by
  cases e with
  | utf7 => exact absurd rfl he
  | utf8 bom => simp [encodeBody, eq_comm]
  | utf16 order bom => simp [encodeBody, eq_comm]
  | utf32 => simp [encodeBody, eq_comm]
  | ascii =>
    simp only [encodeBody, encodeAscii_eq_ok_iff, List.mem_append, List.map_append]
    constructor
    · rintro ⟨hall, rfl⟩
      exact ⟨_, _, ⟨fun c hc => hall c (.inl hc), rfl⟩, ⟨fun c hc => hall c (.inr hc), rfl⟩, rfl⟩
    · rintro ⟨a, b, ⟨hx, rfl⟩, ⟨hy, rfl⟩, rfl⟩
      exact ⟨fun c hc => hc.elim (hx c) (hy c), rfl⟩
  | legacy => exact CodePage.encode_append_eq_ok_iff

/-- Every text can be written, except in ASCII and in a code page. -/
theorem exists_encodeBody (page : CodePage) {e : Encoding} (ha : e ≠ .ascii) (hl : e ≠ .legacy)
    (text : List Char) : ∃ body, e.encodeBody page text = .ok body := by
  cases e with
  | ascii => exact absurd rfl ha
  | legacy => exact absurd rfl hl
  | _ => exact ⟨_, rfl⟩

/-- In UTF-8 and in a code page, ASCII text is written as ASCII. -/
theorem encodeBody_ascii (page : CodePage) {e : Encoding} (he : e = .utf8 false ∨ e = .legacy)
    {text : List Char} (h : ∀ c ∈ text, c.toNat < 0x80) :
    e.encodeBody page text = .ok (text.map fun c => UInt8.ofNat c.toNat) := by
  rcases he with rfl | rfl
  · rw [encodeBody, Utf8.encode_ascii h]
  · exact CodePage.encode_ascii page h

/-! ## §3 Files -/

theorem encode_eq_ok_iff {page : CodePage} {e : Encoding} {text : List Char}
    {octets : List UInt8} :
    e.encode page text = .ok octets ↔
      ∃ body, e.encodeBody page text = .ok body ∧ e.bom ++ body = octets := by
  rw [encode]
  cases e.encodeBody page text with
  | error c => simp
  | ok body => simp

/-- The mark is taken away once, whatever follows it. -/
@[simp] theorem dropBom_bom_append (e : Encoding) (body : List UInt8) :
    e.dropBom (e.bom ++ body) = body := by
  rw [dropBom, if_pos (List.isPrefixOf_iff_prefix.mpr (List.prefix_append _ _)), List.drop_left]

theorem decode_eq_ok_iff {page : CodePage} {e : Encoding} {octets : List UInt8}
    {text : List Char} :
    e.decode page octets = .ok text ↔ e.decodeBody page (e.dropBom octets) = .ok text := by
  simp only [decode]
  cases e.decodeBody page (e.dropBom octets) <;> simp

theorem decode_bom_append_eq_ok_iff {page : CodePage} {e : Encoding} {body : List UInt8}
    {text : List Char} :
    e.decode page (e.bom ++ body) = .ok text ↔ e.decodeBody page body = .ok text := by
  rw [decode_eq_ok_iff, dropBom_bom_append]

/-- A file that begins with its mark is read as the text it is written for. -/
theorem decode_eq_ok_iff_encode {page : CodePage} {e : Encoding} (he : e ≠ .utf7)
    {octets : List UInt8} (hbom : e.bom <+: octets) {text : List Char} :
    e.decode page octets = .ok text ↔ e.encode page text = .ok octets := by
  obtain ⟨body, rfl⟩ := hbom
  rw [decode_bom_append_eq_ok_iff, decodeBody_eq_ok_iff he, encode_eq_ok_iff]
  simp

theorem bom_prefix_of_encode {page : CodePage} {e : Encoding} {text : List Char}
    {octets : List UInt8} (h : e.encode page text = .ok octets) : e.bom <+: octets := by
  obtain ⟨body, -, rfl⟩ := encode_eq_ok_iff.mp h
  exact List.prefix_append _ _

/-- What was written is read back, in every encoding. -/
theorem decode_of_encode {page : CodePage} {e : Encoding} {text : List Char}
    {octets : List UInt8} (h : e.encode page text = .ok octets) :
    e.decode page octets = .ok text := by
  by_cases he : e = .utf7
  · subst he
    obtain ⟨body, hbody, rfl⟩ := encode_eq_ok_iff.mp h
    cases hbody
    rw [decode_bom_append_eq_ok_iff]
    exact Utf7.decode_encode text
  · exact (decode_eq_ok_iff_encode he (bom_prefix_of_encode h)).mpr h

/-- A UTF-16 file is read exactly if what follows its mark is whole units, with every
surrogate in a pair. -/
theorem exists_decode_utf16_iff {page : CodePage} {order : ByteOrder} {marked : Bool}
    {body : List UInt8} :
    (∃ text, (Encoding.utf16 order marked).decode page
        ((Encoding.utf16 order marked).bom ++ body) = .ok text) ↔
      ∃ us, Utf16.Paired us ∧ us.flatMap (Utf16.octetsOf order) = body := by
  simp only [decode_bom_append_eq_ok_iff, decodeBody, wholly_eq_ok_iff]
  exact Utf16.exists_decode_iff

/-! ## §4 Reading and writing are inverse -/

/-- For every encoding but UTF-7, a text is written as some octets exactly if these
begin with the encoding's mark and are read as the text.  Every text can be
written, except in ASCII and in a code page; and a UTF-16 file with an odd number
of octets or an unpaired surrogate is not read. -/
theorem encode_inverse_decode (page : CodePage) {e : Encoding} (he : e ≠ .utf7) :
    (∀ (text : List Char) (octets : List UInt8),
      e.encode page text = .ok octets ↔ e.bom <+: octets ∧ e.decode page octets = .ok text) ∧
    (e ≠ .ascii → e ≠ .legacy → ∀ text, ∃ octets, e.encode page text = .ok octets) ∧
    (∀ order marked, e = .utf16 order marked → ∀ body,
      (∃ text, e.decode page (e.bom ++ body) = .ok text) ↔
        ∃ us, Utf16.Paired us ∧ us.flatMap (Utf16.octetsOf order) = body) := by
  refine ⟨fun text octets => ?_, fun ha hl text => ?_, ?_⟩
  · constructor
    · intro h
      have hbom := bom_prefix_of_encode h
      exact ⟨hbom, (decode_eq_ok_iff_encode he hbom).mpr h⟩
    · rintro ⟨hbom, h⟩
      exact (decode_eq_ok_iff_encode he hbom).mp h
  · obtain ⟨body, hbody⟩ := exists_encodeBody page ha hl text
    exact ⟨e.bom ++ body, encode_eq_ok_iff.mpr ⟨body, hbody, rfl⟩⟩
  · rintro order marked rfl body
    exact exists_decode_utf16_iff

/-- A text that itself begins with U+FEFF, in a file with a mark. -/
theorem encode_inverse_decode_marked :
    Encoding.utf16 .little true ≠ .utf7 ∧
    (Encoding.utf16 .little true).bom <+: [0xFF, 0xFE, 0xFF, 0xFE, 0x3D, 0xD8, 0x00, 0xDE] ∧
    (Encoding.utf16 .little true).decode CodePage.windows1252
      [0xFF, 0xFE, 0xFF, 0xFE, 0x3D, 0xD8, 0x00, 0xDE] = .ok ['\uFEFF', '😀'] := by
  have he : Encoding.utf16 .little true ≠ .utf7 := by decide
  exact ⟨he, ((encode_inverse_decode CodePage.windows1252 he).1 _ _).mp rfl⟩

end MarkerBlock.Encoding
