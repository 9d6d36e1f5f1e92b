/-
MarkerBlock.Proofs.Encoding.Recognition — what was written is recognised.

A file with a signature is recognised by it.  UTF-8 without a mark has octets that no
other encoding's signature begins with, as long as the text does not itself begin
with U+FEFF or with the characters of the UTF-7 signature; without NUL it has no
zeros; and it is shorter in characters than in octets exactly if it goes beyond
ASCII.  What stays within ASCII is read alike in every code page
(`decode_detect_of_encode`).

UTF-7 has its signature by the first character of the text alone, so a file keeps it
through every change that keeps this character (`utf7_signature_survives`).
-/
import Mathlib
import MarkerBlock.CodePage.Tables
import MarkerBlock.Proofs.Encoding.Codec
import MarkerBlock.Proofs.Encoding.Detection
import MarkerBlock.Proofs.Encoding.Utf7Signature

namespace MarkerBlock.Encoding

/-! ## §1 Octets of UTF-8 -/

namespace Utf8

theorem not_mem_encode {text : List Char} {b : UInt8} (hb : 0xF7 < b.toNat) : b ∉ encode text := by
  intro h
  obtain ⟨c, -, hc⟩ := List.mem_flatMap.mp h
  have hle := (mem_utf8EncodeChar hc).1
  omega

theorem zero_not_mem_encode {text : List Char} (h : '\x00' ∉ text) : 0 ∉ encode text := by
  intro hzero
  obtain ⟨c, hmem, hc⟩ := List.mem_flatMap.mp hzero
  exact h ((mem_utf8EncodeChar hc).2 (by decide) ▸ hmem)

/-- Behind a whole text nothing is unfinished. -/
theorem isBreak_encode (text : List Char) (rest : List UInt8) : IsBreak (encode text) rest := by
  intro b _
  rw [foldl_push_encode]
  rfl

/-- Octets that begin with those of a text are the octets of a text that begins with
it. -/
theorem prefix_of_encode_prefix {a text : List Char} (h : encode a <+: encode text) : a <+: text := by
  obtain ⟨rest, hrest⟩ := h
  have hpieces : text.map Piece.scalar = a.map Piece.scalar ++ pieces rest := by
    rw [← pieces_encode text, ← hrest, pieces_append (isBreak_encode a rest), pieces_encode]
  have hprefix : a.map Piece.scalar <+: text.map Piece.scalar := ⟨_, hpieces.symm⟩
  exact (List.prefix_map_iff_of_injective fun _ _ h => Piece.scalar.inj h).mp hprefix

theorem encode_injective : Function.Injective encode := by
  intro a b h
  have hpieces := congrArg pieces h
  rw [pieces_encode, pieces_encode] at hpieces
  exact List.map_injective_iff.mpr (fun _ _ h => Piece.scalar.inj h) hpieces

/-- A text has as many characters as octets if it is ASCII, and fewer otherwise. -/
theorem length_lt_length_encode_iff (text : List Char) :
    text.length ≤ (encode text).length ∧
      (text.length < (encode text).length ↔ ∃ c ∈ text, 0x80 ≤ c.toNat) := by
  induction text with
  | nil => simp [encode]
  | cons c text ih =>
    have hsplit : (encode (c :: text)).length = c.utf8Size + (encode text).length := by
      rw [← List.singleton_append, encode_append, List.length_append]
      simp [encode]
    have hpos := Char.utf8Size_pos c
    have hone : c.utf8Size = 1 ↔ c.toNat < 0x80 := by
      rw [Char.utf8Size_eq_one_iff, UInt32.le_iff_toNat_le]
      exact Nat.lt_succ_iff.symm
    obtain ⟨hle, hlt⟩ := ih
    rw [hsplit, List.length_cons]
    refine ⟨by omega, ?_⟩
    rw [List.exists_mem_cons_iff, ← hlt]
    omega

end Utf8

/-! ## §2 Texts without a mark -/

/-- A text that has no NUL, and begins with nothing that a signature is written for. -/
structure IsUnmarked (text : List Char) : Prop where
  nul : '\x00' ∉ text
  mark : ¬['\uFEFF'] <+: text
  shift : ¬['+', '/', 'v'] <+: text

/-- The octets of such a text in UTF-8 have no signature. -/
theorem IsUnmarked.ofSignature? {text : List Char} (h : IsUnmarked text) :
    ofSignature? (Utf8.encode text) = none := by
  rw [Option.eq_none_iff_forall_ne_some]
  intro e he
  obtain ⟨hne, hsig⟩ := ofSignature?_eq_some_iff.mp he
  rcases signature_cases hne with rfl | rfl | hoctet
  · exact h.shift (Utf8.prefix_of_encode_prefix (a := ['+', '/', 'v']) hsig)
  · exact h.mark (Utf8.prefix_of_encode_prefix (a := ['\uFEFF']) hsig)
  · exact Utf8.not_mem_encode (by decide) (hsig.subset hoctet)

/-- UTF-8 without a mark is told from a code page by what goes beyond ASCII. -/
theorem ofWhole_encode (page : CodePage) (text : List Char) :
    ofWhole page (Utf8.encode text) =
      if ∃ c ∈ text, 0x80 ≤ c.toNat then .utf8 false else .legacy := by
  have hcount : Utf8.count (Utf8.encode text) = text.length := by
    rw [Utf8.count, Utf8.pieces_encode, List.length_map]
  rw [ofWhole_eq, hcount]
  simp only [(Utf8.length_lt_length_encode_iff text).2]

/-! ## §3 Detection in memory -/

/-- A file is recognised as its octets are. -/
theorem detectFile_some (page : CodePage) (octets : List UInt8) :
    detectFile page (some octets) = detect page octets := by
  rw [detectFile, detect, ofSample?, ofSample?]
  simp only [ofSignature?_take]

/-- What can be said of a text in an encoding from its octets alone. -/
def IsRecognizable : Encoding → List Char → Prop
  | .utf8 true, _ | .utf16 _ true, _ | .utf32, _ => True
  | .utf7, text => ['\uFEFF'] <+: text
  | .utf8 false, text | .ascii, text => IsUnmarked text
  | .utf16 _ false, _ | .legacy, _ => False

theorem IsRecognizable.signature_prefix {page : CodePage} {e : Encoding} {text : List Char}
    {octets : List UInt8} (hkind : e.IsRecognizable text) (h : e.encode page text = .ok octets) :
    e.signature <+: octets := by
  by_cases he : e = .utf7
  · subst he
    obtain ⟨rest, rfl⟩ : ['\uFEFF'] <+: text := hkind
    cases h
    have hsignature : Utf7.IsSignature '\uFEFF' := by
      constructor <;> decide
    exact (Utf7.signature_of_encode hsignature rest).1
  · rw [signature_eq_bom he]
    exact bom_prefix_of_encode h

/-- Without a signature the octets are those of the text in UTF-8. -/
theorem IsRecognizable.octets_eq {page : CodePage} {e : Encoding} {text : List Char}
    {octets : List UInt8} (hkind : e.IsRecognizable text) (hsig : e.signature = [])
    (h : e.encode page text = .ok octets) : IsUnmarked text ∧ octets = Utf8.encode text := by
  rcases e with _ | (_ | _) | ⟨_ | _, _ | _⟩ | _ | _ | _
  case utf8.false =>
    cases h
    exact ⟨hkind, rfl⟩
  case ascii =>
    obtain ⟨body, hbody, rfl⟩ := encode_eq_ok_iff.mp h
    obtain ⟨hascii, rfl⟩ := encodeAscii_eq_ok_iff.mp hbody
    exact ⟨hkind, (Utf8.encode_ascii hascii).symm⟩
  case utf16.little.false => exact hkind.elim
  case utf16.big.false => exact hkind.elim
  case legacy => exact hkind.elim
  all_goals cases hsig

/-- The octets of a text without a mark are taken for UTF-8 or for the code page, and
both read them as the text. -/
theorem decode_detect_unmarked (page : CodePage) {text : List Char} (h : IsUnmarked text)
    (hlength : 4 ≤ (Utf8.encode text).length) :
    detect page (Utf8.encode text) =
        (if ∃ c ∈ text, 0x80 ≤ c.toNat then .utf8 false else .legacy) ∧
      (detect page (Utf8.encode text)).decode page (Utf8.encode text) = .ok text := by
  have hfound : detect page (Utf8.encode text) =
      if ∃ c ∈ text, 0x80 ≤ c.toNat then .utf8 false else .legacy := by
    rw [← detectFile_some,
      detectFile_of_plain hlength h.ofSignature? (Utf8.zero_not_mem_encode h.nul), ofWhole_encode]
  refine ⟨hfound, ?_⟩
  rw [hfound]
  apply decode_of_encode
  split_ifs with hbeyond
  · rfl
  · have hascii : ∀ c ∈ text, c.toNat < 0x80 := fun c hc =>
      Nat.lt_of_not_le fun hle => hbeyond ⟨c, hc, hle⟩
    rw [Utf8.encode_ascii hascii, encode, encodeBody_ascii page (.inr rfl) hascii]
    rfl

/-- What was written is read back in the encoding that is found.  A text in an
encoding with a signature is found to be in that encoding; in UTF-8 without a mark
and in ASCII it is found to be UTF-8 if it goes beyond ASCII, and otherwise to be in the
code page, where it means the same. -/
theorem decode_detect_of_encode {page : CodePage} {e : Encoding} {text : List Char}
    {octets : List UInt8} (hkind : e.IsRecognizable text) (hwritten : e.encode page text = .ok octets)
    (hlength : 4 ≤ octets.length) :
    (detect page octets).decode page octets = .ok text ∧
      (e.signature ≠ [] → detect page octets = e) ∧
      (e.signature = [] → detect page octets =
        if ∃ c ∈ text, 0x80 ≤ c.toNat then .utf8 false else .legacy) := by
  by_cases hsig : e.signature = []
  · obtain ⟨hunmarked, rfl⟩ := hkind.octets_eq hsig hwritten
    obtain ⟨hfound, hread⟩ := decode_detect_unmarked page hunmarked hlength
    exact ⟨hread, fun h => absurd hsig h, fun _ => hfound⟩
  · have hfound : detect page octets = e := by
      rw [← detectFile_some]
      exact detectFile_of_signature hlength
        (ofSignature?_eq_some_iff.mpr ⟨hsig, hkind.signature_prefix hwritten⟩)
    refine ⟨?_, fun _ => hfound, fun h => absurd h hsig⟩
    rw [hfound]
    exact decode_of_encode hwritten

/-- A text beyond ASCII in UTF-8 without a mark. -/
theorem decode_detect_of_encode_umlaut :
    (Encoding.utf8 false).IsRecognizable ['a', 'ü', 'b'] ∧
    (Encoding.utf8 false).encode CodePage.windows1252 ['a', 'ü', 'b'] =
      .ok [0x61, 0xC3, 0xBC, 0x62] ∧
    (detect CodePage.windows1252 [0x61, 0xC3, 0xBC, 0x62]).decode CodePage.windows1252
      [0x61, 0xC3, 0xBC, 0x62] = .ok ['a', 'ü', 'b'] := by
  have hkind : (Encoding.utf8 false).IsRecognizable ['a', 'ü', 'b'] := by
    constructor <;> decide
  exact ⟨hkind, rfl, (decode_detect_of_encode hkind rfl (by decide)).1⟩

/-! ## §4 The signature of UTF-7 -/

/-- Octets within ASCII have the signature of UTF-7 or none. -/
theorem ofSignature?_ascii {octets : List UInt8} (h : ∀ b ∈ octets, b < 0x80) :
    ofSignature? octets = if utf7Signature <+: octets then some .utf7 else none := by
  split
  · next hsig => exact ofSignature?_eq_some_iff.mpr ⟨by decide, hsig⟩
  · next hsig =>
    rw [Option.eq_none_iff_forall_ne_some]
    intro e he
    obtain ⟨hne, hbegins⟩ := ofSignature?_eq_some_iff.mp he
    have hascii : ∀ b ∈ e.signature, b < 0x80 := fun b hb => h b (hbegins.subset hb)
    rcases signature_cases hne with rfl | rfl | hoctet
    · exact hsig hbegins
    · exact absurd (hascii 0xEF (by decide)) (by decide)
    · exact absurd (hascii 0xFE hoctet) (by decide)

theorem detect_of_utf7Signature (page : CodePage) {octets : List UInt8}
    (hlength : 4 ≤ octets.length) (hsig : utf7Signature <+: octets) :
    ofSignature? octets = some .utf7 ∧ detect page octets = .utf7 := by
  have hfound : ofSignature? octets = some .utf7 := ofSignature?_eq_some_iff.mpr ⟨by decide, hsig⟩
  refine ⟨hfound, ?_⟩
  rw [← detectFile_some]
  exact detectFile_of_signature hlength hfound

/-- A text in UTF-7 is known by its signature exactly if it begins with a character from U+FEF0 to
U+FEFF, and has no signature otherwise.  A file that begins with the signature, if it is read at
all, is long enough to be detected by it; and whatever text it is given that begins with the same
character as before, it is again long enough and detected as UTF-7. -/
theorem utf7_signature_survives (page : CodePage) :
    (∀ text, (ofSignature? (Utf7.encode text) = some .utf7 ↔
        ∃ c rest, text = c :: rest ∧ Utf7.IsSignature c) ∧
      (ofSignature? (Utf7.encode text) ≠ some .utf7 → ofSignature? (Utf7.encode text) = none)) ∧
    ∀ octets text, utf7Signature <+: octets → Utf7.decode octets = .ok text →
      4 ≤ octets.length ∧ detect page octets = .utf7 ∧
      ∀ text', text'.head? = text.head? →
        4 ≤ (Utf7.encode text').length ∧ ofSignature? (Utf7.encode text') = some .utf7 ∧
          detect page (Utf7.encode text') = .utf7 := by
  refine ⟨fun text => ?_, fun octets text hsig hread => ?_⟩
  · have hascii := Utf7.ascii_of_decodeUnits (Utf7.decodeUnits_encode text)
    rw [ofSignature?_ascii hascii, ← Utf7.signature_prefix_encode_iff]
    split <;> simp [*]
  · have hlong := Utf7.length_of_signature hsig hread
    refine ⟨hlong, (detect_of_utf7Signature page hlong hsig).2, fun text' hhead => ?_⟩
    obtain ⟨c, rest, rfl, hc⟩ := Utf7.signature_of_decode hsig hread
    obtain ⟨rest', rfl⟩ := List.head?_eq_some_iff.mp hhead
    obtain ⟨hkept, hlength⟩ := Utf7.signature_of_encode hc rest'
    exact ⟨hlength, detect_of_utf7Signature page hlength hkept⟩

end MarkerBlock.Encoding
