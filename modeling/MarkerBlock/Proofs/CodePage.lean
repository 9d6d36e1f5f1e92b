/-
MarkerBlock.Proofs.CodePage — a code page reads and writes without loss.

What makes a row a code page, `Row.wellFormed`, is enough: an octet is read as a
character exactly when the character is written as that octet
(`charOf_eq_some_iff`), and so for texts (`decode_eq_some_iff`).  The lower half
is ASCII; in the upper half the place of a code point in the row is the octet,
because no code point has two places (`idxOf?_eq_some`).
-/
import MarkerBlock.CodePage.Labels
import MarkerBlock.Proofs.Encoding.Scalar

namespace MarkerBlock

open MarkerBlock.Encoding (toNat_ofNat toNat_ofNat_octet toNat_octet ofNat_octet octet_ofNat)

/-! ## §1 Rows -/

namespace Row

theorem lacks_iff {n : Nat} {row : Row} : row.lacks n = true ↔ n ∉ row := by
  induction row with
  | nil => simp [lacks]
  | cons m rest ih =>
    rw [lacks, Bool.and_eq_true, ih, Bool.not_eq_true', ← Bool.not_eq_true, Nat.beq_eq,
      List.mem_cons, not_or]

/-- An assigned code point is found at its one place. -/
theorem idxOf?_eq_some {row : Row} (hinj : row.injective = true) {i n : Nat} (hn : n ≠ 0)
    (hi : row[i]? = some n) : row.idxOf? n = some i := by
  induction row generalizing i with
  | nil => simp at hi
  | cons m rest ih =>
    simp only [injective, Bool.and_eq_true, Bool.or_eq_true, lacks_iff, Nat.beq_eq] at hinj
    rw [List.idxOf?_cons]
    cases i with
    | zero =>
      have hm : m = n := by simpa using hi
      simp [hm]
    | succ i =>
      have hi' : rest[i]? = some n := by simpa using hi
      have hmem : n ∈ rest := List.mem_of_getElem? hi'
      have hne : m ≠ n := by
        rintro rfl
        exact hinj.1.elim hn (fun h => h hmem)
      simp [hne, ih hinj.2 hi']

/-- Where a code point is found, it stands. -/
theorem getElem?_of_idxOf? {row : Row} {i n : Nat} (h : row.idxOf? n = some i) :
    row[i]? = some n := by
  induction row generalizing i with
  | nil => simp at h
  | cons m rest ih =>
    rw [List.idxOf?_cons] at h
    split at h
    · next hm =>
      cases h
      simpa using hm
    · obtain ⟨j, hj, rfl⟩ := Option.map_eq_some_iff.mp h
      simpa using ih hj

theorem isEntry_iff {n : Nat} :
    isEntry n = true ↔ n = 0 ∨ 0x80 ≤ n ∧ n < 0xD800 ∨ 0xE000 ≤ n ∧ n < 0x110000 := by
  simp only [isEntry, Bool.or_eq_true, Bool.and_eq_true, Nat.beq_eq, Nat.ble_eq]
  omega

end Row

namespace CodePage

theorem length_row (page : CodePage) : page.row.length = 128 := by
  have h := page.wellFormed
  simp only [Row.wellFormed, Bool.and_eq_true, Nat.beq_eq] at h
  exact h.1.1

theorem injective_row (page : CodePage) : page.row.injective = true := by
  have h := page.wellFormed
  simp only [Row.wellFormed, Bool.and_eq_true] at h
  exact h.2

/-- An assigned entry is a scalar value above ASCII. -/
theorem entry_range (page : CodePage) {i n : Nat} (hi : page.row[i]? = some n) (hn : n ≠ 0) :
    0x80 ≤ n ∧ (n < 0xD800 ∨ 0xDFFF < n ∧ n < 0x110000) := by
  have h := page.wellFormed
  simp only [Row.wellFormed, Bool.and_eq_true, List.all_eq_true] at h
  have hentry := Row.isEntry_iff.mp (h.1.2 n (List.mem_of_getElem? hi))
  omega

/-! ## §2 One octet, one character -/

/-- An octet is read as a character exactly when the character is written as that
octet. -/
theorem charOf_eq_some_iff {page : CodePage} {b : UInt8} {c : Char} :
    page.charOf b = some c ↔ page.octetOf c = some b := by
  have hb := b.toNat_lt
  constructor
  · intro h
    rw [charOf] at h
    split at h
    · next hlt =>
      cases h
      have hlt' : b.toNat < 0x80 := hlt
      rw [octetOf, if_pos (by rw [toNat_ofNat_octet]; exact hlt'), octet_ofNat]
    · next hge =>
      have hge' : 0x80 ≤ b.toNat := Nat.not_lt.mp hge
      split at h
      · next n hn =>
        split at h
        · cases h
        · next hne =>
          cases h
          obtain ⟨hlow, hscalar⟩ := page.entry_range hn hne
          have hi := Row.idxOf?_eq_some page.injective_row hne hn
          rw [octetOf, toNat_ofNat hscalar, if_neg (by omega), hi, Option.map_some,
            show 0x80 + (b.toNat - 0x80) = b.toNat by omega, UInt8.ofNat_toNat]
      · cases h
  · intro h
    rw [octetOf] at h
    split at h
    · next hlt =>
      cases h
      have hlt' : UInt8.ofNat c.toNat < 0x80 := by
        rw [UInt8.lt_iff_toNat_lt, toNat_octet (by omega)]; exact hlt
      rw [charOf, if_pos hlt', ofNat_octet (by omega)]
    · next hge =>
      obtain ⟨i, hi, rfl⟩ := Option.map_eq_some_iff.mp h
      have hrow := Row.getElem?_of_idxOf? hi
      have hlt : i < 128 := by
        rw [← page.length_row]
        exact (List.getElem?_eq_some_iff.mp hrow).1
      have hoctet : (UInt8.ofNat (0x80 + i)).toNat = 0x80 + i := by
        rw [UInt8.toNat_ofNat']; omega
      have hge' : ¬ UInt8.ofNat (0x80 + i) < 0x80 := by
        rw [UInt8.lt_iff_toNat_lt, hoctet]; simp
      rw [charOf, if_neg hge', hoctet, Nat.add_sub_cancel_left, hrow]
      simp [show c.toNat ≠ 0 by omega]

/-- ASCII is written as itself. -/
theorem octetOf_ascii (page : CodePage) {c : Char} (h : c.toNat < 0x80) :
    page.octetOf c = some (UInt8.ofNat c.toNat) := by
  rw [octetOf, if_pos h]

/-! ## §3 Text -/

theorem decode_cons_eq_some_iff {page : CodePage} {b : UInt8} {octets : List UInt8}
    {text : List Char} :
    page.decode (b :: octets) = some text ↔
      ∃ c rest, page.charOf b = some c ∧ page.decode octets = some rest ∧ text = c :: rest := by
  rw [decode, List.mapM_cons]
  simp only [Option.bind_eq_bind, Option.bind_eq_some_iff, Option.pure_def, Option.some.injEq]
  constructor
  · rintro ⟨c, hc, rest, hrest, rfl⟩
    exact ⟨c, rest, hc, hrest, rfl⟩
  · rintro ⟨c, rest, hc, hrest, rfl⟩
    exact ⟨c, hc, rest, hrest, rfl⟩

/-- Every octet is one character. -/
theorem length_of_decode {page : CodePage} {octets : List UInt8} {text : List Char}
    (h : page.decode octets = some text) : text.length = octets.length := by
  induction octets generalizing text with
  | nil =>
    cases h
    rfl
  | cons b octets ih =>
    obtain ⟨c, rest, -, hrest, rfl⟩ := decode_cons_eq_some_iff.mp h
    rw [List.length_cons, List.length_cons, ih hrest]

theorem encode_cons (page : CodePage) (c : Char) (text : List Char) :
    page.encode (c :: text) =
      match page.octetOf c with
      | some b => (page.encode text).map (b :: ·)
      | none => .error c := by
  rw [encode, List.mapM_cons]
  cases page.octetOf c with
  | none => rfl
  | some b => rfl

theorem encode_cons_eq_ok_iff {page : CodePage} {c : Char} {text : List Char}
    {octets : List UInt8} :
    page.encode (c :: text) = .ok octets ↔
      ∃ b rest, page.octetOf c = some b ∧ page.encode text = .ok rest ∧ octets = b :: rest := by
  rw [encode_cons]
  cases hc : page.octetOf c with
  | none => simp
  | some b =>
    cases ht : page.encode text with
    | error e => simp [Except.map]
    | ok rest => simp [Except.map, eq_comm]

/-- Octets are read as the text they are written for, and not otherwise. -/
theorem decode_eq_some_iff {page : CodePage} {octets : List UInt8} {text : List Char} :
    page.decode octets = some text ↔ page.encode text = .ok octets := by
  induction octets generalizing text with
  | nil =>
    cases text with
    | nil => simp [decode, encode, pure, Except.pure]
    | cons c text => simp [decode, encode_cons_eq_ok_iff]
  | cons b octets ih =>
    rw [decode_cons_eq_some_iff]
    cases text with
    | nil => simp [encode, pure, Except.pure]
    | cons c text =>
      rw [encode_cons_eq_ok_iff]
      constructor
      · rintro ⟨c', rest, hc, hrest, heq⟩
        cases heq
        exact ⟨b, octets, charOf_eq_some_iff.mp hc, ih.mp hrest, rfl⟩
      · rintro ⟨b', rest, hc, hrest, heq⟩
        cases heq
        exact ⟨c, text, charOf_eq_some_iff.mpr hc, ih.mpr hrest, rfl⟩

theorem encode_append_eq_ok_iff {page : CodePage} {x y : List Char} {octets : List UInt8} :
    page.encode (x ++ y) = .ok octets ↔
      ∃ a b, page.encode x = .ok a ∧ page.encode y = .ok b ∧ octets = a ++ b := by
  induction x generalizing octets with
  | nil => simp [encode, pure, Except.pure, eq_comm]
  | cons c x ih =>
    rw [List.cons_append, encode_cons_eq_ok_iff]
    constructor
    · rintro ⟨b, rest, hc, hrest, rfl⟩
      obtain ⟨a', b', ha, hb, rfl⟩ := ih.mp hrest
      exact ⟨b :: a', b', encode_cons_eq_ok_iff.mpr ⟨b, a', hc, ha, rfl⟩, hb, rfl⟩
    · rintro ⟨a, b', ha, hb, rfl⟩
      obtain ⟨b, rest, hc, hrest, rfl⟩ := encode_cons_eq_ok_iff.mp ha
      exact ⟨b, rest ++ b', hc, ih.mpr ⟨rest, b', hrest, hb, rfl⟩, rfl⟩

/-- ASCII text is written as itself. -/
theorem encode_ascii (page : CodePage) {text : List Char} (h : ∀ c ∈ text, c.toNat < 0x80) :
    page.encode text = .ok (text.map fun c => UInt8.ofNat c.toNat) := by
  induction text with
  | nil => rfl
  | cons c text ih =>
    rw [encode_cons, page.octetOf_ascii (h c List.mem_cons_self),
      ih fun d hd => h d (List.mem_cons_of_mem c hd)]
    rfl

/-! ## §4 Registration -/

/-- The first label that names a page registers this page. -/
theorem register_first {label : String} {page : CodePage} (h : ofLabel? label = some page) :
    (register none (some label)).1 = .ok page := by
  simp [register, h]

theorem ofLabel?_defaultLabel : ∃ page, ofLabel? defaultLabel = some page := by
  have hcanonical : canonicalLabel defaultLabel = defaultLabel := by decide
  have hlisted : (labels.find? fun entry => entry.2.contains defaultLabel).isSome = true := by
    rw [List.find?_isSome]
    decide
  obtain ⟨entry, hentry⟩ := Option.isSome_iff_exists.mp hlisted
  exact ⟨entry.1, by rw [ofLabel?, hcanonical, hentry, Option.map_some]⟩

end CodePage

end MarkerBlock
