/-
MarkerBlock.Proofs.Encoding.Utf8 — what the scan of UTF-8 does.

§1–§4 are about any octets.  They may be cut wherever no unfinished sequence goes
on: the pieces of the two sides are the pieces of the whole (`pieces_append`).  An
ASCII octet continues nothing and leaves nothing unfinished, so there is such a
break on either side of it (`BesideAscii.isBreak`), and the number of characters a
replacing reader sees is additive there (`count_append_ascii`).  And nothing is lost
in the pieces; the invariant is `Unfinished`, which says what may be pending
between two octets.

§5 is about text: the strict reader reads octets as the text they are written for,
and not otherwise (`decode_eq_ok_iff`).
-/
import MarkerBlock.Encoding.Utf8
import MarkerBlock.Proofs.Encoding.Scalar

namespace MarkerBlock.Encoding.Utf8

/-! ## §1 Octet classes as numbers -/

theorem isContinuation_iff (b : UInt8) :
    isContinuation b = true ↔ 0x80 ≤ b.toNat ∧ b.toNat ≤ 0xBF := by
  simp [isContinuation, UInt8.le_iff_toNat_le]

theorem admitsSecond_iff (lead b : UInt8) :
    admitsSecond lead b = true ↔
      (0x80 ≤ b.toNat ∧ b.toNat ≤ 0xBF) ∧
        (lead.toNat = 0xE0 → 0xA0 ≤ b.toNat) ∧ (lead.toNat = 0xED → b.toNat ≤ 0x9F) ∧
        (lead.toNat = 0xF0 → 0x90 ≤ b.toNat) ∧ (lead.toNat = 0xF4 → b.toNat ≤ 0x8F) := by
  simp only [admitsSecond, isContinuation, ← UInt8.toNat_inj, UInt8.reduceToNat]
  split_ifs <;> simp [UInt8.le_iff_toNat_le] <;> omega

/-- The width of a sequence, by the number of its lead octet. -/
theorem width_spec (lead : UInt8) :
    (width lead = 1 ↔ lead.toNat < 0x80) ∧
      (width lead = 2 ↔ 0xC2 ≤ lead.toNat ∧ lead.toNat < 0xE0) ∧
      (width lead = 3 ↔ 0xE0 ≤ lead.toNat ∧ lead.toNat < 0xF0) ∧
      (width lead = 4 ↔ 0xF0 ≤ lead.toNat ∧ lead.toNat < 0xF5) ∧ width lead ≤ 4 := by
  simp only [width, UInt8.lt_iff_toNat_lt, UInt8.reduceToNat]
  split_ifs <;> simp <;> omega

theorem width_ascii {b : UInt8} (h : b < 0x80) : width b = 1 := by
  rw [width, if_pos h]

/-- Only a continuation octet goes on with a sequence. -/
theorem isContinuation_of_continues {pending : List UInt8} {b : UInt8}
    (h : continues pending b = true) : isContinuation b = true := by
  rcases pending with _ | ⟨lead, _ | ⟨second, more⟩⟩
  · cases h
  · rw [continues, admitsSecond_iff] at h
    rw [isContinuation_iff]
    omega
  · exact h

/-- An ASCII octet continues nothing. -/
theorem continues_ascii {b : UInt8} (h : b < 0x80) (pending : List UInt8) :
    continues pending b = false := by
  have hb : b.toNat < 0x80 := h
  rw [← Bool.not_eq_true]
  intro hcont
  have hrange := (isContinuation_iff _).mp (isContinuation_of_continues hcont)
  omega

/-! ## §2 The scan -/

/-- A scan with `earlier` pieces read before its own. -/
def Scan.onto (s : Scan) (earlier : List Piece) : Scan :=
  { s with pieces := s.pieces ++ earlier }

theorem openWith_onto (ps earlier : List Piece) (b : UInt8) :
    Scan.openWith (ps ++ earlier) b = (Scan.openWith ps b).onto earlier := by
  unfold Scan.openWith Scan.onto
  split <;> rfl

theorem push_onto (s : Scan) (earlier : List Piece) (b : UInt8) :
    (s.onto earlier).push b = (s.push b).onto earlier := by
  obtain ⟨pending, ps⟩ := s
  cases pending with
  | nil => exact openWith_onto ps earlier b
  | cons lead more =>
    simp only [Scan.onto, Scan.push]
    split
    · split <;> rfl
    · exact openWith_onto (.malformed (lead :: more) :: ps) earlier b

theorem foldl_push_onto (s : Scan) (earlier : List Piece) (octets : List UInt8) :
    octets.foldl Scan.push (s.onto earlier) = (octets.foldl Scan.push s).onto earlier := by
  induction octets generalizing s with
  | nil => rfl
  | cons b rest ih => rw [List.foldl_cons, List.foldl_cons, push_onto, ih]

theorem finish_onto (s : Scan) (earlier : List Piece) :
    (s.onto earlier).finish = earlier.reverse ++ s.finish := by
  obtain ⟨pending, ps⟩ := s
  cases pending <;> simp [Scan.onto, Scan.finish]

/-- An octet that does not go on with the unfinished sequence ends it and is read afresh. -/
theorem push_of_not_continues {s : Scan} {b : UInt8} (h : continues s.pending b = false) :
    s.push b = Scan.openWith s.finish.reverse b := by
  obtain ⟨pending, ps⟩ := s
  cases pending with
  | nil => simp [Scan.push, Scan.finish]
  | cons lead more => simp [Scan.push, Scan.finish, h]

/-- An ASCII octet is read afresh: what was unfinished is over. -/
theorem push_ascii (s : Scan) {b : UInt8} (h : b < 0x80) :
    s.push b = { pieces := .scalar (Char.ofNat b.toNat) :: s.finish.reverse } := by
  rw [push_of_not_continues (continues_ascii h _), Scan.openWith, width_ascii h]
  rfl

/-! ## §3 Breaks -/

/-- No sequence that is unfinished where `front` ends goes on in `back`. -/
def IsBreak (front back : List UInt8) : Prop :=
  ∀ b ∈ back.head?, continues (front.foldl Scan.push {}).pending b = false

/-- A place at an end of the octets, or beside an ASCII octet.  Every line begins and ends at
such places. -/
def BesideAscii (front back : List UInt8) : Prop :=
  (∀ b ∈ front.getLast?, b < 0x80) ∨ ∀ b ∈ back.head?, b < 0x80

/-- The octets on the two sides of a break are cut as if they stood alone. -/
theorem pieces_append {front back : List UInt8} (h : IsBreak front back) :
    pieces (front ++ back) = pieces front ++ pieces back := by
  cases back with
  | nil => rw [List.append_nil, show pieces [] = [] from rfl, List.append_nil]
  | cons b rest =>
    have hpush : (front.foldl Scan.push {}).push b
        = (Scan.push {} b).onto (pieces front).reverse := by
      rw [push_of_not_continues (h b rfl)]
      exact openWith_onto [] (pieces front).reverse b
    rw [pieces, List.foldl_append, List.foldl_cons, hpush, foldl_push_onto, finish_onto,
      List.reverse_reverse]
    rfl

/-- No sequence goes on beside an ASCII octet: behind it nothing is unfinished, and it continues
nothing that is. -/
theorem BesideAscii.isBreak {front back : List UInt8} (h : BesideAscii front back) :
    IsBreak front back := by
  intro b hb
  rcases h with hfront | hback
  · rcases List.eq_nil_or_concat' front with rfl | ⟨init, a, rfl⟩
    · rfl
    · have ha : a < 0x80 := hfront a (by simp)
      rw [List.foldl_append, List.foldl_cons, List.foldl_nil, push_ascii _ ha]
      rfl
  · exact continues_ascii (hback b hb) _

theorem besideAscii_cons {b : UInt8} (h : b < 0x80) (front back : List UInt8) :
    BesideAscii front (b :: back) :=
  .inr (by simpa using h)

theorem besideAscii_concat {b : UInt8} (h : b < 0x80) (front back : List UInt8) :
    BesideAscii (front ++ [b]) back :=
  .inl (by simpa using h)

@[simp] theorem count_nil : count [] = 0 := rfl

/-- The number of characters a replacing reader sees is additive at a break. -/
theorem count_append {front back : List UInt8} (h : IsBreak front back) :
    count (front ++ back) = count front + count back := by
  rw [count, pieces_append h, List.length_append, count, count]

/-- An ASCII octet is a character of its own. -/
theorem count_ascii {b : UInt8} (h : b < 0x80) : count [b] = 1 := by
  rw [count, pieces, List.foldl_cons, push_ascii _ h]
  rfl

theorem count_cons_ascii (ys : List UInt8) {b : UInt8} (h : b < 0x80) :
    count (b :: ys) = 1 + count ys := by
  have hbreak : IsBreak [b] ys := (besideAscii_concat h [] ys).isBreak
  rw [← List.singleton_append, count_append hbreak, count_ascii h]

/-- The number of characters a replacing reader sees is additive at ASCII. -/
theorem count_append_ascii (xs ys : List UInt8) {b : UInt8} (h : b < 0x80) :
    count (xs ++ b :: ys) = count xs + 1 + count ys := by
  rw [count_append (besideAscii_cons h xs ys).isBreak, count_cons_ascii ys h, Nat.add_assoc]

/-- ASCII octets are as many characters in UTF-8. -/
theorem count_ascii_append {x : List UInt8} (h : ∀ b ∈ x, b < 0x80) (rest : List UInt8) :
    count (x ++ rest) = x.length + count rest := by
  induction x with
  | nil => simp
  | cons b x ih =>
    rw [List.cons_append, count_cons_ascii _ (h b List.mem_cons_self),
      ih fun b hb => h b (List.mem_cons_of_mem _ hb), List.length_cons]
    omega

/-- ASCII octets that are put beside an ASCII octet, or at an end, are as many characters more. -/
theorem count_insert_ascii {front x back : List UInt8} (hx : ∀ b ∈ x, b < 0x80)
    (h : BesideAscii front back) :
    count (front ++ x ++ back) = count (front ++ back) + x.length := by
  cases x with
  | nil => rw [List.append_nil, List.length_nil, Nat.add_zero]
  | cons b x =>
    have hbreak : IsBreak front (b :: x ++ back) :=
      (besideAscii_cons (hx b List.mem_cons_self) front (x ++ back)).isBreak
    rw [List.append_assoc, count_append hbreak, count_ascii_append hx, count_append h.isBreak]
    omega

/-! ## §4 Nothing is lost -/

/-- The octets a piece was read from. -/
def Piece.octets : Piece → List UInt8
  | .scalar c => String.utf8EncodeChar c
  | .malformed octets => octets

/-- What may be pending: nothing, or the beginning of a sequence that is longer. -/
inductive Unfinished : List UInt8 → Prop
  | nil : Unfinished []
  | one {a : UInt8} : 2 ≤ width a → Unfinished [a]
  | two {a b : UInt8} : 3 ≤ width a → admitsSecond a b = true → Unfinished [a, b]
  | three {a b c : UInt8} : 4 ≤ width a → admitsSecond a b = true → isContinuation c = true →
      Unfinished [a, b, c]

theorem utf8EncodeChar_ofNat_octet {b : UInt8} (h : width b = 1) :
    String.utf8EncodeChar (Char.ofNat b.toNat) = [b] := by
  have hb := (width_spec b).1.mp h
  have hn : (Char.ofNat b.toNat).val.toNat = b.toNat := toNat_ofNat_octet b
  simp only [String.utf8EncodeChar, hn]
  rw [if_pos (by omega), UInt8.ofNat_toNat]

theorem utf8EncodeChar_codePoint_two {a b : UInt8} (ha : width a = 2)
    (hb : admitsSecond a b = true) :
    String.utf8EncodeChar (Char.ofNat (codePoint [a, b])) = [a, b] := by
  have hp : codePoint [a, b] = a.toNat % 32 * 64 + b.toNat % 64 := rfl
  rw [admitsSecond_iff] at hb
  have hlead := (width_spec a).2.1.mp ha
  have hn : (Char.ofNat (codePoint [a, b])).val.toNat = codePoint [a, b] := toNat_ofNat (by omega)
  simp only [String.utf8EncodeChar, hn]
  rw [if_neg (by omega), if_pos (by omega)]
  simp only [List.cons.injEq, and_true, ← UInt8.toNat_inj, UInt8.toNat_ofNat']
  omega

theorem utf8EncodeChar_codePoint_three {a b c : UInt8} (ha : width a = 3)
    (hb : admitsSecond a b = true) (hc : isContinuation c = true) :
    String.utf8EncodeChar (Char.ofNat (codePoint [a, b, c])) = [a, b, c] := by
  have hp : codePoint [a, b, c] = (a.toNat % 16 * 64 + b.toNat % 64) * 64 + c.toNat % 64 := rfl
  rw [admitsSecond_iff] at hb
  rw [isContinuation_iff] at hc
  have hlead := (width_spec a).2.2.1.mp ha
  have hn : (Char.ofNat (codePoint [a, b, c])).val.toNat = codePoint [a, b, c] :=
    toNat_ofNat (by omega)
  simp only [String.utf8EncodeChar, hn]
  rw [if_neg (by omega), if_neg (by omega), if_pos (by omega)]
  simp only [List.cons.injEq, and_true, ← UInt8.toNat_inj, UInt8.toNat_ofNat']
  omega

theorem utf8EncodeChar_codePoint_four {a b c d : UInt8} (ha : width a = 4)
    (hb : admitsSecond a b = true) (hc : isContinuation c = true)
    (hd : isContinuation d = true) :
    String.utf8EncodeChar (Char.ofNat (codePoint [a, b, c, d])) = [a, b, c, d] := by
  have hp : codePoint [a, b, c, d]
      = ((a.toNat % 8 * 64 + b.toNat % 64) * 64 + c.toNat % 64) * 64 + d.toNat % 64 := rfl
  rw [admitsSecond_iff] at hb
  rw [isContinuation_iff] at hc hd
  have hlead := (width_spec a).2.2.2.1.mp ha
  have hn : (Char.ofNat (codePoint [a, b, c, d])).val.toNat = codePoint [a, b, c, d] :=
    toNat_ofNat (by omega)
  simp only [String.utf8EncodeChar, hn]
  rw [if_neg (by omega), if_neg (by omega), if_neg (by omega)]
  simp only [List.cons.injEq, and_true, ← UInt8.toNat_inj, UInt8.toNat_ofNat']
  omega

/-- The octets a scan has read: those of its pieces, and the pending ones. -/
def Scan.consumed (s : Scan) : List UInt8 := s.pieces.reverse.flatMap Piece.octets ++ s.pending

theorem openWith_consumed (ps : List Piece) (b : UInt8) :
    (Scan.openWith ps b).consumed = ps.reverse.flatMap Piece.octets ++ [b] ∧
      Unfinished (Scan.openWith ps b).pending := by
  unfold Scan.openWith
  split
  · exact ⟨by simp [Scan.consumed, Piece.octets], .nil⟩
  · next h => exact ⟨by simp [Scan.consumed, Piece.octets, utf8EncodeChar_ofNat_octet h], .nil⟩
  · next h0 h1 =>
    have hw : 2 ≤ width b := by
      have h0' : width b ≠ 0 := h0
      have h1' : width b ≠ 1 := h1
      omega
    exact ⟨by simp [Scan.consumed], .one hw⟩

/-- One octet more is read, and nothing is lost. -/
theorem push_consumed {s : Scan} (hs : Unfinished s.pending) (b : UInt8) :
    (s.push b).consumed = s.consumed ++ [b] ∧ Unfinished (s.push b).pending := by
  obtain ⟨pending, ps⟩ := s
  simp only at hs
  cases pending with
  | nil =>
    obtain ⟨hc, hu⟩ := openWith_consumed ps b
    exact ⟨by simpa [Scan.push, Scan.consumed] using hc, hu⟩
  | cons lead more =>
    simp only [Scan.push]
    split
    · next hcont =>
      -- the octet continues the sequence, which may now be complete
      have hle := (width_spec lead).2.2.2.2
      cases hs with
      | one hw =>
        split
        · next hlen =>
          have h2 : width lead = 2 := by simpa using hlen.symm
          exact ⟨by simp [Scan.consumed, Piece.octets, utf8EncodeChar_codePoint_two h2 hcont],
            .nil⟩
        · next hlen =>
          have h2 : width lead ≠ 2 := fun h => hlen (by simp [h])
          exact ⟨by simp [Scan.consumed], .two (by omega) hcont⟩
      | two hw hb =>
        split
        · next hlen =>
          have h3 : width lead = 3 := by simpa using hlen.symm
          exact ⟨by simp [Scan.consumed, Piece.octets,
            utf8EncodeChar_codePoint_three h3 hb hcont], .nil⟩
        · next hlen =>
          have h3 : width lead ≠ 3 := fun h => hlen (by simp [h])
          exact ⟨by simp [Scan.consumed], .three (by omega) hb hcont⟩
      | three hw hb hc =>
        have h4 : width lead = 4 := by omega
        split
        · exact ⟨by simp [Scan.consumed, Piece.octets,
            utf8EncodeChar_codePoint_four h4 hb hc hcont], .nil⟩
        · next hlen => exact absurd (by simp [h4]) hlen
    · obtain ⟨hc, hu⟩ := openWith_consumed (.malformed (lead :: more) :: ps) b
      exact ⟨by simpa [Scan.consumed, Piece.octets] using hc, hu⟩

theorem foldl_push_consumed (octets : List UInt8) {s : Scan} (hs : Unfinished s.pending) :
    (octets.foldl Scan.push s).consumed = s.consumed ++ octets := by
  induction octets generalizing s with
  | nil => simp
  | cons b rest ih =>
    obtain ⟨hc, hu⟩ := push_consumed hs b
    rw [List.foldl_cons, ih hu, hc]
    simp

/-- The pieces of an octet string, put together, are the octet string. -/
theorem flatMap_octets_pieces (octets : List UInt8) :
    (pieces octets).flatMap Piece.octets = octets := by
  have hfinish (s : Scan) : s.finish.flatMap Piece.octets = s.consumed := by
    obtain ⟨pending, ps⟩ := s
    cases pending <;> simp [Scan.finish, Scan.consumed, Piece.octets]
  rw [pieces, hfinish, foldl_push_consumed octets .nil]
  rfl

/-! ## §5 Text -/

theorem push_lead (ps : List Piece) {a : UInt8} (h : 2 ≤ width a) :
    Scan.push { pieces := ps } a = { pending := [a], pieces := ps } := by
  simp only [Scan.push, Scan.openWith]
  split
  · omega
  · omega
  · rfl

/-- An octet that continues the sequence without completing it. -/
theorem push_inner (ps : List Piece) {lead b : UInt8} {more : List UInt8}
    (hcont : continues (lead :: more) b = true) (hlen : more.length + 2 < width lead) :
    Scan.push { pending := lead :: more, pieces := ps } b
      = { pending := lead :: (more ++ [b]), pieces := ps } := by
  simp only [Scan.push]
  rw [if_pos hcont, if_neg (by simp only [List.length_cons, List.length_append, List.length_nil]; omega)]

/-- An octet that completes the sequence. -/
theorem push_last (ps : List Piece) {lead b : UInt8} {more : List UInt8}
    (hcont : continues (lead :: more) b = true) (hlen : more.length + 2 = width lead) :
    Scan.push { pending := lead :: more, pieces := ps } b
      = { pieces := .scalar (Char.ofNat (codePoint (lead :: (more ++ [b])))) :: ps } := by
  simp only [Scan.push]
  rw [if_pos hcont, if_pos (by simp only [List.length_cons, List.length_append, List.length_nil]; omega)]

/-- A sequence of two octets is read as one piece. -/
theorem foldl_push_two (ps : List Piece) {a b : UInt8} (ha : width a = 2)
    (hb : admitsSecond a b = true) :
    [a, b].foldl Scan.push { pieces := ps }
      = { pieces := .scalar (Char.ofNat (codePoint [a, b])) :: ps } := by
  have h2 : continues [a] b = true := hb
  rw [List.foldl_cons, push_lead ps (by omega), List.foldl_cons, push_last ps h2 (by simp [ha])]
  rfl

/-- A sequence of three octets is read as one piece. -/
theorem foldl_push_three (ps : List Piece) {a b c : UInt8} (ha : width a = 3)
    (hb : admitsSecond a b = true) (hc : isContinuation c = true) :
    [a, b, c].foldl Scan.push { pieces := ps }
      = { pieces := .scalar (Char.ofNat (codePoint [a, b, c])) :: ps } := by
  have h2 : continues [a] b = true := hb
  have h3 : continues [a, b] c = true := hc
  rw [List.foldl_cons, push_lead ps (by omega), List.foldl_cons, push_inner ps h2 (by simp [ha]),
    List.foldl_cons, List.nil_append, push_last ps h3 (by simp [ha])]
  rfl

/-- A sequence of four octets is read as one piece. -/
theorem foldl_push_four (ps : List Piece) {a b c d : UInt8} (ha : width a = 4)
    (hb : admitsSecond a b = true) (hc : isContinuation c = true)
    (hd : isContinuation d = true) :
    [a, b, c, d].foldl Scan.push { pieces := ps }
      = { pieces := .scalar (Char.ofNat (codePoint [a, b, c, d])) :: ps } := by
  have h2 : continues [a] b = true := hb
  have h3 : continues [a, b] c = true := hc
  have h4 : continues [a, b, c] d = true := hd
  rw [List.foldl_cons, push_lead ps (by omega), List.foldl_cons, push_inner ps h2 (by simp [ha]),
    List.foldl_cons, List.nil_append, push_inner ps h3 (by simp [ha]), List.foldl_cons,
    List.singleton_append, push_last ps h4 (by simp [ha])]
  rfl

/-- The octets of a character are read as one piece. -/
theorem foldl_push_utf8EncodeChar (ps : List Piece) (c : Char) :
    (String.utf8EncodeChar c).foldl Scan.push { pieces := ps } = { pieces := .scalar c :: ps } := by
  have hrange : c.val.toNat < 0xD800 ∨ 0xDFFF < c.val.toNat ∧ c.val.toNat < 0x110000 := c.valid
  have hchar : Char.ofNat c.val.toNat = c := Char.ofNat_toNat c
  have hoctet {m : Nat} (h : m < 0x100) : (UInt8.ofNat m).toNat = m := by
    rw [UInt8.toNat_ofNat']; omega
  simp only [String.utf8EncodeChar]
  generalize c.val.toNat = n at hrange hchar
  split_ifs with h1 h2 h3
  · have ha : (UInt8.ofNat n).toNat = n := hoctet (by omega)
    have hlt : UInt8.ofNat n < 0x80 := by
      rw [UInt8.lt_iff_toNat_lt, ha]; exact Nat.lt_succ_of_le h1
    rw [List.foldl_cons, List.foldl_nil, push_ascii _ hlt, ha, hchar]
    simp [Scan.finish]
  · have ha := hoctet (m := n / 64 % 0x20 + 0xc0) (by omega)
    have hb := hoctet (m := n % 0x40 + 0x80) (by omega)
    generalize UInt8.ofNat (n / 64 % 0x20 + 0xc0) = a at ha ⊢
    generalize UInt8.ofNat (n % 0x40 + 0x80) = b at hb ⊢
    have hp : codePoint [a, b] = a.toNat % 32 * 64 + b.toNat % 64 := rfl
    rw [foldl_push_two ps ((width_spec a).2.1.mpr (by omega))
      ((admitsSecond_iff a b).mpr (by omega)), show codePoint [a, b] = n by omega, hchar]
  · have ha := hoctet (m := n / 4096 % 0x10 + 0xe0) (by omega)
    have hb := hoctet (m := n / 64 % 0x40 + 0x80) (by omega)
    have hc := hoctet (m := n % 0x40 + 0x80) (by omega)
    generalize UInt8.ofNat (n / 4096 % 0x10 + 0xe0) = a at ha ⊢
    generalize UInt8.ofNat (n / 64 % 0x40 + 0x80) = b at hb ⊢
    generalize UInt8.ofNat (n % 0x40 + 0x80) = c at hc ⊢
    have hp : codePoint [a, b, c]
        = (a.toNat % 16 * 64 + b.toNat % 64) * 64 + c.toNat % 64 := rfl
    rw [foldl_push_three ps ((width_spec a).2.2.1.mpr (by omega))
      ((admitsSecond_iff a b).mpr (by omega)) ((isContinuation_iff c).mpr (by omega)),
      show codePoint [a, b, c] = n by omega, hchar]
  · have ha := hoctet (m := n / 262144 % 0x08 + 0xf0) (by omega)
    have hb := hoctet (m := n / 4096 % 0x40 + 0x80) (by omega)
    have hc := hoctet (m := n / 64 % 0x40 + 0x80) (by omega)
    have hd := hoctet (m := n % 0x40 + 0x80) (by omega)
    generalize UInt8.ofNat (n / 262144 % 0x08 + 0xf0) = a at ha ⊢
    generalize UInt8.ofNat (n / 4096 % 0x40 + 0x80) = b at hb ⊢
    generalize UInt8.ofNat (n / 64 % 0x40 + 0x80) = c at hc ⊢
    generalize UInt8.ofNat (n % 0x40 + 0x80) = d at hd ⊢
    have hp : codePoint [a, b, c, d]
        = ((a.toNat % 8 * 64 + b.toNat % 64) * 64 + c.toNat % 64) * 64 + d.toNat % 64 := rfl
    rw [foldl_push_four ps ((width_spec a).2.2.2.1.mpr (by omega))
      ((admitsSecond_iff a b).mpr (by omega)) ((isContinuation_iff c).mpr (by omega))
      ((isContinuation_iff d).mpr (by omega)), show codePoint [a, b, c, d] = n by omega, hchar]

theorem foldl_push_encode (ps : List Piece) (text : List Char) :
    (encode text).foldl Scan.push { pieces := ps }
      = { pieces := (text.map Piece.scalar).reverse ++ ps } := by
  induction text generalizing ps with
  | nil => rfl
  | cons c text ih =>
    rw [encode, List.flatMap_cons, List.foldl_append, foldl_push_utf8EncodeChar]
    rw [← encode, ih]
    simp

theorem pieces_encode (text : List Char) : pieces (encode text) = text.map .scalar := by
  rw [pieces, foldl_push_encode]
  simp [Scan.finish]

theorem collect_eq_ok_iff {offset : Nat} {read out : List Char} {ps : List Piece} :
    collect offset read ps = .ok out ↔ ∃ text, out = read.reverse ++ text ∧ ps = text.map .scalar := by
  induction ps generalizing offset read with
  | nil => simp [collect, eq_comm]
  | cons p ps ih =>
    cases p with
    | scalar c =>
      rw [collect, ih]
      constructor
      · rintro ⟨text, rfl, rfl⟩
        exact ⟨c :: text, by simp, rfl⟩
      · rintro ⟨text, rfl, htext⟩
        cases text with
        | nil => simp at htext
        | cons d text =>
          simp only [List.map_cons, List.cons.injEq, Piece.scalar.injEq] at htext
          obtain ⟨rfl, rfl⟩ := htext
          exact ⟨text, by simp, rfl⟩
    | malformed octets =>
      constructor
      · intro h; cases h
      · rintro ⟨text, -, htext⟩
        cases text <;> simp at htext

@[simp] theorem encode_append (a b : List Char) : encode (a ++ b) = encode a ++ encode b :=
  List.flatMap_append

/-- No octet is larger than the first of a sequence of four, and one below 0x80 stands for the
character with its number alone. -/
theorem mem_utf8EncodeChar {c : Char} {b : UInt8} (h : b ∈ String.utf8EncodeChar c) :
    b.toNat ≤ 0xF7 ∧ (b.toNat < 0x80 → c = Char.ofNat b.toNat) := by
  simp only [String.utf8EncodeChar] at h
  -- in a sequence of several octets the top bit of every octet is set
  have hlarge {m : Nat} (hlow : 0x80 ≤ m) (hhigh : m ≤ 0xF7) (hb : b = UInt8.ofNat m) :
      b.toNat ≤ 0xF7 ∧ (b.toNat < 0x80 → c = Char.ofNat b.toNat) := by
    have hvalue : b.toNat = m := by
      rw [hb, UInt8.toNat_ofNat']
      omega
    exact ⟨by omega, fun hascii => by omega⟩
  split_ifs at h with h1 h2 h3
  · have hb : b = UInt8.ofNat c.val.toNat := by simpa using h
    have hvalue : b.toNat = c.toNat := by
      rw [hb, UInt8.toNat_ofNat']
      show c.val.toNat % 256 = c.val.toNat
      omega
    have hcode : c.toNat ≤ 0x7F := h1
    exact ⟨by omega, fun _ => by rw [hvalue, Char.ofNat_toNat]⟩
  all_goals simp only [List.mem_cons, List.not_mem_nil, or_false] at h
  · rcases h with hb | hb <;> exact hlarge (by omega) (by omega) hb
  · rcases h with hb | hb | hb <;> exact hlarge (by omega) (by omega) hb
  · rcases h with hb | hb | hb | hb <;> exact hlarge (by omega) (by omega) hb

/-- An ASCII character is one octet. -/
theorem encode_ascii {text : List Char} (h : ∀ c ∈ text, c.toNat < 0x80) :
    encode text = text.map fun c => UInt8.ofNat c.toNat := by
  induction text with
  | nil => rfl
  | cons c text ih =>
    have hc : c.val.toNat < 0x80 := h c List.mem_cons_self
    have hchar : String.utf8EncodeChar c = [UInt8.ofNat c.toNat] := by
      simp only [String.utf8EncodeChar]
      rw [if_pos (by omega)]
      rfl
    rw [← List.singleton_append, encode_append, ih fun d hd => h d (List.mem_cons_of_mem c hd)]
    simp [encode, hchar]

/-- Octets are read as the text they are written for, and not otherwise. -/
theorem decode_eq_ok_iff {octets : List UInt8} {text : List Char} :
    decode octets = .ok text ↔ encode text = octets := by
  rw [decode, collect_eq_ok_iff]
  constructor
  · rintro ⟨text', rfl, hpieces⟩
    rw [← flatMap_octets_pieces octets, hpieces]
    simp [encode, List.flatMap_map, Piece.octets]
  · rintro rfl
    exact ⟨text, by simp, pieces_encode text⟩

end MarkerBlock.Encoding.Utf8
