/-
MarkerBlock.Proofs.Glob.Literal — globs of characters that stand for themselves.

A text in which no character has a meaning of its own is read as its characters, and a `**/` before
it or a `/**` behind it as one token (`parse_framed`).  With both, the glob is carried out as a
regular expression, which may be too large; any other needs none (`method_framed`).

A glob without marks accepts the one path that is written like it (`accepts_literal_iff`), and the
marks let directories come before it and anything come below it (`accepts_framed_iff`).
-/
import Mathlib
import MarkerBlock.Glob.Limits
import MarkerBlock.Proofs.Encoding.Utf8
import MarkerBlock.Proofs.Glob.Meaning
import MarkerBlock.Proofs.Text

namespace MarkerBlock

namespace Glob

open Text

/-! ## §1 Reading -/

/-- A character that stands for itself in a glob. -/
def IsLiteral (c : Char) : Prop := c ∉ ['?', '*', '[', '\x7b', '\x7d', ',', '\x5c']

instance (c : Char) : Decidable (IsLiteral c) := inferInstanceAs (Decidable (c ∉ _))

/-- The glob of a text that stands for itself. -/
def literal (o : Options) (text : List Char) : Glob :=
  { options := o, tokens := text.map .literal }

/-- A text, with `**/` before it and `/**` behind it where they are asked for. -/
def framedText (anywhere deep : Bool) (text : List Char) : List Char :=
  (if anywhere then ['*', '*', '/'] else []) ++ text ++ (if deep then ['/', '*', '*'] else [])

/-- The glob of a text that stands for itself, with directories before it and anything below it where
they are asked for. -/
def framed (o : Options) (anywhere deep : Bool) (text : List Char) : Glob :=
  { options := o
    tokens := (if anywhere then [.leadingDirectories] else []) ++ text.map .literal ++
      (if deep then [.everythingBelow] else []) }

/-- A reader after some more characters that stand for themselves. -/
def Reader.pushText (r : Reader) (text : List Char) : Reader :=
  text.foldl (fun r c => { r with previous := some c }.push (.literal c)) r

theorem Reader.pushText_current (r : Reader) (text : List Char) :
    (r.pushText text).frame.current = (text.map .literal).reverse ++ r.frame.current := by
  induction text generalizing r with
  | nil => rfl
  | cons c text ih =>
    rw [List.map_cons, List.reverse_cons, List.append_assoc]
    exact ih _

theorem Reader.pushText_outer (r : Reader) (text : List Char) : (r.pushText text).outer = r.outer := by
  induction text generalizing r with
  | nil => rfl
  | cons c text ih => exact ih _

theorem readTokens_append {text : List Char} (h : ∀ c ∈ text, IsLiteral c) (o : Options) (r : Reader)
    (rest : List Char) : readTokens o r (text ++ rest) = readTokens o (r.pushText text) rest := by
  induction text generalizing r with
  | nil => rfl
  | cons c text ih =>
    have hc := h c List.mem_cons_self
    simp only [IsLiteral, List.mem_cons, List.not_mem_nil, or_false, not_or] at hc
    obtain ⟨hone, hrun, hclass, hopen, hclose, hcomma, hescape⟩ := hc
    rw [List.cons_append, readTokens.eq_def]
    simp only [hone, hrun, hclass, hopen, hclose, hcomma, hescape, if_false, decide_false,
      Bool.false_and, Bool.false_eq_true]
    exact ih (fun d hd => h d (List.mem_cons_of_mem c hd)) _

theorem readTokens_nil (o : Options) {r : Reader} (hr : r.outer = []) :
    readTokens o r [] = .ok r.frame.current.reverse := by
  rw [readTokens, Reader.finish, Reader.inGroup, hr]
  rfl

theorem readTokens_anywhere (o : Options) (rest : List Char) :
    readTokens o {} (['*', '*', '/'] ++ rest) =
      readTokens o { frame := { current := [.leadingDirectories] }, previous := some '/' } rest := by
  rw [List.cons_append, readTokens.eq_def]
  rfl

theorem readTokens_deep (o : Options) {r : Reader} (hr : r.outer = []) :
    readTokens o (r.pushText ['/']) ['*', '*'] =
      .ok (r.frame.current.reverse ++ [.everythingBelow]) := by
  obtain ⟨frame, outer, previous, foundUnclosed⟩ := r
  subst hr
  rw [readTokens.eq_def]
  have hend : readTokens o
      { frame := { frame with current := .everythingBelow :: frame.current }
        outer := [], previous := some '*', foundUnclosed } [] =
      .ok (.everythingBelow :: frame.current).reverse := readTokens_nil o rfl
  rw [List.reverse_cons] at hend
  exact hend

/-- A text without marks is read as its characters, the marks around it as a token each. -/
theorem parse_framed {text : List Char} (h : ∀ c ∈ text, IsLiteral c) (o : Options)
    (anywhere deep : Bool) :
    parse o (framedText anywhere deep text) = .ok (framed o anywhere deep text) := by
  -- the reader that comes to the text has read nothing, or the directories before it
  have hread (r : Reader) (hr : r.outer = []) :
      readTokens o r (text ++ if deep then ['/', '*', '*'] else []) =
        .ok (r.frame.current.reverse ++ text.map .literal ++
          if deep then [.everythingBelow] else []) := by
    have houter : (r.pushText text).outer = [] := by rw [Reader.pushText_outer, hr]
    have htokens : (r.pushText text).frame.current.reverse =
        r.frame.current.reverse ++ text.map .literal := by
      rw [Reader.pushText_current, List.reverse_append, List.reverse_reverse]
    rw [readTokens_append h]
    cases deep with
    | false =>
      rw [if_neg Bool.false_ne_true, if_neg Bool.false_ne_true, readTokens_nil o houter, htokens,
        List.append_nil]
    | true =>
      have hslash : ∀ c ∈ ['/'], IsLiteral c := by simp [IsLiteral]
      rw [if_pos rfl, if_pos rfl, ← htokens, ← readTokens_deep o houter]
      exact readTokens_append hslash o _ ['*', '*']
  have htokens : readTokens o {} (framedText anywhere deep text) =
      .ok (framed o anywhere deep text).tokens := by
    rw [framedText, List.append_assoc]
    cases anywhere with
    | false => exact hread {} rfl
    | true => exact (readTokens_anywhere o _).trans (hread _ rfl)
  rw [parse, htokens]
  rfl

/-- A text without marks is read as its characters. -/
theorem parse_literal {text : List Char} (h : ∀ c ∈ text, IsLiteral c) (o : Options) :
    parse o text = .ok (literal o text) := by
  have hframed := parse_framed h o false false
  simpa only [framedText, framed, literal, Bool.false_eq_true, if_false, List.nil_append,
    List.append_nil] using hframed

/-! ## §2 Carrying out -/

theorem mapM_literal (text : List Char) :
    (text.map Token.literal).mapM Token.literal? = some text := by
  induction text with
  | nil => rfl
  | cons c text ih => simp [Token.literal?, ih]

theorem mapM_literal_append (text : List Char) {t : Token} (ht : t.literal? = none) :
    (text.map Token.literal ++ [t]).mapM Token.literal? = none := by
  rw [List.mapM_append, mapM_literal]
  simp [ht]

theorem literalText?_cons (c : Char) (text : List Char) :
    literalText? ((c :: text).map Token.literal) = some (c :: text) := mapM_literal (c :: text)

section

variable (o : Options) {text : List Char} (hne : text ≠ [])
include hne

theorem methodOf_literal : methodOf o (text.map .literal) = .text := by
  obtain ⟨c, rest, rfl⟩ := List.exists_cons_of_ne_nil hne
  have hname : lastName? ((c :: rest).map .literal) = none := rfl
  rw [methodOf, hname]
  simp only [literalText?_cons, Option.isSome_some, if_true]

theorem methodOf_deep : methodOf o (text.map .literal ++ [.everythingBelow]) = .text := by
  obtain ⟨c, rest, rfl⟩ := List.exists_cons_of_ne_nil hne
  have htext : literalText? ((c :: rest).map .literal ++ [.everythingBelow]) = none :=
    mapM_literal_append (c :: rest) rfl
  have hname : lastName? ((c :: rest).map .literal ++ [.everythingBelow]) = none := rfl
  have hextension : isExtension o ((c :: rest).map .literal ++ [.everythingBelow]) = false := rfl
  have hbeginning : isBeginning o ((c :: rest).map .literal ++ [.everythingBelow]) = true := by
    rw [isBeginning, List.getLast?_concat, List.dropLast_concat]
    simp only [mapM_literal, Option.isSome_some]
  rw [methodOf, hname]
  simp only [htext, hextension, hbeginning, Option.isSome_none, Bool.false_eq_true, if_false,
    Bool.true_or, if_true]

theorem methodOf_anywhere : methodOf o (.leadingDirectories :: text.map .literal) =
    if '/' ∈ text then .text else .name text := by
  obtain ⟨c, rest, rfl⟩ := List.exists_cons_of_ne_nil hne
  have hname : lastName? (.leadingDirectories :: (c :: rest).map .literal) =
      (some (c :: rest)).filter (!·.contains '/') := by
    rw [lastName?, literalText?_cons]
  have htext : literalText? (.leadingDirectories :: (c :: rest).map .literal) = none := rfl
  have hextension : isExtension o (.leadingDirectories :: (c :: rest).map .literal) = false := rfl
  have hend : isEnd o (.leadingDirectories :: (c :: rest).map .literal) = true :=
    congrArg Option.isSome (literalText?_cons c rest)
  rw [methodOf, hname]
  by_cases hslash : '/' ∈ c :: rest
  · rw [Option.filter_some_neg (by rw [List.contains_iff_mem.mpr hslash]; decide), if_pos hslash]
    simp only [htext, hextension, hend, Option.isSome_none, Bool.false_eq_true, if_false,
      Bool.or_true, if_true]
  · rw [Option.filter_some_pos (by simpa using hslash), if_neg hslash]

theorem methodOf_anywhere_deep :
    methodOf o (.leadingDirectories :: (text.map .literal ++ [.everythingBelow])) = .expression := by
  obtain ⟨c, rest, rfl⟩ := List.exists_cons_of_ne_nil hne
  have hdeep : literalText? ((c :: rest).map .literal ++ [.everythingBelow]) = none :=
    mapM_literal_append (c :: rest) rfl
  have hname : lastName? (.leadingDirectories :: ((c :: rest).map .literal ++ [.everythingBelow])) =
      none := by
    rw [lastName?, hdeep]
    rfl
  have hbeginning : isBeginning o
      (.leadingDirectories :: ((c :: rest).map .literal ++ [.everythingBelow])) = false := by
    rw [isBeginning, ← List.cons_append, List.getLast?_concat, List.dropLast_concat]
    rfl
  have hend : isEnd o (.leadingDirectories :: ((c :: rest).map .literal ++ [.everythingBelow])) =
      false := congrArg Option.isSome hdeep
  have hextension : extensionAtEnd?
      (.leadingDirectories :: ((c :: rest).map .literal ++ [.everythingBelow])) = none := by
    rw [extensionAtEnd?, ← List.cons_append, List.reverse_concat]
    rfl
  rw [methodOf, hname]
  simp only [hbeginning, hend, hextension]
  rfl

end

/-- Only with directories before it and anything below it does a text need an expression. -/
theorem method_framed (o : Options) {text : List Char} (hne : text ≠ []) (anywhere deep : Bool) :
    (framed o anywhere deep text).method =
      if anywhere then
        if deep then .expression else if '/' ∈ text then .text else .name text
      else .text := by
  have htokens := List.append_nil (text.map Token.literal)
  cases anywhere <;> cases deep
  · exact (congrArg (methodOf o) htokens).trans (methodOf_literal o hne)
  · exact methodOf_deep o hne
  · exact (congrArg (methodOf o) (congrArg _ htokens)).trans (methodOf_anywhere o hne)
  · exact methodOf_anywhere_deep o hne

/-- A glob without marks is never too large. -/
theorem fault?_literal (o : Options) {text : List Char} (hne : text ≠ []) :
    fault? [literal o text] = none := by
  have hmethod : (literal o text).method = .text := methodOf_literal o hne
  have hempty : excess? [] = none := by decide
  simp [fault?, hmethod, hempty]

theorem tokensLevels_append (o : Options) (a b : List Token) :
    tokensLevels o (a ++ b) = max (tokensLevels o a) (tokensLevels o b) := by
  induction a with
  | nil => rw [List.nil_append, tokensLevels, Nat.zero_max]
  | cons t a ih => rw [List.cons_append, tokensLevels, tokensLevels, ih, max_assoc]

theorem tokensRoom_append (o : Options) (a b : List Token) :
    tokensRoom o (a ++ b) = tokensRoom o a + tokensRoom o b := by
  induction a with
  | nil => rw [List.nil_append, tokensRoom, Nat.zero_add]
  | cons t a ih => rw [List.cons_append, tokensRoom, tokensRoom, ih, Nat.add_assoc]

theorem tokensLevels_literal (o : Options) (text : List Char) :
    tokensLevels o (text.map .literal) = 0 := by
  induction text with
  | nil => rfl
  | cons c text ih => rw [List.map_cons, tokensLevels, Token.levels, ih, max_self]

theorem tokensRoom_literal (o : Options) (text : List Char) :
    tokensRoom o (text.map .literal) = (text.flatMap octetsOf).length * stateRoom := by
  induction text with
  | nil => rfl
  | cons c text ih =>
    rw [List.map_cons, tokensRoom, Token.room, ih, List.flatMap_cons, List.length_append,
      Nat.add_mul]

/-- How long a text with marks on both sides may be, in octets. -/
def lengthLimit : Nat := 327659

/-- With marks on both sides a text is too large for a machine only if it is very long. -/
theorem excess?_framed (o : Options) (text : List Char) :
    excess? [framed o true true text] =
      if lengthLimit < (text.flatMap octetsOf).length then some .size else none := by
  have hdepth : isTooDeep (framed o true true text) = false := by
    have hlevels : levels (framed o true true text) = 5 := by
      rw [levels]
      simp only [framed, if_true, tokensLevels_append, tokensLevels_literal]
      rfl
    rw [isTooDeep, hlevels]
    rfl
  have hroom : room (framed o true true text) =
      624 + (text.flatMap octetsOf).length * stateRoom := by
    rw [room]
    split
    · next htokens =>
      have hlength := congrArg List.length htokens
      simp [framed] at hlength
    · simp only [framed, if_true, tokensRoom_append, tokensRoom_literal]
      show 5 * 32 + (320 + _ * 32 + 144) = 624 + _ * 32
      omega
  have hlarge : areTooLarge [framed o true true text] =
      decide (lengthLimit < (text.flatMap octetsOf).length) := by
    rw [areTooLarge, totalRoom, totalRoom, hroom, Bool.eq_iff_iff, decide_eq_true_iff,
      decide_eq_true_iff]
    show 10485760 < 32 + (624 + _ * 32 + 0) ↔ 327659 < _
    omega
  rw [excess?, List.findIdx?_singleton, hdepth]
  simp only [hlarge, decide_eq_true_eq, Bool.false_eq_true, if_false]

/-! ## §3 Matching -/

theorem octets_inj {a b : List Char} : a.flatMap octetsOf = b.flatMap octetsOf ↔ a = b := by
  refine ⟨fun h => ?_, fun h => by rw [h]⟩
  have ha : Encoding.Utf8.decode (Encoding.Utf8.encode a) = .ok a :=
    Encoding.Utf8.decode_eq_ok_iff.mpr rfl
  have hb : Encoding.Utf8.decode (Encoding.Utf8.encode a) = .ok b :=
    Encoding.Utf8.decode_eq_ok_iff.mpr h.symm
  rw [ha] at hb
  exact Except.ok.inj hb

theorem slash_mem_octets_iff {text : List Char} : slash ∈ text.flatMap octetsOf ↔ '/' ∈ text := by
  constructor
  · intro h
    obtain ⟨c, hmem, hc⟩ := List.mem_flatMap.mp h
    exact (Encoding.Utf8.mem_utf8EncodeChar hc).2 (by decide) ▸ hmem
  · intro h
    exact List.mem_flatMap.mpr ⟨'/', h, by decide⟩

theorem octets_intercalate (pieces : List (List Char)) :
    (List.intercalate ['/'] pieces).flatMap octetsOf =
      List.intercalate [slash] (pieces.map (List.flatMap octetsOf)) :=
  Text.flatMap_intercalate octetsOf ['/'] pieces

theorem splitOn_octets (text : List Char) :
    (text.flatMap octetsOf).splitOn slash = (text.splitOn '/').map (List.flatMap octetsOf) := by
  have htext := congrArg (List.flatMap octetsOf) (Text.intercalate_split '/' text)
  rw [← htext, octets_intercalate, ← Text.split_eq_splitOn]
  refine List.splitOn_intercalate slash ?_ (by simpa using Text.split_ne_nil '/' text)
  intro octets hoctets
  obtain ⟨piece, hpiece, rfl⟩ := List.mem_map.mp hoctets
  exact slash_mem_octets_iff.not.mpr (Text.not_mem_of_mem_split hpiece)

/-- Pieces follow one another in a text exactly if their octets do so in its octets. -/
theorem infix_splitOn_octets_iff (pieces : List (List Char)) (text : List Char) :
    pieces.map (List.flatMap octetsOf) <:+: (text.flatMap octetsOf).splitOn slash ↔
      pieces <:+: text.splitOn '/' := by
  rw [splitOn_octets, List.infix_map_iff]
  constructor
  · rintro ⟨pieces', hinfix, hpieces⟩
    have hinj : Function.Injective (List.flatMap octetsOf) := fun _ _ => octets_inj.mp
    rwa [List.map_injective_iff.mpr hinj hpieces]
  · intro hinfix
    exact ⟨pieces, hinfix, rfl⟩

theorem tokensLanguage_literal (o : Options) (text : List Char) :
    tokensLanguage o (text.map .literal) = {text.flatMap octetsOf} := by
  induction text with
  | nil => rfl
  | cons c text ih =>
    rw [List.map_cons, tokensLanguage, Token.language, ih, List.flatMap_cons]
    exact Set.image2_singleton

/-- What is not compared by name or extension is matched. -/
theorem accepts_iff_of_method {g : Glob} (h : g.method = .text ∨ g.method = .expression)
    (path : List Char) :
    g.accepts path = true ↔ path.flatMap octetsOf ∈ textLanguage g.options g.tokens := by
  rw [accepts, acceptsOctets]
  rcases h with h | h <;> rw [h] <;> exact matchesText_iff _ _ _

/-- A glob without marks accepts the path that is written like it, and no other. -/
theorem accepts_literal_iff (o : Options) {text : List Char} (hne : text ≠ []) (path : List Char) :
    (literal o text).accepts path = true ↔ path = text := by
  have hmethod : (literal o text).method = .text := methodOf_literal o hne
  have hlanguage : textLanguage o (text.map .literal) = {text.flatMap octetsOf} := by
    rw [← tokensLanguage_literal o]
    obtain ⟨c, rest, rfl⟩ := List.exists_cons_of_ne_nil hne
    rfl
  rw [accepts_iff_of_method (.inl hmethod), ← octets_inj]
  exact iff_of_eq (congrArg (path.flatMap octetsOf ∈ ·) hlanguage)

theorem mem_mul_singleton_mul {L M : Language UInt8} {octets text : List UInt8} :
    text ∈ L * ({octets} : Language UInt8) * M ↔
      ∃ before after, text = before ++ octets ++ after ∧ before ∈ L ∧ after ∈ M := by
  constructor
  · rintro ⟨_, ⟨before, hbefore, _, rfl, rfl⟩, after, hafter, rfl⟩
    exact ⟨before, after, rfl, hbefore, hafter⟩
  · rintro ⟨before, after, rfl, hbefore, hafter⟩
    exact ⟨_, ⟨before, hbefore, octets, rfl, rfl⟩, after, hafter, rfl⟩

/-- A text with marks accepts the paths that are written like it, after directories and before
anything below it where these are asked for. -/
theorem accepts_framed_iff (o : Options) {text : List Char} (hne : text ≠ [])
    (hparent : text ≠ ['.', '.']) (anywhere deep : Bool) (path : List Char) :
    (framed o anywhere deep text).accepts path = true ↔
      ∃ before after, path.flatMap octetsOf = before ++ text.flatMap octetsOf ++ after ∧
        before ∈ (if anywhere then directories else 1) ∧ after ∈ (if deep then below else 1) := by
  have hlanguage : textLanguage o (framed o anywhere deep text).tokens =
      (if anywhere then directories else 1) * ({text.flatMap octetsOf} : Language UInt8) *
        (if deep then below else 1) := by
    obtain ⟨c, rest, rfl⟩ := List.exists_cons_of_ne_nil hne
    have htokens : textLanguage o (framed o anywhere deep (c :: rest)).tokens =
        tokensLanguage o (framed o anywhere deep (c :: rest)).tokens := by
      cases anywhere <;> rfl
    rw [htokens, framed, tokensLanguage_append, tokensLanguage_append, tokensLanguage_literal]
    cases anywhere <;> cases deep <;> simp [tokensLanguage, Token.language]
  have hmethod := method_framed o hne anywhere deep
  rw [← mem_mul_singleton_mul]
  by_cases hname : anywhere = true ∧ deep = false ∧ '/' ∉ text
  · obtain ⟨rfl, rfl, hslash⟩ := hname
    rw [if_pos rfl, if_neg Bool.false_ne_true, if_neg hslash] at hmethod
    have hoctets : text.flatMap octetsOf ≠ [0x2E, 0x2E] := fun h =>
      hparent (octets_inj.mp (h.trans (by decide)))
    have hempty : text.flatMap octetsOf ≠ [] := fun h => hne (octets_inj.mp h)
    rw [accepts, acceptsOctets, hmethod, if_pos rfl, if_neg Bool.false_ne_true, mul_one, beq_iff_eq]
    exact lastName_eq_iff (slash_mem_octets_iff.not.mpr hslash) hoctets hempty _
  · rw [accepts_iff_of_method, ← hlanguage]
    · rfl
    · rw [hmethod]
      split_ifs with hanywhere hdeep hslash
      · exact .inr rfl
      · exact .inl rfl
      · exact absurd ⟨hanywhere, eq_false_of_ne_true hdeep, hslash⟩ hname
      · exact .inl rfl

end Glob

end MarkerBlock
