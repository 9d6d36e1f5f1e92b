/-
MarkerBlock.Proofs.Glob.Meaning — the paths a glob stands for.

Every token stands for a language of octets, and a sequence of tokens for the product of theirs
(`tokensLanguage`).  Matching from the back tells this language, with what follows behind it
(`tells_tokensBefore`), so a text is matched exactly if it belongs to the language of the glob
(`matchesText_iff`).

A glob of the form `**/name` is not matched but compared with the last name of a path.  That makes
no difference unless the name is `..` (`lastName_eq_iff`).
-/
import Mathlib
import MarkerBlock.Glob.Matching
import MarkerBlock.Proofs.Text.Ends

namespace MarkerBlock.Glob

open Text

/-! ## §1 Languages -/

/-- Nothing, or anything that ends in a slash. -/
def directories : Language UInt8 := 1 + Ends.upTo (· == slash)

/-- A slash and anything. -/
def below : Language UInt8 := Ends.one (· == slash) * Ends.run fun _ => true

mutual

/-- What a token stands for. -/
def Token.language (o : Options) : Token → Language UInt8
  | .literal c => {octetsOf c}
  | .anyOne => Ends.one o.admits
  | .anyRun => Ends.run o.admits
  | .leadingDirectories => directories
  | .everythingBelow => below
  | .innerDirectories => Ends.one (· == slash) * directories
  | .oneOf negated ranges => Ends.one fun b => ranges.any (rangeHolds b) != negated
  | .alternatives branches => if areVacant branches then 1 else branchesLanguage o branches

/-- What a sequence of tokens stands for. -/
def tokensLanguage (o : Options) : List Token → Language UInt8
  | [] => 1
  | t :: rest => t.language o * tokensLanguage o rest

/-- What the branches that are not vacant stand for. -/
def branchesLanguage (o : Options) : List (List Token) → Language UInt8
  | [] => 0
  | branch :: rest =>
    if isVacantBranch branch then branchesLanguage o rest
    else tokensLanguage o branch + branchesLanguage o rest

end

/-- What the tokens of a glob stand for; leading directories by themselves are everything. -/
def textLanguage (o : Options) (tokens : List Token) : Language UInt8 :=
  match tokens with
  | [.leadingDirectories] => Ends.run fun _ => true
  | _ => tokensLanguage o tokens

theorem tokensLanguage_append (o : Options) (a b : List Token) :
    tokensLanguage o (a ++ b) = tokensLanguage o a * tokensLanguage o b := by
  induction a with
  | nil => rw [List.nil_append, tokensLanguage, one_mul]
  | cons t a ih => rw [List.cons_append, tokensLanguage, tokensLanguage, ih, mul_assoc]

/-! ## §2 Matching -/

section

variable {o : Options} {L : Language UInt8} {text : List UInt8} {ends : Ends}

theorem tells_afterOctets (octets : List UInt8) (h : Ends.Tells L text ends) :
    Ends.Tells ({octets} * L) text (afterOctets octets text ends) := by
  induction octets with
  | nil =>
    show Ends.Tells (1 * L) text ends
    rwa [one_mul]
  | cons octet octets ih =>
    have hone : ({octet :: octets} : Language UInt8) =
        Ends.one (· == octet) * ({octets} : Language UInt8) := by
      ext t
      cases t with
      | nil => exact iff_of_false (List.cons_ne_nil octet octets).symm (Ends.nil_notMem_one_mul _)
      | cons b t =>
        rw [Ends.cons_mem_one_mul, beq_iff_eq]
        exact List.cons.injEq b t octet octets ▸ Iff.rfl
    rw [hone, mul_assoc]
    exact ih.afterOne _

theorem tells_afterDirectories (h : Ends.Tells L text ends) :
    Ends.Tells (directories * L) text (afterDirectories text ends) := by
  rw [directories, add_mul, one_mul]
  exact h.union (h.afterSome _)

mutual

/-- Before ends that tell a language, a token tells the language with what it stands for in front. -/
theorem tells_before : ∀ (t : Token) {L : Language UInt8} {ends : Ends}, Ends.Tells L text ends →
    Ends.Tells (t.language o * L) text (t.before o text ends)
  | .literal c, _, _, h => by
    rw [Token.language, Token.before]
    exact tells_afterOctets (octetsOf c) h
  | .anyOne, _, _, h => by
    rw [Token.language, Token.before]
    exact h.afterOne _
  | .anyRun, _, _, h => by
    rw [Token.language, Token.before]
    exact h.afterRun _
  | .leadingDirectories, _, _, h => by
    rw [Token.language, Token.before]
    exact tells_afterDirectories h
  | .everythingBelow, _, _, h => by
    rw [Token.language, Token.before, below, mul_assoc]
    exact (h.afterRun _).afterOne _
  | .innerDirectories, _, _, h => by
    rw [Token.language, Token.before, mul_assoc]
    exact (tells_afterDirectories h).afterOne _
  | .oneOf negated ranges, _, _, h => by
    rw [Token.language, Token.before]
    exact h.afterOne _
  | .alternatives branches, _, _, h => by
    rw [Token.language, Token.before]
    split
    · rwa [one_mul]
    · exact tells_branchesBefore branches h

theorem tells_tokensBefore : ∀ (tokens : List Token) {L : Language UInt8} {ends : Ends},
    Ends.Tells L text ends →
    Ends.Tells (tokensLanguage o tokens * L) text (tokensBefore o text tokens ends)
  | [], _, _, h => by
    rwa [tokensLanguage, tokensBefore, one_mul]
  | t :: rest, _, _, h => by
    rw [tokensLanguage, tokensBefore, mul_assoc]
    exact tells_before t (tells_tokensBefore rest h)

theorem tells_branchesBefore : ∀ (branches : List (List Token)) {L : Language UInt8} {ends : Ends},
    Ends.Tells L text ends →
    Ends.Tells (branchesLanguage o branches * L) text (branchesBefore o text branches ends)
  | [], _, _, _ => by
    rw [branchesLanguage, branchesBefore, zero_mul]
    exact Ends.tells_none text
  | branch :: rest, _, _, h => by
    rw [branchesLanguage, branchesBefore]
    split
    · exact tells_branchesBefore rest h
    · rw [add_mul]
      exact (tells_tokensBefore branch h).union (tells_branchesBefore rest h)

end

end

/-- Tokens match exactly the texts they stand for. -/
theorem matchesText_iff (o : Options) (tokens : List Token) (text : List UInt8) :
    matchesText o tokens text = true ↔ text ∈ textLanguage o tokens := by
  unfold matchesText
  split
  · exact iff_of_true rfl fun _ _ => rfl
  · next htokens =>
    have htells : Ends.Tells (tokensLanguage o tokens * 1) text _ :=
      tells_tokensBefore tokens (Ends.tells_nothing text)
    rw [htells.whole_iff, mul_one, textLanguage]
    exact htokens

/-! ## §3 Last names -/

theorem mem_directories_iff {x : List UInt8} :
    x ∈ directories ↔ x = [] ∨ ∃ front, x = front ++ [slash] := by
  rw [directories, Language.mem_add, Language.mem_one]
  refine or_congr_right ⟨?_, ?_⟩
  · rintro ⟨front, item, hitem, rfl⟩
    exact ⟨front, by rw [beq_iff_eq.mp hitem]⟩
  · rintro ⟨front, rfl⟩
    exact ⟨front, slash, beq_self_eq_true slash, rfl⟩

theorem mem_below_iff {y : List UInt8} : y ∈ below ↔ ∃ rest, y = slash :: rest := by
  rw [below]
  cases y with
  | nil => exact iff_of_false (Ends.nil_notMem_one_mul _) (by simp)
  | cons b y =>
    rw [Ends.cons_mem_one_mul, beq_iff_eq]
    constructor
    · rintro ⟨rfl, -⟩
      exact ⟨y, rfl⟩
    · rintro ⟨rest, hrest⟩
      exact ⟨(List.cons.inj hrest).1, fun _ _ => rfl⟩

/-- To end in a name is to be the name, after directories or alone. -/
theorem lastName_eq_iff {name : List UInt8} (hslash : slash ∉ name) (hparent : name ≠ [0x2E, 0x2E])
    (hne : name ≠ []) (path : List UInt8) :
    lastName path = name ↔ path ∈ directories * ({name} : Language UInt8) := by
  have hrest (octets : List UInt8) :
      (octets.dropWhile (· != slash)).reverse ∈ directories := by
    cases hdrop : octets.dropWhile (· != slash) with
    | nil => exact mem_directories_iff.mpr (.inl rfl)
    | cons b rest =>
      have hb : b = slash := by
        have hhead := List.head_dropWhile_not (· != slash) (l := octets) (by simp [hdrop])
        simpa [hdrop] using hhead
      exact mem_directories_iff.mpr (.inr ⟨rest.reverse, by rw [hb, List.reverse_cons]⟩)
  constructor
  · intro hlast
    have hname : (path.reverse.takeWhile (· != slash)).reverse = name := by
      rw [lastName] at hlast
      split at hlast
      · exact absurd hlast.symm hne
      · exact hlast
    refine ⟨(path.reverse.dropWhile (· != slash)).reverse, hrest _, name, rfl, ?_⟩
    show _ ++ _ = path
    rw [← hname, ← List.reverse_append, List.takeWhile_append_dropWhile, List.reverse_reverse]
  · rintro ⟨x, hx, name, rfl, rfl⟩
    have hstop : x.reverse.takeWhile (· != slash) = [] := by
      rcases mem_directories_iff.mp hx with rfl | ⟨front, rfl⟩
      · rfl
      · rw [List.reverse_append, List.reverse_singleton, List.singleton_append,
          List.takeWhile_cons_of_neg (by simp)]
    have hname : ∀ b ∈ name.reverse, (b != slash) = true := by
      intro b hb
      rw [bne_iff_ne]
      rintro rfl
      exact hslash (List.mem_reverse.mp hb)
    rw [lastName, List.reverse_append, List.takeWhile_append_of_pos hname, hstop, List.append_nil,
      List.reverse_reverse, if_neg hparent]

end MarkerBlock.Glob
