/-
MarkerBlock.Proofs.Ignore.Anchored — what a rule with a slash in front is tied to.

A line `/n` with a plain name is the rule that speaks about the path written `n`, and
about no other (`ruleOf?_anchored`, `lastRule?_nameRule`).  Where it is the only rule in
the ignore files of a directory it is what is loaded (`rulesIn_of_onlyRule`).

All rules see a path from the workspace root, whichever ignore file they stand in.  So
this one ignores what lies below the entry `n` of the workspace, and nothing else
(`cause?_nameRule`).
-/
import Mathlib
import MarkerBlock.Proofs.Glob.Literal
import MarkerBlock.Proofs.Ignore.Loading

namespace MarkerBlock

namespace Ignore

/-! ## §1 The rule in a line -/

/-- A name in which no character has a meaning to ignore files. -/
structure IsMarkless (n : List Char) : Prop where
  plain : Path.IsPlain n
  literal : ∀ c ∈ n, Glob.IsLiteral c
  solid : ∀ c ∈ n, Text.CharSet.whiteSpace.contains c = false

/-- The characters of ordinary names. -/
def IsWord (c : Char) : Prop := c.isAlphanum = true ∨ c = '_' ∨ c = '.'

theorem IsWord.ne {c d : Char} (h : IsWord c) (hd : ¬IsWord d) : c ≠ d := by
  rintro rfl
  exact hd h

instance (c : Char) : Decidable (IsWord c) :=
  inferInstanceAs (Decidable (c.isAlphanum = true ∨ c = '_' ∨ c = '.'))

theorem IsWord.solid {c : Char} (h : IsWord c) : Text.CharSet.whiteSpace.contains c = false := by
  have hcode : 46 ≤ c.toNat ∧ c.toNat ≤ 122 := by
    rcases h with h | rfl | rfl
    · simp only [Char.isAlphanum, Char.isAlpha, Char.isUpper, Char.isLower, Char.isDigit,
        Bool.or_eq_true, Bool.and_eq_true, decide_eq_true_eq, ge_iff_le, UInt32.le_iff_toNat_le] at h
      have hdigits : '0'.val.toNat = 48 ∧ '9'.val.toNat = 57 := ⟨rfl, rfl⟩
      have hupper : 'A'.val.toNat = 65 ∧ 'Z'.val.toNat = 90 := ⟨rfl, rfl⟩
      have hlower : 'a'.val.toNat = 97 ∧ 'z'.val.toNat = 122 := ⟨rfl, rfl⟩
      unfold Char.toNat
      omega
    · decide
    · decide
  simp [Text.CharSet.contains, Text.CharSet.whiteSpace]
  omega

/-- Names of letters, digits, `_` and `.` are without marks. -/
theorem isMarkless_of_word {n : List Char} (hne : n ∉ [[], ['.'], ['.', '.']])
    (h : ∀ c ∈ n, IsWord c) : IsMarkless n where
  plain := by
    simp only [List.mem_cons, List.not_mem_nil, or_false, not_or] at hne
    refine ⟨fun hslash => (h _ hslash).ne (by decide) rfl, ?_, hne.2.2⟩
    simp [Path.isBlank, hne.1, hne.2.1]
  literal c hc := by
    have hword := h c hc
    simp only [Glob.IsLiteral, List.mem_cons, List.not_mem_nil, or_false, not_or]
    refine ⟨?_, ?_, ?_, ?_, ?_, ?_, ?_⟩ <;> exact hword.ne (by decide)
  solid c hc := (h c hc).solid

theorem IsMarkless.ne_nil {n : List Char} (h : IsMarkless n) : n ≠ [] := by
  rintro rfl
  exact h.plain.blank rfl

/-- Text that does not end in white space stays. -/
theorem trimRight_of_solid {text : List Char}
    (h : ∀ c ∈ text, Text.CharSet.whiteSpace.contains c = false) : Text.trimRight text = text := by
  have htrim : Text.trimRight text = text.rdropWhile Text.CharSet.whiteSpace.contains := rfl
  rw [htrim, List.rdropWhile_eq_self_iff]
  intro hne hlast
  rw [h _ (List.getLast_mem hne)] at hlast
  cases hlast

/-- The rule that a slash and a name make. -/
def nameRule (n : List Char) : Rule :=
  { glob := Glob.literal Rule.globOptions n, keeps := false, directoriesOnly := false }

theorem findSome?_same {α β : Type} (p : α → Prop) [DecidablePred p] (b : β) (items : List α) :
    (items.findSome? fun a => if p a then some b else none) =
      if ∃ a ∈ items, p a then some b else none := by
  induction items with
  | nil => simp
  | cons a items ih =>
    by_cases ha : p a
    · simp [ha]
    · simp [ha, ih]

section line

variable {n : List Char} (hn : IsMarkless n)
include hn

theorem IsMarkless.solid_line :
    ∀ c ∈ '/' :: n, Text.CharSet.whiteSpace.contains c = false :=
  List.forall_mem_cons.mpr ⟨by decide, hn.solid⟩

theorem IsMarkless.trimLine : Ignore.trimLine ('/' :: n) = '/' :: n := by
  unfold Ignore.trimLine
  split
  · rfl
  · exact trimRight_of_solid hn.solid_line

theorem IsMarkless.marks : endMark (frontMarks ('/' :: n)) =
    { keeps := false, anchored := true, directoriesOnly := false, glob := n } := by
  have hlast : n.getLast? ≠ some '/' := fun h => hn.plain.slash (List.mem_of_getLast? h)
  have hfront : frontMarks ('/' :: n) =
      { keeps := false, anchored := true, directoriesOnly := false, glob := n } := by
    simp [frontMarks]
  rw [hfront, endMark, if_neg hlast]

/-- A line with a slash and a name is a rule. -/
theorem IsMarkless.ofLine? : Rule.ofLine? ('/' :: n) = .ok (some (nameRule n)) := by
  have hinside : ¬['/', '*', '*'].isSuffixOf n = true := by
    rw [List.isSuffixOf_iff_suffix]
    exact fun h => hn.plain.slash (h.subset List.mem_cons_self)
  have hglob : Marks.fullGlob
      { keeps := false, anchored := true, directoriesOnly := false, glob := n } = n := by
    simp [Marks.fullGlob, hinside]
  unfold Rule.ofLine?
  simp only [hn.trimLine, hn.marks, hglob, Glob.parse_literal hn.literal]
  rfl

theorem IsMarkless.not_isIdle : IgnoreList.isIdle ('/' :: n) = false := by
  have htrim : Text.trim ('/' :: n) = '/' :: n := by
    have hfront : ('/' :: n).dropWhile Text.CharSet.whiteSpace.contains = '/' :: n :=
      List.dropWhile_cons_of_neg (by decide)
    rw [Text.trim, hfront]
    exact trimRight_of_solid hn.solid_line
  rw [IgnoreList.isIdle, htrim]
  rfl

theorem IsMarkless.ruleOf? (file : Path) :
    IgnoreList.ruleOf? file ('/' :: n) = .ok (some (nameRule n)) := by
  rw [IgnoreList.ruleOf?, hn.not_isIdle, hn.ofLine?]
  rfl

/-! ## §2 What the rule speaks about -/

theorem lastRule?_nameRule (isDirectory : Bool) (path : Path) :
    lastRule? [nameRule n] isDirectory path = if path.text = n then some (nameRule n) else none := by
  have hspeaks : (nameRule n).appliesTo isDirectory path = decide (path.text = n) := by
    have haccepts := Glob.accepts_literal_iff Rule.globOptions hn.ne_nil path.text
    rw [Bool.eq_iff_iff, decide_eq_true_iff, ← haccepts]
    simp [Rule.appliesTo, nameRule]
  rw [lastRule?, List.reverse_singleton, List.find?_singleton, hspeaks]
  simp only [decide_eq_true_eq]

/-- The rule decides about a path if the path or one above it is written like the name. -/
theorem decidingRule?_nameRule (path : Path) : decidingRule? [nameRule n] path =
    if ∃ a ∈ path.ancestors, a.text = n then some (nameRule n) else none := by
  obtain ⟨above, habove⟩ : ∃ above, path.ancestors = path :: above := by
    cases hq : path.parent? with
    | none => exact ⟨_, Path.ancestors_of_none hq⟩
    | some q => exact ⟨_, Path.ancestors_of_parent hq⟩
  rw [decidingRule?, lastRule?_nameRule hn, habove, List.drop_one, List.tail_cons,
    funext (lastRule?_nameRule hn true), findSome?_same]
  by_cases hpath : path.text = n
  · simp [hpath]
  · simp [hpath]

end line

end Ignore

namespace IgnoreList

open Ignore

variable {s : Surroundings} {tree : FileTree} {cwd : Place} {n : List Char} {file D d : Path}

/-! ## §3 Loading -/

theorem rulesOf_cons (file : Path) (line : List Char) (rest : List (List Char)) :
    rulesOf file (line :: rest) =
      match ruleOf? file line with
      | .error e => .error e
      | .ok rule => (rulesOf file rest).map (rule.toList ++ ·) := by
  rw [rulesOf, rulesOf, List.mapM_cons]
  cases ruleOf? file line with
  | error e => rfl
  | ok rule =>
    cases rest.mapM (ruleOf? file) with
    | error e => rfl
    | ok rules => cases rule <;> rfl

theorem rulesOf_cons_eq_ok_iff {line : List Char} {rest : List (List Char)} {rules : List Rule} :
    rulesOf file (line :: rest) = .ok rules ↔
      ∃ rule more, ruleOf? file line = .ok rule ∧ rulesOf file rest = .ok more ∧
        rules = rule.toList ++ more := by
  rw [rulesOf_cons]
  cases ruleOf? file line with
  | error e => simp
  | ok rule => cases rulesOf file rest <;> simp [Except.map, eq_comm]

/-- Lines without a rule change nothing. -/
theorem rulesOf_filter (file : Path) (lines : List (List Char)) :
    rulesOf file (lines.filter (!isIdle ·)) = rulesOf file lines := by
  induction lines with
  | nil => rfl
  | cons line rest ih =>
    by_cases hidle : isIdle line = true
    · have hrule : ruleOf? file line = .ok none := if_pos hidle
      rw [List.filter_cons_of_neg (by simp [hidle]), ih, rulesOf_cons, hrule]
      cases rulesOf file rest <;> rfl
    · rw [List.filter_cons_of_pos (by simp [hidle]), rulesOf_cons, rulesOf_cons, ih]

/-- The lines of a file that hold rules. -/
def HasLines (tree : FileTree) (cwd : Place) (file : Path) (lines : List (List Char)) : Prop :=
  ∃ text, readText tree cwd file = .ok text ∧ (Text.lines text).filter (!isIdle ·) = lines

theorem HasLines.readRules {lines : List (List Char)} (h : HasLines tree cwd file lines) :
    IgnoreList.readRules tree cwd file = rulesOf file lines := by
  obtain ⟨text, htext, rfl⟩ := h
  rw [IgnoreList.readRules, htext, rulesOf_filter]

theorem HasLines.isFile {lines : List (List Char)} (h : HasLines tree cwd file lines) :
    tree.isFile cwd file = true := by
  obtain ⟨text, htext, -⟩ := h
  rw [readText] at htext
  cases hread : tree.read cwd file with
  | error e =>
    rw [hread] at htext
    cases htext
  | ok octets => exact FileTree.isFile_of_read hread

theorem readAll_cons_eq_ok_iff {say : Path → Remark} {rest : List Path} {rules : List Rule} :
    (readAll tree cwd say (file :: rest)).1 = .ok rules ↔
      ∃ here more, readRules tree cwd file = .ok here ∧ (readAll tree cwd say rest).1 = .ok more ∧
        rules = here ++ more := by
  rw [readAll]
  cases readRules tree cwd file with
  | error e => simp
  | ok here => rcases readAll tree cwd say rest with ⟨_ | more, remarks⟩ <;> simp [eq_comm]

theorem readAll_append_eq_ok_iff {say : Path → Remark} {files files' : List Path}
    {rules : List Rule} :
    (readAll tree cwd say (files ++ files')).1 = .ok rules ↔
      ∃ front back, (readAll tree cwd say files).1 = .ok front ∧
        (readAll tree cwd say files').1 = .ok back ∧ rules = front ++ back := by
  induction files generalizing rules with
  | nil => simp [readAll, eq_comm]
  | cons file rest ih =>
    rw [List.cons_append, readAll_cons_eq_ok_iff]
    constructor
    · rintro ⟨here, more, hhere, hmore, rfl⟩
      obtain ⟨front, back, hfront, hback, rfl⟩ := ih.mp hmore
      exact ⟨here ++ front, back, readAll_cons_eq_ok_iff.mpr ⟨here, front, hhere, hfront, rfl⟩, hback,
        (List.append_assoc _ _ _).symm⟩
    · rintro ⟨front, back, hfront, hback, rfl⟩
      obtain ⟨here, more, hhere, hmore, rfl⟩ := readAll_cons_eq_ok_iff.mp hfront
      exact ⟨here, more ++ back, hhere, ih.mpr ⟨more, back, hmore, hback, rfl⟩,
        List.append_assoc _ _ _⟩

theorem readAll_append {say : Path → Remark} {files files' : List Path} {rules rules' : List Rule}
    (h : (readAll tree cwd say files).1 = .ok rules)
    (h' : (readAll tree cwd say files').1 = .ok rules') :
    (readAll tree cwd say (files ++ files')).1 = .ok (rules ++ rules') :=
  readAll_append_eq_ok_iff.mpr ⟨rules, rules', h, h', rfl⟩

theorem readAll_of_idle (say : Path → Remark) {files : List Path}
    (h : ∀ file ∈ files, HasLines tree cwd file []) : (readAll tree cwd say files).1 = .ok [] := by
  induction files with
  | nil => rfl
  | cons file rest ih =>
    obtain ⟨hfile, hrest⟩ := List.forall_mem_cons.mp h
    exact readAll_cons_eq_ok_iff.mpr ⟨[], [], hfile.readRules, ih hrest, rfl⟩

/-- The directories on the way from a root to a directory, with one of them picked out. -/
theorem chain_eq {root : Path} (hD : D ∈ d.ancestors)
    (hroot : root.components.length < D.components.length) :
    ∃ outer inner, chain d root = outer ++ D :: inner ∧
      ∀ a ∈ outer ++ inner, a ∈ d.ancestors ∧ a ≠ D := by
  obtain ⟨inner, outer, habove⟩ := List.append_of_mem hD
  have hpairwise := Path.ancestors_pairwise d
  rw [habove, List.pairwise_append, List.pairwise_cons] at hpairwise
  obtain ⟨-, ⟨hshorter, -⟩, hlonger⟩ := hpairwise
  have hnot {a : Path} (ha : D.components.length ≤ a.components.length) : (!a.same root) = true := by
    rw [Bool.not_eq_true', Path.same, beq_eq_false_iff_ne]
    intro hsame
    rw [hsame] at ha
    omega
  -- the root is above `D`, so nothing is left out up to `D`
  have hfront : ∀ a ∈ inner ++ [D], (!a.same root) = true := by
    intro a ha
    rcases List.mem_append.mp ha with ha | ha
    · exact hnot (hlonger a ha D List.mem_cons_self).le
    · rw [List.mem_singleton.mp ha]
      exact hnot le_rfl
  have hsplit : d.ancestors = (inner ++ [D]) ++ outer := by rw [habove, List.append_cons]
  refine ⟨(outer.take ((outer.takeWhile (!·.same root)).length + 1)).reverse, inner.reverse, ?_, ?_⟩
  · rw [chain]
    simp only [hsplit, List.takeWhile_append_of_pos hfront]
    rw [List.length_append, Nat.add_assoc, List.take_length_add_append, List.reverse_append,
      List.reverse_concat]
  · intro a ha
    rw [habove]
    rcases List.mem_append.mp ha with ha | ha
    · have hmem := List.mem_of_mem_take (List.mem_reverse.mp ha)
      refine ⟨List.mem_append_right _ (List.mem_cons_of_mem _ hmem), ?_⟩
      rintro rfl
      exact (hshorter a hmem).false
    · have hmem := List.mem_reverse.mp ha
      refine ⟨List.mem_append_left _ hmem, ?_⟩
      rintro rfl
      exact (hlonger a hmem a List.mem_cons_self).false

/-- A line is the only rule in the ignore files of a directory: it stands in that of `D`. -/
structure IsOnlyRule (s : Surroundings) (tree : FileTree) (D : Path) (line : List Char)
    (directory : Path) : Prop where
  outer : (globalRules s tree).1 = .ok []
  here : HasLines tree s.cwd (D.join (.ofString fileName)) [line]
  elsewhere : ∀ a ∈ directory.ancestors, a ≠ D →
    tree.isFile s.cwd (a.join (.ofString fileName)) = true →
      HasLines tree s.cwd (a.join (.ofString fileName)) []

/-- The ignore files hold this rule and no other. -/
theorem IsOnlyRule.readAll_eq {root : Path} (honly : IsOnlyRule s tree D ('/' :: n) d)
    (hn : IsMarkless n) (hD : D ∈ d.ancestors)
    (hbelow : root.components.length < D.components.length) (say : Path → Remark) :
    (readAll tree s.cwd say (ignoreFiles tree s.cwd d root)).1 = .ok [nameRule n] := by
  obtain ⟨outer, inner, hchain, hothers⟩ := chain_eq hD hbelow
  let named (directory : Path) : Path := directory.join (.ofString fileName)
  have hidle {directories : List Path} (h : ∀ a ∈ directories, a ∈ d.ancestors ∧ a ≠ D) :
      (readAll tree s.cwd say ((directories.map named).filter (tree.isFile s.cwd))).1 = .ok [] := by
    refine readAll_of_idle say fun file hfile => ?_
    obtain ⟨hmem, hisFile⟩ := List.mem_filter.mp hfile
    obtain ⟨a, ha, rfl⟩ := List.mem_map.mp hmem
    exact honly.elsewhere a (h a ha).1 (h a ha).2 hisFile
  have hrule : (readAll tree s.cwd say [named D]).1 = .ok [nameRule n] := by
    rw [readAll, honly.here.readRules, rulesOf_cons, hn.ruleOf?]
    rfl
  have hfiles : ignoreFiles tree s.cwd d root =
      (outer.map named).filter (tree.isFile s.cwd) ++
        ([named D] ++ (inner.map named).filter (tree.isFile s.cwd)) := by
    rw [ignoreFiles, hchain, List.map_append, List.map_cons, List.filter_append,
      List.filter_cons_of_pos honly.here.isFile]
    rfl
  have houter := hidle fun a ha => hothers a (List.mem_append_left inner ha)
  have hinner := hidle fun a ha => hothers a (List.mem_append_right outer ha)
  rw [hfiles]
  exact readAll_append houter (readAll_append hrule hinner)

/-- For a directory below the workspace, `/n` is what is loaded if it is the only rule. -/
theorem rulesIn_of_onlyRule {workspace : Path} (hn : IsMarkless n) (hD : D ∈ d.ancestors)
    (hstart : D.startsWith workspace = true)
    (hbelow : workspace.components.length < D.components.length)
    (honly : IsOnlyRule s tree D ('/' :: n) d) :
    rootFor d workspace = workspace ∧ rulesIn s tree d workspace = .ok [nameRule n] := by
  have hstart' : d.startsWith workspace = true := by
    have hprefix := Path.components_prefix_of_mem_ancestors hD
    exact List.isPrefixOf_iff_prefix.mpr ((List.isPrefixOf_iff_prefix.mp hstart).trans hprefix)
  have hroot : rootFor d workspace = workspace := by rw [rootFor, if_pos hstart']
  have hfault : Glob.fault? [(nameRule n).glob] = none :=
    Glob.fault?_literal Rule.globOptions hn.ne_nil
  refine ⟨hroot, ?_⟩
  rw [rulesIn, honly.outer, hroot]
  simp only [honly.readAll_eq hn hD hbelow, List.nil_append, List.map_singleton, hfault]

/-! ## §4 Deciding -/

/-- The rule ignores the files below an entry of the root with this name. -/
theorem cause?_nameRule {root p : Path} (hn : IsMarkless n) (hroot : root.isAbsolute = true)
    (hp : p.startsWith root = true) :
    cause? { globs := [], loaded := some { root, rules := [nameRule n] } } p =
      if p.components[root.components.length]? = some (.name n) then some (.rule p) else none := by
  have hfull : fullPath { root, rules := [nameRule n] } p = p :=
    if_pos (Path.isAbsolute_of_startsWith hp hroot)
  have hignores : Loaded.ignores { root, rules := [nameRule n] } p =
      decide (p.components[root.components.length]? = some (.name n)) := by
    rw [Loaded.ignores, hfull]
    cases hrest : p.stripPrefix? root with
    | none =>
      rw [Path.stripPrefix?, if_pos hp] at hrest
      split at hrest
      split at hrest <;> cases hrest
    | some rest =>
      obtain ⟨segments, rfl, htrimmed, hsegments⟩ := Path.stripPrefix?_eq_some hroot hrest
      have hfirst := htrimmed.exists_ancestor_iff hn.plain
      rw [hsegments, List.head?_drop] at hfirst
      simp only [underRoot_of_isAbsolute hroot htrimmed.shape.isRelative, decidingRule?_nameRule hn,
        hfirst]
      by_cases hname : p.components[root.components.length]? = some (.name n)
      · simp [hname, nameRule]
      · simp [hname]
  rw [cause?]
  simp [hignores, hfull]

end IgnoreList

end MarkerBlock
