/-
MarkerBlock.Proofs.Ignore.Precedence — the nearest ignore file has the last word.

The ignore files that hold in a directory below a root are those in the directories above it from
the root on (`chain_eq_filter`).  The nearest one is read last (`IsNearest.ignoreFiles_eq`), so the
rules that are loaded end with its rules (`IsNearest.exists_rules`).  If one of these speaks about a
file, the last that does decides, whatever the other ignore files say (`nearest_file_decides`).
-/
import Mathlib
import MarkerBlock.Proofs.Ignore.Anchored
import MarkerBlock.Proofs.Ignore.Relocation

namespace MarkerBlock

namespace Ignore

/-! ## §1 The last rule -/

theorem lastRule?_append (a b : List Rule) (isDirectory : Bool) (path : Path) :
    lastRule? (a ++ b) isDirectory path =
      (lastRule? b isDirectory path).or (lastRule? a isDirectory path) := by
  rw [lastRule?, List.reverse_append, List.find?_append]
  rfl

/-- A rule that speaks about a path decides if no later one speaks about it. -/
theorem lastRule?_of_last {rule : Rule} {isDirectory : Bool} {path : Path}
    (hrule : rule.appliesTo isDirectory path = true) (before : List Rule) {after : List Rule}
    (hafter : ∀ later ∈ after, later.appliesTo isDirectory path = false) :
    lastRule? (before ++ rule :: after) isDirectory path = some rule := by
  have hlater : lastRule? after isDirectory path = none := by
    rw [lastRule?, List.find?_eq_none]
    intro later hmem
    rw [hafter later (List.mem_reverse.mp hmem)]
    exact Bool.false_ne_true
  have hhere : lastRule? [rule] isDirectory path = some rule := by
    rw [lastRule?, List.reverse_singleton, List.find?_singleton, if_pos hrule]
  rw [← List.singleton_append, lastRule?_append, lastRule?_append, hlater, hhere]
  rfl

theorem decidingRule?_of_lastRule? {rules : List Rule} {path : Path} {rule : Rule}
    (h : lastRule? rules false path = some rule) (earlier : List Rule) :
    decidingRule? (earlier ++ rules) path = some rule := by
  rw [decidingRule?, lastRule?_append, h]
  rfl

end Ignore

namespace IgnoreList

open Ignore

variable {s : Surroundings} {tree tree' : FileTree} {cwd : Place} {d root a path file : Path}

/-! ## §2 The rules in lines -/

theorem exists_rulesOf_append {before after : List (List Char)} {rules : List Rule}
    (h : rulesOf file (before ++ after) = .ok rules) :
    ∃ front back, rulesOf file after = .ok back ∧ rules = front ++ back := by
  induction before generalizing rules with
  | nil => exact ⟨[], rules, h, rfl⟩
  | cons line before ih =>
    obtain ⟨rule, more, -, hmore, rfl⟩ := rulesOf_cons_eq_ok_iff.mp h
    obtain ⟨front, back, hback, rfl⟩ := ih hmore
    exact ⟨rule.toList ++ front, back, hback, (List.append_assoc _ _ _).symm⟩

/-- Every rule of a file stands in a line of it. -/
theorem exists_line_of_mem {lines : List (List Char)} {rules : List Rule} {rule : Rule}
    (h : rulesOf file lines = .ok rules) (hrule : rule ∈ rules) :
    ∃ line ∈ lines, ruleOf? file line = .ok (some rule) := by
  induction lines generalizing rules with
  | nil =>
    cases h
    cases hrule
  | cons line rest ih =>
    obtain ⟨here, more, hhere, hmore, rfl⟩ := rulesOf_cons_eq_ok_iff.mp h
    rcases List.mem_append.mp hrule with hmem | hmem
    · exact ⟨line, List.mem_cons_self, Option.mem_toList.mp hmem ▸ hhere⟩
    · obtain ⟨later, hlater, hrule⟩ := ih hmore hmem
      exact ⟨later, List.mem_cons_of_mem line hlater, hrule⟩

/-- A rule that speaks about a path, and stands in the last line of an ignore file that has such a
rule. -/
structure IsLastRule (file : Path) (lines : List (List Char)) (path : Path) (rule : Rule) : Prop where
  applies : rule.appliesTo false path = true
  last : ∃ before line after, lines = before ++ line :: after ∧ ruleOf? file line = .ok (some rule) ∧
    ∀ later ∈ after, ∀ other, ruleOf? file later = .ok (some other) →
      other.appliesTo false path = false

theorem IsLastRule.lastRule?_eq {lines : List (List Char)} {rule : Rule} {rules : List Rule}
    (h : IsLastRule file lines path rule) (hrules : rulesOf file lines = .ok rules) :
    lastRule? rules false path = some rule := by
  obtain ⟨before, line, after, rfl, hline, hafter⟩ := h.last
  obtain ⟨front, back, hback, rfl⟩ := exists_rulesOf_append hrules
  obtain ⟨_, more, hhere, hmore, rfl⟩ := rulesOf_cons_eq_ok_iff.mp hback
  cases hline.symm.trans hhere
  refine lastRule?_of_last h.applies front fun other hother => ?_
  obtain ⟨later, hmem, hother⟩ := exists_line_of_mem hmore hother
  exact hafter later hmem other hother

/-! ## §3 The nearest ignore file -/

/-- The directories whose ignore files hold below a root are those above, without those above the
root. -/
theorem chain_eq_filter (h : d.startsWith root = true) :
    chain d root = (d.ancestors.filter (·.startsWith root)).reverse := by
  induction d using Path.induction_parent with
  | none d hnone =>
    have hchain : chain d root = [d] := by
      unfold chain
      rw [Path.ancestors_of_none hnone]
      cases hsame : d.same root <;> simp [hsame]
    rw [hchain, Path.ancestors_of_none hnone,
      List.filter_cons_of_pos (p := fun b : Path => b.startsWith root) h]
    rfl
  | some d q hq ih =>
    have hprefix := List.isPrefixOf_iff_prefix.mp h
    rw [Path.ancestors_of_parent hq,
      List.filter_cons_of_pos (p := fun b : Path => b.startsWith root) h, List.reverse_cons]
    by_cases hsame : d.same root = true
    · -- what is above the root has fewer components
      have hshorter := Path.ancestors_pairwise d
      rw [Path.ancestors_of_parent hq, List.pairwise_cons] at hshorter
      have hnone : q.ancestors.filter (·.startsWith root) = [] := by
        rw [List.filter_eq_nil_iff]
        intro a ha hstart
        have hlength := (List.isPrefixOf_iff_prefix.mp hstart).length_le
        rw [← beq_iff_eq.mp hsame] at hlength
        exact absurd (hshorter.1 a ha) (Nat.not_lt.mpr hlength)
      rw [chain_of_same hsame, hnone]
      rfl
    · have hq' : q.startsWith root = true := by
        obtain ⟨rest, hrest⟩ := hprefix
        have hne : rest ≠ [] := by
          rintro rfl
          exact hsame (beq_iff_eq.mpr (by rw [← hrest, List.append_nil]))
        refine List.isPrefixOf_iff_prefix.mpr ?_
        rw [(Path.parent?_eq_some hq).components, ← hrest, List.dropLast_append_of_ne_nil hne]
        exact List.prefix_append _ _
      rw [chain_of_parent (eq_false_of_ne_true hsame) hq, ih hq']

/-- The nearest directory with an ignore file, on the way from a root to a directory below it. -/
structure IsNearest (tree : FileTree) (cwd : Place) (d root a : Path) : Prop where
  above : a ∈ d.ancestors
  inside : a.startsWith root = true
  isFile : tree.isFile cwd (a.join (.ofString fileName)) = true
  nearer : ∀ b ∈ d.ancestors, a.components.length < b.components.length →
    tree.isFile cwd (b.join (.ofString fileName)) = false

theorem IsNearest.startsWith (h : IsNearest tree cwd d root a) : d.startsWith root = true := by
  have hprefix := Path.components_prefix_of_mem_ancestors h.above
  exact List.isPrefixOf_iff_prefix.mpr ((List.isPrefixOf_iff_prefix.mp h.inside).trans hprefix)

/-- The nearest ignore file is read last. -/
theorem IsNearest.ignoreFiles_eq (h : IsNearest tree cwd d root a) :
    ∃ outer, ignoreFiles tree cwd d root = outer ++ [a.join (.ofString fileName)] := by
  obtain ⟨nearer, farther, habove⟩ := List.append_of_mem h.above
  have hpairwise := Path.ancestors_pairwise d
  rw [habove, List.pairwise_append] at hpairwise
  -- what is nearer has no ignore file
  have hnone : ((nearer.filter (·.startsWith root)).reverse.map
      (·.join (.ofString fileName))).filter (tree.isFile cwd) = [] := by
    rw [List.filter_eq_nil_iff]
    intro file hfile
    obtain ⟨b, hb, rfl⟩ := List.mem_map.mp hfile
    have hmem := List.mem_of_mem_filter (List.mem_reverse.mp hb)
    have hlonger := hpairwise.2.2 b hmem a List.mem_cons_self
    rw [h.nearer b (habove ▸ List.mem_append_left _ hmem) hlonger]
    exact Bool.false_ne_true
  rw [ignoreFiles, chain_eq_filter h.startsWith, habove, List.filter_append,
    List.filter_cons_of_pos (p := fun b : Path => b.startsWith root) h.inside, List.reverse_append,
    List.reverse_cons, List.map_append, List.map_append, List.filter_append, List.filter_append,
    hnone, List.append_nil, List.map_singleton, List.filter_cons_of_pos h.isFile]
  exact ⟨_, rfl⟩

/-! ## §4 What decides -/

variable {workspace p : Path}

theorem rootFor_of_startsWith (h : d.startsWith workspace = true) : rootFor d workspace = workspace :=
  if_pos h

/-- The rules that hold in a directory are those for every workspace, then those of its ignore
files. -/
theorem exists_of_rulesIn {rules : List Rule} (h : rulesIn s tree d workspace = .ok rules) :
    ∃ everywhere inner, (readAll tree s.cwd (fun file => .detail s!"Loading {fileName} file: {file}")
        (ignoreFiles tree s.cwd d (rootFor d workspace))).1 = .ok inner ∧
      rules = everywhere ++ inner := by
  rw [rulesIn] at h
  split at h
  · cases h
  · next everywhere hglobal =>
    split at h
    · cases h
    · next inner hinner =>
      split at h
      · cases h
      · cases h
        exact ⟨everywhere, inner, hinner, rfl⟩

/-- The rules that are loaded end with those of the nearest ignore file. -/
theorem IsNearest.exists_rules {rules : List Rule} (h : IsNearest tree s.cwd d workspace a)
    (hrules : rulesIn s tree d workspace = .ok rules) :
    ∃ front back, readRules tree s.cwd (a.join (.ofString fileName)) = .ok back ∧
      rules = front ++ back := by
  obtain ⟨outer, hfiles⟩ := h.ignoreFiles_eq
  obtain ⟨everywhere, inner, hinner, rfl⟩ := exists_of_rulesIn hrules
  rw [rootFor_of_startsWith h.startsWith, hfiles] at hinner
  obtain ⟨front, last, -, hlast, rfl⟩ := readAll_append_eq_ok_iff.mp hinner
  obtain ⟨back, none, hback, hnone, rfl⟩ := readAll_cons_eq_ok_iff.mp hlast
  cases hnone
  refine ⟨everywhere ++ front, back, hback, ?_⟩
  rw [List.append_nil, List.append_assoc]

/-- Both trees show the same ignore files in the directories on the way from the workspace to `d`,
and the same file for every workspace. -/
structure SameOnWay (s : Surroundings) (tree tree' : FileTree) (workspace d : Path) : Prop where
  everywhere : ∀ text ∈ s.ignoreVariable,
    tree'.look? s.cwd (.ofString text) = tree.look? s.cwd (.ofString text)
  onWay : ∀ a ∈ d.ancestors, a.startsWith workspace = true →
    tree'.look? s.cwd (a.join (.ofString fileName)) = tree.look? s.cwd (a.join (.ofString fileName))

/-- Ignore files elsewhere are not read. -/
theorem SameOnWay.load (h : SameOnWay s tree tree' workspace d) (hd : d.startsWith workspace = true)
    (list : IgnoreList) : (load s tree' list d workspace).1.toOption =
      (IgnoreList.load s tree list d workspace).1.toOption := by
  have hfiles : List.Forall₂ (fun file file' => tree.look? s.cwd file = tree'.look? s.cwd file')
      ((chain d workspace).map (·.join (.ofString fileName)))
      ((chain d workspace).map (·.join (.ofString fileName))) := by
    rw [List.forall₂_map_left_iff, List.forall₂_map_right_iff, List.forall₂_same]
    intro a ha
    rw [chain_eq_filter hd, List.mem_reverse] at ha
    obtain ⟨habove, hstart⟩ := List.mem_filter.mp ha
    exact (h.onWay a habove hstart).symm
  have hrules : (rulesIn s tree d workspace).toOption = (rulesIn s tree' d workspace).toOption := by
    rw [toOption_rulesIn_eq, toOption_rulesIn_eq, toOption_globalRules h.everywhere,
      rootFor_of_startsWith hd, ignoreFiles, ignoreFiles, toOption_readAll hfiles]
  rw [load_eq, load_eq]
  generalize rulesIn s tree d workspace = rules at hrules
  generalize rulesIn s tree' d workspace = rules' at hrules
  cases rules <;> cases rules' <;> cases hrules <;> rfl

/-- The last rule of the nearest ignore file that speaks about a file decides whether it is ignored,
unless a glob of the run matches it.  What stands in outer ignore files and in the one for every
workspace makes no difference, and what stands above the workspace or beside the way is not read. -/
theorem nearest_file_decides {list loaded : IgnoreList} {text : List Char} {rule : Rule}
    (hload : (load s tree list d workspace).1 = .ok loaded)
    (hglobs : ∀ glob ∈ list.globs, glob.accepts p.text = false)
    (hnearest : IsNearest tree s.cwd d workspace a)
    (htext : readText tree s.cwd (a.join (.ofString fileName)) = .ok text)
    (hseen : seenFrom? workspace p = some path)
    (hrule : IsLastRule (a.join (.ofString fileName)) (Text.lines text) path rule) :
    loaded.ignores p = !rule.keeps ∧
      ∀ tree', SameOnWay s tree tree' workspace d →
        (load s tree' list d workspace).1 = .ok loaded := by
  have hd := hnearest.startsWith
  constructor
  · rw [load_eq, rootFor_of_startsWith hd] at hload
    cases hrules : rulesIn s tree d workspace with
    | error e =>
      rw [hrules] at hload
      cases hload
    | ok rules =>
      rw [hrules] at hload
      cases hload
      obtain ⟨front, back, hback, rfl⟩ := hnearest.exists_rules hrules
      rw [readRules, htext] at hback
      have hdecides := decidingRule?_of_lastRule? (hrule.lastRule?_eq hback) front
      have hignores : Loaded.ignores { root := workspace, rules := front ++ back } p = !rule.keeps := by
        rw [Loaded.ignores_eq, hseen, Option.bind_some, hdecides]
        rfl
      have hfree : list.globs.any (·.accepts p.text) = false := by
        rw [List.any_eq_false]
        intro glob hglob
        rw [hglobs glob hglob]
        exact Bool.false_ne_true
      rw [ignores, cause?]
      simp only [hfree, hignores, Bool.false_eq_true, if_false]
      cases rule.keeps <;> rfl
  · intro tree' hsame
    have hoption := hsame.load hd list
    rw [hload] at hoption
    generalize (IgnoreList.load s tree' list d workspace).1 = result at hoption
    cases result <;> cases hoption
    rfl

/-- A directory `/w/d` whose ignore file keeps what that of `/w`, and the one for every workspace,
ignore.  The ignore file above `/w` cannot be read as rules. -/
def keptTree : FileTree :=
  let holding (text : String) : Node := .file (Encoding.Utf8.encode text.toList)
  ⟨[(fileName.toList, holding "\x7b\n"), (['g'], holding "*.cpp\n"),
    (['w'], .directory [(fileName.toList, holding "*.cpp\n"),
      (['d'], .directory [(fileName.toList, holding "# kept\n\n!a.cpp\n")])])]⟩

/-- The file `/g` holds for every workspace. -/
def keptSurroundings : Surroundings := { cwd := [], ignoreVariable := some "/g" }

/-- The rule in the line `*.cpp`. -/
def cppRule : Rule :=
  { glob := ⟨Rule.globOptions, [.leadingDirectories, .anyRun] ++ ".cpp".toList.map .literal⟩
    keeps := false, directoriesOnly := false }

/-- The rule in the line `!a.cpp`. -/
def keptRule : Rule :=
  { glob := Glob.framed Rule.globOptions true false "a.cpp".toList
    keeps := true, directoriesOnly := false }

/-- The directory in which the file is kept. -/
def keptDirectory : Path := ⟨['/', 'w', '/', 'd']⟩

theorem keptDirectory_isNearest : IsNearest keptTree [] keptDirectory ⟨['/', 'w']⟩ keptDirectory where
  above := Path.self_mem_ancestors keptDirectory
  inside := by decide
  isFile := by cbv
  nearer b hb hlonger :=
    absurd hlonger (Nat.not_lt.mpr (Path.components_prefix_of_mem_ancestors hb).length_le)

theorem kept_isLastRule : IsLastRule (keptDirectory.join (.ofString fileName))
    (Text.lines "# kept\n\n!a.cpp\n".toList) (.ofString "d/a.cpp") keptRule where
  applies := by cbv
  last := ⟨["# kept".toList, []], "!a.cpp".toList, [], by cbv, by cbv, by simp⟩

/-- Two outer files ignore the file, the nearest one keeps it. -/
theorem nearest_file_keeps :
    IsNearest keptTree [] keptDirectory ⟨['/', 'w']⟩ keptDirectory ∧
      ∃ loaded, (load keptSurroundings keptTree { globs := [] } keptDirectory ⟨['/', 'w']⟩).1 =
          .ok loaded ∧
        loaded.ignores (.ofString "/w/d/a.cpp") = false := by
  have hload : (load keptSurroundings keptTree { globs := [] } keptDirectory ⟨['/', 'w']⟩).1 =
      .ok { globs := []
            loaded := some { root := ⟨['/', 'w']⟩, rules := [cppRule, cppRule, keptRule] } } := by
    cbv
  have hseen : seenFrom? ⟨['/', 'w']⟩ (.ofString "/w/d/a.cpp") = some (.ofString "d/a.cpp") := by cbv
  exact ⟨keptDirectory_isNearest, _, hload,
    (nearest_file_decides hload (by simp) keptDirectory_isNearest (by cbv) hseen kept_isLastRule).1⟩

end IgnoreList

end MarkerBlock
