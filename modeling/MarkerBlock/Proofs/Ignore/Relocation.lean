/-
MarkerBlock.Proofs.Ignore.Relocation — the ignore files of a copy.

The ignore files that hold in a directory below a root are looked for in the directories
from the root down to it (`chain_below`), and nowhere above.  Where they stay in a copy of a
directory, they show what is in the copy (`Copy.look?_ignoreFiles`), and so the same rules hold
in every copy (`toOption_rulesIn_relocated`).  Rules see a file below an absolute root as the
names that lead there (`seenFrom?_below`).
-/
import Mathlib
import MarkerBlock.Proofs.FileTree.Copy
import MarkerBlock.Proofs.Ignore.Loading

namespace MarkerBlock

/-! ## §1 From a root down -/

namespace IgnoreList

open Ignore

/-- A directory on the way from a root to a directory below it: the names that lead there, and a
text that is not longer than that of the directory. -/
structure IsOnWay (root directory : Path) (names : Place) (a : Path) (front : Place) : Prop where
  part : front <+: names
  components : a.components = root.components ++ front.map .name
  text : a.text <+: directory.text

theorem chain_of_parent {d q root : Path} (h : d.same root = false) (hq : d.parent? = some q) :
    chain d root = chain q root ++ [d] := by
  unfold chain
  simp [Path.ancestors_of_parent hq, h]

/-- The directories whose ignore files hold below a root are those on the way from it. -/
theorem chain_below {root d : Path} {names : Place}
    (hd : d.components = root.components ++ names.map .name) :
    List.Forall₂ (IsOnWay root d names) (chain d root) names.inits := by
  induction names using List.reverseRecOn generalizing d with
  | nil =>
    have hsame : d.same root = true := by simp [Path.same, hd]
    rw [chain_of_same hsame]
    exact .cons ⟨List.prefix_rfl, hd, List.prefix_rfl⟩ .nil
  | append_singleton front x ih =>
    obtain ⟨q, hq, hcomponents, htext⟩ := Path.parent?_of_names hd
    have hsame : d.same root = false := by simp [Path.same, hd]
    have hinits : (front ++ [x]).inits = front.inits ++ [front ++ [x]] := by
      rw [List.inits_append]
      rfl
    rw [chain_of_parent hsame hq, hinits]
    have hlast : IsOnWay root d (front ++ [x]) d (front ++ [x]) :=
      ⟨List.prefix_rfl, hd, List.prefix_rfl⟩
    refine List.rel_append ((ih hcomponents).imp ?_) (.cons hlast .nil)
    intro a before ha
    exact ⟨ha.part.trans (List.prefix_append front [x]), ha.components, ha.text.trans htext⟩

/-! ## §2 The same rules -/

variable {s s' : Surroundings} {tree tree' : FileTree} {root root' d d' a : Path} {spare : Nat}
  {place place' names front : Place} {inner : Entries}

/-- The path of an ignore file is taken by the file system if that in the innermost directory is. -/
theorem IsOnWay.writes (ha : IsOnWay root d names a front)
    (hfault : FileTree.textFault? (d.join (.ofString fileName)) = none) :
    FileTree.Writes root (front ++ [fileName.toList]) (a.join (.ofString fileName)) where
  components := by
    have hjoin := isPlain_fileName.components_join a
    rw [ha.components, List.append_assoc] at hjoin
    rw [List.map_append]
    exact hjoin
  ending := FileTree.endsInName_join isPlain_fileName a
  fault := FileTree.textFault?_join_of_prefix isPlain_fileName ha.text hfault

/-- The ignore files that hold in a directory of `inner` do not lead out of it. -/
def KeepInside (inner : Entries) (spare : Nat) (names : Place) : Prop :=
  ∀ front, front <+: names →
    FileTree.Stays .see spare (FileTree.mk inner).cursor (front ++ [fileName.toList])

/-- A directory of a copy, in which the path of an ignore file is taken by the file system. -/
structure IsInCopy (tree : FileTree) (root : Path) (spare : Nat) (place : Place) (inner : Entries)
    (names : Place) (d : Path) : Prop where
  copy : tree.Copy root spare place inner
  components : d.components = root.components ++ names.map .name
  fault : FileTree.textFault? (d.join (.ofString fileName)) = none

/-- The ignore files that hold in a directory of a copy show what is in the copy. -/
theorem IsInCopy.look? (h : IsInCopy tree root spare place inner names d)
    (hinside : KeepInside inner spare names) (cwd : Place) :
    (chain d root).map (fun a => tree.look? cwd (a.join (.ofString fileName))) =
      names.inits.map fun front =>
        (FileTree.seen inner .see spare (front ++ [fileName.toList])).toOption.map Node.face := by
  rw [← List.forall₂_eq_eq_eq, List.forall₂_map_left_iff, List.forall₂_map_right_iff]
  refine (chain_below h.components).imp ?_
  intro a front ha
  exact h.copy.look? (ha.writes h.fault) (by simp) (hinside front ha.part) cwd

/-- No ignore file holds for every workspace. -/
def HasNoGlobalFile (s : Surroundings) (tree : FileTree) : Prop :=
  ∀ text ∈ s.ignoreVariable, tree.look? s.cwd (.ofString text) = none

theorem HasNoGlobalFile.globalRules (h : HasNoGlobalFile s tree) :
    (globalRules s tree).1 = .ok [] := by
  unfold IgnoreList.globalRules
  cases hvariable : s.ignoreVariable with
  | none => rfl
  | some text =>
    have hpresent := FileTree.isPresent_of_look?_eq_none (h text hvariable)
    simp only [hpresent, Bool.false_eq_true, if_false]

theorem IsInCopy.rootFor (h : IsInCopy tree root spare place inner names d) :
    rootFor d root = root := by
  have hstart : d.startsWith root = true := by
    rw [Path.startsWith, h.components]
    exact List.isPrefixOf_iff_prefix.mpr (List.prefix_append _ _)
  rw [IgnoreList.rootFor, if_pos hstart]

/-- The same rules hold in a directory of two copies. -/
theorem toOption_rulesIn_relocated (h : IsInCopy tree root spare place inner names d)
    (h' : IsInCopy tree' root' spare place' inner names d') (hinside : KeepInside inner spare names)
    (hglobal : HasNoGlobalFile s tree) (hglobal' : HasNoGlobalFile s' tree') :
    (rulesIn s tree d root).toOption = (rulesIn s' tree' d' root').toOption := by
  have hfiles : List.Forall₂ (fun file file' => tree.look? s.cwd file = tree'.look? s'.cwd file')
      ((chain d root).map (·.join (.ofString fileName)))
      ((chain d' root').map (·.join (.ofString fileName))) := by
    rw [List.forall₂_map_left_iff, List.forall₂_map_right_iff]
    have hlook := (h.look? hinside s.cwd).trans (h'.look? hinside s'.cwd).symm
    rwa [← List.forall₂_eq_eq_eq, List.forall₂_map_left_iff, List.forall₂_map_right_iff] at hlook
  rw [toOption_rulesIn_eq, toOption_rulesIn_eq, hglobal.globalRules, hglobal'.globalRules, h.rootFor,
    h'.rootFor, ignoreFiles, ignoreFiles, toOption_readAll hfiles]

/-! ## §3 The same decisions -/

/-- Rules see a file below an absolute root as the names that lead there. -/
theorem seenFrom?_below (hroot : root.isAbsolute = true) (hne : names ≠ [])
    (hnames : ∀ name ∈ names, Path.IsPlain name) :
    seenFrom? root (root.below names) = some (.ofShape .nothing names) := by
  have habs := Path.isAbsolute_of_below (Path.components_below hnames root) hroot
  have hstrip := Path.stripPrefix?_below hroot hne hnames
  rw [seenFrom?, if_pos habs, hstrip, Option.map_some,
    underRoot_of_isAbsolute hroot (Path.stripPrefix?_isRelative hroot hstrip)]

theorem ignores_below (hroot : root.isAbsolute = true) (hne : names ≠ [])
    (hnames : ∀ name ∈ names, Path.IsPlain name) (rules : List Rule) :
    Loaded.ignores { root, rules } (root.below names) =
      (decidingRule? rules (.ofShape .nothing names)).any (!·.keeps) := by
  rw [Loaded.ignores_eq, seenFrom?_below hroot hne hnames, Option.bind_some]

/-- The same rules ignore the same files in two places. -/
theorem cause?_relocated (hroot : root.isAbsolute = true) (hroot' : root'.isAbsolute = true)
    (hne : names ≠ []) (hnames : ∀ name ∈ names, Path.IsPlain name) (rules : List Rule) :
    (cause? { globs := [], loaded := some { root, rules } } (root.below names)).isSome =
      (cause? { globs := [], loaded := some { root := root', rules } }
        (root'.below names)).isSome := by
  have hignores := (ignores_below hroot hne hnames rules).trans
    (ignores_below hroot' hne hnames rules).symm
  unfold cause?
  simp only [List.any_nil, Bool.false_eq_true, if_false, hignores]
  split <;> rfl

end IgnoreList

end MarkerBlock
