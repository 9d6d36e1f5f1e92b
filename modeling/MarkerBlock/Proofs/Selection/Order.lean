/-
MarkerBlock.Proofs.Selection.Order — selected files stand in the order of paths, none twice.

The order of components is a linear order (§1), so sorting by it and dropping every path
that is the same as the one before leaves a strictly increasing list (§2).
-/
import Mathlib
import MarkerBlock.Proofs.Selection

namespace MarkerBlock

/-! ## §1 The order of paths -/

namespace Path

/-- Names are ordered character by character. -/
theorem compareNames_eq : compareNames = List.compareLex (compareOn Char.toNat) := by
  funext a b
  induction a generalizing b with
  | nil => cases b <;> rfl
  | cons c rest ih =>
    cases b with
    | nil => rfl
    | cons d rest' => rw [compareNames, List.compareLex_cons_cons, ih, compareOn]

instance : Std.LawfulEqCmp (compareOn Char.toNat) where
  compare_self := Std.ReflCmp.compare_self
  eq_of_compare h := Char.toNat_inj.mp (Std.LawfulEqCmp.eq_of_compare h)

instance : Std.TransCmp compareNames := by
  rw [compareNames_eq]
  infer_instance

instance : Std.LawfulEqCmp compareNames := by
  rw [compareNames_eq]
  infer_instance

/-- Components are ordered by rank, and names by their text. -/
theorem Component.cmp_eq :
    Component.cmp = compareLex (compareOn Component.rank) fun a b => compareNames a.text b.text := by
  funext a b
  cases a <;> cases b <;> rfl

instance : Std.TransCmp fun a b : Component => compareNames a.text b.text where
  eq_swap := Std.OrientedCmp.eq_swap
  isLE_trans := Std.TransCmp.isLE_trans

instance : Std.TransCmp Component.cmp := by
  rw [Component.cmp_eq]
  infer_instance

instance : Std.LawfulEqCmp Component.cmp where
  compare_self := Std.ReflCmp.compare_self
  eq_of_compare {a b} h := by
    rw [Component.cmp_eq, compareLex, Ordering.then_eq_eq] at h
    have hrank : a.rank = b.rank := Std.LawfulEqCmp.eq_of_compare h.1
    have htext : a.text = b.text := Std.LawfulEqCmp.eq_of_compare h.2
    cases a <;> cases b <;> first
      | rfl
      | exact congrArg Component.name htext
      | exact absurd hrank (by simp [Component.rank])

theorem compareComponents_eq : compareComponents = List.compareLex Component.cmp := by
  funext a b
  induction a generalizing b with
  | nil => cases b <;> rfl
  | cons c rest ih =>
    cases b with
    | nil => rfl
    | cons d rest' => rw [compareComponents, List.compareLex_cons_cons, ih]

instance : Std.TransCmp compareComponents := by
  rw [compareComponents_eq]
  infer_instance

instance : Std.LawfulEqCmp compareComponents := by
  rw [compareComponents_eq]
  infer_instance

/-- A path with these components stands before one with those. -/
def Precedes (cs ds : List Component) : Prop := compareComponents cs ds = .lt

instance : Std.Asymm Precedes where
  asymm cs ds hlt hgt := by
    rw [Precedes, Std.OrientedCmp.gt_of_lt hlt] at hgt
    cases hgt

/-- Of two paths in order, the first is not the second. -/
theorem not_same_of_cmp {p q : Path} (h : p.cmp q = .lt) : p.same q = false := by
  rw [same, beq_eq_false_iff_ne]
  intro hsame
  have hself : compareComponents q.components q.components = .eq := Std.ReflCmp.compare_self
  rw [cmp, hsame, hself] at h
  cases h

end Path

/-! ## §2 Sorting -/

namespace Selection

/-- One path stands before another. -/
def Keyed.Before (p q : Keyed) : Prop := Path.compareComponents p.1 q.1 = .lt

/-- In a list in order, no path that is left stands after one that is left later. -/
theorem pairwise_dropRepeats {l : List Keyed}
    (h : l.Pairwise fun p q => (Path.compareComponents p.1 q.1).isLE = true) :
    (dropRepeats l).Pairwise Keyed.Before := by
  induction l with
  | nil => exact .nil
  | cons first rest ih =>
    obtain ⟨hfirst, hrest⟩ := List.pairwise_cons.mp h
    have hkept := ih hrest
    have hsubset := dropRepeats_subset rest
    rw [dropRepeats]
    cases hdropped : dropRepeats rest with
    | nil => exact List.pairwise_singleton _ _
    | cons next kept =>
      rw [hdropped] at hkept hsubset
      obtain ⟨hnext, hothers⟩ := List.pairwise_cons.mp hkept
      have hle := hfirst next (hsubset List.mem_cons_self)
      simp only
      split
      · next hsame =>
        rw [beq_iff_eq] at hsame
        refine List.pairwise_cons.mpr ⟨fun q hq => ?_, hothers⟩
        rw [Keyed.Before, hsame]
        exact hnext q hq
      · next hdiffers =>
        have hlt : first.Before next := by
          rw [Keyed.Before]
          cases hcmp : Path.compareComponents first.1 next.1 with
          | lt => rfl
          | eq => exact absurd (beq_iff_eq.mpr (Std.LawfulEqCmp.eq_of_compare hcmp)) hdiffers
          | gt =>
            rw [hcmp] at hle
            cases hle
        refine List.pairwise_cons.mpr ⟨?_, hkept⟩
        intro q hq
        rcases List.mem_cons.mp hq with rfl | hq
        · exact hlt
        · exact Std.TransCmp.lt_trans hlt (hnext q hq)

theorem pairwise_inOrder (paths : List Path) :
    (inOrder paths).Pairwise fun p q => (Path.compareComponents p.1 q.1).isLE = true := by
  have hle (p q : Keyed) : (Path.compareComponents p.1 q.1 != .gt) = true ↔
      (Path.compareComponents p.1 q.1).isLE = true := by
    cases Path.compareComponents p.1 q.1 <;> decide
  refine (List.pairwise_mergeSort ?_ ?_ _).imp fun {p q} => (hle p q).mp
  · intro p q r hpq hqr
    exact (hle p r).mpr (Std.TransCmp.isLE_trans ((hle p q).mp hpq) ((hle q r).mp hqr))
  · intro p q
    have hswap : Path.compareComponents p.1 q.1 = (Path.compareComponents q.1 p.1).swap :=
      Std.OrientedCmp.eq_swap
    rw [hswap]
    cases Path.compareComponents q.1 p.1 <;> decide

/-- Sorted paths stand in their order, each before the next and none twice. -/
theorem pairwise_sorted (paths : List Path) :
    (sorted paths).Pairwise fun p q => p.cmp q = .lt := by
  have hkey : ∀ k ∈ dropRepeats (inOrder paths), k.1 = k.2.components :=
    fun k hk => (mem_inOrder.mp (dropRepeats_subset _ hk)).2
  rw [sorted_eq, List.pairwise_map]
  refine (pairwise_dropRepeats (pairwise_inOrder paths)).imp_of_mem ?_
  intro p q hp hq hbefore
  rw [Keyed.Before, hkey p hp, hkey q hq] at hbefore
  exact hbefore

theorem pairwise_select {s : Surroundings} {tree : FileTree} {patterns : List String}
    {found : Found} (h : select s tree patterns = .ok found) :
    found.paths.Pairwise fun p q => p.cmp q = .lt := by
  rw [select] at h
  split at h
  · cases h
  · cases h
    exact pairwise_sorted _

/-! ## §3 What several patterns select -/

/-- Of the same paths there is one list in order, up to how they are written. -/
theorem components_eq_of_pairwise {paths paths' : List Path}
    (h : paths.Pairwise fun p q => p.cmp q = .lt) (h' : paths'.Pairwise fun p q => p.cmp q = .lt)
    (hsame : ∀ r : Path, (∃ p ∈ paths, p.components = r.components) ↔
      ∃ p ∈ paths', p.components = r.components) :
    paths.map Path.components = paths'.map Path.components := by
  have hbefore : (paths.map Path.components).Pairwise Path.Precedes := List.pairwise_map.mpr h
  have hbefore' : (paths'.map Path.components).Pairwise Path.Precedes := List.pairwise_map.mpr h'
  refine hbefore.eq_of_mem_iff hbefore' fun cs => ?_
  rw [List.mem_map, List.mem_map]
  constructor
  · rintro ⟨p, hp, rfl⟩
    exact (hsame p).mp ⟨p, hp, rfl⟩
  · rintro ⟨p, hp, rfl⟩
    exact (hsame p).mpr ⟨p, hp, rfl⟩

/-- What patterns select is what each of them selects alone. -/
theorem selects_iff_alone {s : Surroundings} {tree : FileTree} {patterns : List String}
    {found : Found} (h : select s tree patterns = .ok found) {p : Path} :
    Selects found p ↔ ∃ pattern ∈ patterns, ∃ one,
      select s tree [pattern] = .ok one ∧ Selects one p := by
  have hreads := exists_select_iff.mp ⟨found, h⟩
  rw [selects_iff h]
  constructor
  · rintro ⟨pattern, hpattern, hstands⟩
    obtain ⟨one, hone⟩ :=
      exists_select_iff.mpr (List.forall_mem_singleton.mpr (hreads pattern hpattern))
    exact ⟨pattern, hpattern, one, hone,
      (selects_iff hone).mpr ⟨pattern, List.mem_singleton.mpr rfl, hstands⟩⟩
  · rintro ⟨pattern, hpattern, one, hone, hp⟩
    obtain ⟨_, honly, hstands⟩ := (selects_iff hone).mp hp
    rw [List.mem_singleton.mp honly] at hstands
    exact ⟨pattern, hpattern, hstands⟩

theorem isAbsolute_of_mem_select {s : Surroundings} {tree : FileTree} {patterns : List String}
    {found : Found} (h : select s tree patterns = .ok found) {p : Path} (hp : p ∈ found.paths) :
    p.isAbsolute = true := by
  rw [select] at h
  split at h
  · cases h
  · cases h
    obtain ⟨q, -, rfl⟩ := List.mem_map.mp (sorted_subset _ hp)
    exact Path.isAbsolute_absoluteFrom q rfl

theorem exists_select_error_iff {s : Surroundings} {tree : FileTree} {patterns : List String} :
    (∃ e, select s tree patterns = .error e) ↔
      ∃ pattern ∈ patterns, ¬∃ more, ofPattern tree s.cwd pattern = .ok more := by
  have hread : (∃ found, select s tree patterns = .ok found) ↔
      ∀ pattern ∈ patterns, ∃ more, ofPattern tree s.cwd pattern = .ok more := exists_select_iff
  rw [← not_iff_not]
  push Not
  rw [← hread]
  cases select s tree patterns <;> simp

/-- Files are selected in order, once each, and in whatever order patterns are given.  If patterns
can be read, what they select is absolute and stands in the strict order of paths, component by
component, so no two are the same path; and it is what the patterns select one by one.  Patterns
cannot be read exactly if one of them cannot.  The same patterns in another order, or repeated,
can be read or not as they can, and select the same list, up to how its paths are written. -/
theorem select_order_free (s : Surroundings) (tree : FileTree) (patterns : List String) :
    (∀ found, select s tree patterns = .ok found →
      (∀ p ∈ found.paths, p.isAbsolute = true) ∧
      found.paths.Pairwise (fun p q => p.cmp q = .lt ∧ p.same q = false) ∧
      ∀ p, Selects found p ↔ ∃ pattern ∈ patterns, ∃ one,
        select s tree [pattern] = .ok one ∧ Selects one p) ∧
    ((∃ e, select s tree patterns = .error e) ↔
      ∃ pattern ∈ patterns, ∃ e, select s tree [pattern] = .error e) ∧
    ∀ others, (∀ pattern, pattern ∈ others ↔ pattern ∈ patterns) →
      ((∃ e, select s tree others = .error e) ↔ ∃ e, select s tree patterns = .error e) ∧
      ∀ found found', select s tree patterns = .ok found → select s tree others = .ok found' →
        found'.paths.map Path.components = found.paths.map Path.components := by
  refine ⟨fun found h => ⟨fun p => isAbsolute_of_mem_select h, ?_, fun p => selects_iff_alone h⟩, ?_,
    fun others hsame => ⟨?_, fun found found' h h' => ?_⟩⟩
  · exact (pairwise_select h).imp fun hlt => ⟨hlt, Path.not_same_of_cmp hlt⟩
  · simp only [exists_select_error_iff, List.mem_singleton, exists_eq_left]
  · simp only [exists_select_error_iff, hsame]
  · refine components_eq_of_pairwise (pairwise_select h') (pairwise_select h) fun r => ?_
    have hselects : Selects found' r ↔ Selects found r := by
      simp only [selects_iff h', selects_iff h, hsame]
    exact hselects

/-- A directory whose listing names the later of two files first. -/
def twoBelow : FileTree := ⟨[(['d'], .directory [(['b'], .file []), (['a'], .file [])])]⟩

-- Every pattern of these finds the file `b`, under one spelling or another.
example : (select Job.atRoot twoBelow ["/d/b", "d/*", "d"]).toOption.map (·.paths) =
    some [.ofString "/d/a", .ofString "/d/b"] := by cbv

example : (select Job.atRoot twoBelow ["d", "d//b", "/d/*", "d"]).toOption.map (·.paths) =
    some [.ofString "/d/a", .ofString "/d/b"] := by cbv

end Selection

end MarkerBlock
