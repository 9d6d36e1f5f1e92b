/-
MarkerBlock.Proofs.Path.Below — the paths of names below a path.

`below` puts names after a path, one after another, as a walk through a directory does.
Its components are those of the path and the names.  Seen from an absolute path, what is
below it is just the names (`relativeTo_below`), wherever the path is: this is what makes
anything that is decided about relative paths independent of the place of a workspace.
-/
import Mathlib
import MarkerBlock.FileTree.Basic
import MarkerBlock.Proofs.Path

namespace MarkerBlock.Path

/-! ## §1 Names after a path -/

/-- The path of names below a path. -/
def below (p : Path) (names : Place) : Path := names.foldl (fun p name => p.join ⟨name⟩) p

theorem below_cons (p : Path) (name : List Char) (rest : Place) :
    p.below (name :: rest) = (p.join ⟨name⟩).below rest := rfl

theorem below_concat (p : Path) (front : Place) (name : List Char) :
    p.below (front ++ [name]) = (p.below front).join ⟨name⟩ := by
  simp [below]

theorem IsPlain.text_prefix_join {x : List Char} (hx : IsPlain x) (p : Path) :
    p.text <+: (p.join ⟨x⟩).text := by
  rcases hx.join p with ⟨htext, hjoin⟩ | ⟨base, htext, hjoin⟩ | ⟨-, hjoin⟩
  · rw [htext]
    exact List.nil_prefix
  · rw [htext, hjoin]
    exact ⟨x, by simp⟩
  · rw [hjoin]
    exact List.prefix_append _ _

section names

variable {names : Place} (hnames : ∀ name ∈ names, IsPlain name)
include hnames

theorem text_prefix_below (p : Path) : p.text <+: (p.below names).text := by
  induction names generalizing p with
  | nil => exact List.prefix_rfl
  | cons name rest ih =>
    obtain ⟨hname, hrest⟩ := List.forall_mem_cons.mp hnames
    exact (hname.text_prefix_join p).trans (ih hrest (p.join ⟨name⟩))

theorem components_below (p : Path) :
    (p.below names).components = p.components ++ names.map .name := by
  induction names generalizing p with
  | nil => simp [below]
  | cons name rest ih =>
    obtain ⟨hname, hrest⟩ := List.forall_mem_cons.mp hnames
    rw [below_cons, ih hrest, hname.components_join, List.map_cons, List.append_assoc,
      List.singleton_append]

end names

theorem names_of_below {names : Place} {p q : Path}
    (h : q.components = p.components ++ names.map .name) : q.names = p.names ++ names := by
  have hlookup : (names.map Component.name).filterMap Component.lookup? = names := by
    rw [List.filterMap_map]
    exact List.filterMap_some
  rw [names_of_components, h, List.filterMap_append, hlookup, ← names_of_components]

theorem isAbsolute_of_below {names : Place} {p q : Path}
    (h : q.components = p.components ++ names.map .name) (hp : p.isAbsolute = true) :
    q.isAbsolute = true := by
  rw [isAbsolute_of_components] at hp ⊢
  obtain ⟨tail, htail⟩ := List.head?_eq_some_iff.mp hp
  rw [h, htail]
  rfl

/-! ## §2 Seen from the path -/

/-- A name put after an absolute path is one segment more, behind segments with its components. -/
theorem shape_join {p : Path} (hp : p.isAbsolute = true) : ∃ front : List (List Char),
    p.components = .root :: front.filterMap componentOf? ∧
    ∀ x, IsPlain x → (p.join ⟨x⟩).shape = (.root, front ++ [x]) := by
  obtain ⟨text⟩ := p
  have hhead : text.head? = some '/' := by rwa [isAbsolute, beq_iff_eq] at hp
  have hne : text ≠ [] := by
    rintro rfl
    cases hhead
  have hroot {base : List Char} (hbase : base.head? = some '/') : (shape ⟨base⟩).1 = .root := by
    rw [shape, if_pos hbase]
  by_cases hend : text.getLast? = some '/'
  · obtain ⟨base, rfl⟩ := List.getLast?_eq_some_iff.mp hend
    have hjoin {x : List Char} (hx : IsPlain x) :
        (Path.mk (base ++ ['/'])).join ⟨x⟩ = ⟨base ++ '/' :: x⟩ := by
      simp [Path.join, hx.isAbsolute]
    by_cases hbase : base = []
    · subst hbase
      refine ⟨[], rfl, ?_⟩
      intro x hx
      have hshape : (Path.mk ('/' :: x)).shape = (.root, Text.split '/' x) := rfl
      rw [hjoin hx, List.nil_append, hshape, Text.split_of_not_mem hx.slash, List.nil_append]
    · rw [List.head?_append_of_ne_nil _ hbase] at hhead
      refine ⟨(shape ⟨base⟩).2, ?_, ?_⟩
      · rw [components_append hbase, components_eq, hroot hhead]
        simp [Text.split, isBlank, componentOf?, Lead.components]
      · intro x hx
        rw [hjoin hx, shape_append hbase, Text.split_of_not_mem hx.slash, hroot hhead]
  · refine ⟨(shape ⟨text⟩).2, ?_, ?_⟩
    · rw [components_eq, hroot hhead]
      rfl
    · intro x hx
      have hjoin : (Path.mk text).join ⟨x⟩ = ⟨text ++ '/' :: x⟩ := by
        simp [Path.join, hx.isAbsolute, hne, hend]
      rw [hjoin, shape_append hne, Text.split_of_not_mem hx.slash, hroot hhead]

/-- A name put after a name is one segment more. -/
theorem shape_join_of_last {p : Path} {segments : List (List Char)} {x y : List Char}
    (hx : IsPlain x) (hy : IsPlain y) (h : p.shape = (.root, segments ++ [y])) :
    (p.join ⟨x⟩).shape = (.root, (segments ++ [y]) ++ [x]) := by
  rcases hx.join p with ⟨htext, -⟩ | ⟨base, htext, -⟩ | ⟨hne, hjoin⟩
  · obtain ⟨text⟩ := p
    subst htext
    cases h
  · -- nothing would be behind the last slash
    obtain ⟨text⟩ := p
    subst htext
    by_cases hbase : base = []
    · subst hbase
      have hlast := congrArg (fun shape => shape.2.getLast?) h
      simp [shape, Path.segments, Text.split] at hlast
      exact absurd rfl (hlast ▸ hy.blank)
    · rw [shape_append hbase] at h
      have hlast := congrArg (fun shape => shape.2.getLast?) h
      simp [Text.split] at hlast
      exact absurd rfl (hlast ▸ hy.blank)
  · obtain ⟨text⟩ := p
    rw [hjoin, shape_append hne, Text.split_of_not_mem hx.slash, h]

/-- The segments in front of names that are put after an absolute path. -/
theorem shape_below {p : Path} (hp : p.isAbsolute = true) : ∃ front : List (List Char),
    p.components = .root :: front.filterMap componentOf? ∧
    ∀ names : Place, names ≠ [] → (∀ name ∈ names, IsPlain name) →
      (p.below names).shape = (.root, front ++ names) := by
  obtain ⟨front, hcomponents, hjoin⟩ := shape_join hp
  refine ⟨front, hcomponents, ?_⟩
  intro names hne hnames
  induction names using List.reverseRecOn with
  | nil => exact absurd rfl hne
  | append_singleton before x ih =>
    have hx := hnames x (by simp)
    rw [below_concat]
    rcases List.eq_nil_or_concat' before with rfl | ⟨more, y, rfl⟩
    · exact hjoin x hx
    · have hbefore : ∀ name ∈ more ++ [y], IsPlain name := by
        intro name hname
        exact hnames name (List.mem_append_left _ hname)
      have hshape := ih (by simp) hbefore
      rw [← List.append_assoc] at hshape
      rw [shape_join_of_last hx (hbefore y (by simp)) hshape]
      simp

/-- Nothing is left of segments once as many components are taken off as they have, but blank
ones. -/
theorem dropWhile_dropComponents (front : List (List Char)) {rest : List (List Char)}
    (hrest : ∀ segment ∈ rest.head?, isBlank segment = false) :
    (dropComponents (front.filterMap componentOf?).length (front ++ rest)).dropWhile isBlank =
      rest := by
  have hkept : rest.dropWhile isBlank = rest := by
    cases rest with
    | nil => rfl
    | cons first rest =>
      rw [List.dropWhile_cons, hrest first rfl]
      rfl
  induction front with
  | nil => rw [List.filterMap_nil, List.length_nil, List.nil_append, dropComponents, hkept]
  | cons segment front ih =>
    by_cases hblank : isBlank segment = true
    · rw [List.filterMap_cons_none (componentOf?_blank hblank), List.cons_append]
      cases hcount : (front.filterMap componentOf?).length with
      | zero =>
        rw [hcount, dropComponents] at ih
        rw [dropComponents, List.dropWhile_cons, if_pos hblank, ih]
      | succ count =>
        rw [hcount] at ih
        rw [dropComponents, if_pos hblank, ih]
    · rw [List.filterMap_cons_some (componentOf?_name hblank), List.cons_append, List.length_cons,
        dropComponents, if_neg hblank, ih]

/-- What follows an absolute path in what is below it is the names. -/
theorem stripPrefix?_below {p : Path} (hp : p.isAbsolute = true) {names : Place} (hne : names ≠ [])
    (hnames : ∀ name ∈ names, IsPlain name) :
    (p.below names).stripPrefix? p = some (ofShape .nothing names) := by
  obtain ⟨front, hcomponents, hshape⟩ := shape_below hp
  have hstart : (p.below names).startsWith p = true := by
    rw [startsWith, components_below hnames]
    exact List.isPrefixOf_iff_prefix.mpr (List.prefix_append _ _)
  have hfirst : ∀ segment ∈ names.head?, isBlank segment = false := by
    intro segment hsegment
    exact Bool.eq_false_iff.mpr (hnames segment (List.mem_of_mem_head? hsegment)).blank
  have htrim : trimEnd names = names := by
    obtain ⟨before, name, rfl⟩ := (List.eq_nil_or_concat' names).resolve_left hne
    exact List.rdropWhile_concat_neg isBlank before name (hnames name (by simp)).blank
  unfold stripPrefix?
  rw [if_pos hstart]
  simp only [hshape names hne hnames, hcomponents, List.length_cons, Lead.components,
    List.length_nil, Nat.add_sub_cancel_right]
  rw [dropWhile_dropComponents front hfirst, htrim]

/-- Seen from an absolute path, what is below it is the names. -/
theorem relativeTo_below {p : Path} (hp : p.isAbsolute = true) {names : Place} (hne : names ≠ [])
    (hnames : ∀ name ∈ names, IsPlain name) :
    (p.below names).relativeTo p = ofShape .nothing names := by
  have habs := isAbsolute_of_below (components_below hnames p) hp
  rw [relativeTo, if_pos habs, stripPrefix?_below hp hne hnames]
  rfl

/-- The directory of what is below a path, however it is written. -/
theorem parent?_of_names {p q : Path} {front : Place} {x : List Char}
    (h : q.components = p.components ++ (front ++ [x]).map .name) : ∃ d, q.parent? = some d ∧
      d.components = p.components ++ front.map .name ∧ d.text <+: q.text := by
  have hspec := parent?_spec q
  cases hparent : q.parent? with
  | none =>
    rw [hparent, h] at hspec
    rcases hspec with hnil | hroot
    · simp at hnil
    · have hlast := congrArg List.getLast? hroot
      simp at hlast
  | some d =>
    rw [hparent] at hspec
    refine ⟨d, rfl, ?_, hspec.1.text⟩
    rw [hspec.1.components, h, List.map_append, ← List.append_assoc, List.map_singleton,
      List.dropLast_concat]

end MarkerBlock.Path
