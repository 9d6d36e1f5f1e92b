/-
MarkerBlock.Proofs.Path.Inside — absolute paths and the directories they are in.

A path may be made absolute before names are put after it or afterwards: the text is the same
(`absoluteFrom_below`).  So what a walk lists below a directory, made absolute, is below the
directory made absolute, and a file is in its parent made absolute (`absoluteFrom_of_last`).

The parents of what is below an absolute path are written with the beginning of it, down to the
path, of which only slashes and `.` at the end may be left out (`parent?_below`).
-/
import Mathlib
import MarkerBlock.Proofs.Path.Below
import MarkerBlock.Proofs.Path.Relative

namespace MarkerBlock

namespace Path

/-! ## §1 Parents of what is below -/

/-- The parent of a name after a slash. -/
theorem IsPlain.parent?_append {x base : List Char} (hx : IsPlain x) (hbase : base ≠ []) :
    ∃ d, Path.parent? ⟨base ++ '/' :: x⟩ = some d ∧ d.text <+: base := by
  refine ⟨_, parent?_of_last (hx.trimEnd_shape hbase), ?_⟩
  rw [shape_append hbase]
  have hfront := ofShape_front (shape ⟨base⟩).1 (trimEnd_front (shape ⟨base⟩).2)
  rwa [ofShape_shape] at hfront

/-- The parent of a name in a directory is the directory, without what means nothing at its end. -/
theorem IsPlain.parent?_join {x : List Char} (hx : IsPlain x) {p : Path} (hp : p.isAbsolute = true) :
    ∃ d, (p.join ⟨x⟩).parent? = some d ∧ d.components = p.components ∧ d.text <+: p.text := by
  obtain ⟨d, hd, htext⟩ : ∃ d, (p.join ⟨x⟩).parent? = some d ∧ d.text <+: p.text := by
    rcases hx.join p with ⟨htext, -⟩ | ⟨base, htext, hjoin⟩ | ⟨hne, hjoin⟩
    · exact absurd htext (text_ne_nil_of_isAbsolute hp)
    · rw [hjoin, htext]
      by_cases hbase : base = []
      · have hlast : trimEnd (shape ⟨'/' :: x⟩).2 = [] ++ [x] := by
          show trimEnd (Text.split '/' x) = _
          rw [Text.split_of_not_mem hx.slash]
          exact List.rdropWhile_concat_neg isBlank [] x hx.blank
        subst hbase
        exact ⟨_, parent?_of_last hlast, List.prefix_rfl⟩
      · obtain ⟨d, hd, hfront⟩ := hx.parent?_append hbase
        exact ⟨d, hd, hfront.trans (List.prefix_append _ _)⟩
    · rw [hjoin]
      exact hx.parent?_append hne
  refine ⟨d, hd, ?_, htext⟩
  rw [(parent?_eq_some hd).components, hx.components_join, List.dropLast_concat]

/-- Behind the first name, the parent of what is below an absolute path is what is below it without
the last name. -/
theorem parent?_below {p : Path} (hp : p.isAbsolute = true) {before : Place} {x : List Char}
    (hne : before ≠ []) (hnames : ∀ name ∈ before ++ [x], IsPlain name) :
    (p.below (before ++ [x])).parent? = some (p.below before) := by
  obtain ⟨front, -, hshape⟩ := shape_below hp
  have hbefore : ∀ name ∈ before, IsPlain name := fun name h => hnames name (List.mem_append_left _ h)
  have hx := hnames x (List.mem_append_right _ (List.mem_singleton_self x))
  have hlast : trimEnd (p.below (before ++ [x])).shape.2 = front ++ before ++ [x] := by
    rw [hshape _ (by simp) hnames, ← List.append_assoc]
    exact List.rdropWhile_concat_neg isBlank _ x hx.blank
  have htrim : trimEnd (front ++ before) = front ++ before := by
    obtain ⟨more, y, rfl⟩ := (List.eq_nil_or_concat' before).resolve_left hne
    rw [← List.append_assoc]
    exact List.rdropWhile_concat_neg isBlank _ y (hbefore y (by simp)).blank
  rw [parent?_of_last hlast, htrim, hshape _ (by simp) hnames]
  have hwritten := ofShape_shape (p.below before)
  rw [hshape before hne hbefore] at hwritten
  exact congrArg some hwritten

/-- A path whose last segment is a name is this name in its parent. -/
theorem IsPlain.exists_parent {x : List Char} (hx : IsPlain x) {p : Path} {before : List (List Char)}
    (h : p.segments = before ++ [x]) :
    ∃ d, p.parent? = some d ∧ p.components = d.components ++ [.name x] := by
  obtain ⟨kept, hkept⟩ : ∃ kept, p.shape.2 = kept ++ [x] := by
    rw [shape]
    split
    · exact ⟨before, h⟩
    · split
      · next rest hcurrent =>
        rw [h] at hcurrent
        cases before with
        | nil =>
          cases hcurrent
          exact absurd rfl hx.blank
        | cons first more =>
          cases hcurrent
          exact ⟨more, rfl⟩
      · exact ⟨before, h⟩
  have hlast : trimEnd p.shape.2 = kept ++ [x] := by
    rw [hkept]
    exact List.rdropWhile_concat_neg isBlank kept x hx.blank
  have hparent := parent?_of_last hlast
  refine ⟨_, hparent, ?_⟩
  rw [(parent?_eq_some hparent).components, components_eq, hkept, List.filterMap_append,
    hx.filterMap_singleton, ← List.append_assoc, List.dropLast_concat]

/-! ## §2 Names below what is written plainly -/

/-- Every component behind the root is led by a slash. -/
theorem text_ofComponents {cs : List Component} (hne : cs ≠ []) :
    (ofComponents (.root :: cs)).text = Text.led '/' (cs.map Component.text) := by
  obtain ⟨c, cs, rfl⟩ := List.exists_cons_of_ne_nil hne
  show '/' :: List.intercalate ['/'] (c.text :: cs.map Component.text) = _
  rw [Text.intercalate_cons]
  rfl

/-- A plainly written path with a component behind the root does not end in a slash. -/
theorem getLast?_ofComponents {cs : List Component} (hne : cs ≠ []) (hcs : ∀ c ∈ cs, c.IsOrdinary) :
    (ofComponents (.root :: cs)).text.getLast? ≠ some '/' := by
  obtain ⟨front, c, rfl⟩ := (List.eq_nil_or_concat' cs).resolve_left hne
  have hc := hcs c (by simp)
  have htext : c.text ≠ [] := by
    intro hempty
    have hblank := hc.not_blank
    rw [hempty] at hblank
    cases hblank
  rw [text_ofComponents hne, List.map_append, Text.led_append, List.map_singleton, Text.led_cons,
    Text.led_nil, List.append_nil, List.getLast?_append_of_ne_nil _ (List.cons_ne_nil _ _),
    ← List.singleton_append, List.getLast?_append_of_ne_nil _ htext]
  exact fun h => hc.slash (List.mem_of_getLast? h)

theorem ofComponents_concat {cs : List Component} {x : List Char} (hcs : ∀ c ∈ cs, c.IsOrdinary)
    (hx : IsPlain x) :
    ofComponents (.root :: (cs ++ [.name x])) = (ofComponents (.root :: cs)).join ⟨x⟩ := by
  have htext : (ofComponents (.root :: (cs ++ [.name x]))).text =
      Text.led '/' (cs.map Component.text) ++ '/' :: x := by
    rw [text_ofComponents (List.append_ne_nil_of_right_ne_nil cs (List.cons_ne_nil _ _))]
    simp [Component.text]
  have hwritten : ofComponents (.root :: (cs ++ [.name x])) = ⟨_⟩ := congrArg Path.mk htext
  rw [hwritten, join, hx.isAbsolute, if_neg Bool.false_ne_true]
  by_cases hne : cs = []
  · subst hne
    rfl
  · have hopen : ¬((ofComponents (.root :: cs)).text.isEmpty ||
        (ofComponents (.root :: cs)).text.getLast? == some '/') = true := by
      have hslash := getLast?_ofComponents hne hcs
      have hempty : (ofComponents (.root :: cs)).text ≠ [] := List.cons_ne_nil _ _
      simp [hslash, hempty]
    rw [if_neg hopen, text_ofComponents hne]

/-- Names put after a plainly written path are components of a plainly written path. -/
theorem ofComponents_below {cs : List Component} (hcs : ∀ c ∈ cs, c.IsOrdinary) {names : Place}
    (hnames : ∀ name ∈ names, IsPlain name) :
    ofComponents (.root :: (cs ++ names.map .name)) = (ofComponents (.root :: cs)).below names := by
  induction names generalizing cs with
  | nil => rw [List.map_nil, List.append_nil]; rfl
  | cons x names ih =>
    obtain ⟨hx, hrest⟩ := List.forall_mem_cons.mp hnames
    have hordinary : ∀ c ∈ cs ++ [.name x], c.IsOrdinary := by
      intro c hc
      rcases List.mem_append.mp hc with hc | hc
      · exact hcs c hc
      · rw [List.mem_singleton.mp hc]
        exact hx.isOrdinary
    rw [below_cons, ← ofComponents_concat hcs hx, ← ih hordinary hrest, List.append_assoc]
    rfl

/-! ## §3 Made absolute -/

/-- Names at its end make a path neither absolute nor relative. -/
theorem isAbsolute_eq_of_below {p q : Path} (names : Place)
    (h : q.components = p.components ++ names.map .name) : q.isAbsolute = p.isAbsolute := by
  rw [Bool.eq_iff_iff, isAbsolute_of_components, isAbsolute_of_components, h]
  cases p.components with
  | nil => cases names <;> simp
  | cons c cs => rfl

variable {p cwd : Path} (hcwd : cwd.isAbsolute = true)
include hcwd

theorem isAbsolute_join (hp : p.isAbsolute = false) : (cwd.join p).isAbsolute = true := by
  rw [isAbsolute_of_components] at hcwd
  obtain ⟨tail, htail⟩ := List.head?_eq_some_iff.mp hcwd
  rw [isAbsolute_of_components, components_join ((isAbsolute_of_components cwd).mpr hcwd) hp, htail]
  rfl

/-- A relative path with more names at its end is, made absolute, below the one without. -/
theorem absoluteFrom_of_append {q : Path} (hp : p.isAbsolute = false) {names : Place}
    (hnames : ∀ name ∈ names, IsPlain name) (h : q.components = p.components ++ names.map .name) :
    q.absoluteFrom cwd = (p.absoluteFrom cwd).below names := by
  have hq : q.isAbsolute = false := (isAbsolute_eq_of_below names h).trans hp
  have hkept : (names.map Component.name).filter (· ≠ .current) = names.map .name := by
    rw [List.filter_eq_self]
    intro c hc
    obtain ⟨name, -, rfl⟩ := List.mem_map.mp hc
    rfl
  obtain ⟨cs, hcs, hordinary⟩ := exists_components_of_isAbsolute (isAbsolute_join hcwd hp)
  have hmore : (cwd.join q).components = .root :: (cs ++ names.map .name) := by
    rw [components_join hcwd hq, h, List.filter_append, hkept, ← List.append_assoc,
      ← components_join hcwd hp, hcs, List.cons_append]
  rw [absoluteFrom, absoluteFrom, hp, hq, if_neg Bool.false_ne_true, if_neg Bool.false_ne_true, hcs,
    hmore, ofComponents_below hordinary hnames]

/-- What is below a path is, made absolute, below the path made absolute. -/
theorem absoluteFrom_below {names : Place} (hnames : ∀ name ∈ names, IsPlain name) :
    (p.below names).absoluteFrom cwd = (p.absoluteFrom cwd).below names := by
  have hcomponents := components_below hnames p
  by_cases hp : p.isAbsolute = true
  · rw [absoluteFrom, absoluteFrom, if_pos (isAbsolute_of_below hcomponents hp), if_pos hp]
  · exact absoluteFrom_of_append hcwd (Bool.eq_false_iff.mpr hp) hnames hcomponents

/-- A relative path that ends in a name is, made absolute, this name in what is before it.  A name
alone is in the directory from which it is seen. -/
theorem absoluteFrom_of_last {d : Path} {x : List Char} (hwritten : ofComponents cwd.components = cwd)
    (hp : p.isAbsolute = false) (hx : IsPlain x)
    (hlast : p.components = d.components ++ [.name x]) :
    p.absoluteFrom cwd =
      (if d.text.isEmpty then cwd else d.absoluteFrom cwd).below [x] := by
  have hnames : ∀ name ∈ [x], IsPlain name := List.forall_mem_singleton.mpr hx
  have hrelative : d.isAbsolute = false :=
    (isAbsolute_eq_of_below [x] hlast).symm.trans hp
  rw [absoluteFrom_of_append hcwd hrelative hnames hlast]
  congr 1
  split
  · next hempty =>
    have hnothing : d = ⟨[]⟩ := by
      obtain ⟨text⟩ := d
      simpa using hempty
    have hjoin : (cwd.join ⟨[]⟩).components = cwd.components := by
      rw [components_join hcwd rfl]
      exact List.append_nil _
    rw [hnothing, absoluteFrom, if_neg (by decide), hjoin, hwritten]
  · rfl

end Path

/-- A place is written with its names, a slash before each. -/
theorem Place.ofComponents_path {place : Place} (h : ∀ name ∈ place, Path.IsPlain name) :
    Path.ofComponents place.path.components = place.path := by
  have hshape : Path.IsShape .root place := ⟨fun name hname => (h name hname).slash, nofun⟩
  have hread : place.filterMap Path.componentOf? = place.map .name := by
    rw [← List.filterMap_eq_map]
    exact List.filterMap_congr fun name hname => (h name hname).isOrdinary.read
  have hcomponents : place.path.components = .root :: place.map .name := by
    rw [← hread]
    exact Path.components_ofShape hshape
  have htext : (place.map Path.Component.name).map Path.Component.text = place := by
    rw [List.map_map]
    exact List.map_id place
  rw [hcomponents, Path.ofComponents, htext]
  rfl

end MarkerBlock
