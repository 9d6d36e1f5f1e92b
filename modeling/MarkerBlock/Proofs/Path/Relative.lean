/-
MarkerBlock.Proofs.Path.Relative — a path as seen from another leads back to it.

What is written from components has these components (`components_ofComponents`), and a
relative path put after an absolute one adds its own (`components_join`).  `resolved` takes
the steps of a path one after another, without looking at any file: a `..` takes back the
name before it.

Seen from an absolute path, another one is either what follows it or a way up by `..` and
down by names.  Both lead back (`relativeTo_leads_back`): the way up ends at the longest
common ancestor, whatever names the two paths share beyond it in part.
-/
import Mathlib
import MarkerBlock.Path
import MarkerBlock.Proofs.Path

namespace MarkerBlock.Path

/-! ## §1 Paths written from components -/

/-- A `..` or a name, which a path may have anywhere. -/
structure Component.IsOrdinary (c : Component) : Prop where
  read : componentOf? c.text = some c
  slash : '/' ∉ c.text

theorem Component.isOrdinary_parent : IsOrdinary .parent := ⟨rfl, by decide⟩

theorem IsPlain.isOrdinary {x : List Char} (hx : IsPlain x) : (Component.name x).IsOrdinary where
  read := by
    show componentOf? x = _
    rw [componentOf?_name hx.blank, if_neg hx.parent]
  slash := hx.slash

theorem Component.IsOrdinary.not_blank {c : Component} (h : c.IsOrdinary) :
    isBlank c.text = false := by
  rw [← Bool.not_eq_true]
  intro hblank
  have hread := h.read
  rw [componentOf?_blank hblank] at hread
  cases hread

theorem Component.IsOrdinary.ne_current {c : Component} (h : c.IsOrdinary) : c ≠ .current := by
  rintro rfl
  cases h.not_blank

theorem Component.IsOrdinary.ne_root {c : Component} (h : c.IsOrdinary) : c ≠ .root := by
  rintro rfl
  exact h.slash (List.mem_singleton_self '/')

/-- Behind its lead a path has ordinary components. -/
theorem isOrdinary_of_mem_shape {p : Path} {c : Component}
    (h : c ∈ p.shape.2.filterMap componentOf?) : c.IsOrdinary := by
  obtain ⟨segment, hmem, hsegment⟩ := List.mem_filterMap.mp h
  have htext := text_componentOf? hsegment
  constructor
  · rw [← htext]
    exact hsegment
  · rw [← htext]
    exact not_mem_shape hmem

/-- An absolute path has ordinary components behind the root. -/
theorem exists_components_of_isAbsolute {p : Path} (h : p.isAbsolute = true) :
    ∃ cs, p.components = .root :: cs ∧ ∀ c ∈ cs, c.IsOrdinary := by
  have hroot : p.shape.1 = .root := by
    rw [isAbsolute, beq_iff_eq] at h
    rw [shape, if_pos h]
  refine ⟨p.shape.2.filterMap componentOf?, ?_, fun c => isOrdinary_of_mem_shape⟩
  rw [components_eq, hroot]
  rfl

theorem ofComponents_eq (lead : Lead) {cs : List Component} (h : ∀ c ∈ cs, c.IsOrdinary) :
    ofComponents (lead.components ++ cs) = ofShape lead (cs.map Component.text) := by
  cases lead with
  | root => rfl
  | nothing =>
    rw [Lead.components, List.nil_append, ofComponents]
    · rfl
    · rintro rest rfl
      exact (h .root List.mem_cons_self).ne_root rfl
  | current =>
    cases cs with
    | nil => rfl
    | cons c cs => simp [Lead.components, ofComponents, ofShape, Component.text]

/-- What is written from a lead and ordinary components has these components. -/
theorem components_ofComponents_append (lead : Lead) {cs : List Component}
    (h : ∀ c ∈ cs, c.IsOrdinary) :
    (ofComponents (lead.components ++ cs)).components = lead.components ++ cs := by
  have hshape : IsShape lead (cs.map Component.text) := by
    constructor
    · intro segment hsegment
      obtain ⟨c, hc, rfl⟩ := List.mem_map.mp hsegment
      exact (h c hc).slash
    · intro _ segment hsegment
      obtain ⟨c, hc, rfl⟩ := List.mem_map.mp (List.mem_of_mem_head? hsegment)
      exact (h c hc).not_blank
  have hread : (cs.map Component.text).filterMap componentOf? = cs := by
    rw [List.filterMap_map]
    exact (List.filterMap_congr fun c hc => (h c hc).read).trans List.filterMap_some
  rw [ofComponents_eq lead h, components_ofShape hshape, hread]

/-- A path written plainly has the same components. -/
theorem components_ofComponents (p : Path) : (ofComponents p.components).components = p.components := by
  rw [components_eq]
  exact components_ofComponents_append p.shape.1 fun c hc => isOrdinary_of_mem_shape hc

/-! ## §2 A relative path after an absolute one -/

theorem text_ne_nil_of_isAbsolute {p : Path} (h : p.isAbsolute = true) : p.text ≠ [] := by
  intro hempty
  rw [isAbsolute, hempty] at h
  cases h

theorem segments_of_relative {p : Path} (h : p.isAbsolute = false) :
    p.segments = Text.split '/' p.text := by
  rw [segments]
  split
  · next htext =>
    rw [isAbsolute, htext] at h
    cases h
  · rfl

/-- A relative path means its segments, and the `.` it may begin with means nothing. -/
theorem filterMap_split_of_relative {p : Path} (h : p.isAbsolute = false) :
    (Text.split '/' p.text).filterMap componentOf? = p.components.filter (· ≠ .current) := by
  have hroot : ¬p.text.head? = some '/' := by
    rwa [isAbsolute, beq_eq_false_iff_ne] at h
  have hordinary : (p.shape.2.filterMap componentOf?).filter (· ≠ .current) =
      p.shape.2.filterMap componentOf? :=
    List.filter_eq_self.mpr fun c hc => by simpa using (isOrdinary_of_mem_shape hc).ne_current
  rw [components_eq, List.filter_append, hordinary, ← segments_of_relative h, shape, if_neg hroot]
  split
  · next hsegments =>
    rw [hsegments, List.filterMap_cons_none rfl]
    rfl
  · rfl

/-- A relative path put after an absolute one adds its components, but for a `.` at its
beginning. -/
theorem components_join {p q : Path} (hp : p.isAbsolute = true) (hq : q.isAbsolute = false) :
    (p.join q).components = p.components ++ q.components.filter (· ≠ .current) := by
  have hne := text_ne_nil_of_isAbsolute hp
  rw [← filterMap_split_of_relative hq]
  obtain ⟨text⟩ := p
  rw [join, hq, if_neg Bool.false_ne_true]
  by_cases hend : text.getLast? = some '/'
  · rw [if_pos (by simp [hend])]
    obtain ⟨base, rfl⟩ := List.getLast?_eq_some_iff.mp hend
    show components ⟨base ++ ['/'] ++ q.text⟩ = _
    rw [List.append_assoc, List.singleton_append]
    by_cases hbase : base = []
    · subst hbase
      rfl
    · rw [components_append hbase, components_append hbase]
      simp [Text.split, isBlank, componentOf?]
  · rw [if_neg (by simpa [hend] using hne)]
    exact components_append hne q.text

/-! ## §3 Resolving a path by its text -/

/-- Where one step leads from the components reached.  Above the root is the root. -/
def takeStep (reached : List Component) : Component → List Component
  | .root => [.root]
  | .current => reached
  | .parent =>
    match reached.getLast? with
    | some (.name _) => reached.dropLast
    | some .root => reached
    | _ => reached ++ [.parent]
  | .name n => reached ++ [.name n]

/-- Where components lead, by their text alone. -/
def resolved (cs : List Component) : List Component := cs.foldl takeStep []

/-- A component is a name. -/
def Component.IsName (c : Component) : Prop := ∃ n, c = .name n

theorem foldl_takeStep_names {cs : List Component} (h : ∀ c ∈ cs, c.IsName)
    (reached : List Component) : cs.foldl takeStep reached = reached ++ cs := by
  induction cs generalizing reached with
  | nil => rw [List.append_nil]; rfl
  | cons c cs ih =>
    obtain ⟨⟨n, rfl⟩, hrest⟩ := List.forall_mem_cons.mp h
    rw [List.foldl_cons, takeStep, ih hrest, List.append_assoc, List.singleton_append]

theorem takeStep_parent {reached : List Component} {c : Component} (h : c.IsName) :
    takeStep (reached ++ [c]) .parent = reached := by
  obtain ⟨n, rfl⟩ := h
  simp [takeStep]

/-- As many `..` as there are names take them all back. -/
theorem foldl_takeStep_parents {names : List Component} (h : ∀ c ∈ names, c.IsName)
    (reached : List Component) :
    (List.replicate names.length .parent).foldl takeStep (reached ++ names) = reached := by
  induction names using List.reverseRecOn with
  | nil => exact List.append_nil reached
  | append_singleton names last ih =>
    rw [List.length_append, List.length_singleton, List.replicate_succ, List.foldl_cons,
      ← List.append_assoc, takeStep_parent (h last (by simp))]
    exact ih fun c hc => h c (List.mem_append_left _ hc)

/-! ## §4 Seen from another path -/

/-- An absolute path that goes down all the way: no `..` is on it.  A `.` never is a component
of an absolute path. -/
structure IsStraight (p : Path) : Prop where
  absolute : p.isAbsolute = true
  down : .parent ∉ p.components

instance (p : Path) : Decidable p.IsStraight :=
  decidable_of_iff (p.isAbsolute = true ∧ .parent ∉ p.components)
    ⟨fun h => ⟨h.1, h.2⟩, fun h => ⟨h.absolute, h.down⟩⟩

theorem Component.IsOrdinary.isName {c : Component} (h : c.IsOrdinary) (hc : c ≠ .parent) :
    c.IsName := by
  cases c with
  | root => exact absurd rfl h.ne_root
  | current => exact absurd rfl h.ne_current
  | parent => exact absurd rfl hc
  | name n => exact ⟨n, rfl⟩

/-- A straight path is the root and names. -/
theorem IsStraight.components_eq {p : Path} (h : p.IsStraight) :
    ∃ names, p.components = .root :: names ∧ ∀ c ∈ names, c.IsName ∧ c.IsOrdinary := by
  obtain ⟨cs, hcomponents, hordinary⟩ := exists_components_of_isAbsolute h.absolute
  refine ⟨cs, hcomponents, ?_⟩
  intro c hc
  refine ⟨(hordinary c hc).isName ?_, hordinary c hc⟩
  rintro rfl
  exact h.down (hcomponents ▸ List.mem_cons_of_mem _ hc)

/-- `common` is the longest beginning that two lists of components have in common. -/
structure IsCommonFront (common as bs : List Component) : Prop where
  left : common <+: as
  right : common <+: bs
  longest : ∀ front, front <+: as → front <+: bs → front <+: common

/-- Two lists are their longest common beginning, and what is left of each. -/
theorem dropCommon_spec (as bs : List Component) : ∃ common,
    IsCommonFront common as bs ∧ as = common ++ (dropCommon as bs).1 ∧
      bs = common ++ (dropCommon as bs).2 := by
  fun_induction dropCommon as bs with
  | case1 as a bs ih =>
    obtain ⟨common, hcommon, has, hbs⟩ := ih
    refine ⟨a :: common, ⟨?_, ?_, ?_⟩, congrArg (a :: ·) has, congrArg (a :: ·) hbs⟩
    · exact List.cons_prefix_cons.mpr ⟨rfl, hcommon.left⟩
    · exact List.cons_prefix_cons.mpr ⟨rfl, hcommon.right⟩
    · intro front hleft hright
      cases front with
      | nil => exact List.nil_prefix
      | cons c front =>
        obtain ⟨hc, hfront⟩ := List.cons_prefix_cons.mp hleft
        obtain ⟨-, hfront'⟩ := List.cons_prefix_cons.mp hright
        exact List.cons_prefix_cons.mpr ⟨hc, hcommon.longest front hfront hfront'⟩
  | case2 a as b bs hne =>
    refine ⟨[], ⟨List.nil_prefix, List.nil_prefix, ?_⟩, rfl, rfl⟩
    intro front hleft hright
    cases front with
    | nil => exact List.nil_prefix
    | cons c front =>
      obtain ⟨rfl, -⟩ := List.cons_prefix_cons.mp hleft
      obtain ⟨rfl, -⟩ := List.cons_prefix_cons.mp hright
      exact absurd rfl hne
  | case3 as bs hnot =>
    refine ⟨[], ⟨List.nil_prefix, List.nil_prefix, ?_⟩, rfl, rfl⟩
    intro front hleft hright
    cases front with
    | nil => exact List.nil_prefix
    | cons c front =>
      obtain ⟨more, rfl⟩ := hleft
      obtain ⟨others, rfl⟩ := hright
      exact (hnot c (front ++ more) c (front ++ others) rfl rfl).elim

/-- The way from names to names: all the way up, then down. -/
def way (up rest : List Component) : List Component := List.replicate up.length .parent ++ rest

theorem steps?_names {rest up : List Component} (hne : up ≠ []) (hup : ∀ c ∈ up, c.IsName) :
    steps? rest up = some (way up rest) := by
  obtain ⟨c, up, rfl⟩ := List.exists_cons_of_ne_nil hne
  obtain ⟨n, rfl⟩ := hup c List.mem_cons_self
  have hparents : (up.map fun _ => Component.parent) = List.replicate up.length .parent :=
    List.map_const'
  cases rest with
  | nil => simp [steps?, way, hparents, List.replicate_succ]
  | cons d rest => simp [steps?, way, hparents, List.replicate_succ]

/-- The components of a straight path lead where they say. -/
theorem IsStraight.foldl_takeStep {p : Path} (h : p.IsStraight) :
    p.components.foldl takeStep [] = p.components := by
  obtain ⟨names, hcomponents, hnames⟩ := h.components_eq
  rw [hcomponents, List.foldl_cons, takeStep, foldl_takeStep_names fun c hc => (hnames c hc).1]
  rfl

/-- Seen from an absolute path, a path that has its components is what follows these. -/
theorem relativeTo_of_append {p b : Path} {rest : List Component} (hb : b.isAbsolute = true)
    (h : p.components = b.components ++ rest) :
    (p.relativeTo b).isAbsolute = false ∧ (p.relativeTo b).components = rest := by
  have hstart : p.startsWith b = true :=
    List.isPrefixOf_iff_prefix.mpr (h ▸ List.prefix_append _ _)
  obtain ⟨stripped, hstrip⟩ : ∃ stripped, p.stripPrefix? b = some stripped := by
    unfold stripPrefix?
    rw [if_pos hstart]
    dsimp only
    split <;> exact ⟨_, rfl⟩
  have hseen : p.relativeTo b = stripped := by
    rw [relativeTo, if_pos (isAbsolute_of_startsWith hstart hb), hstrip]
    rfl
  obtain ⟨segments, rfl, htrimmed, hsegments⟩ := stripPrefix?_eq_some hb hstrip
  rw [hseen]
  refine ⟨htrimmed.shape.isRelative, ?_⟩
  rw [components_ofShape htrimmed.shape, hsegments, h, List.drop_left]
  rfl

/-- What two straight paths have in common, and the names that are left of each. -/
structure Parts (p b : Path) (common rest up : List Component) : Prop where
  front : IsCommonFront common p.components b.components
  path : p.components = common ++ rest
  base : b.components = common ++ up
  names : ∀ c ∈ rest ++ up, c.IsName ∧ c.IsOrdinary
  dropped : dropCommon p.components b.components = (rest, up)

theorem exists_parts {p b : Path} (hp : p.IsStraight) (hb : b.IsStraight) :
    ∃ common rest up, Parts p b common rest up := by
  obtain ⟨names, hpnames, hnames⟩ := hp.components_eq
  obtain ⟨names', hbnames, hnames'⟩ := hb.components_eq
  obtain ⟨common, hcommon, hrest, hup⟩ := dropCommon_spec p.components b.components
  -- the root is common to both, so only names are left of each
  have hroot : [Component.root] <+: common := by
    refine hcommon.longest _ ?_ ?_
    · rw [hpnames]
      exact List.cons_prefix_cons.mpr ⟨rfl, List.nil_prefix⟩
    · rw [hbnames]
      exact List.cons_prefix_cons.mpr ⟨rfl, List.nil_prefix⟩
  obtain ⟨more, rfl⟩ := hroot
  generalize hdropped : dropCommon p.components b.components = left at hrest hup
  obtain ⟨rest, up⟩ := left
  refine ⟨_, rest, up, hcommon, hrest, hup, ?_, hdropped⟩
  intro c hc
  rw [hpnames] at hrest
  rw [hbnames] at hup
  rcases List.mem_append.mp hc with hc | hc
  · have hmem : c ∈ names := (List.cons.inj hrest).2 ▸ List.mem_append_right more hc
    exact hnames c hmem
  · have hmem : c ∈ names' := (List.cons.inj hup).2 ▸ List.mem_append_right more hc
    exact hnames' c hmem

section parts

variable {p b : Path} {common rest up : List Component} (h : Parts p b common rest up)
include h

theorem Parts.isName_rest : ∀ c ∈ rest, c.IsName :=
  fun c hc => (h.names c (List.mem_append_left _ hc)).1

theorem Parts.isName_up : ∀ c ∈ up, c.IsName :=
  fun c hc => (h.names c (List.mem_append_right _ hc)).1

theorem Parts.prefix_iff : b.components <+: p.components ↔ up = [] := by
  constructor
  · intro hbelow
    have hle := (h.front.longest _ hbelow List.prefix_rfl).length_le
    rw [h.base, List.length_append] at hle
    exact List.eq_nil_of_length_eq_zero (by omega)
  · intro hup
    rw [h.base, hup, List.append_nil]
    exact h.front.left

/-- Seen from another path, a path is as many `..` as there are names left of the other, and the
names left of itself. -/
theorem Parts.relativeTo (hp : p.isAbsolute = true) (hb : b.isAbsolute = true) :
    (p.relativeTo b).isAbsolute = false ∧ (p.relativeTo b).components = way up rest := by
  by_cases hup : up = []
  · -- the path is below the other: what follows is stripped
    have hcomponents : p.components = b.components ++ rest := by
      rw [h.path, h.base, hup, List.append_nil]
    obtain ⟨hrelative, hrest⟩ := relativeTo_of_append hb hcomponents
    rw [hup]
    exact ⟨hrelative, hrest⟩
  · have hstart : ¬p.startsWith b = true := fun hstart =>
      hup (h.prefix_iff.mp (List.isPrefixOf_iff_prefix.mp hstart))
    have hstrip : p.stripPrefix? b = none := by
      unfold stripPrefix?
      rw [if_neg hstart]
    have hseen : p.relativeTo b = ofComponents (way up rest) := by
      rw [Path.relativeTo, if_pos hp, hstrip, Option.none_or, difference?, hp, hb, h.dropped,
        if_neg (by decide)]
      simp only [steps?_names hup h.isName_up, Option.map_some, Option.getD_some]
    have hordinary : ∀ c ∈ way up rest, c.IsOrdinary := by
      intro c hc
      rcases List.mem_append.mp hc with hc | hc
      · rw [List.eq_of_mem_replicate hc]
        exact Component.isOrdinary_parent
      · exact (h.names c (List.mem_append_left _ hc)).2
    have hcomponents : (p.relativeTo b).components = way up rest := by
      rw [hseen]
      exact components_ofComponents_append .nothing hordinary
    refine ⟨?_, hcomponents⟩
    rw [← Bool.not_eq_true, isAbsolute_of_components, hcomponents]
    intro hroot
    exact (hordinary _ (List.mem_of_head? hroot)).ne_root rfl

/-- Nothing is left of both only if the paths are the same. -/
theorem Parts.way_ne_nil (hne : p.same b = false) : way up rest ≠ [] := by
  intro hnil
  obtain ⟨hparents, rfl⟩ := List.append_eq_nil_iff.mp hnil
  have hup : up = [] := by simpa using hparents
  rw [same, beq_eq_false_iff_ne] at hne
  exact hne (by rw [h.path, h.base, hup])

/-- The way up and down leads from the one path to the other. -/
theorem Parts.resolved_way (hb : b.IsStraight) :
    resolved (b.components ++ way up rest) = p.components := by
  rw [way, resolved, List.foldl_append, hb.foldl_takeStep, h.base, List.foldl_append,
    foldl_takeStep_parents h.isName_up, foldl_takeStep_names h.isName_rest, h.path]

/-- There is no `.` on the way. -/
theorem Parts.filter_way : (way up rest).filter (· ≠ .current) = way up rest := by
  refine List.filter_eq_self.mpr fun c hc => ?_
  rcases List.mem_append.mp hc with hc | hc
  · rw [List.eq_of_mem_replicate hc]
    rfl
  · obtain ⟨n, rfl⟩ := h.isName_rest c hc
    rfl

/-- The way begins with as many `..` as there are names left of the other path. -/
theorem Parts.takeWhile_way :
    (way up rest).takeWhile (· = .parent) = List.replicate up.length .parent := by
  have hdown : rest.takeWhile (· = .parent) = [] := by
    cases rest with
    | nil => rfl
    | cons c rest =>
      obtain ⟨n, rfl⟩ := h.isName_rest c List.mem_cons_self
      rfl
  rw [way, List.takeWhile_append_of_pos (by simp), hdown, List.append_nil]

theorem Parts.head?_way : (way up rest).head? = some .parent ↔ up ≠ [] := by
  rw [way]
  cases up with
  | nil =>
    cases rest with
    | nil => simp
    | cons c rest =>
      obtain ⟨n, rfl⟩ := h.isName_rest c List.mem_cons_self
      simp
  | cons c up => simp [List.replicate_succ]

end parts

/-- A straight path is seen from another one as a relative path that leads back to it.  It begins
with `..` unless it is below the other path, and there are as many `..` at its beginning as the
other path has names below the longest common ancestor. -/
theorem relativeTo_leads_back {p b : Path} (hp : p.IsStraight) (hb : b.IsStraight)
    (hne : p.same b = false) :
    (p.relativeTo b).isAbsolute = false ∧ (p.relativeTo b).components ≠ [] ∧
      resolved (b.join (p.relativeTo b)).components = p.components ∧
      ((p.relativeTo b).components.head? = some .parent ↔ ¬b.components <+: p.components) ∧
      ∃ common, IsCommonFront common p.components b.components ∧
        ((p.relativeTo b).components.takeWhile (· = .parent)).length + common.length =
          b.components.length := by
  obtain ⟨common, rest, up, h⟩ := exists_parts hp hb
  obtain ⟨hrelative, hcomponents⟩ := h.relativeTo hp.absolute hb.absolute
  have hjoin := components_join hb.absolute hrelative
  rw [hcomponents, h.filter_way] at hjoin
  rw [hcomponents, hjoin, h.head?_way, h.prefix_iff, h.takeWhile_way]
  refine ⟨hrelative, h.way_ne_nil hne, h.resolved_way hb, Iff.rfl, common, h.front, ?_⟩
  rw [h.base, List.length_replicate, List.length_append, Nat.add_comm]

/-- A directory whose name only begins like the other's is outside it. -/
theorem relativeTo_leads_back_beside :
    (ofString "/ws2/a.cpp").IsStraight ∧ (ofString "/ws").IsStraight ∧
      (ofString "/ws2/a.cpp").same (ofString "/ws") = false ∧
      (ofString "/ws2/a.cpp").relativeTo (ofString "/ws") = ofString "../ws2/a.cpp" ∧
      resolved ((ofString "/ws").join (ofString "../ws2/a.cpp")).components =
        (ofString "/ws2/a.cpp").components ∧
      ¬(ofString "/ws").components <+: (ofString "/ws2/a.cpp").components := by
  have hpath : (ofString "/ws2/a.cpp").IsStraight := by decide
  have hbase : (ofString "/ws").IsStraight := by decide
  have hne : (ofString "/ws2/a.cpp").same (ofString "/ws") = false := by decide
  have hseen : (ofString "/ws2/a.cpp").relativeTo (ofString "/ws") = ofString "../ws2/a.cpp" := by
    decide
  obtain ⟨-, -, hback, hup, -⟩ := relativeTo_leads_back hpath hbase hne
  rw [hseen] at hback hup
  exact ⟨hpath, hbase, hne, hseen, hback, hup.mp (by decide)⟩

end MarkerBlock.Path
