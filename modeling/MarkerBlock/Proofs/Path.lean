/-
MarkerBlock.Proofs.Path — what the parts of a path are, in components.

A path is its lead and its segments written out (`ofShape_shape`), so the functions
that cut a path's text can be read as functions on lists of components: the parent has
all components but the last (`components_of_parent?`), a name joined to a path is one
component more (`IsPlain.components_join`), and the ancestors of paths with the same
components have the same components (`ancestors_same`).

Whether a path is absolute, and which names it passes, can be read off the components
(`isAbsolute_of_components`, `names_of_components`).
-/
import Mathlib
import MarkerBlock.Path
import MarkerBlock.Proofs.Text

namespace MarkerBlock

namespace Path

/-! ## §1 Shapes -/

/-- The segments that mean something. -/
def meaning (segments : List (List Char)) : List (List Char) :=
  segments.filter fun segment => !isBlank segment

theorem meaning_cons_blank {segment : List Char} (h : isBlank segment = true)
    (rest : List (List Char)) : meaning (segment :: rest) = meaning rest :=
  List.filter_cons_of_neg (by simp [h])

theorem meaning_cons_name {segment : List Char} (h : ¬isBlank segment = true)
    (rest : List (List Char)) : meaning (segment :: rest) = segment :: meaning rest :=
  List.filter_cons_of_pos (by simp [h])

/-- The names on a path. -/
def names (p : Path) : List (List Char) := meaning p.segments

theorem segments_ne_nil (p : Path) : p.segments ≠ [] := by
  rw [segments]
  split <;> exact Text.split_ne_nil _ _

theorem not_mem_segments {p : Path} {segment : List Char} (h : segment ∈ p.segments) :
    '/' ∉ segment := by
  rw [segments] at h
  split at h <;> exact Text.not_mem_of_mem_split h

theorem not_mem_shape {p : Path} {segment : List Char} (h : segment ∈ p.shape.2) :
    '/' ∉ segment := by
  rw [shape] at h
  split at h
  · exact not_mem_segments h
  · split at h
    · next hsegments => exact not_mem_segments (hsegments ▸ List.mem_cons_of_mem _ h)
    · exact not_mem_segments h

/-- Lead and segments as they may come from a path: no slash is in a segment, and a path
that begins with an ordinary component does not begin with a blank one. -/
structure IsShape (lead : Lead) (segments : List (List Char)) : Prop where
  slash : ∀ segment ∈ segments, '/' ∉ segment
  first : lead = .nothing → ∀ segment ∈ segments.head?, isBlank segment = false

theorem IsShape.of_front {lead : Lead} {segments kept : List (List Char)}
    (h : IsShape lead segments) (hkept : kept <+: segments) : IsShape lead kept := by
  refine ⟨fun segment hmem => h.slash segment (hkept.subset hmem), fun hlead segment hhead => ?_⟩
  obtain ⟨rest, rfl⟩ := hkept
  refine h.first hlead segment ?_
  cases kept with
  | nil => cases hhead
  | cons first kept => exact hhead

theorem isShape_shape {p : Path} (hne : p.text ≠ []) : IsShape p.shape.1 p.shape.2 := by
  refine ⟨fun segment h => not_mem_shape h, ?_⟩
  rw [shape]
  by_cases habs : p.text.head? = some '/'
  · rw [if_pos habs]
    intro h
    cases h
  · rw [if_neg habs]
    split
    · intro h
      cases h
    · next hcurrent =>
      intro _ segment hhead
      -- the first segment is the text up to the first slash
      obtain ⟨rest, hsegments⟩ : ∃ rest, p.segments = segment :: rest :=
        ⟨p.segments.tail, List.eq_cons_of_mem_head? hhead⟩
      have hdot : segment ≠ ['.'] := by
        rintro rfl
        exact hcurrent rest hsegments
      have hempty : segment ≠ [] := by
        rintro rfl
        have htext : p.text = List.intercalate ['/'] p.segments := by
          rw [segments]
          split
          · next h =>
            rw [h] at habs
            exact absurd rfl habs
          · exact (Text.intercalate_split '/' p.text).symm
        rw [hsegments, Text.intercalate_cons, List.nil_append] at htext
        cases rest with
        | nil => exact hne htext
        | cons next rest =>
          rw [htext] at habs
          exact habs rfl
      simp [isBlank, hdot, hempty]

/-- A path is its shape, written out. -/
theorem ofShape_shape (p : Path) : ofShape p.shape.1 p.shape.2 = p := by
  obtain ⟨text⟩ := p
  rw [shape]
  by_cases habs : text.head? = some '/'
  · obtain ⟨rest, rfl⟩ := List.head?_eq_some_iff.mp habs
    rw [if_pos habs]
    show Path.mk ('/' :: List.intercalate ['/'] (Text.split '/' rest)) = _
    rw [Text.intercalate_split]
  · have htext : List.intercalate ['/'] (segments ⟨text⟩) = text := by
      rw [segments]
      split
      · next h =>
        have h' : text = _ := h
        rw [h'] at habs
        exact absurd rfl habs
      · exact Text.intercalate_split '/' text
    rw [if_neg habs]
    split
    · next rest hsegments =>
      rw [hsegments, Text.intercalate_cons] at htext
      cases rest with
      | nil => exact congrArg Path.mk htext
      | cons next rest =>
        show Path.mk ('.' :: '/' :: List.intercalate ['/'] (next :: rest)) = _
        rw [← htext, Text.intercalate_cons]
        rfl
    · exact congrArg Path.mk htext

/-- A path that begins with an ordinary component has the shape it is written from. -/
theorem shape_ofShape {segments : List (List Char)} (h : IsShape .nothing segments)
    (hne : segments ≠ []) : shape (ofShape .nothing segments) = (.nothing, segments) := by
  have hsplit : Text.split '/' (List.intercalate ['/'] segments) = segments :=
    Text.split_intercalate hne h.slash
  obtain ⟨first, rest, rfl⟩ := List.exists_cons_of_ne_nil hne
  have hfirst := h.first rfl first rfl
  simp only [isBlank, Bool.or_eq_false_iff, List.isEmpty_eq_false_iff, beq_eq_false_iff_ne] at hfirst
  obtain ⟨c, first, rfl⟩ := List.exists_cons_of_ne_nil hfirst.1
  have hc : c ≠ '/' := fun hc => h.slash _ List.mem_cons_self (hc ▸ List.mem_cons_self)
  have htext : List.intercalate ['/'] ((c :: first) :: rest) =
      c :: (first ++ Text.led '/' rest) := Text.intercalate_cons '/' _ _
  have hsegments : Path.segments ⟨c :: (first ++ Text.led '/' rest)⟩ = (c :: first) :: rest := by
    rw [Path.segments]
    split
    · next heq => exact absurd (List.cons.inj heq).1 hc
    · rw [← htext, hsplit]
  have hpath : ofShape .nothing ((c :: first) :: rest) = ⟨c :: (first ++ Text.led '/' rest)⟩ :=
    congrArg Path.mk htext
  rw [hpath, shape, if_neg (by simpa using hc), hsegments]
  split
  · next hcurrent => exact absurd (List.cons.inj hcurrent).1 hfirst.2
  · rfl

theorem components_eq (p : Path) :
    p.components = p.shape.1.components ++ p.shape.2.filterMap componentOf? := rfl

theorem components_ofShape {lead : Lead} {segments : List (List Char)} (h : IsShape lead segments) :
    (ofShape lead segments).components = lead.components ++ segments.filterMap componentOf? := by
  by_cases hne : segments = []
  · subst hne
    cases lead <;> rfl
  · have hsplit : Text.split '/' (List.intercalate ['/'] segments) = segments :=
      Text.split_intercalate hne h.slash
    obtain ⟨first, rest, rfl⟩ := List.exists_cons_of_ne_nil hne
    cases lead with
    | root =>
      show ([Component.root] ++ (Text.split '/' _).filterMap componentOf?) = _
      rw [hsplit]
      rfl
    | current =>
      have hsegments : Path.segments ⟨'.' :: '/' :: List.intercalate ['/'] (first :: rest)⟩ =
          ['.'] :: first :: rest := by
        show Text.split '/' (['.'] ++ '/' :: List.intercalate ['/'] (first :: rest)) = _
        rw [Text.split_append, hsplit]
        rfl
      have hpath : ofShape .current (first :: rest) =
          ⟨'.' :: '/' :: List.intercalate ['/'] (first :: rest)⟩ := rfl
      rw [hpath, components_eq, shape, hsegments]
      rfl
    | nothing => rw [components_eq, shape_ofShape h hne]

/-! ## §2 What components say -/

theorem componentOf?_blank {segment : List Char} (h : isBlank segment = true) :
    componentOf? segment = none := if_pos h

theorem componentOf?_name {segment : List Char} (h : ¬isBlank segment = true) :
    componentOf? segment = some (if segment = ['.', '.'] then .parent else .name segment) := by
  rw [componentOf?, if_neg h]
  split <;> rfl

/-- The name by which a component is looked up. -/
def Component.lookup? : Component → Option (List Char)
  | .root | .current => none
  | .parent => some ['.', '.']
  | .name n => some n

theorem filterMap_lookup? (segments : List (List Char)) :
    (segments.filterMap componentOf?).filterMap Component.lookup? = meaning segments := by
  induction segments with
  | nil => rfl
  | cons segment rest ih =>
    by_cases hblank : isBlank segment = true
    · rw [List.filterMap_cons_none (componentOf?_blank hblank), ih, meaning_cons_blank hblank]
    · have hlookup : Component.lookup? (if segment = ['.', '.'] then .parent else .name segment) =
          some segment := by
        split
        · next h => rw [h]; rfl
        · rfl
      rw [List.filterMap_cons_some (componentOf?_name hblank), List.filterMap_cons_some hlookup, ih,
        meaning_cons_name hblank]

theorem names_of_components (p : Path) : p.names = p.components.filterMap Component.lookup? := by
  have hlead : p.shape.1.components.filterMap Component.lookup? = [] := by
    cases p.shape.1 <;> rfl
  rw [components_eq, List.filterMap_append, hlead, List.nil_append, filterMap_lookup?, names, shape]
  split
  · rfl
  · split
    · next hsegments => rw [hsegments]; rfl
    · rfl

/-- What a path is written with, its names are written with, but for slashes and dots. -/
theorem mem_text_iff {c : Char} (hslash : c ≠ '/') (hdot : c ≠ '.') (p : Path) :
    c ∈ p.text ↔ ∃ n ∈ p.names, c ∈ n := by
  have hsegments : c ∈ p.text ↔ ∃ segment ∈ p.segments, c ∈ segment := by
    rw [segments]
    split
    · next rest h => rw [h, List.mem_cons, or_iff_right hslash, Text.mem_iff_mem_split hslash]
    · exact Text.mem_iff_mem_split hslash p.text
  rw [hsegments]
  constructor
  · rintro ⟨segment, hmem, hc⟩
    refine ⟨segment, List.mem_filter.mpr ⟨hmem, ?_⟩, hc⟩
    rw [Bool.not_eq_true', isBlank, Bool.or_eq_false_iff]
    refine ⟨List.isEmpty_eq_false_iff.mpr (List.ne_nil_of_mem hc), beq_eq_false_iff_ne.mpr ?_⟩
    rintro rfl
    exact hdot (List.mem_singleton.mp hc)
  · rintro ⟨segment, hmem, hc⟩
    exact ⟨segment, List.mem_of_mem_filter hmem, hc⟩

theorem isAbsolute_of_components (p : Path) :
    p.isAbsolute = true ↔ p.components.head? = some .root := by
  have hhead (segments : List (List Char)) :
      (segments.filterMap componentOf?).head? ≠ some .root := by
    intro h
    obtain ⟨segment, -, hsegment⟩ := List.mem_filterMap.mp (List.mem_of_head? h)
    rw [componentOf?] at hsegment
    split_ifs at hsegment <;> cases hsegment
  rw [components_eq, isAbsolute, beq_iff_eq, shape]
  split
  · next habs => simp [habs, Lead.components]
  · next habs =>
    split
    · simp [habs, Lead.components]
    · simp only [habs, Lead.components, List.nil_append, false_iff]
      exact hhead _

/-- What an absolute directory is put before is absolute. -/
theorem isAbsolute_absoluteFrom (p : Path) {cwd : Path} (h : cwd.isAbsolute = true) :
    (p.absoluteFrom cwd).isAbsolute = true := by
  rw [absoluteFrom]
  split
  · assumption
  · next hp =>
    have hjoin : (cwd.join p).isAbsolute = true := by
      rw [isAbsolute, beq_iff_eq] at h
      rw [isAbsolute, beq_iff_eq, join, if_neg hp]
      split <;> simp [h]
    obtain ⟨rest, hrest⟩ := List.head?_eq_some_iff.mp ((isAbsolute_of_components _).mp hjoin)
    rw [hrest]
    rfl

theorem text_componentOf? {segment : List Char} {c : Component} (h : componentOf? segment = some c) :
    segment = c.text := by
  unfold componentOf? at h
  split_ifs at h with hblank hparent
  · cases h
    exact hparent
  · cases h
    rfl

/-- A relative path with several components is written with the first and a slash at its beginning. -/
theorem exists_text_of_components {p : Path} {first next : Component} {rest : List Component}
    (h : p.components = first :: next :: rest) (hp : p.isAbsolute = false) :
    ∃ tail, p.text = first.text ++ '/' :: tail := by
  have hne : p.text ≠ [] := by
    intro hempty
    have hp : p = ⟨[]⟩ := by rw [← hempty]
    rw [hp] at h
    cases h
  have hshape := isShape_shape hne
  have htext : (ofShape p.shape.1 p.shape.2).text = p.text := by rw [ofShape_shape]
  have hfirst : first ≠ .root := by
    rintro rfl
    rw [(isAbsolute_of_components p).mpr (by rw [h]; rfl)] at hp
    cases hp
  rw [components_eq] at h
  generalize p.shape = shape at h hshape htext
  obtain ⟨lead, segments⟩ := shape
  rw [← htext]
  cases lead with
  | root => exact absurd (List.cons.inj h).1.symm hfirst
  | current =>
    cases segments with
    | nil => cases h
    | cons segment more =>
      rw [← (List.cons.inj h).1]
      exact ⟨_, rfl⟩
  | nothing =>
    cases segments with
    | nil => cases h
    | cons segment more =>
      have hsegment : ¬isBlank segment = true := by
        rw [hshape.first rfl segment rfl]
        decide
      rw [Lead.components, List.nil_append, List.filterMap_cons_some (componentOf?_name hsegment)] at h
      obtain ⟨hname, hmore⟩ := List.cons.inj h
      have hwritten := text_componentOf? ((componentOf?_name hsegment).trans (congrArg some hname))
      cases more with
      | nil => cases hmore
      | cons segment' more =>
        refine ⟨segment' ++ Text.led '/' more, ?_⟩
        show List.intercalate ['/'] (segment :: segment' :: more) = _
        rw [Text.intercalate_cons, ← hwritten]
        rfl

/-! ## §3 Parents and ancestors -/

theorem filterMap_trimEnd (segments : List (List Char)) :
    (trimEnd segments).filterMap componentOf? = segments.filterMap componentOf? := by
  have htrim : trimEnd segments = segments.rdropWhile isBlank := rfl
  rw [htrim]
  induction segments using List.reverseRecOn with
  | nil => rfl
  | append_singleton segments segment ih =>
    rw [List.rdropWhile_concat, List.filterMap_append]
    split
    · next hblank => rw [ih rfl, List.filterMap_cons_none (componentOf?_blank hblank)]; simp
    · rw [List.filterMap_append]

theorem trimEnd_front (segments : List (List Char)) : trimEnd segments <+: segments :=
  List.rdropWhile_prefix isBlank segments

/-- What is left ends in a component. -/
theorem trimEnd_eq (segments : List (List Char)) :
    trimEnd segments = [] ∨ ∃ front last, trimEnd segments = front ++ [last] ∧
      ¬isBlank last = true := by
  by_cases hne : trimEnd segments = []
  · exact .inl hne
  · refine .inr ⟨_, _, (List.dropLast_append_getLast hne).symm, ?_⟩
    exact List.rdropWhile_last_not isBlank segments hne

theorem ofShape_front (lead : Lead) {kept segments : List (List Char)} (h : kept <+: segments) :
    (ofShape lead kept).text <+: (ofShape lead segments).text := by
  have hbody : List.intercalate ['/'] kept <+: List.intercalate ['/'] segments := by
    obtain ⟨rest, rfl⟩ := h
    by_cases hkept : kept = []
    · subst hkept
      exact List.nil_prefix
    · rw [Text.intercalate_append '/' hkept]
      exact List.prefix_append _ _
  cases lead with
  | nothing => exact hbody
  | root => exact List.cons_prefix_cons.mpr ⟨rfl, hbody⟩
  | current =>
    by_cases hkept : kept = []
    · subst hkept
      by_cases hsegments : segments = []
      · rw [hsegments]
      · rw [ofShape, ofShape, if_pos (by rfl), if_neg (by simpa using hsegments)]
        exact List.cons_prefix_cons.mpr ⟨rfl, List.nil_prefix⟩
    · have hsegments : segments ≠ [] := fun hnil => hkept (List.prefix_nil.mp (hnil ▸ h))
      rw [ofShape, ofShape, if_neg (by simpa using hkept), if_neg (by simpa using hsegments)]
      exact List.cons_prefix_cons.mpr ⟨rfl, List.cons_prefix_cons.mpr ⟨rfl, hbody⟩⟩

theorem parent?_of_nil {p : Path} (h : trimEnd p.shape.2 = []) :
    p.parent? = if p.shape.1 = .current then some ⟨[]⟩ else none := by
  rw [parent?]
  simp only [h]
  cases p.shape.1 <;> rfl

theorem parent?_of_last {p : Path} {front : List (List Char)} {last : List Char}
    (h : trimEnd p.shape.2 = front ++ [last]) :
    p.parent? = some (ofShape p.shape.1 (trimEnd front)) := by
  rw [parent?]
  simp only [h]
  split
  · next hnil => simp at hnil
  · rw [List.dropLast_concat]

/-- `q` is written with the beginning of `p`, up to the last component. -/
structure IsParent (q p : Path) : Prop where
  components : q.components = p.components.dropLast
  text : q.text <+: p.text

/-- A path has a parent unless it has no component but perhaps the root. -/
theorem parent?_spec (p : Path) :
    match p.parent? with
    | none => p.components = [] ∨ p.components = [.root]
    | some q => q.IsParent p ∧ p.components ≠ [] ∧ p.components ≠ [.root] := by
  have hcomponents := components_eq p
  rw [← filterMap_trimEnd] at hcomponents
  rcases trimEnd_eq p.shape.2 with hnil | ⟨front, last, hlast, hname⟩
  · rw [hnil, List.filterMap_nil, List.append_nil] at hcomponents
    rw [parent?_of_nil hnil]
    cases hlead : p.shape.1 with
    | nothing => exact .inl (by rw [hcomponents, hlead]; rfl)
    | root => exact .inr (by rw [hcomponents, hlead]; rfl)
    | current =>
      rw [hlead] at hcomponents
      refine ⟨⟨?_, List.nil_prefix⟩, ?_, ?_⟩ <;> rw [hcomponents] <;> decide
  · have hne : p.text ≠ [] := by
      intro hempty
      have hp : p = ⟨[]⟩ := by rw [← hempty]
      rw [hp] at hlast
      exact absurd hlast.symm (by simp [shape, segments, Text.split, trimEnd, isBlank])
    have hkept : trimEnd front <+: p.shape.2 :=
      (trimEnd_front front).trans
        ((List.prefix_append front [last]).trans (hlast ▸ trimEnd_front p.shape.2))
    rw [hlast, List.filterMap_append, List.filterMap_cons_some (componentOf?_name hname),
      List.filterMap_nil, ← List.append_assoc] at hcomponents
    rw [parent?_of_last hlast]
    refine ⟨⟨?_, ?_⟩, ?_, ?_⟩
    · rw [components_ofShape ((isShape_shape hne).of_front hkept), filterMap_trimEnd, hcomponents,
        List.dropLast_concat]
    · exact (ofShape_front p.shape.1 hkept).trans (by rw [ofShape_shape])
    · rw [hcomponents]
      simp
    · -- the last component is none of those a path begins with
      rw [hcomponents]
      intro h
      have hend := congrArg List.getLast? h
      split_ifs at hend <;> simp at hend

theorem parent?_eq_some {p q : Path} (h : p.parent? = some q) : q.IsParent p := by
  have hspec := parent?_spec p
  rw [h] at hspec
  exact hspec.1

/-- A path is absolute if its parent is. -/
theorem IsParent.isAbsolute {q p : Path} (h : q.IsParent p)
    (hq : q.components.head? = some .root) : p.isAbsolute = true := by
  rw [isAbsolute_of_components]
  rw [h.components] at hq
  obtain ⟨rest, hrest⟩ := List.head?_eq_some_iff.mp hq
  obtain ⟨tail, htail⟩ := List.dropLast_prefix p.components
  rw [← htail, hrest]
  rfl

/-- Paths with the same components have parents with the same components. -/
theorem parent?_same {p p' : Path} (h : p.components = p'.components) :
    (p.parent? = none ∧ p'.parent? = none) ∨
      ∃ q q', p.parent? = some q ∧ p'.parent? = some q' ∧ q.components = q'.components := by
  have hp := parent?_spec p
  have hp' := parent?_spec p'
  cases hq : p.parent? with
  | none =>
    rw [hq] at hp
    cases hq' : p'.parent? with
    | none => exact .inl ⟨rfl, rfl⟩
    | some q' =>
      rw [hq', ← h] at hp'
      exact (hp.elim hp'.2.1 hp'.2.2).elim
  | some q =>
    rw [hq] at hp
    cases hq' : p'.parent? with
    | none =>
      rw [hq', ← h] at hp'
      exact (hp'.elim hp.2.1 hp.2.2).elim
    | some q' =>
      rw [hq'] at hp'
      exact .inr ⟨q, q', rfl, rfl, by rw [hp.1.components, hp'.1.components, h]⟩

theorem ancestors_of_parent {p q : Path} (h : p.parent? = some q) :
    p.ancestors = p :: q.ancestors := by
  have hspec := parent?_spec p
  rw [h] at hspec
  have hlength : p.components.length = q.components.length + 1 := by
    rw [hspec.1.components, List.length_dropLast]
    have hpos := List.length_pos_iff.mpr hspec.2.1
    omega
  rw [ancestors, ancestorsUpTo, h, hlength]
  rfl

theorem ancestors_of_none {p : Path} (h : p.parent? = none) : p.ancestors = [p] := by
  rw [ancestors, ancestorsUpTo, h]

theorem IsParent.length_lt {q p : Path} (h : q.IsParent p) (hne : p.components ≠ []) :
    q.components.length < p.components.length := by
  have hpos := List.length_pos_iff.mpr hne
  rw [h.components, List.length_dropLast]
  omega

theorem self_mem_ancestors (p : Path) : p ∈ p.ancestors := by
  cases hq : p.parent? with
  | none =>
    rw [ancestors_of_none hq]
    exact List.mem_cons_self
  | some q =>
    rw [ancestors_of_parent hq]
    exact List.mem_cons_self

/-- What holds of a path if it holds of its parent holds of every path. -/
theorem induction_parent {motive : Path → Prop} (none : ∀ p, p.parent? = none → motive p)
    (some : ∀ p q, p.parent? = some q → motive q → motive p) (p : Path) : motive p := by
  induction hlength : p.components.length using Nat.strong_induction_on generalizing p with
  | _ n ih =>
    cases hq : p.parent? with
    | none => exact none p hq
    | some q =>
      have hspec := parent?_spec p
      rw [hq] at hspec
      exact some p q hq (ih _ (hlength ▸ hspec.1.length_lt hspec.2.1) q rfl)

/-- The components of an ancestor are the first ones of the path. -/
theorem components_prefix_of_mem_ancestors {p a : Path} (h : a ∈ p.ancestors) :
    a.components <+: p.components := by
  induction p using induction_parent with
  | none p hq =>
    rw [ancestors_of_none hq, List.mem_singleton] at h
    rw [h]
  | some p q hq ih =>
    rw [ancestors_of_parent hq] at h
    rcases List.mem_cons.mp h with rfl | h
    · exact List.prefix_rfl
    · refine (ih h).trans ?_
      rw [(parent?_eq_some hq).components]
      exact List.dropLast_prefix p.components

/-- Every ancestor has fewer components than the one before it. -/
theorem ancestors_pairwise (p : Path) :
    p.ancestors.Pairwise fun a b => b.components.length < a.components.length := by
  induction p using induction_parent with
  | none p hq =>
    rw [ancestors_of_none hq]
    exact List.pairwise_singleton _ p
  | some p q hq ih =>
    have hspec := parent?_spec p
    rw [hq] at hspec
    rw [ancestors_of_parent hq]
    refine List.pairwise_cons.mpr ⟨fun a ha => ?_, ih⟩
    exact (components_prefix_of_mem_ancestors ha).length_le.trans_lt
      (hspec.1.length_lt hspec.2.1)

/-- `a` and `a'` have the same components, and are the beginnings of `p` and `p'`. -/
structure AreAncestors (p p' a a' : Path) : Prop where
  same : a.components = a'.components
  left : a.text <+: p.text
  right : a'.text <+: p'.text

theorem ancestorsUpTo_same (fuel : Nat) {p p' : Path} (h : p.components = p'.components) :
    List.Forall₂ (AreAncestors p p') (ancestorsUpTo fuel p) (ancestorsUpTo fuel p') := by
  induction fuel generalizing p p' with
  | zero => exact .nil
  | succ fuel ih =>
    have hself : AreAncestors p p' p p' := ⟨h, List.prefix_rfl, List.prefix_rfl⟩
    rw [ancestorsUpTo, ancestorsUpTo]
    rcases parent?_same h with ⟨hq, hq'⟩ | ⟨q, q', hq, hq', hsame⟩
    · rw [hq, hq']
      exact .cons hself .nil
    · rw [hq, hq']
      refine .cons hself ((ih hsame).imp fun a a' ha => ?_)
      exact ⟨ha.same, ha.left.trans (parent?_eq_some hq).text, ha.right.trans (parent?_eq_some hq').text⟩

/-- Paths with the same components have ancestors with the same components. -/
theorem ancestors_same {p p' : Path} (h : p.components = p'.components) :
    List.Forall₂ (AreAncestors p p') p.ancestors p'.ancestors := by
  rw [ancestors, ancestors, h]
  exact ancestorsUpTo_same _ h

/-! ## §4 Names joined to a path -/

/-- A segment that is a name. -/
structure IsPlain (x : List Char) : Prop where
  slash : '/' ∉ x
  blank : ¬isBlank x = true
  parent : x ≠ ['.', '.']

theorem segments_append {base : List Char} (hbase : base ≠ []) (x : List Char) :
    segments ⟨base ++ '/' :: x⟩ = segments ⟨base⟩ ++ Text.split '/' x := by
  obtain ⟨c, base, rfl⟩ := List.exists_cons_of_ne_nil hbase
  by_cases hc : c = '/'
  · subst hc
    exact Text.split_append '/' base x
  · have hplain (text : List Char) : segments ⟨c :: text⟩ = Text.split '/' (c :: text) := by
      rw [segments]
      split
      · next heq => exact absurd (List.cons.inj heq).1 hc
      · rfl
    rw [List.cons_append, hplain, hplain, ← List.cons_append, Text.split_append]

theorem shape_append {base : List Char} (hbase : base ≠ []) (x : List Char) :
    shape ⟨base ++ '/' :: x⟩ = ((shape ⟨base⟩).1, (shape ⟨base⟩).2 ++ Text.split '/' x) := by
  have hhead : (base ++ '/' :: x).head? = base.head? := List.head?_append_of_ne_nil base hbase
  rw [shape, shape, segments_append hbase]
  simp only [hhead]
  split
  · rfl
  · obtain ⟨first, rest, hsegments⟩ := List.exists_cons_of_ne_nil (segments_ne_nil ⟨base⟩)
    rw [hsegments, List.cons_append]
    by_cases hfirst : first = ['.']
    · subst hfirst
      rfl
    · split
      · next h => exact absurd (List.cons.inj h).1 hfirst
      · split
        · next h => exact absurd (List.cons.inj h).1 hfirst
        · rfl

theorem components_append {base : List Char} (hbase : base ≠ []) (x : List Char) :
    components ⟨base ++ '/' :: x⟩ =
      components ⟨base⟩ ++ (Text.split '/' x).filterMap componentOf? := by
  rw [components_eq, shape_append hbase, List.filterMap_append, ← List.append_assoc]
  rfl

/-- Doubled slashes mean nothing. -/
theorem components_slashes {base : List Char} (hbase : base ≠ []) (k : Nat) (x : List Char) :
    components ⟨base ++ (List.replicate k '/' ++ '/' :: x)⟩ = components ⟨base ++ '/' :: x⟩ := by
  induction k generalizing base with
  | zero => rfl
  | succ k ih =>
    have htext : base ++ (List.replicate (k + 1) '/' ++ '/' :: x) =
        (base ++ ['/']) ++ (List.replicate k '/' ++ '/' :: x) := by
      simp [List.replicate_succ]
    rw [htext, ih (by simp), components_append (by simp), components_append hbase,
      components_append hbase]
    simp [Text.split, isBlank, componentOf?]

theorem IsPlain.filterMap_split {x : List Char} (hx : IsPlain x) :
    (Text.split '/' x).filterMap componentOf? = [.name x] := by
  rw [Text.split_of_not_mem hx.slash, List.filterMap_cons_some (componentOf?_name hx.blank),
    if_neg hx.parent, List.filterMap_nil]

theorem IsPlain.isAbsolute {x : List Char} (hx : IsPlain x) : (Path.mk x).isAbsolute = false := by
  rw [Path.isAbsolute, beq_eq_false_iff_ne]
  intro h
  exact hx.slash (List.mem_of_head? h)

theorem IsPlain.segments {x : List Char} (hx : IsPlain x) : Path.segments ⟨x⟩ = [x] := by
  rw [Path.segments]
  split
  · next rest h =>
    have htext : x = '/' :: rest := h
    exact absurd (htext ▸ List.mem_cons_self) hx.slash
  · exact Text.split_of_not_mem hx.slash

/-- How a name is put after a path. -/
theorem IsPlain.join {x : List Char} (hx : IsPlain x) (p : Path) :
    (p.text = [] ∧ p.join ⟨x⟩ = ⟨x⟩) ∨
    (∃ base, p.text = base ++ ['/'] ∧ p.join ⟨x⟩ = ⟨base ++ '/' :: x⟩) ∨
    (p.text ≠ [] ∧ p.join ⟨x⟩ = ⟨p.text ++ '/' :: x⟩) := by
  rw [Path.join, hx.isAbsolute, if_neg Bool.false_ne_true]
  by_cases hempty : p.text = []
  · exact .inl ⟨hempty, by simp [hempty]⟩
  · by_cases hend : p.text.getLast? = some '/'
    · obtain ⟨base, hbase⟩ := List.getLast?_eq_some_iff.mp hend
      exact .inr (.inl ⟨base, hbase, by simp [hbase]⟩)
    · exact .inr (.inr ⟨hempty, by simp [hempty, hend]⟩)

theorem IsPlain.filterMap_singleton {x : List Char} (hx : IsPlain x) :
    [x].filterMap componentOf? = [.name x] := by
  rw [← hx.filterMap_split, Text.split_of_not_mem hx.slash]

theorem IsPlain.isShape {x : List Char} (hx : IsPlain x) (lead : Lead) : IsShape lead [x] := by
  refine ⟨fun segment hmem => ?_, fun _ segment hhead => ?_⟩
  · rw [List.mem_singleton.mp hmem]
    exact hx.slash
  · cases hhead
    simpa using hx.blank

/-- A name joined to a path is one component more. -/
theorem IsPlain.components_join {x : List Char} (hx : IsPlain x) (p : Path) :
    (p.join ⟨x⟩).components = p.components ++ [.name x] := by
  rcases p with ⟨text⟩
  rcases hx.join ⟨text⟩ with ⟨rfl, hjoin⟩ | ⟨base, rfl, hjoin⟩ | ⟨hne, hjoin⟩
  · have hshape : Path.mk x = ofShape .nothing [x] := by simp [ofShape]
    rw [hjoin, hshape, components_ofShape (hx.isShape _), hx.filterMap_singleton]
    rfl
  · rw [hjoin]
    by_cases hbase : base = []
    · subst hbase
      have hshape : Path.mk ([] ++ '/' :: x) = ofShape .root [x] := by simp [ofShape]
      rw [hshape, components_ofShape (hx.isShape _), hx.filterMap_singleton]
      rfl
    · rw [components_append hbase, components_append hbase, hx.filterMap_split]
      simp [Text.split, isBlank, componentOf?]
  · rw [hjoin, components_append hne, hx.filterMap_split]

/-- A name joined to a path is the last segment. -/
theorem IsPlain.getLast?_join {x : List Char} (hx : IsPlain x) (p : Path) :
    (p.join ⟨x⟩).segments.getLast? = some x := by
  have hlast {base : List Char} (hbase : base ≠ []) :
      (Path.segments ⟨base ++ '/' :: x⟩).getLast? = some x := by
    rw [segments_append hbase, Text.split_of_not_mem hx.slash, List.getLast?_concat]
  rcases hx.join p with ⟨-, hjoin⟩ | ⟨base, -, hjoin⟩ | ⟨hne, hjoin⟩
  · rw [hjoin, hx.segments, List.getLast?_singleton]
  · rw [hjoin]
    by_cases hbase : base = []
    · subst hbase
      show (Text.split '/' x).getLast? = some x
      rw [Text.split_of_not_mem hx.slash, List.getLast?_singleton]
    · exact hlast hbase
  · rw [hjoin]
    exact hlast hne

/-- Nothing is blank at the end of a path that ends in a name. -/
theorem IsPlain.trimEnd_shape {x base : List Char} (hx : IsPlain x) (hbase : base ≠ []) :
    trimEnd (shape ⟨base ++ '/' :: x⟩).2 = (shape ⟨base⟩).2 ++ [x] := by
  rw [shape_append hbase, Text.split_of_not_mem hx.slash]
  exact List.rdropWhile_concat_neg isBlank _ x hx.blank

/-- The parent of a name in a directory that is written up to its last name. -/
theorem IsPlain.parent? {x y base : List Char} (hx : IsPlain x) (hy : IsPlain y)
    (hbase : base ≠ []) :
    Path.parent? ⟨(base ++ '/' :: y) ++ '/' :: x⟩ = some ⟨base ++ '/' :: y⟩ := by
  have hne : base ++ '/' :: y ≠ [] := by simp
  have hshape := shape_append hbase y
  rw [Text.split_of_not_mem hy.slash] at hshape
  have htrim : trimEnd (shape ⟨base ++ '/' :: y⟩).2 = (shape ⟨base ++ '/' :: y⟩).2 := by
    rw [hy.trimEnd_shape hbase, hshape]
  rw [parent?_of_last (hx.trimEnd_shape hne), htrim, shape_append hne]
  exact congrArg some (ofShape_shape _)

/-! ## §5 What follows a path -/

theorem stripPrefix?_of_components {base base' : Path} (h : base.components = base'.components)
    (p : Path) : p.stripPrefix? base = p.stripPrefix? base' := by
  rw [stripPrefix?, stripPrefix?, startsWith, startsWith, h]

theorem isAbsolute_of_startsWith {p base : Path} (h : p.startsWith base = true)
    (hbase : base.isAbsolute = true) : p.isAbsolute = true := by
  rw [isAbsolute_of_components] at hbase ⊢
  obtain ⟨tail, htail⟩ := List.head?_eq_some_iff.mp hbase
  obtain ⟨more, hmore⟩ := List.isPrefixOf_iff_prefix.mp h
  rw [← hmore, htail]
  rfl

theorem dropComponents_suffix (count : Nat) (segments : List (List Char)) :
    dropComponents count segments <:+ segments := by
  induction segments generalizing count with
  | nil => cases count <;> exact List.suffix_rfl
  | cons segment rest ih =>
    cases count with
    | zero => exact List.suffix_rfl
    | succ count =>
      rw [dropComponents]
      split
      · exact (ih _).trans (List.suffix_cons segment rest)
      · exact (ih _).trans (List.suffix_cons segment rest)

theorem filterMap_dropComponents (count : Nat) (segments : List (List Char)) :
    (dropComponents count segments).filterMap componentOf? =
      (segments.filterMap componentOf?).drop count := by
  induction segments generalizing count with
  | nil => cases count <;> rfl
  | cons segment rest ih =>
    cases count with
    | zero => rfl
    | succ count =>
      rw [dropComponents]
      split
      · next hblank => rw [ih, List.filterMap_cons_none (componentOf?_blank hblank)]
      · next hname =>
        rw [ih, List.filterMap_cons_some (componentOf?_name hname), List.drop_succ_cons]

theorem filterMap_dropWhile_blank (segments : List (List Char)) :
    (segments.dropWhile isBlank).filterMap componentOf? = segments.filterMap componentOf? := by
  induction segments with
  | nil => rfl
  | cons segment rest ih =>
    rw [List.dropWhile_cons]
    split
    · next hblank => rw [ih, List.filterMap_cons_none (componentOf?_blank hblank)]
    · rfl

/-- Segments of a path that begins with an ordinary component and ends in a component. -/
structure IsTrimmed (segments : List (List Char)) : Prop where
  shape : IsShape .nothing segments
  trimmed : trimEnd segments = segments

/-- What follows an absolute path is written with the segments of the components that follow. -/
theorem stripPrefix?_eq_some {p base rest : Path} (hbase : base.isAbsolute = true)
    (h : p.stripPrefix? base = some rest) : ∃ segments, rest = ofShape .nothing segments ∧
      IsTrimmed segments ∧
      segments.filterMap componentOf? = p.components.drop base.components.length := by
  obtain ⟨count, hcount⟩ : ∃ count, base.components.length = count + 1 := by
    obtain ⟨tail, htail⟩ := List.head?_eq_some_iff.mp ((isAbsolute_of_components base).mp hbase)
    exact ⟨tail.length, by rw [htail, List.length_cons]⟩
  rw [stripPrefix?, hcount] at h
  split at h
  · next hstart =>
    have hroot : p.shape.1 = .root := by
      have habs := isAbsolute_of_startsWith hstart hbase
      rw [isAbsolute, beq_iff_eq] at habs
      rw [Path.shape, if_pos habs]
    have hrest : rest = ofShape .nothing (trimEnd ((dropComponents
        (count + 1 - p.shape.1.components.length) p.shape.2).dropWhile isBlank)) :=
      (Option.some.inj h).symm
    have hcount' : count + 1 - p.shape.1.components.length = count := by rw [hroot]; rfl
    have hleft := dropComponents_suffix count p.shape.2
    rw [hcount'] at hrest
    refine ⟨_, hrest, ⟨IsShape.of_front ⟨?_, ?_⟩ (trimEnd_front _), ?_⟩, ?_⟩
    · intro segment hmem
      exact not_mem_shape (hleft.subset (List.dropWhile_suffix isBlank |>.subset hmem))
    · intro _ segment hhead
      have hnot := List.head?_dropWhile_not isBlank (dropComponents count p.shape.2)
      rw [Option.mem_def.mp hhead] at hnot
      simpa using hnot
    · exact List.rdropWhile_idempotent isBlank _
    · rw [filterMap_trimEnd, filterMap_dropWhile_blank, filterMap_dropComponents, components_eq p,
        hroot, hcount]
      rfl
  · cases h

theorem IsShape.isRelative {segments : List (List Char)} (h : IsShape .nothing segments) :
    (ofShape .nothing segments).isAbsolute = false := by
  rw [isAbsolute, beq_eq_false_iff_ne]
  cases segments with
  | nil => simp [ofShape]
  | cons first rest =>
    have hfirst := h.first rfl first rfl
    cases first with
    | nil => cases hfirst
    | cons c first =>
      have hc : c ≠ '/' := by
        rintro rfl
        exact h.slash _ List.mem_cons_self List.mem_cons_self
      simpa [ofShape, Text.intercalate_cons] using hc

/-- What follows an absolute path is a relative one. -/
theorem stripPrefix?_isRelative {p base rest : Path} (hbase : base.isAbsolute = true)
    (h : p.stripPrefix? base = some rest) : rest.isAbsolute = false := by
  obtain ⟨segments, rfl, htrimmed, -⟩ := stripPrefix?_eq_some hbase h
  exact htrimmed.shape.isRelative

/-! ## §6 The first name on the way -/

theorem IsTrimmed.trimEnd_cons {first : List Char} {rest : List (List Char)}
    (h : IsShape .nothing (first :: rest)) :
    ∃ kept, trimEnd (first :: rest) = first :: kept ∧ kept.length ≤ rest.length ∧
      IsTrimmed (first :: kept) := by
  have hfront := trimEnd_front (first :: rest)
  have hshape := h.of_front hfront
  have hidempotent : trimEnd (trimEnd (first :: rest)) = trimEnd (first :: rest) :=
    List.rdropWhile_idempotent isBlank _
  cases htrim : trimEnd (first :: rest) with
  | nil =>
    have hall := List.rdropWhile_eq_nil_iff.mp htrim
    exact absurd (hall first List.mem_cons_self) (by rw [h.first rfl first rfl]; decide)
  | cons first' kept =>
    rw [htrim] at hfront hshape hidempotent
    obtain ⟨rfl, hkept⟩ := List.cons_prefix_cons.mp hfront
    exact ⟨kept, rfl, hkept.length_le, hshape, hidempotent⟩

/-- The path of the first segment alone is an ancestor. -/
theorem IsTrimmed.first_mem_ancestors {first : List Char} {rest : List (List Char)}
    (h : IsTrimmed (first :: rest)) : ⟨first⟩ ∈ (ofShape .nothing (first :: rest)).ancestors := by
  induction hlength : rest.length using Nat.strong_induction_on generalizing rest with
  | _ n ih =>
    rcases List.eq_nil_or_concat' rest with rfl | ⟨front, last, rfl⟩
    · have hone : ofShape .nothing [first] = ⟨first⟩ := by simp [ofShape]
      rw [hone]
      exact self_mem_ancestors _
    · have hfront : IsShape .nothing (first :: front) :=
        h.shape.of_front (List.cons_prefix_cons.mpr ⟨rfl, List.prefix_append front [last]⟩)
      obtain ⟨kept, hkept, hle, htrimmed⟩ := IsTrimmed.trimEnd_cons hfront
      have hshape := shape_ofShape h.shape (List.cons_ne_nil _ _)
      have hparent : (ofShape .nothing (first :: (front ++ [last]))).parent? =
          some (ofShape .nothing (first :: kept)) := by
        have htrim : trimEnd (ofShape .nothing (first :: (front ++ [last]))).shape.2 =
            (first :: front) ++ [last] := by
          rw [hshape]
          exact h.trimmed
        rw [parent?_of_last htrim, hshape, hkept]
      rw [ancestors_of_parent hparent]
      refine List.mem_cons_of_mem _ (ih kept.length ?_ htrimmed rfl)
      rw [← hlength, List.length_append, List.length_singleton]
      omega

theorem IsPlain.components {x : List Char} (hx : IsPlain x) :
    Path.components ⟨x⟩ = [.name x] := by
  have hone : ofShape .nothing [x] = ⟨x⟩ := by simp [ofShape]
  rw [← hone, components_ofShape (hx.isShape .nothing), hx.filterMap_singleton]
  rfl

/-- A path with just a name for its text is an ancestor if this name is the first component. -/
theorem IsTrimmed.exists_ancestor_iff {segments : List (List Char)} (h : IsTrimmed segments)
    {x : List Char} (hx : IsPlain x) :
    (∃ a ∈ (ofShape .nothing segments).ancestors, a.text = x) ↔
      (segments.filterMap componentOf?).head? = some (.name x) := by
  constructor
  · rintro ⟨a, ha, rfl⟩
    have hprefix := components_prefix_of_mem_ancestors ha
    rw [components_ofShape h.shape, hx.components] at hprefix
    obtain ⟨more, hmore⟩ := hprefix
    have hmore' : segments.filterMap componentOf? = .name a.text :: more := hmore.symm
    rw [hmore']
    rfl
  · intro hhead
    cases segments with
    | nil => cases hhead
    | cons first rest =>
      have hname : ¬isBlank first = true := by
        rw [h.shape.first rfl first rfl]
        decide
      rw [List.filterMap_cons_some (componentOf?_name hname), List.head?_cons, Option.some.injEq] at hhead
      split at hhead
      · cases hhead
      · cases hhead
        exact ⟨_, h.first_mem_ancestors, rfl⟩

end Path

end MarkerBlock
