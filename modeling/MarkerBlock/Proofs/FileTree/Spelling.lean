/-
MarkerBlock.Proofs.FileTree.Spelling — paths that differ only in how they are written.

Doubled slashes and a `.` on the way mean nothing to a path that ends in a name
(`walk_meaning`), so paths with the same components lead to the same
(`locate_of_components`).  What the file system does mind is the length of the text:
both must be within the limit.
-/
import Mathlib
import MarkerBlock.Proofs.FileTree
import MarkerBlock.Proofs.Path

namespace MarkerBlock.FileTree

open MarkerBlock.Path (meaning meaning_cons_blank meaning_cons_name)

/-! ## §1 Blank segments -/

/-- Segments that end in one that is not blank, if there are any. -/
def EndsInName (segments : List (List Char)) : Prop :=
  ∀ last ∈ segments.getLast?, Path.isBlank last = false

theorem EndsInName.of_cons {segment : List Char} {rest : List (List Char)}
    (h : EndsInName (segment :: rest)) : EndsInName rest := by
  intro last hlast
  refine h last ?_
  cases rest with
  | nil => cases hlast
  | cons next rest => rwa [List.getLast?_cons_cons]

theorem EndsInName.append {rest : List (List Char)} (h : EndsInName rest) (hne : rest ≠ [])
    (segments : List (List Char)) : EndsInName (segments ++ rest) := by
  intro last hlast
  rw [List.getLast?_append_of_ne_nil segments hne] at hlast
  exact h last hlast

theorem endsInName_meaning (segments : List (List Char)) : EndsInName (meaning segments) := by
  intro last hlast
  have hmem := (List.mem_filter.mp (List.mem_of_getLast? hlast)).2
  simpa using hmem

theorem EndsInName.meaning_eq_nil_iff {segments : List (List Char)} (h : EndsInName segments) :
    meaning segments = [] ↔ segments = [] := by
  refine ⟨fun hnil => ?_, fun hnil => by rw [hnil]; rfl⟩
  by_contra hne
  have hlast := h _ (List.getLast?_eq_some_getLast hne)
  have hmem : segments.getLast hne ∈ meaning segments :=
    List.mem_filter.mpr ⟨List.getLast_mem hne, by rw [hlast]; rfl⟩
  rw [hnil] at hmem
  cases hmem

theorem EndsInName.isEmpty_meaning {segments : List (List Char)} (h : EndsInName segments) :
    (meaning segments).isEmpty = segments.isEmpty := by
  rw [Bool.eq_iff_iff, List.isEmpty_iff, List.isEmpty_iff, h.meaning_eq_nil_iff]

/-- Blank segments mean nothing on the way to a name that is looked at. -/
theorem walk_meaning (t : FileTree) {purpose : Purpose} (hpurpose : purpose ≠ .write) (links : Nat)
    (c : Cursor) {segments : List (List Char)} (h : EndsInName segments) :
    t.walk purpose links c segments = t.walk purpose links c (meaning segments) := by
  have hlook (rest : List (List Char)) :
      ¬(decide (purpose = .write) && !rest.isEmpty && rest.all List.isEmpty) = true := by
    simp [hpurpose]
  induction links using Nat.strong_induction_on generalizing c segments with
  | _ links hlinks =>
  induction segments generalizing c with
  | nil => rfl
  | cons segment rest ih =>
    have hrest := h.of_cons
    by_cases hblank : Path.isBlank segment = true
    · rw [walk, if_pos hblank, meaning_cons_blank hblank]
      exact ih c hrest
    · rw [meaning_cons_name hblank]
      by_cases hdots : segment = ['.', '.']
      · rw [walk, if_neg hblank, if_pos hdots, walk, if_neg hblank, if_pos hdots]
        exact ih c.up hrest
      · by_cases hlong : nameLimit < octetLength segment
        · rw [walk, if_neg hblank, if_neg hdots, if_neg (hlook _), if_pos hlong,
            walk, if_neg hblank, if_neg hdots, if_neg (hlook _), if_pos hlong]
        · have hname (rest : List (List Char)) : IsName purpose segment rest :=
            ⟨hblank, hdots, hlook rest, hlong⟩
          cases hget : Entries.get? c.entries segment with
          | none => rw [walk_vacant (hname _) hget, walk_vacant (hname _) hget, hrest.isEmpty_meaning]
          | some node =>
            cases node with
            | directory inner =>
              rw [walk_directory (hname _) hget, walk_directory (hname _) hget]
              exact ih _ hrest
            | file octets =>
              rw [walk_file (hname _) hget, walk_file (hname _) hget, hrest.isEmpty_meaning]
            | link target =>
              by_cases hseen : (rest.isEmpty && decide (purpose = .seeLink)) = true
              · rw [walk_link_seen (hname _) hget hseen,
                  walk_link_seen (hname _) hget (by rwa [hrest.isEmpty_meaning])]
              · have hseen' : ¬((meaning rest).isEmpty && decide (purpose = .seeLink)) = true := by
                  rwa [hrest.isEmpty_meaning]
                cases links with
                | zero =>
                  rw [walk_link_refused (hname _) hget hseen, walk_link_refused (hname _) hget hseen']
                | succ links =>
                  rw [walk_link_passed (hname _) hget hseen, walk_link_passed (hname _) hget hseen']
                  by_cases hnil : rest = []
                  · rw [hnil]
                    rfl
                  · -- the segments of the link stand in front of others, which end in a name
                    have hne : meaning rest ≠ [] := fun h => hnil (hrest.meaning_eq_nil_iff.mp h)
                    have hless := Nat.lt_succ_self links
                    rw [hlinks links hless _ (hrest.append hnil target.segments),
                      hlinks links hless _ ((endsInName_meaning rest).append hne target.segments)]
                    simp [meaning]

/-! ## §2 Lengths -/

theorem octetLength_append (a b : List Char) :
    octetLength (a ++ b) = octetLength a + octetLength b := by
  induction a with
  | nil => simp [octetLength]
  | cons c a ih => rw [List.cons_append, octetLength, octetLength, ih, Nat.add_assoc]

theorem octetLength_slashes (k : Nat) : octetLength (List.replicate k '/') = k := by
  induction k with
  | zero => rfl
  | succ k ih =>
    have hslash : '/'.utf8Size = 1 := rfl
    rw [List.replicate_succ, octetLength, ih, hslash, Nat.add_comm]

/-- The text of a path is not longer than the file system takes. -/
def Fits (p : Path) : Prop := octetLength p.text ≤ pathLimit

/-- A name put after a path takes its own room, and that of a slash at most. -/
theorem octetLength_join {x : List Char} (hx : Path.IsPlain x) (p : Path) :
    octetLength p.text + octetLength x ≤ octetLength (p.join ⟨x⟩).text ∧
      octetLength (p.join ⟨x⟩).text ≤ octetLength p.text + 1 + octetLength x := by
  have hslash (rest : List Char) : octetLength ('/' :: rest) = 1 + octetLength rest := rfl
  rcases hx.join p with ⟨htext, hjoin⟩ | ⟨base, htext, hjoin⟩ | ⟨-, hjoin⟩
  · rw [hjoin, htext]
    show 0 + octetLength x ≤ octetLength x ∧ octetLength x ≤ 0 + 1 + octetLength x
    omega
  · rw [hjoin, htext, octetLength_append, octetLength_append, hslash, hslash, octetLength]
    omega
  · rw [hjoin, octetLength_append, hslash]
    omega

/-- A name takes no more room after the beginning of a path than after the path. -/
theorem Fits.of_front {x : List Char} (hx : Path.IsPlain x) {a p : Path} (h : a.text <+: p.text)
    (hfits : Fits (p.join ⟨x⟩)) : Fits (a.join ⟨x⟩) := by
  obtain ⟨rest, hrest⟩ := h
  cases rest with
  | nil =>
    have hap : a = p := by
      obtain ⟨text⟩ := a
      obtain ⟨text'⟩ := p
      simpa using hrest
    rwa [hap]
  | cons c rest =>
    have hlength : octetLength a.text + (c.utf8Size + octetLength rest) = octetLength p.text := by
      rw [← hrest, octetLength_append, octetLength]
    have hc : 0 < c.utf8Size := Char.utf8Size_pos c
    have ha := (octetLength_join hx a).2
    have hp := (octetLength_join hx p).1
    rw [Fits] at hfits ⊢
    omega

/-- A path that is too long leads nowhere. -/
theorem look?_of_not_fits {p : Path} (h : ¬Fits p) (t : FileTree) (cwd : Place) :
    t.look? cwd p = none := by
  have hfault : ∃ e, textFault? p = some e := by
    unfold textFault?
    split
    · exact ⟨_, rfl⟩
    · split
      · exact ⟨_, rfl⟩
      · exact ⟨.nameTooLong, if_pos (Nat.not_le.mp h)⟩
  obtain ⟨e, he⟩ := hfault
  have hloc : t.locate cwd .see p = .error e := by
    unfold locate
    rw [he]
  exact look?_of_error hloc

/-! ## §3 Paths with the same components -/

section same

variable {p q : Path}

theorem textFault?_of_fits (hne : p.components ≠ []) (hfits : Fits p) :
    textFault? p = if p.names.any (·.contains '\x00') then some .nulInPath else none := by
  have htext : p.text ≠ [] := by
    intro htext
    have hp : p = ⟨[]⟩ := by rw [← htext]
    exact hne (hp ▸ rfl)
  have hnul : p.text.contains '\x00' = p.names.any (·.contains '\x00') := by
    rw [Bool.eq_iff_iff, List.contains_iff_mem, Path.mem_text_iff (by decide) (by decide)]
    simp
  have hempty : ¬p.text.isEmpty = true := by simpa using htext
  rw [textFault?, hnul, if_neg hempty, if_neg (Nat.not_lt.mpr hfits)]

/-- Paths that are not too long lead to the same if they have the same components and
end in a name. -/
theorem locate_of_components (h : p.components = q.components) (hne : p.components ≠ [])
    (hp : EndsInName p.segments) (hq : EndsInName q.segments) (hpfits : Fits p) (hqfits : Fits q)
    {purpose : Purpose} (hpurpose : purpose ≠ .write) (t : FileTree) (cwd : Place) :
    t.locate cwd purpose p = t.locate cwd purpose q := by
  have hnames : meaning p.segments = meaning q.segments := by
    have hnames := Path.names_of_components p
    rw [h, ← Path.names_of_components q] at hnames
    exact hnames
  have habs : p.isAbsolute = q.isAbsolute := by
    rw [Bool.eq_iff_iff, Path.isAbsolute_of_components, Path.isAbsolute_of_components, h]
  have hfault : textFault? p = textFault? q := by
    rw [textFault?_of_fits hne hpfits, textFault?_of_fits (h ▸ hne) hqfits, Path.names_of_components,
      h, ← Path.names_of_components]
  rw [locate, locate, hfault, habs]
  split
  · rfl
  · rfl
  · rw [walk_meaning t hpurpose _ _ hp, hnames, ← walk_meaning t hpurpose _ _ hq]

theorem endsInName_join {x : List Char} (hx : Path.IsPlain x) (p : Path) :
    EndsInName (p.join ⟨x⟩).segments := by
  intro last hlast
  rw [hx.getLast?_join, Option.mem_some_iff] at hlast
  exact hlast ▸ Bool.eq_false_iff.mpr hx.blank

/-- A name below two directories with the same components is found in both or in none. -/
theorem locate_join {x : List Char} (hx : Path.IsPlain x) (h : p.components = q.components)
    (hp : Fits (p.join ⟨x⟩)) (hq : Fits (q.join ⟨x⟩)) {purpose : Purpose}
    (hpurpose : purpose ≠ .write) (t : FileTree) (cwd : Place) :
    t.locate cwd purpose (p.join ⟨x⟩) = t.locate cwd purpose (q.join ⟨x⟩) := by
  have hcomponents : (p.join ⟨x⟩).components = (q.join ⟨x⟩).components := by
    rw [hx.components_join, hx.components_join, h]
  have hne : (p.join ⟨x⟩).components ≠ [] := by
    rw [hx.components_join]
    simp
  exact locate_of_components hcomponents hne (endsInName_join hx p) (endsInName_join hx q) hp hq
    hpurpose t cwd

/-- A name below two directories with the same components is the same. -/
theorem look?_join {x : List Char} (hx : Path.IsPlain x) (h : p.components = q.components)
    (hp : Fits (p.join ⟨x⟩)) (hq : Fits (q.join ⟨x⟩)) (t : FileTree) (cwd : Place) :
    t.look? cwd (p.join ⟨x⟩) = t.look? cwd (q.join ⟨x⟩) := by
  rw [look?, look?, stat, stat, find, find, locate_join hx h hp hq (by decide)]

end same

/-! ## §4 Trees without links -/

/-- Whether no node of a tree is a link. -/
def isLinkless (t : FileTree) : Bool :=
  t.nodes.all fun entry =>
    match entry.2 with
    | .link _ => false
    | _ => true

theorem mem_nodesOf_of_get? {name : List Char} {entries : Entries} {node : Node}
    (h : Entries.get? entries name = some node) (place : Place) :
    (place ++ [name], node) ∈ nodesOf place entries ∧
      node.contents (place ++ [name]) ⊆ nodesOf place entries := by
  induction entries with
  | nil => cases h
  | cons entry rest ih =>
    obtain ⟨key, first⟩ := entry
    rw [Entries.get?_cons] at h
    rw [nodesOf]
    by_cases hkey : key = name
    · rw [if_pos hkey] at h
      cases h
      rw [hkey]
      exact ⟨List.mem_cons_self,
        fun entry hentry => List.mem_cons_of_mem _ (List.mem_append_left _ hentry)⟩
    · rw [if_neg hkey] at h
      obtain ⟨hnode, hcontents⟩ := ih h
      exact ⟨List.mem_cons_of_mem _ (List.mem_append_right _ hnode),
        fun entry hentry => List.mem_cons_of_mem _ (List.mem_append_right _ (hcontents hentry))⟩

/-- Every node but the root is among the nodes. -/
theorem mem_nodesOf_of_node? {q : Place} {entries : Entries} {node : Node} (hq : q ≠ [])
    (h : Entries.node? q entries = some node) (place : Place) :
    (place ++ q, node) ∈ nodesOf place entries := by
  induction q generalizing entries place with
  | nil => exact absurd rfl hq
  | cons name below ih =>
    cases below with
    | nil =>
      rw [Entries.node?_singleton] at h
      exact (mem_nodesOf_of_get? h place).1
    | cons next rest =>
      by_cases hdir : ∃ inner, Entries.get? entries name = some (.directory inner)
      · obtain ⟨inner, hinner⟩ := hdir
        rw [Entries.node?_cons_of_directory hinner] at h
        have hbelow := ih (List.cons_ne_nil next rest) h (place ++ [name])
        rw [List.append_assoc] at hbelow
        exact (mem_nodesOf_of_get? hinner place).2 hbelow
      · rw [Entries.node?_cons_cons_of_not_directory fun inner hget => hdir ⟨inner, hget⟩] at h
        cases h

theorem node?_ne_link {t : FileTree} (h : t.isLinkless = true) (q : Place) (target : Path) :
    t.node? q ≠ some (.link target) := by
  intro hlink
  have hq : q ≠ [] := by
    rintro rfl
    cases hlink
  have hfree := List.all_eq_true.mp h _ (mem_nodesOf_of_node? hq hlink [])
  cases hfree

/-- Without links, a path that ends in a name leads to a place of that name. -/
theorem walk_linkless {t : FileTree} (h : t.isLinkless = true) {links : Nat} {c : Cursor}
    {segments : List (List Char)} {x : List Char} {location : Location} (hc : Cursor.At t c)
    (hlast : segments.getLast? = some x) (hx : Path.IsPlain x)
    (hwalk : t.walk .see links c segments = .ok location) : location.place.getLast? = some x := by
  have hrest {segment : List Char} {rest : List (List Char)}
      (hlast : (segment :: rest).getLast? = some x) (hne : segment ≠ x) : rest.getLast? = some x := by
    cases rest with
    | nil => exact absurd (Option.some.inj hlast) hne
    | cons next rest => rwa [List.getLast?_cons_cons] at hlast
  have hsegment {segment : List Char} {rest : List (List Char)}
      (hlast : (segment :: rest).getLast? = some x) (hempty : rest.isEmpty = true) : segment = x := by
    rw [List.isEmpty_iff.mp hempty] at hlast
    exact Option.some.inj hlast
  fun_induction t.walk .see links c segments <;> try cases hwalk
  case case1 => cases hlast
  case case2 hblank ih =>
    exact ih hc (hrest hlast fun h => hx.blank (h ▸ hblank)) hwalk
  case case3 ih =>
    exact ih hc.up (hrest hlast fun h => hx.parent h.symm) hwalk
  case case6 c segment rest _ _ _ _ _ hempty =>
    rw [hsegment hlast hempty]
    exact List.getLast?_concat
  case case8 c segment rest _ _ _ _ inner hget ih =>
    by_cases hempty : rest = []
    · -- the directory itself is what the path leads to
      subst hempty
      rw [FileTree.walk] at hwalk
      cases hwalk
      rw [Location.place, Cursor.place_enter, hsegment hlast rfl]
      exact List.getLast?_concat
    · refine ih (hc.enter hget) ?_ hwalk
      rwa [List.getLast?_cons_of_ne_nil hempty] at hlast
  case case9 c segment rest _ _ _ _ octets _ hempty =>
    rw [hsegment hlast hempty]
    exact List.getLast?_concat
  case case11 c segment rest _ _ _ _ target hget _ =>
    exact absurd ((hc.node?_below segment).trans hget) (node?_ne_link h _ target)
  case case13 c segment rest _ _ _ _ target hget _ _ _ =>
    exact absurd ((hc.node?_below segment).trans hget) (node?_ne_link h _ target)

theorem getLast?_placeOf? {t : FileTree} (h : t.isLinkless = true) {cwd place : Place}
    {p : Path} {x : List Char} (hp : p.segments.getLast? = some x) (hx : Path.IsPlain x)
    (hplace : t.placeOf? cwd p = some place) : place.getLast? = some x := by
  rw [placeOf?] at hplace
  cases hloc : t.locate cwd .see p with
  | error e =>
    rw [hloc] at hplace
    cases hplace
  | ok location =>
    rw [hloc] at hplace
    cases hplace
    unfold locate at hloc
    split at hloc
    · cases hloc
    · cases hloc
    · next c _ hstart => exact walk_linkless h (at_start hstart) hp hx hloc

end MarkerBlock.FileTree
