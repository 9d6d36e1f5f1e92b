/-
MarkerBlock.Proofs.FileTree.Copy — the same directory at two places.

What a path shows that leads into a directory and stays there (`Stays`) depends on what is
in the directory, not on where it is (`walk_under`).  A path stays in a directory unless it
passes a link that leads out, or more links than there are to spare: that is all that a
directory can notice of what is around it.  So a copy of a directory (`Copy`) shows what
the directory shows (`Copy.stat`), and goes on to do so when a file in it or elsewhere is
written (`Copy.set_inside`, `Copy.set_outside`).
-/
import Mathlib
import MarkerBlock.Proofs.FileTree.Passage

namespace MarkerBlock

/-! ## §1 Ways that stay inside -/

namespace FileTree

/-- A way from a cursor that does not depend on what is above the root of its tree: it does not
go up from the root, passes no link that begins there, and passes no more than `links` links. -/
inductive Stays (purpose : Purpose) : Nat → Cursor → List (List Char) → Prop where
  | done (links : Nat) (c : Cursor) : Stays purpose links c []
  | blank {links : Nat} {c : Cursor} {segment : List Char} {rest : List (List Char)}
    (h : Path.isBlank segment = true) (on : Stays purpose links c rest) :
    Stays purpose links c (segment :: rest)
  | up {links : Nat} {c : Cursor} {rest : List (List Char)} (h : c.above ≠ [])
    (on : Stays purpose links c.up rest) : Stays purpose links c (['.', '.'] :: rest)
  | long {links : Nat} {c : Cursor} {segment : List Char} {rest : List (List Char)}
    (hblank : ¬Path.isBlank segment = true) (hdots : ¬segment = ['.', '.'])
    (h : nameLimit < octetLength segment) : Stays purpose links c (segment :: rest)
  | vacant {links : Nat} {c : Cursor} {segment : List Char} {rest : List (List Char)}
    (hname : IsName purpose segment rest) (h : Entries.get? c.entries segment = none) :
    Stays purpose links c (segment :: rest)
  | file {links : Nat} {c : Cursor} {segment : List Char} {rest : List (List Char)}
    {octets : List UInt8} (hname : IsName purpose segment rest)
    (h : Entries.get? c.entries segment = some (.file octets)) :
    Stays purpose links c (segment :: rest)
  | directory {links : Nat} {c : Cursor} {segment : List Char} {rest : List (List Char)}
    {inner : Entries} (hname : IsName purpose segment rest)
    (h : Entries.get? c.entries segment = some (.directory inner))
    (on : Stays purpose links (c.enter segment inner) rest) :
    Stays purpose links c (segment :: rest)
  | seen {links : Nat} {c : Cursor} {segment : List Char} {rest : List (List Char)} {target : Path}
    (hname : IsName purpose segment rest)
    (h : Entries.get? c.entries segment = some (.link target))
    (hseen : (rest.isEmpty && decide (purpose = .seeLink)) = true) :
    Stays purpose links c (segment :: rest)
  | passed {links : Nat} {c : Cursor} {segment : List Char} {rest : List (List Char)}
    {target : Path} (hname : IsName purpose segment rest)
    (h : Entries.get? c.entries segment = some (.link target))
    (hpassed : ¬(rest.isEmpty && decide (purpose = .seeLink)) = true)
    (hrelative : target.isAbsolute = false) (on : Stays purpose links c (target.segments ++ rest)) :
    Stays purpose (links + 1) c (segment :: rest)

end FileTree

/-- A cursor of a tree as one of the tree in which the root of the first is where `base` stands. -/
def Cursor.under (c base : Cursor) : Cursor := ⟨c.entries, c.above ++ base.above⟩

theorem Cursor.place_under (c base : Cursor) : (c.under base).place = base.place ++ c.place := by
  simp [under, place]

theorem Cursor.up_under {c : Cursor} (h : c.above ≠ []) (base : Cursor) :
    (c.under base).up = c.up.under base := by
  obtain ⟨entries, above⟩ := c
  obtain ⟨first, rest, rfl⟩ := List.exists_cons_of_ne_nil h
  rfl

namespace FileTree

/-- Where a path leads, seen from outside of a directory at `place`. -/
def Location.under (place : Place) : Location → Location
  | .found q node => .found (place ++ q) node
  | .vacant q => .vacant (place ++ q)

section under

variable {purpose : Purpose} {n : Nat} {c : Cursor} {segments : List (List Char)}

/-- A way that stays inside leads, in whatever tree, to what it leads to inside. -/
theorem Stays.walk_under (h : Stays purpose n c segments) (hpurpose : purpose ≠ .write) {links : Nat}
    (hlinks : n ≤ links) (inner outer : FileTree) (base : Cursor) :
    outer.walk purpose links (c.under base) segments =
      (inner.walk purpose n c segments).map (Location.under base.place) := by
  induction h generalizing links with
  | done n c =>
    rw [walk, walk, Cursor.place_under]
    rfl
  | blank hblank _ ih => rw [walk, if_pos hblank, walk, if_pos hblank, ih hlinks]
  | up habove _ ih =>
    have hdots : ¬Path.isBlank ['.', '.'] = true := by decide
    rw [walk, if_neg hdots, if_pos rfl, walk, if_neg hdots, if_pos rfl, Cursor.up_under habove,
      ih hlinks]
  | long hblank hdots hlong =>
    rw [walk, if_neg hblank, if_neg hdots, if_neg (by simp [hpurpose]), if_pos hlong,
      walk, if_neg hblank, if_neg hdots, if_neg (by simp [hpurpose]), if_pos hlong]
    rfl
  | @vacant n c segment rest hname hget =>
    rw [walk_vacant (c := c.under base) hname hget, walk_vacant hname hget, Cursor.place_under]
    split
    · simp [Except.map, Location.under]
    · rfl
  | @file n c segment rest octets hname hget =>
    rw [walk_file (c := c.under base) hname hget, walk_file hname hget, Cursor.place_under]
    split
    · simp [Except.map, Location.under]
    · rfl
  | @directory n c segment rest entries hname hget _ ih =>
    rw [walk_directory (c := c.under base) hname hget, walk_directory hname hget, ← ih hlinks]
    rfl
  | @seen n c segment rest target hname hget hseen =>
    rw [walk_link_seen (c := c.under base) hname hget hseen, walk_link_seen hname hget hseen,
      Cursor.place_under]
    simp [Except.map, Location.under]
  | @passed n c segment rest target hname hget hpassed hrelative _ ih =>
    obtain ⟨links, rfl⟩ : ∃ more, links = more + 1 := ⟨links - 1, by omega⟩
    rw [walk_link_passed (c := c.under base) hname hget hpassed, walk_link_passed hname hget hpassed,
      hrelative]
    exact ih (Nat.le_of_succ_le_succ hlinks)

/-- A way that stays inside stays there in a later tree. -/
theorem Stays.of_grown {t t' : FileTree} (hgrown : ∀ q, Grown (t.node? q) (t'.node? q))
    (h : Stays purpose n c segments) (hc : Cursor.At t c) {c' : Cursor} (hc' : Cursor.At t' c')
    (hplace : c'.place = c.place) : Stays purpose n c' segments := by
  induction h generalizing c' with
  | done n c => exact .done n c'
  | blank hblank _ ih => exact .blank hblank (ih hc hc' hplace)
  | up habove _ ih =>
    refine .up ?_ (ih hc.up hc'.up ?_)
    · intro hroot
      have hlength := congrArg List.length hplace
      simp only [Cursor.place, hroot, List.length_reverse, List.length_map] at hlength
      exact habove (List.length_eq_zero_iff.mp hlength.symm)
    · rw [Cursor.place_up, Cursor.place_up, hplace]
  | long hblank hdots hlong => exact .long hblank hdots hlong
  | vacant hname hget =>
    rcases (grown_below hgrown hc hc' hplace hget).of_none with hget' | ⟨octets, hget'⟩
    · exact .vacant hname hget'
    · exact .file hname hget'
  | file hname hget =>
    obtain ⟨octets', hget'⟩ := (grown_below hgrown hc hc' hplace hget).of_some.eq_file
    exact .file hname hget'
  | directory hname hget _ ih =>
    obtain ⟨inner', hget'⟩ := (grown_below hgrown hc hc' hplace hget).of_some.eq_directory
    refine .directory hname hget' (ih (hc.enter hget) (hc'.enter hget') ?_)
    rw [Cursor.place_enter, Cursor.place_enter, hplace]
  | seen hname hget hseen =>
    exact .seen hname (grown_below hgrown hc hc' hplace hget).of_some.eq_link hseen
  | passed hname hget hpassed hrelative _ ih =>
    exact .passed hname (grown_below hgrown hc hc' hplace hget).of_some.eq_link hpassed hrelative
      (ih hc hc' hplace)

/-- Names that lead to a file, or to a link that is itself meant, stay inside. -/
theorem stays_names (hpurpose : purpose ≠ .write) {names : Place} {node : Node}
    (hnames : ∀ name ∈ names, IsEntryName name) (hnode : Entries.node? names c.entries = some node)
    (hend : IsEnd purpose node) (n : Nat) : Stays purpose n c names := by
  induction names generalizing c with
  | nil => exact .done n c
  | cons name rest ih =>
    obtain ⟨hname, hrest⟩ := List.forall_mem_cons.mp hnames
    by_cases hdirectory : ∃ inner, Entries.get? c.entries name = some (.directory inner)
    · obtain ⟨inner, hget⟩ := hdirectory
      rw [Entries.node?_cons_of_directory hget] at hnode
      exact .directory (hname.isName hpurpose rest) hget (ih hrest hnode)
    · have hnot : ∀ inner, Entries.get? c.entries name ≠ some (.directory inner) :=
        fun inner hget => hdirectory ⟨inner, hget⟩
      cases rest with
      | nil =>
        rw [Entries.node?_singleton] at hnode
        cases hend with
        | file octets => exact .file (hname.isName hpurpose []) hnode
        | link target h => exact .seen (hname.isName hpurpose []) hnode (by simp [h])
      | cons next rest =>
        rw [Entries.node?_cons_cons_of_not_directory hnot] at hnode
        cases hnode

end under

end FileTree

/-! ## §2 Changes below a directory and beside it -/

namespace Entries

/-- A directory lies below a directory. -/
theorem exists_directory_of_node? {name : List Char} {rest : Place} {entries inner : Entries}
    (h : node? (name :: rest) entries = some (.directory inner)) :
    ∃ sub, get? entries name = some (.directory sub) := by
  by_contra hnot
  have hnot' : ∀ sub, get? entries name ≠ some (.directory sub) := fun sub hsub => hnot ⟨sub, hsub⟩
  cases rest with
  | nil =>
    rw [node?_singleton] at h
    exact hnot' inner h
  | cons next more =>
    rw [node?_cons_cons_of_not_directory hnot'] at h
    cases h

/-- What changes at a place is below the first name of the place. -/
theorem get?_alterAt_cons {name next : List Char} {more : Place} {entries sub : Entries}
    (h : get? entries name = some (.directory sub)) (change : Option Node → Option Node) :
    get? (alterAt change (name :: next :: more) entries) name =
      some (.directory (alterAt change (next :: more) sub)) := by
  rw [alterAt]
  exact get?_alter_self (by rw [h])

/-- A change below a directory changes what is in the directory. -/
theorem node?_alterAt_inside {place : Place} {entries inner : Entries}
    (h : node? place entries = some (.directory inner)) (change : Option Node → Option Node)
    {names : Place} (hne : names ≠ []) :
    node? place (alterAt change (place ++ names) entries) =
      some (.directory (alterAt change names inner)) := by
  induction place generalizing entries with
  | nil =>
    cases h
    rfl
  | cons name rest ih =>
    obtain ⟨next, more, hbelow⟩ : ∃ next more, rest ++ names = next :: more :=
      List.exists_cons_of_ne_nil (by simp [hne])
    obtain ⟨sub, hget⟩ := exists_directory_of_node? h
    rw [node?_cons_of_directory hget] at h
    rw [List.cons_append, hbelow, node?_cons_of_directory (get?_alterAt_cons hget change), ← hbelow]
    exact ih h

/-- A change that is not below a directory leaves the directory as it is. -/
theorem node?_alterAt_outside {place there : Place} {entries inner : Entries}
    (h : node? place entries = some (.directory inner)) (change : Option Node → Option Node)
    (hout : ¬place <+: there) (hthere : ∀ sub, node? there entries ≠ some (.directory sub)) :
    node? place (alterAt change there entries) = some (.directory inner) := by
  induction place generalizing there entries with
  | nil => exact absurd List.nil_prefix hout
  | cons name rest ih =>
    obtain ⟨sub, hget⟩ := exists_directory_of_node? h
    rcases there with - | ⟨other, - | ⟨next, more⟩⟩
    · exact absurd rfl (hthere entries)
    · have hne : name ≠ other := by
        rintro rfl
        rw [node?_singleton] at hthere
        exact hthere sub hget
      rw [alterAt, node?_cons_congr (get?_alter_of_ne hne change entries)]
      exact h
    · by_cases hname : other = name
      · subst hname
        rw [node?_cons_of_directory hget] at h hthere
        rw [node?_cons_of_directory (get?_alterAt_cons hget change)]
        exact ih h (fun hprefix => hout (List.cons_prefix_cons.mpr ⟨rfl, hprefix⟩)) hthere
      · rw [alterAt, node?_cons_congr (get?_alter_of_ne (Ne.symm hname) _ entries)]
        exact h

end Entries

/-! ## §3 Copies -/

namespace FileTree

/-- What names below a directory show, by what is in the directory alone. -/
def seen (inner : Entries) (purpose : Purpose) (links : Nat) (names : Place) :
    Except FileError Node :=
  match (FileTree.mk inner).walk purpose links (FileTree.mk inner).cursor names with
  | .ok (.found _ node) => .ok node
  | .ok (.vacant _) => .error .notFound
  | .error e => .error e

/-- A directory with the contents `inner` is at `place`, and is reached by the path `r`; a path
that goes on from there may pass `spare` more links at least. -/
structure Copy (tree : FileTree) (r : Path) (spare : Nat) (place : Place) (inner : Entries) :
    Prop where
  absolute : r.isAbsolute = true
  spares : spare ≤ linkLimit
  reached : tree.walk .see (linkLimit - spare) tree.cursor r.segments =
    .ok (.found place (.directory inner))

section copies

variable {tree : FileTree} {r q : Path} {spare : Nat} {place names : Place} {inner : Entries}

/-- A path that stays in a copy leads where it leads in the directory. -/
theorem Copy.locate (h : Copy tree r spare place inner) (hq : Writes r names q) (hne : names ≠ [])
    {purpose : Purpose} (hpurpose : purpose ≠ .write)
    (hstays : Stays purpose spare (FileTree.mk inner).cursor names) (cwd : Place) :
    tree.locate cwd purpose q =
      ((FileTree.mk inner).walk purpose spare (FileTree.mk inner).cursor names).map
        (Location.under place) := by
  have habs := Path.isAbsolute_of_below hq.components h.absolute
  obtain ⟨left, d, hd⟩ := walk_append h.reached
  have hunder : d = (FileTree.mk inner).cursor.under d := by
    obtain ⟨entries, above⟩ := d
    have hholds : entries = inner := hd.holds
    rw [hholds]
    rfl
  have hwalk : tree.walk purpose linkLimit tree.cursor q.segments =
      tree.walk purpose (left + spare) d names := by
    have hbelow := hd.below hq hne hpurpose spare
    rwa [Nat.sub_add_cancel h.spares] at hbelow
  unfold FileTree.locate
  rw [hq.fault, if_pos habs]
  simp only
  rw [hwalk, hunder, hstays.walk_under hpurpose (Nat.le_add_left spare left) ⟨inner⟩, hd.here]

/-- A path that stays in a copy shows what it shows in the directory. -/
theorem Copy.find (h : Copy tree r spare place inner) (hq : Writes r names q) (hne : names ≠ [])
    {purpose : Purpose} (hpurpose : purpose ≠ .write)
    (hstays : Stays purpose spare (FileTree.mk inner).cursor names) (cwd : Place) :
    (tree.find cwd purpose q).map Prod.snd = seen inner purpose spare names := by
  unfold FileTree.find seen
  rw [h.locate hq hne hpurpose hstays cwd]
  rcases (FileTree.mk inner).walk purpose spare (FileTree.mk inner).cursor names with
    e | (⟨there, node⟩ | there) <;> rfl

theorem Copy.look? (h : Copy tree r spare place inner) (hq : Writes r names q) (hne : names ≠ [])
    (hstays : Stays .see spare (FileTree.mk inner).cursor names) (cwd : Place) :
    tree.look? cwd q = (seen inner .see spare names).toOption.map Node.face := by
  rw [FileTree.look?, stat, h.find hq hne (by decide) hstays]

/-- A copy is reached by every path with the same components that ends in a name. -/
theorem Copy.respelled (h : Copy tree r spare place inner) (hcomponents : q.components = r.components)
    (hr : EndsInName r.segments) (hq : EndsInName q.segments) : Copy tree q spare place inner := by
  refine ⟨?_, h.spares, ?_⟩
  · rw [Path.isAbsolute_of_components, hcomponents, ← Path.isAbsolute_of_components]
    exact h.absolute
  · have hnames : Path.meaning q.segments = Path.meaning r.segments := by
      have hnames := Path.names_of_components q
      rw [hcomponents, ← Path.names_of_components r] at hnames
      exact hnames
    rw [walk_meaning tree (by decide) _ _ hq, hnames, ← walk_meaning tree (by decide) _ _ hr]
    exact h.reached

/-- Names that lead to a file, or to a link that is itself meant, show it. -/
theorem seen_names {purpose : Purpose} (hpurpose : purpose ≠ .write) {node : Node}
    (hnames : ∀ name ∈ names, IsEntryName name) (hnode : Entries.node? names inner = some node)
    (hend : IsEnd purpose node) (links : Nat) : seen inner purpose links names = .ok node := by
  unfold seen
  rw [walk_names (c := (FileTree.mk inner).cursor) hpurpose hnames hnode hend]

/-- A directory stays where it is when something is written, with other contents perhaps. -/
theorem Copy.of_grown (h : Copy tree r spare place inner) {tree' : FileTree} {inner' : Entries}
    (hgrown : ∀ q, Grown (tree.node? q) (tree'.node? q))
    (hnode : tree'.node? place = some (.directory inner')) : Copy tree' r spare place inner' := by
  refine ⟨h.absolute, h.spares, ?_⟩
  have hled : Led (tree.walk .see (linkLimit - spare) tree.cursor r.segments)
      (tree'.walk .see (linkLimit - spare) tree'.cursor r.segments) :=
    walk_led hgrown .root .root rfl
  rw [h.reached] at hled
  generalize hwalk : tree'.walk .see (linkLimit - spare) tree'.cursor r.segments = location at hled
  cases hled with
  | found _ halike =>
    have hholds : tree'.node? place = some _ := walk_holds .root hwalk
    rw [hnode] at hholds
    cases hholds
    rfl

theorem Copy.node? (h : Copy tree r spare place inner) :
    tree.node? place = some (.directory inner) := walk_holds .root h.reached

/-- When a file in a copy is rewritten, there is a copy of the directory with the file rewritten. -/
theorem Copy.set_inside (h : Copy tree r spare place inner) {old : List UInt8}
    (hfile : Entries.node? names inner = some (.file old)) (new : List UInt8) :
    Copy (tree.set (place ++ names) (.file new)) r spare place
      ((FileTree.mk inner).set names (.file new)).entries := by
  have hne : names ≠ [] := by
    rintro rfl
    cases hfile
  have hnode : tree.node? (place ++ names) = some (.file old) := by
    rw [FileTree.node?, Entries.node?_append h.node?, hfile]
  refine h.of_grown (fun q => .alike (alike_set hnode new q)) ?_
  exact Entries.node?_alterAt_inside h.node? _ hne

/-- When a file elsewhere is written, a copy stays as it is. -/
theorem Copy.set_outside (h : Copy tree r spare place inner) {cwd there : Place} {p : Path}
    {before : List UInt8} (htarget : tree.target cwd p = .ok (there, before))
    (hout : ¬place <+: there) (octets : List UInt8) :
    Copy (tree.set there (.file octets)) r spare place inner := by
  refine h.of_grown (grown_set_target htarget octets) ?_
  refine Entries.node?_alterAt_outside h.node? _ hout ?_
  intro sub hsub
  rcases target_eq_ok htarget with hlocate | ⟨hlocate, -⟩
  · have hnode : tree.node? there = some (.file before) := locate_holds hlocate
    rw [FileTree.node?, hsub] at hnode
    cases hnode
  · have hnode := (locate_holds hlocate).1
    rw [FileTree.node?, hsub] at hnode
    cases hnode

end copies

end FileTree

end MarkerBlock
