/-
MarkerBlock.Proofs.FileTree.Passage — going on from a directory.

A path whose beginning leads to a directory goes on from there: what is left to be
followed is what is behind the beginning, and what is left of the links is what the
beginning did not pass (`walk_append`, `Reached.below`).  Names below a directory lead to
the place of these names in it (`walk_names`, `find_below`).
-/
import Mathlib
import MarkerBlock.Proofs.FileTree.Spelling
import MarkerBlock.Proofs.Path.Below

namespace MarkerBlock.FileTree

variable {t : FileTree} {purpose : Purpose} {links : Nat} {c : Cursor}

/-! ## §1 Directories on the way -/

/-- Segments among which there is more than slashes. -/
def HasText (segments : List (List Char)) : Prop := segments.all List.isEmpty = false

theorem HasText.append {rest : List (List Char)} (h : HasText rest) (front : List (List Char)) :
    HasText (front ++ rest) := by
  unfold HasText at h ⊢
  rw [List.all_append, h, Bool.and_false]

theorem HasText.ne_nil {segments : List (List Char)} (h : HasText segments) : segments ≠ [] := by
  rintro rfl
  cases h

/-- A segment that is looked up when a path is looked at is looked up when the path goes on. -/
theorem IsName.on {segment : List Char} {rest more : List (List Char)}
    (h : IsName .see segment rest) (hmore : HasText more) :
    IsName purpose segment (rest ++ more) := by
  have hall : (rest ++ more).all List.isEmpty = false := hmore.append rest
  refine ⟨h.blank, h.dots, ?_, h.short⟩
  rw [hall, Bool.and_false]
  exact Bool.false_ne_true

/-- The cursor at a directory that was reached, and how many links may still be passed from
there: what comes next is followed from this cursor. -/
structure Reached (t : FileTree) (links : Nat) (c : Cursor) (front : List (List Char))
    (place : Place) (inner : Entries) (left : Nat) (d : Cursor) : Prop where
  here : d.place = place
  holds : d.entries = inner
  part : Cursor.At t c → Cursor.At t d
  fewer : left ≤ links
  onward : ∀ purpose more rest, HasText rest →
    t.walk purpose (links + more) c (front ++ rest) = t.walk purpose (left + more) d rest

/-- A path whose beginning leads to a directory goes on from there. -/
theorem walk_append {front : List (List Char)} {place : Place} {inner : Entries}
    (h : t.walk .see links c front = .ok (.found place (.directory inner))) :
    ∃ left d, Reached t links c front place inner left d := by
  fun_induction t.walk .see links c front <;> try cases h
  case case1 links c => exact ⟨links, c, rfl, rfl, id, le_rfl, fun _ _ _ _ => rfl⟩
  case case2 hblank ih =>
    obtain ⟨left, d, hd⟩ := ih h
    refine ⟨left, d, hd.here, hd.holds, hd.part, hd.fewer, ?_⟩
    intro purpose more rest hrest
    rw [List.cons_append, walk, if_pos hblank]
    exact hd.onward purpose more rest hrest
  case case3 hblank ih =>
    obtain ⟨left, d, hd⟩ := ih h
    refine ⟨left, d, hd.here, hd.holds, fun hc => hd.part hc.up, hd.fewer, ?_⟩
    intro purpose more rest hrest
    rw [List.cons_append, walk, if_neg hblank, if_pos rfl]
    exact hd.onward purpose more rest hrest
  case case8 hblank hdots hslash hname inner' hget ih =>
    obtain ⟨left, d, hd⟩ := ih h
    refine ⟨left, d, hd.here, hd.holds, fun hc => hd.part (hc.enter hget), hd.fewer, ?_⟩
    intro purpose more rest hrest
    have hseen := IsName.mk hblank hdots hslash hname
    rw [List.cons_append, walk_directory (hseen.on hrest) hget]
    exact hd.onward purpose more rest hrest
  case case13 c segment front hblank hdots hslash hname target hget hlink links ih =>
    obtain ⟨left, d, hd⟩ := ih h
    refine ⟨left, d, hd.here, hd.holds, ?_, Nat.le_succ_of_le hd.fewer, ?_⟩
    · intro hc
      refine hd.part ?_
      split
      · exact .root
      · exact hc
    · intro purpose more rest hrest
      have hseen := IsName.mk hblank hdots hslash hname
      have hon : ¬((front ++ rest).isEmpty && decide (purpose = .seeLink)) = true := by
        simp [hrest.ne_nil]
      rw [List.cons_append, Nat.succ_add, walk_link_passed (hseen.on hrest) hget hon,
        ← List.append_assoc]
      exact hd.onward purpose more rest hrest

/-! ## §2 Names in a directory -/

/-- A name that may be in a directory and is not too long for the file system. -/
structure IsEntryName (name : List Char) : Prop where
  plain : Path.IsPlain name
  short : octetLength name ≤ nameLimit

instance (name : List Char) : Decidable (IsEntryName name) :=
  decidable_of_iff (('/' ∉ name ∧ ¬Path.isBlank name = true ∧ name ≠ ['.', '.']) ∧
      octetLength name ≤ nameLimit)
    ⟨fun ⟨⟨hslash, hblank, hparent⟩, hshort⟩ => ⟨⟨hslash, hblank, hparent⟩, hshort⟩,
      fun ⟨⟨hslash, hblank, hparent⟩, hshort⟩ => ⟨⟨hslash, hblank, hparent⟩, hshort⟩⟩

theorem IsEntryName.isName {name : List Char} (h : IsEntryName name) (hpurpose : purpose ≠ .write)
    (rest : List (List Char)) : IsName purpose name rest :=
  ⟨h.plain.blank, h.plain.parent, by simp [hpurpose], Nat.not_lt.mpr h.short⟩

/-- A node that a path is followed to and not beyond: a file, or a link if links are meant. -/
inductive IsEnd (purpose : Purpose) : Node → Prop where
  | file (octets : List UInt8) : IsEnd purpose (.file octets)
  | link (target : Path) (h : purpose = .seeLink) : IsEnd purpose (.link target)

theorem IsEnd.walk {name : List Char} {node : Node} (h : IsEnd purpose node)
    (hname : IsName purpose name []) (hget : Entries.get? c.entries name = some node)
    (t : FileTree) (links : Nat) :
    t.walk purpose links c [name] = .ok (.found (c.place ++ [name]) node) := by
  cases h with
  | file octets =>
    rw [walk_file hname hget]
    rfl
  | link target h => exact walk_link_seen hname hget (by simp [h])

/-- Names below a directory lead to what is at their place in it. -/
theorem walk_names (hpurpose : purpose ≠ .write) {names : Place} {node : Node}
    (hnames : ∀ name ∈ names, IsEntryName name) (hnode : Entries.node? names c.entries = some node)
    (hend : IsEnd purpose node) (t : FileTree) (links : Nat) :
    t.walk purpose links c names = .ok (.found (c.place ++ names) node) := by
  induction names generalizing c with
  | nil =>
    cases hnode
    cases hend
  | cons name rest ih =>
    obtain ⟨hname, hrest⟩ := List.forall_mem_cons.mp hnames
    by_cases hdirectory : ∃ inner, Entries.get? c.entries name = some (.directory inner)
    · obtain ⟨inner, hget⟩ := hdirectory
      rw [Entries.node?_cons_of_directory hget] at hnode
      have hbelow := ih (c := c.enter name inner) hrest hnode
      rw [walk_directory (hname.isName hpurpose rest) hget, hbelow, Cursor.place_enter,
        List.append_assoc, List.singleton_append]
    · have hnot : ∀ inner, Entries.get? c.entries name ≠ some (.directory inner) :=
        fun inner hget => hdirectory ⟨inner, hget⟩
      cases rest with
      | nil =>
        rw [Entries.node?_singleton] at hnode
        exact hend.walk (hname.isName hpurpose []) hnode t links
      | cons next rest =>
        rw [Entries.node?_cons_cons_of_not_directory hnot] at hnode
        cases hnode

/-! ## §3 Paths below a path -/

/-- A way to write names below a path, such that the file system takes it. -/
structure Writes (p : Path) (names : Place) (q : Path) : Prop where
  components : q.components = p.components ++ names.map .name
  ending : EndsInName q.segments
  fault : textFault? q = none

theorem endsInName_below {p : Path} {names : Place} (hnames : ∀ name ∈ names, Path.IsPlain name)
    (hne : names ≠ []) : EndsInName (p.below names).segments := by
  obtain ⟨front, name, rfl⟩ := (List.eq_nil_or_concat' names).resolve_left hne
  rw [Path.below_concat]
  exact endsInName_join (hnames name (by simp)) (p.below front)

theorem writes_below {p : Path} {names : Place} (hnames : ∀ name ∈ names, Path.IsPlain name)
    (hne : names ≠ []) (hfault : textFault? (p.below names) = none) :
    Writes p names (p.below names) :=
  ⟨Path.components_below hnames p, endsInName_below hnames hne, hfault⟩

/-- Names below a path to a directory are followed from the directory. -/
theorem Reached.below {p q : Path} {place names : Place} {inner : Entries} {left : Nat} {d : Cursor}
    (hd : Reached t links c p.segments place inner left d) (hq : Writes p names q)
    (hne : names ≠ []) (hpurpose : purpose ≠ .write) (more : Nat) :
    t.walk purpose (links + more) c q.segments = t.walk purpose (left + more) d names := by
  have hqnames : q.names = p.names ++ names := Path.names_of_below hq.components
  have hname : ∀ name ∈ names, Path.isBlank name = false := by
    intro name hmem
    have hmem' : name ∈ q.names := by
      rw [hqnames]
      exact List.mem_append_right _ hmem
    simpa using (List.mem_filter.mp hmem').2
  have hmeaning : Path.meaning (p.segments ++ names) = q.names := by
    have hkept : Path.meaning names = names :=
      List.filter_eq_self.mpr fun name hmem => by simp [hname name hmem]
    have happend : Path.meaning (p.segments ++ names) = p.names ++ Path.meaning names :=
      List.filter_append p.segments names
    rw [happend, hkept, hqnames]
  have hend : EndsInName (p.segments ++ names) := by
    intro last hlast
    rw [List.getLast?_append_of_ne_nil _ hne] at hlast
    exact hname last (List.mem_of_getLast? hlast)
  have htext : HasText names := by
    obtain ⟨first, rest, rfl⟩ := List.exists_cons_of_ne_nil hne
    have hfirst : first ≠ [] := by
      rintro rfl
      exact absurd (hname [] List.mem_cons_self) (by decide)
    unfold HasText
    rw [List.all_cons, List.isEmpty_eq_false_iff.mpr hfirst, Bool.false_and]
  calc t.walk purpose (links + more) c q.segments
      = t.walk purpose (links + more) c (Path.meaning (p.segments ++ names)) := by
        rw [walk_meaning t hpurpose _ _ hq.ending, hmeaning]
        rfl
    _ = t.walk purpose (links + more) c (p.segments ++ names) :=
        (walk_meaning t hpurpose _ _ hend).symm
    _ = t.walk purpose (left + more) d names := hd.onward purpose more names htext

/-- A file behind a path to a directory is found at its place in the directory, whether or not
links are meant themselves. -/
theorem find_below {cwd place names : Place} {p : Path} {entries : Entries} {octets : List UInt8}
    (hfind : t.find cwd .see p = .ok (place, .directory entries))
    (hnames : ∀ name ∈ names, IsEntryName name)
    (hfile : Entries.node? names entries = some (.file octets))
    (hfault : textFault? (p.below names) = none) (hpurpose : purpose ≠ .write) :
    t.find cwd purpose (p.below names) = .ok (place ++ names, .file octets) := by
  have hplain : ∀ name ∈ names, Path.IsPlain name := fun name h => (hnames name h).plain
  have hne : names ≠ [] := by
    rintro rfl
    cases hfile
  have hlocate : t.locate cwd .see p = .ok (.found place (.directory entries)) := by
    unfold find at hfind
    split at hfind <;> cases hfind
    assumption
  unfold locate at hlocate
  split at hlocate
  · cases hlocate
  · cases hlocate
  · next c hp hstart =>
    have htext : p.text ≠ [] := by
      intro hempty
      simp [textFault?, hempty] at hp
    have habs : (p.below names).isAbsolute = p.isAbsolute := by
      obtain ⟨rest, hrest⟩ := Path.text_prefix_below hplain p
      rw [Path.isAbsolute, Path.isAbsolute, ← hrest, List.head?_append_of_ne_nil _ htext]
    obtain ⟨left, d, hd⟩ := walk_append hlocate
    have hwalk : t.walk purpose linkLimit c (p.below names).segments =
        .ok (.found (place ++ names) (.file octets)) := by
      have hbelow := hd.below (writes_below hplain hne hfault) hne hpurpose 0
      rw [Nat.add_zero, Nat.add_zero] at hbelow
      rw [hbelow, walk_names hpurpose hnames (hd.holds ▸ hfile) (.file octets), hd.here]
    unfold find locate
    rw [hfault, habs, hstart]
    simp only [hwalk]

/-! ## §4 What the file system takes -/

/-- What is the matter with the beginning of a path is the matter with the path. -/
theorem textFault?_of_prefix {a p : Path} (h : a.text <+: p.text) (ha : a.text ≠ [])
    (hp : textFault? p = none) : textFault? a = none := by
  obtain ⟨rest, hrest⟩ := h
  unfold textFault? at hp ⊢
  rw [← hrest, octetLength_append] at hp
  split_ifs at hp with hnul hempty hlong
  rw [List.contains_iff_mem, List.mem_append, not_or] at hnul
  have hnul' : ¬a.text.contains '\x00' = true := by
    rw [List.contains_iff_mem]
    exact hnul.1
  rw [if_neg hnul', if_neg (by simpa using ha), if_neg (by omega)]

/-- If a name in a directory is taken by the file system, so is the name in a directory above. -/
theorem textFault?_join_of_prefix {a d : Path} {x : List Char} (hx : Path.IsPlain x)
    (h : a.text <+: d.text) (hd : textFault? (d.join ⟨x⟩) = none) :
    textFault? (a.join ⟨x⟩) = none := by
  have hfits : Fits (d.join ⟨x⟩) := by
    unfold textFault? at hd
    split_ifs at hd with hnul hempty hlong
    exact Nat.not_lt.mp hlong
  have hchars : ∀ c ∈ (a.join ⟨x⟩).text, c = '/' ∨ c ∈ (d.join ⟨x⟩).text := by
    have hfront : a.text ⊆ (d.join ⟨x⟩).text := (h.trans (hx.text_prefix_join d)).subset
    have hname : x ⊆ (d.join ⟨x⟩).text := by
      rcases hx.join d with ⟨-, hjoin⟩ | ⟨base, -, hjoin⟩ | ⟨-, hjoin⟩ <;> rw [hjoin] <;> simp
    intro c hc
    rcases hx.join a with ⟨-, hjoin⟩ | ⟨base, htext, hjoin⟩ | ⟨-, hjoin⟩
    · rw [hjoin] at hc
      exact .inr (hname hc)
    · rw [hjoin, List.mem_append, List.mem_cons] at hc
      rcases hc with hc | hc | hc
      · exact .inr (hfront (htext ▸ List.mem_append_left _ hc))
      · exact .inl hc
      · exact .inr (hname hc)
    · rw [hjoin, List.mem_append, List.mem_cons] at hc
      rcases hc with hc | hc | hc
      · exact .inr (hfront hc)
      · exact .inl hc
      · exact .inr (hname hc)
  have hempty : (a.join ⟨x⟩).text ≠ [] := by
    intro hnil
    have hlast := hx.getLast?_join a
    simp [Path.segments, hnil, Text.split] at hlast
    exact hx.blank (hlast ▸ rfl)
  have hnul : ¬(a.join ⟨x⟩).text.contains '\x00' = true := by
    rw [List.contains_iff_mem]
    intro hmem
    rcases hchars _ hmem with hslash | hmem
    · exact absurd hslash (by decide)
    · rw [textFault?, if_pos (List.contains_iff_mem.mpr hmem)] at hd
      cases hd
  have hlong : octetLength (a.join ⟨x⟩).text ≤ pathLimit := Fits.of_front hx h hfits
  unfold textFault?
  rw [if_neg hnul, if_neg (by simpa using hempty), if_neg (Nat.not_lt.mpr hlong)]

end MarkerBlock.FileTree
