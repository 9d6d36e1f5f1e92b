/-
MarkerBlock.Proofs.FileTree.Location — following a path through two trees at once.

A cursor is part of a tree (`Cursor.At`) if it was reached from the root by
entering directories.  A path is led by the names of directories and by links, not by
what files hold, so trees that are `Alike` at every place lead a path to one place
(`locate_place`).  A write to a file leaves a tree like the one before, so afterwards
the path still leads to the file that was written.
-/
import Mathlib
import MarkerBlock.FileTree.Location
import MarkerBlock.Proofs.FileTree.Basic

namespace MarkerBlock

/-! ## §1 Cursors of a tree -/

namespace Cursor

/-- A cursor that was reached from the root of a tree. -/
inductive At (t : FileTree) : Cursor → Prop where
  | root : At t t.cursor
  | enter {c : Cursor} {name : List Char} {inner : Entries} (above : At t c)
      (here : Entries.get? c.entries name = some (.directory inner)) : At t (c.enter name inner)

variable {t : FileTree} {c d : Cursor}

@[simp] theorem place_enter (c : Cursor) (name : List Char) (inner : Entries) :
    (c.enter name inner).place = c.place ++ [name] := by
  simp [place, enter]

/-- The directory above is one name shorter. -/
theorem place_up (c : Cursor) : c.up.place = c.place.dropLast := by
  obtain ⟨entries, above⟩ := c
  cases above with
  | nil => rfl
  | cons outer above => simp [place, up]

theorem At.up (h : At t c) : At t c.up := by
  cases h with
  | root => exact .root
  | enter above here => exact above

/-- A cursor holds what its directory holds. -/
theorem At.node? (h : At t c) : t.node? c.place = some (.directory c.entries) := by
  induction h with
  | root => rfl
  | @enter c name inner above here ih =>
    rw [FileTree.node?] at ih ⊢
    rw [place_enter, Entries.node?_append ih, Entries.node?_singleton]
    exact here

/-- What is under a name in the cursor's directory is at the place of that name. -/
theorem At.node?_below (h : At t c) (name : List Char) :
    t.node? (c.place ++ [name]) = Entries.get? c.entries name := by
  have hplace := h.node?
  rw [FileTree.node?] at hplace ⊢
  rw [Entries.node?_append hplace, Entries.node?_singleton]

/-- Only a directory can be entered. -/
theorem down?_eq_none {name : List Char} {rest : Place}
    (h : ¬∃ inner, Entries.get? c.entries name = some (.directory inner)) :
    c.down? (name :: rest) = none := by
  rw [down?]
  split
  · next inner hget => exact absurd ⟨inner, hget⟩ h
  · rfl

theorem At.down? {place : Place} (h : At t c) (hd : c.down? place = some d) : At t d := by
  induction place generalizing c with
  | nil =>
    cases hd
    exact h
  | cons name rest ih =>
    rw [Cursor.down?] at hd
    split at hd
    · next inner hget => exact ih (h.enter hget) hd
    · cases hd

end Cursor

namespace FileTree

/-- The cursor from which a path is followed is part of the tree. -/
theorem at_start {t : FileTree} {p : Path} {cwd : Place} {c : Cursor}
    (h : (if p.isAbsolute then some t.cursor else t.cursor.down? cwd) = some c) :
    Cursor.At t c := by
  split at h
  · cases h
    exact .root
  · exact Cursor.At.root.down? h

/-! ## §2 Names on the way -/

/-- A segment that is looked up in the directory: it is not passed over, does not lead
up, is not refused, and `rest` follows it. -/
structure IsName (purpose : Purpose) (segment : List Char) (rest : List (List Char)) : Prop where
  blank : ¬Path.isBlank segment = true
  dots : ¬segment = ['.', '.']
  slash : ¬(decide (purpose = .write) && !rest.isEmpty && rest.all List.isEmpty) = true
  short : ¬nameLimit < octetLength segment

/-- What is written to may also be looked at. -/
theorem IsName.see {segment : List Char} {rest : List (List Char)}
    (h : IsName .write segment rest) : IsName .see segment rest :=
  ⟨h.blank, h.dots, by simp, h.short⟩

section names

variable {t : FileTree} {purpose : Purpose} {links : Nat} {c : Cursor} {segment : List Char}
  {rest : List (List Char)}

theorem walk_vacant (h : IsName purpose segment rest) (hget : Entries.get? c.entries segment = none) :
    t.walk purpose links c (segment :: rest) =
      if rest.isEmpty then .ok (.vacant (c.place ++ [segment])) else .error .notFound := by
  rw [walk, if_neg h.blank, if_neg h.dots, if_neg h.slash, if_neg h.short, hget]

theorem walk_directory {inner : Entries} (h : IsName purpose segment rest)
    (hget : Entries.get? c.entries segment = some (.directory inner)) :
    t.walk purpose links c (segment :: rest) =
      t.walk purpose links (c.enter segment inner) rest := by
  rw [walk, if_neg h.blank, if_neg h.dots, if_neg h.slash, if_neg h.short, hget]

theorem walk_file {octets : List UInt8} (h : IsName purpose segment rest)
    (hget : Entries.get? c.entries segment = some (.file octets)) :
    t.walk purpose links c (segment :: rest) =
      if rest.isEmpty then .ok (.found (c.place ++ [segment]) (.file octets))
      else .error .notDirectory := by
  rw [walk, if_neg h.blank, if_neg h.dots, if_neg h.slash, if_neg h.short, hget]

/-- A link at the end of a path that asks for links. -/
theorem walk_link_seen {target : Path} (h : IsName purpose segment rest)
    (hget : Entries.get? c.entries segment = some (.link target))
    (hlink : (rest.isEmpty && decide (purpose = .seeLink)) = true) :
    t.walk purpose links c (segment :: rest) =
      .ok (.found (c.place ++ [segment]) (.link target)) := by
  rw [walk, if_neg h.blank, if_neg h.dots, if_neg h.slash, if_neg h.short, hget]
  exact if_pos hlink

theorem walk_link_refused {target : Path} (h : IsName purpose segment rest)
    (hget : Entries.get? c.entries segment = some (.link target))
    (hlink : ¬(rest.isEmpty && decide (purpose = .seeLink)) = true) :
    t.walk purpose 0 c (segment :: rest) = .error .tooManyLinks := by
  rw [walk, if_neg h.blank, if_neg h.dots, if_neg h.slash, if_neg h.short, hget]
  exact if_neg hlink

theorem walk_link_passed {target : Path} (h : IsName purpose segment rest)
    (hget : Entries.get? c.entries segment = some (.link target))
    (hlink : ¬(rest.isEmpty && decide (purpose = .seeLink)) = true) :
    t.walk purpose (links + 1) c (segment :: rest) =
      t.walk purpose links (if target.isAbsolute then t.cursor else c)
        (target.segments ++ rest) := by
  rw [walk, if_neg h.blank, if_neg h.dots, if_neg h.slash, if_neg h.short, hget]
  exact if_neg hlink

end names

/-! ## §3 Where a path leads -/

/-- What following a path says about the tree. -/
def Location.Holds (t : FileTree) : Location → Prop
  | .found place node => t.node? place = some node
  | .vacant place => t.node? place = none ∧ Entries.Reaches place t.entries

/-- Wherever a path leads, the tree has there what was found. -/
theorem walk_holds {t : FileTree} {purpose : Purpose} {links : Nat} {c : Cursor}
    {segments : List (List Char)} {location : Location} (hc : Cursor.At t c)
    (h : t.walk purpose links c segments = .ok location) : location.Holds t := by
  fun_induction t.walk purpose links c segments <;> try cases h
  case case1 => exact hc.node?
  case case2 ih => exact ih hc h
  case case3 ih => exact ih hc.up h
  case case6 c segment rest _ _ _ _ hget _ =>
    have hplace := hc.node?
    exact ⟨(hc.node?_below segment).trans hget, Entries.reaches_append hplace segment⟩
  case case8 inner hget ih => exact ih (hc.enter hget) h
  case case9 c segment rest _ _ _ _ octets hget _ => exact (hc.node?_below segment).trans hget
  case case11 c segment rest _ _ _ _ target hget _ => exact (hc.node?_below segment).trans hget
  case case13 c segment rest _ _ _ _ target hget _ links ih =>
    refine ih ?_ h
    split
    · exact .root
    · exact hc

theorem locate_holds {t : FileTree} {cwd : Place} {purpose : Purpose} {p : Path}
    {location : Location} (h : t.locate cwd purpose p = .ok location) : location.Holds t := by
  rw [locate] at h
  split at h
  · cases h
  · cases h
  · next c hfault hstart => exact walk_holds (at_start hstart) h

/-- A path that leads somewhere when it is followed to write leads to the same when
it is followed to look. -/
theorem walk_see_of_write {t : FileTree} {links : Nat} {c : Cursor}
    {segments : List (List Char)} {location : Location}
    (h : t.walk .write links c segments = .ok location) :
    t.walk .see links c segments = .ok location := by
  fun_induction t.walk .write links c segments <;> try cases h
  case case1 => rw [walk]
  case case2 hblank ih => rw [walk, if_pos hblank, ih h]
  case case3 hblank ih => rw [walk, if_neg hblank, if_pos rfl, ih h]
  case case6 hblank hdots hslash hname hget hrest =>
    have hsee := IsName.see ⟨hblank, hdots, hslash, hname⟩
    rw [walk_vacant hsee hget, if_pos hrest]
  case case8 hblank hdots hslash hname _ hget ih =>
    have hsee := IsName.see ⟨hblank, hdots, hslash, hname⟩
    rw [walk_directory hsee hget]
    exact ih h
  case case9 hblank hdots hslash hname _ hget hrest =>
    have hsee := IsName.see ⟨hblank, hdots, hslash, hname⟩
    rw [walk_file hsee hget, if_pos hrest]
  case case11 hlink => simp at hlink
  case case13 hblank hdots hslash hname _ hget _ _ ih =>
    have hsee := IsName.see ⟨hblank, hdots, hslash, hname⟩
    rw [walk_link_passed hsee hget (by simp)]
    exact ih h

theorem locate_see_of_write {t : FileTree} {cwd : Place} {p : Path} {location : Location}
    (h : t.locate cwd .write p = .ok location) : t.locate cwd .see p = .ok location := by
  rw [locate] at h ⊢
  split at h
  · cases h
  · cases h
  · next c hfault hstart =>
    exact walk_see_of_write h

/-- A path that does not end in a name leads to a directory, if it leads anywhere. -/
theorem walk_of_no_name_end {t : FileTree} {links : Nat} {c : Cursor}
    {segments : List (List Char)} {location : Location}
    (hend : ∀ segment ∈ segments.getLast?, Path.isBlank segment = true ∨ segment = ['.', '.'])
    (h : t.walk .see links c segments = .ok location) :
    ∃ place inner, location = .found place (.directory inner) := by
  have hrest {segment : List Char} {rest : List (List Char)}
      (hend : ∀ s ∈ (segment :: rest).getLast?, Path.isBlank s = true ∨ s = ['.', '.']) :
      ∀ s ∈ rest.getLast?, Path.isBlank s = true ∨ s = ['.', '.'] := by
    intro s hs
    refine hend s ?_
    rw [List.getLast?_cons, hs]
    rfl
  have hname {segment : List Char} {rest : List (List Char)}
      (hend : ∀ s ∈ (segment :: rest).getLast?, Path.isBlank s = true ∨ s = ['.', '.'])
      (hblank : ¬Path.isBlank segment = true) (hdots : ¬segment = ['.', '.']) :
      ¬rest.isEmpty = true := by
    intro hempty
    rw [List.isEmpty_iff] at hempty
    subst hempty
    exact (hend segment rfl).elim hblank hdots
  fun_induction t.walk .see links c segments <;> try cases h
  case case1 c => exact ⟨c.place, c.entries, rfl⟩
  case case2 ih => exact ih (hrest hend) h
  case case3 ih => exact ih (hrest hend) h
  case case6 hblank hdots _ _ _ hempty => exact absurd hempty (hname hend hblank hdots)
  case case8 ih => exact ih (hrest hend) h
  case case9 hblank hdots _ _ _ _ hempty => exact absurd hempty (hname hend hblank hdots)
  case case11 hlink => simp at hlink
  case case13 c segment rest hblank hdots _ _ target _ _ links ih =>
    refine ih ?_ h
    have hne : rest ≠ [] := fun hempty => hname hend hblank hdots (List.isEmpty_iff.mpr hempty)
    rw [List.getLast?_append_of_ne_nil _ hne]
    exact hrest hend

/-- A path that ends in a slash leads to a directory, if it leads anywhere. -/
theorem walk_of_blank_end {t : FileTree} {links : Nat} {c : Cursor}
    {segments : List (List Char)} {location : Location}
    (hend : ∀ segment ∈ segments.getLast?, Path.isBlank segment = true)
    (h : t.walk .see links c segments = .ok location) :
    ∃ place inner, location = .found place (.directory inner) :=
  walk_of_no_name_end (fun segment hsegment => .inl (hend segment hsegment)) h

/-- A name that leads to a file may be written to: no slash follows it. -/
theorem IsName.write {t : FileTree} {links : Nat} {c : Cursor} {segment : List Char}
    {rest : List (List Char)} {place : Place} {octets : List UInt8}
    (h : IsName .see segment rest) (front : List (List Char))
    (hfile : t.walk .see links c (front ++ rest) = .ok (.found place (.file octets))) :
    IsName .write segment rest := by
  refine ⟨h.blank, h.dots, ?_, h.short⟩
  intro hslash
  simp only [decide_true, Bool.true_and, Bool.and_eq_true, Bool.not_eq_true',
    List.isEmpty_eq_false_iff, List.all_eq_true] at hslash
  obtain ⟨hne, hall⟩ := hslash
  have hend : ∀ s ∈ (front ++ rest).getLast?, Path.isBlank s = true := by
    intro s hs
    rw [List.getLast?_append_of_ne_nil _ hne] at hs
    rw [Path.isBlank, hall s (List.mem_of_getLast? hs)]
    rfl
  obtain ⟨place', inner, hdirectory⟩ := walk_of_blank_end hend hfile
  cases hdirectory

/-- A file that a path leads to is led to when the path is followed to write. -/
theorem walk_write_of_see {t : FileTree} {links : Nat} {c : Cursor}
    {segments : List (List Char)} {place : Place} {octets : List UInt8}
    (h : t.walk .see links c segments = .ok (.found place (.file octets))) :
    t.walk .write links c segments = .ok (.found place (.file octets)) := by
  fun_induction t.walk .see links c segments <;> try cases h
  case case2 hblank ih => rw [walk, if_pos hblank, ih h]
  case case3 hblank ih => rw [walk, if_neg hblank, if_pos rfl, ih h]
  case case8 hblank hdots hslash hname _ hget ih =>
    have hseen := IsName.mk hblank hdots hslash hname
    rw [walk_directory (hseen.write [] h) hget]
    exact ih h
  case case9 hblank hdots hslash hname hempty hget =>
    have hrest := List.isEmpty_iff.mp hempty
    subst hrest
    rw [walk_file ⟨hblank, hdots, by simp, hname⟩ hget, if_pos hempty]
  case case13 hblank hdots hslash hname _ hget _ _ ih =>
    have hseen := IsName.mk hblank hdots hslash hname
    rw [walk_link_passed (hseen.write _ h) hget (by simp)]
    exact ih h

theorem locate_write_of_see {t : FileTree} {cwd : Place} {p : Path} {place : Place}
    {octets : List UInt8} (h : t.locate cwd .see p = .ok (.found place (.file octets))) :
    t.locate cwd .write p = .ok (.found place (.file octets)) := by
  rw [locate] at h ⊢
  split at h
  · cases h
  · cases h
  · exact walk_write_of_see h

/-- Where a path leads to something, the same is at the path itself, or a link is. -/
theorem walk_seeLink_cases {t : FileTree} {links : Nat} {c : Cursor}
    {segments : List (List Char)} {place : Place} {node : Node}
    (h : t.walk .see links c segments = .ok (.found place node)) :
    t.walk .seeLink links c segments = .ok (.found place node) ∨
      ∃ place' target, t.walk .seeLink links c segments = .ok (.found place' (.link target)) := by
  fun_induction t.walk .see links c segments <;> try cases h
  case case1 => exact .inl (by rw [walk])
  case case2 hblank ih =>
    rw [walk, if_pos hblank]
    exact ih h
  case case3 hblank ih =>
    rw [walk, if_neg hblank, if_pos rfl]
    exact ih h
  case case8 hblank hdots hslash hname _ hget ih =>
    rw [walk_directory ⟨hblank, hdots, by simp, hname⟩ hget]
    exact ih h
  case case9 hblank hdots hslash hname _ hget hempty =>
    exact .inl (by rw [walk_file ⟨hblank, hdots, by simp, hname⟩ hget, if_pos hempty])
  case case11 hlink => simp at hlink
  case case13 rest hblank hdots hslash hname _ hget _ _ ih =>
    by_cases hempty : rest.isEmpty = true
    · exact .inr ⟨_, _, walk_link_seen ⟨hblank, hdots, by simp, hname⟩ hget (by simp [hempty])⟩
    · rw [walk_link_passed ⟨hblank, hdots, by simp, hname⟩ hget (by simp [hempty])]
      exact ih h

theorem locate_seeLink_cases {t : FileTree} {cwd : Place} {p : Path} {place : Place} {node : Node}
    (h : t.locate cwd .see p = .ok (.found place node)) :
    t.locate cwd .seeLink p = .ok (.found place node) ∨
      ∃ place' target, t.locate cwd .seeLink p = .ok (.found place' (.link target)) := by
  rw [locate] at h ⊢
  split at h
  · cases h
  · cases h
  · exact walk_seeLink_cases h

/-- Where a path leads to something, there is something at the path itself, which may
be a link. -/
theorem locate_seeLink_of_see {t : FileTree} {cwd : Place} {p : Path} {place : Place} {node : Node}
    (h : t.locate cwd .see p = .ok (.found place node)) :
    ∃ place' node', t.locate cwd .seeLink p = .ok (.found place' node') := by
  rcases locate_seeLink_cases h with hsame | ⟨place', target, hlink⟩
  · exact ⟨place, node, hsame⟩
  · exact ⟨place', .link target, hlink⟩

/-- A name from the root leads to the file of that name in the root. -/
theorem locate_name {t : FileTree} {p : Path} {name : List Char} {octets : List UInt8}
    (hfault : textFault? p = none) (habs : p.isAbsolute = true) (hsegments : p.segments = [name])
    (hname : Path.isBlank name = false ∧ name ≠ ['.', '.'] ∧ octetLength name ≤ nameLimit)
    (hget : Entries.get? t.entries name = some (.file octets)) (cwd : Place) (purpose : Purpose) :
    t.locate cwd purpose p = .ok (.found [name] (.file octets)) := by
  obtain ⟨hblank, hdots, hlength⟩ := hname
  rw [locate, hfault, if_pos habs, hsegments]
  show t.walk purpose linkLimit t.cursor [name] = _
  have hseen : IsName purpose name [] :=
    ⟨by simp [hblank], hdots, by simp, Nat.not_lt.mpr hlength⟩
  rw [walk_file (c := t.cursor) hseen hget]
  rfl

/-! ## §4 Later trees -/

/-- Two nodes that lead a path on in the same way: files may differ in their
contents, directories in what they hold. -/
inductive Alike : Option Node → Option Node → Prop where
  | nothing : Alike none none
  | directory (inner inner' : Entries) : Alike (some (.directory inner)) (some (.directory inner'))
  | file (octets octets' : List UInt8) : Alike (some (.file octets)) (some (.file octets'))
  | link (target : Path) : Alike (some (.link target)) (some (.link target))

theorem Alike.eq_none {b : Option Node} (h : Alike none b) : b = none := by
  cases h
  rfl

theorem Alike.eq_directory {inner : Entries} {b : Option Node}
    (h : Alike (some (.directory inner)) b) : ∃ inner', b = some (.directory inner') := by
  cases h with
  | directory inner inner' => exact ⟨inner', rfl⟩

theorem Alike.eq_file {octets : List UInt8} {b : Option Node}
    (h : Alike (some (.file octets)) b) : ∃ octets', b = some (.file octets') := by
  cases h with
  | file octets octets' => exact ⟨octets', rfl⟩

theorem Alike.eq_link {target : Path} {b : Option Node} (h : Alike (some (.link target)) b) :
    b = some (.link target) := by
  cases h
  rfl

/-- Nodes with one face are alike. -/
theorem alike_of_face {a b : Option Node} (h : a.map Node.face = b.map Node.face) : Alike a b := by
  rcases a with _ | (inner | octets | target) <;> rcases b with _ | (inner' | octets' | target') <;>
    simp at h
  · exact .nothing
  · exact .directory inner inner'
  · exact .file octets octets'
  · exact h ▸ .link target

/-- The place a path leads to. -/
def Location.place : Location → Place
  | .found place _ => place
  | .vacant place => place

/-- What a later tree may have where an earlier one has a node, or nothing: something
alike, or a file that is new. -/
inductive Grown : Option Node → Option Node → Prop where
  | alike {a b : Option Node} (h : Alike a b) : Grown a b
  | created (octets : List UInt8) : Grown none (some (.file octets))

theorem Grown.refl (a : Option Node) : Grown a a := .alike (alike_of_face rfl)

/-- A node that was there is there in the same way. -/
theorem Grown.of_some {node : Node} {b : Option Node} (h : Grown (some node) b) :
    Alike (some node) b := by
  cases h with
  | alike h => exact h

/-- Where nothing was is nothing that leads on. -/
theorem Grown.of_none {b : Option Node} (h : Grown none b) :
    b = none ∨ ∃ octets, b = some (.file octets) := by
  cases h with
  | alike h => exact .inl h.eq_none
  | created octets => exact .inr ⟨octets, rfl⟩

theorem Grown.trans {a b c : Option Node} (hab : Grown a b) (hbc : Grown b c) : Grown a c := by
  cases hab with
  | created octets =>
    obtain ⟨octets', rfl⟩ := hbc.of_some.eq_file
    exact .created octets'
  | alike h =>
    cases h with
    | nothing => exact hbc
    | directory inner _ =>
      obtain ⟨inner', rfl⟩ := hbc.of_some.eq_directory
      exact .alike (.directory inner inner')
    | file octets _ =>
      obtain ⟨octets', rfl⟩ := hbc.of_some.eq_file
      exact .alike (.file octets octets')
    | link target =>
      rw [hbc.of_some.eq_link]
      exact .alike (.link target)

/-- Where a path leads in a tree, and where it leads in a later one. -/
inductive Led : Except FileError Location → Except FileError Location → Prop where
  | found (place : Place) {node node' : Node} (h : Alike (some node) (some node')) :
    Led (.ok (.found place node)) (.ok (.found place node'))
  | vacant (place : Place) : Led (.ok (.vacant place)) (.ok (.vacant place))
  | created (place : Place) (octets : List UInt8) :
    Led (.ok (.vacant place)) (.ok (.found place (.file octets)))
  | refused (e e' : FileError) : Led (.error e) (.error e')

section grown

variable {t t' : FileTree} (hgrown : ∀ q, Grown (t.node? q) (t'.node? q))
include hgrown

/-- What two cursors at one place see under a name. -/
theorem grown_below {c c' : Cursor} (hc : Cursor.At t c) (hc' : Cursor.At t' c')
    (hplace : c'.place = c.place) {name : List Char} {node : Option Node}
    (hget : Entries.get? c.entries name = node) :
    Grown node (Entries.get? c'.entries name) := by
  have h := hgrown (c.place ++ [name])
  rw [hc.node?_below, ← hplace, hc'.node?_below, hget] at h
  exact h

theorem walk_led {purpose : Purpose} {links : Nat} {c c' : Cursor}
    {segments : List (List Char)} (hc : Cursor.At t c) (hc' : Cursor.At t' c')
    (hplace : c'.place = c.place) :
    Led (t.walk purpose links c segments) (t'.walk purpose links c' segments) := by
  fun_induction t.walk purpose links c segments generalizing c'
  case case1 c =>
    rw [walk, hplace]
    exact .found c.place (.directory _ _)
  case case2 hblank ih =>
    rw [walk, if_pos hblank]
    exact ih hc hc' hplace
  case case3 hblank ih =>
    rw [walk, if_neg hblank, if_pos rfl]
    refine ih hc.up hc'.up ?_
    rw [Cursor.place_up, Cursor.place_up, hplace]
  case case4 hblank hdots hslash =>
    rw [walk, if_neg hblank, if_neg hdots, if_pos hslash]
    exact .refused _ _
  case case5 hblank hdots hslash hname =>
    rw [walk, if_neg hblank, if_neg hdots, if_neg hslash, if_pos hname]
    exact .refused _ _
  case case6 c segment rest hblank hdots hslash hname hget hrest =>
    rcases (grown_below hgrown hc hc' hplace hget).of_none with hget' | ⟨octets, hget'⟩
    · rw [walk_vacant ⟨hblank, hdots, hslash, hname⟩ hget', if_pos hrest, hplace]
      exact .vacant _
    · rw [walk_file ⟨hblank, hdots, hslash, hname⟩ hget', if_pos hrest, hplace]
      exact .created _ octets
  case case7 c segment rest hblank hdots hslash hname hget hrest =>
    rcases (grown_below hgrown hc hc' hplace hget).of_none with hget' | ⟨octets, hget'⟩
    · rw [walk_vacant ⟨hblank, hdots, hslash, hname⟩ hget', if_neg hrest]
      exact .refused _ _
    · rw [walk_file ⟨hblank, hdots, hslash, hname⟩ hget', if_neg hrest]
      exact .refused _ _
  case case8 c segment rest hblank hdots hslash hname inner hget ih =>
    obtain ⟨inner', hget'⟩ := (grown_below hgrown hc hc' hplace hget).of_some.eq_directory
    rw [walk_directory ⟨hblank, hdots, hslash, hname⟩ hget']
    refine ih (hc.enter hget) (hc'.enter hget') ?_
    rw [Cursor.place_enter, Cursor.place_enter, hplace]
  case case9 c segment rest hblank hdots hslash hname octets hget hrest =>
    obtain ⟨octets', hget'⟩ := (grown_below hgrown hc hc' hplace hget).of_some.eq_file
    rw [walk_file ⟨hblank, hdots, hslash, hname⟩ hget', if_pos hrest, hplace]
    exact .found _ (.file octets octets')
  case case10 c segment rest hblank hdots hslash hname octets hget hrest =>
    obtain ⟨octets', hget'⟩ := (grown_below hgrown hc hc' hplace hget).of_some.eq_file
    rw [walk_file ⟨hblank, hdots, hslash, hname⟩ hget', if_neg hrest]
    exact .refused _ _
  case case11 c segment rest hblank hdots hslash hname target hget hlink =>
    have hget' := (grown_below hgrown hc hc' hplace hget).of_some.eq_link
    rw [walk_link_seen ⟨hblank, hdots, hslash, hname⟩ hget' hlink, hplace]
    exact .found _ (.link target)
  case case12 c segment rest hblank hdots hslash hname target hget hlink =>
    have hget' := (grown_below hgrown hc hc' hplace hget).of_some.eq_link
    rw [walk_link_refused ⟨hblank, hdots, hslash, hname⟩ hget' hlink]
    exact .refused _ _
  case case13 c segment rest hblank hdots hslash hname target hget hlink links ih =>
    have hget' := (grown_below hgrown hc hc' hplace hget).of_some.eq_link
    rw [walk_link_passed ⟨hblank, hdots, hslash, hname⟩ hget' hlink]
    -- a link goes on from the root or from where it stands, in both trees
    refine ih ?_ ?_ ?_
    · split
      · exact .root
      · exact hc
    · split
      · exact .root
      · exact hc'
    · split
      · rfl
      · exact hplace

/-- Cursors go down to the same directories. -/
theorem down?_led {place : Place} {c c' : Cursor} (hc : Cursor.At t c) (hc' : Cursor.At t' c')
    (hplace : c'.place = c.place) :
    (c.down? place).map Cursor.place = (c'.down? place).map Cursor.place := by
  induction place generalizing c c' with
  | nil => exact congrArg some hplace.symm
  | cons name rest ih =>
    have hbelow : Grown (Entries.get? c.entries name) (Entries.get? c'.entries name) :=
      grown_below hgrown hc hc' hplace rfl
    by_cases hdir : ∃ inner, Entries.get? c.entries name = some (.directory inner)
    · obtain ⟨inner, hget⟩ := hdir
      rw [hget] at hbelow
      obtain ⟨inner', hget'⟩ := hbelow.of_some.eq_directory
      rw [Cursor.down?, Cursor.down?, hget, hget']
      refine ih (hc.enter hget) (hc'.enter hget') ?_
      rw [Cursor.place_enter, Cursor.place_enter, hplace]
    · -- what is not a directory does not become one
      have hnot : ¬∃ inner, Entries.get? c'.entries name = some (.directory inner) := by
        rintro ⟨inner', hget'⟩
        rw [hget'] at hbelow
        generalize hnode : Entries.get? c.entries name = node at hbelow
        rcases hbelow with ⟨_ | _ | _ | _⟩ | _
        exact hdir ⟨_, hnode⟩
      rw [Cursor.down?_eq_none hdir, Cursor.down?_eq_none hnot]

/-- A path leads in a later tree where it led before, if it led anywhere. -/
theorem locate_led (cwd : Place) (purpose : Purpose) (p : Path) :
    Led (t.locate cwd purpose p) (t'.locate cwd purpose p) := by
  rw [locate, locate]
  cases textFault? p with
  | some e => exact .refused e e
  | none =>
    have hstart : (if p.isAbsolute then some t.cursor else t.cursor.down? cwd).map Cursor.place =
        (if p.isAbsolute then some t'.cursor else t'.cursor.down? cwd).map Cursor.place := by
      split
      · rfl
      · exact down?_led hgrown .root .root rfl
    cases hc : (if p.isAbsolute then some t.cursor else t.cursor.down? cwd) with
    | none =>
      rw [hc, Option.map_none, eq_comm, Option.map_eq_none_iff] at hstart
      rw [hstart]
      exact .refused _ _
    | some c =>
      rw [hc, Option.map_some, eq_comm, Option.map_eq_some_iff] at hstart
      obtain ⟨c', hc', hplace⟩ := hstart
      rw [hc']
      exact walk_led hgrown (at_start hc) (at_start hc') hplace

/-- A path that leads to a place in one tree leads to it in the other. -/
theorem locate_place {cwd : Place} {purpose : Purpose} {p : Path} {location : Location}
    (h : t.locate cwd purpose p = .ok location) :
    (t'.locate cwd purpose p).map Location.place = .ok location.place := by
  have hled := locate_led hgrown cwd purpose p
  rw [h] at hled
  generalize t'.locate cwd purpose p = located at hled
  cases hled <;> rfl

end grown

end FileTree

end MarkerBlock
