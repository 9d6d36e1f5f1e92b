/-
MarkerBlock.Proofs.FileTree — reading after writing.

`write_after_read` is what rewriting a file in place does: the path leads to the
same place as before, the file there holds what was written, and no other place
has changed.

What a path shows of a tree is `look?`, and the place it leads to is `placeOf?`.  In a
later tree, which has at most some files changed and some new, a path leads to the
same place (`placeOf?_of_grown`), and it shows the same unless what is there has
changed (`look?_of_grown`).
-/
import Mathlib
import MarkerBlock.FileTree
import MarkerBlock.Proofs.FileTree.Location

namespace MarkerBlock

/-! ## §1 Where a file lies -/

namespace Entries

/-- A place that has something lies in a directory, unless it is the root. -/
theorem reaches_of_node? {place : Place} {entries : Entries} {node : Node}
    (h : node? place entries = some node) (hplace : place ≠ []) : Reaches place entries := by
  induction place generalizing entries with
  | nil => exact absurd rfl hplace
  | cons name below ih =>
    cases below with
    | nil => trivial
    | cons next rest =>
      by_cases hdir : ∃ inner, get? entries name = some (.directory inner)
      · obtain ⟨inner, hinner⟩ := hdir
        rw [node?_cons_of_directory hinner] at h
        exact ⟨inner, hinner, ih h (List.cons_ne_nil next rest)⟩
      · rw [node?_cons_cons_of_not_directory (fun inner h => hdir ⟨inner, h⟩)] at h
        cases h

end Entries

namespace FileTree

variable {t t' : FileTree} {cwd : Place} {p : Path}

/-- The place of a file lies in a directory. -/
theorem reaches_of_file {place : Place} {octets : List UInt8}
    (h : t.node? place = some (.file octets)) : Entries.Reaches place t.entries := by
  refine Entries.reaches_of_node? h ?_
  rintro rfl
  cases h

/-- A file is read where the path leads to one. -/
theorem read_eq_ok_iff {octets : List UInt8} :
    t.read cwd p = .ok octets ↔ ∃ place, t.locate cwd .see p = .ok (.found place (.file octets)) := by
  rw [read, stat, find]
  constructor
  · intro h
    cases hloc : t.locate cwd .see p with
    | error e => simp [hloc, Except.map] at h
    | ok location =>
      rcases location with ⟨place, node⟩ | place
      · cases node <;> simp [hloc, Except.map] at h
        exact ⟨place, by rw [h]⟩
      · simp [hloc, Except.map] at h
  · rintro ⟨place, hloc⟩
    rw [hloc]
    rfl

/-- A path that is written to leads to a file, or to where there is none yet. -/
theorem target_eq_ok {place : Place} {octets : List UInt8}
    (h : t.target cwd p = .ok (place, octets)) :
    t.locate cwd .write p = .ok (.found place (.file octets)) ∨
      t.locate cwd .write p = .ok (.vacant place) ∧ octets = [] := by
  rw [target] at h
  split at h
  · next hloc =>
    cases h
    exact .inl hloc
  · cases h
  · next hloc =>
    cases h
    exact .inr ⟨hloc, rfl⟩
  · cases h

/-- What is found where a path writes to: a file, or nothing. -/
theorem face?_of_target {place : Place} {octets : List UInt8}
    (h : t.target cwd p = .ok (place, octets)) :
    t.face? place = some (.file octets) ∨ t.face? place = none ∧ octets = [] := by
  rcases target_eq_ok h with hloc | ⟨hloc, hempty⟩
  · have hnode : t.node? place = some (.file octets) := locate_holds hloc
    exact .inl (by rw [face?, hnode]; rfl)
  · have hnode : t.node? place = none := (locate_holds hloc).1
    exact .inr ⟨by rw [face?, hnode]; rfl, hempty⟩

/-! ## §2 Writing -/

/-- What a file put at the place written to changes. -/
theorem face?_set_target {place q : Place} {before : List UInt8}
    (h : t.target cwd p = .ok (place, before)) (octets : List UInt8) :
    (t.set place (.file octets)).face? q = if q = place then some (.file octets) else t.face? q := by
  rcases target_eq_ok h with hloc | ⟨hloc, -⟩
  · have hnode : t.node? place = some (.file before) := locate_holds hloc
    exact face?_set (reaches_of_file hnode) (by simp [face?, hnode]) octets q
  · obtain ⟨hnode, hreach⟩ := locate_holds hloc
    exact face?_set hreach (by simp [face?, hnode]) octets q

theorem write_eq_ok {octets : List UInt8} (h : t.write cwd p octets = .ok t') :
    ∃ place before, t.target cwd p = .ok (place, before) ∧ t' = t.set place (.file octets) := by
  cases htarget : t.target cwd p with
  | error e => simp [write, htarget, Except.map] at h
  | ok pair =>
    obtain ⟨place, before⟩ := pair
    simp only [write, htarget, Except.map, Except.ok.injEq] at h
    exact ⟨place, before, rfl, h.symm⟩

/-- Text is put after a file, or into a new one. -/
theorem append_eq_ok {octets : List UInt8} (h : t.append cwd p octets = .ok t') :
    ∃ place before, t.target cwd p = .ok (place, before) ∧
      t' = t.set place (.file (before ++ octets)) := by
  cases htarget : t.target cwd p with
  | error e => simp [append, htarget, Except.map] at h
  | ok pair =>
    obtain ⟨place, before⟩ := pair
    simp only [append, htarget, Except.map, Except.ok.injEq] at h
    exact ⟨place, before, rfl, h.symm⟩

/-- A file that is put where a file was keeps every path going where it went. -/
theorem alike_set {place : Place} {old : List UInt8} (h : t.node? place = some (.file old))
    (new : List UInt8) (q : Place) :
    Alike (t.node? q) ((t.set place (.file new)).node? q) := by
  have hface := face?_set (reaches_of_file h) (by simp [face?, h]) new q
  by_cases hq : q = place
  · rw [if_pos hq, face?, Option.map_eq_some_iff] at hface
    obtain ⟨node, hnode, hfile⟩ := hface
    cases node with
    | file octets =>
      rw [hq] at hnode ⊢
      rw [h, hnode]
      exact .file old octets
    | directory inner => cases hfile
    | link target => cases hfile
  · rw [if_neg hq] at hface
    exact alike_of_face hface.symm

/-- A file that can be read is written where it is. -/
theorem target_of_locate {place there : Place} {old before : List UInt8}
    (hloc : t.locate cwd .see p = .ok (.found place (.file old)))
    (htarget : t.target cwd p = .ok (there, before)) : there = place := by
  rcases target_eq_ok htarget with h | ⟨h, -⟩
  · have hsee := locate_see_of_write h
    rw [hloc] at hsee
    cases hsee
    rfl
  · have hsee := locate_see_of_write h
    rw [hloc] at hsee
    cases hsee

/-- What is put where the path leads is what is read. -/
theorem read_set {place : Place} {old : List UInt8}
    (hloc : t.locate cwd .see p = .ok (.found place (.file old))) (new : List UInt8) :
    (t.set place (.file new)).read cwd p = .ok new := by
  have hnode : t.node? place = some (.file old) := locate_holds hloc
  have hplace := locate_place (fun q => .alike (alike_set hnode new q)) hloc
  have hself := face?_set (reaches_of_file hnode) (by simp [face?, hnode]) new place
  rw [if_pos rfl, face?] at hself
  rw [read_eq_ok_iff]
  cases hloc' : (t.set place (.file new)).locate cwd .see p with
  | error e =>
    rw [hloc'] at hplace
    cases hplace
  | ok location =>
    have hholds := locate_holds hloc'
    rw [hloc'] at hplace
    rcases location with ⟨there, node⟩ | there
    · have hthere : there = place := by simpa [Except.map, Location.place] using hplace
      have hfound : (t.set place (.file new)).node? there = some node := hholds
      subst hthere
      rw [hfound] at hself
      cases node with
      | file octets =>
        have hoctets : octets = new := by simpa using hself
        exact ⟨there, by rw [hoctets]⟩
      | directory inner => cases hself
      | link target => cases hself
    · have hthere : there = place := by simpa [Except.map, Location.place] using hplace
      subst hthere
      rw [hholds.1] at hself
      cases hself

/-- A file that was read and is then written: the path leads to the same place
afterwards, the file there holds what was written, and no other place changed. -/
theorem write_after_read {old new : List UInt8} (hread : t.read cwd p = .ok old)
    (hwrite : t.write cwd p new = .ok t') :
    ∃ place, t.locate cwd .see p = .ok (.found place (.file old)) ∧
      t'.read cwd p = .ok new ∧
      ∀ q, t'.face? q = if q = place then some (.file new) else t.face? q := by
  obtain ⟨place, hloc⟩ := read_eq_ok_iff.mp hread
  obtain ⟨there, before, htarget, rfl⟩ := write_eq_ok hwrite
  have hthere := target_of_locate hloc htarget
  subst hthere
  refine ⟨there, hloc, read_set hloc new, ?_⟩
  intro q
  exact face?_set_target htarget new

/-! ## §3 What a path shows -/

/-- What a path leads to, links followed, without what lies below it. -/
def look? (t : FileTree) (cwd : Place) (p : Path) : Option Face :=
  (t.stat cwd p).toOption.map Node.face

/-- Where a path leads, links followed: to something, or to where nothing is yet. -/
def placeOf? (t : FileTree) (cwd : Place) (p : Path) : Option Place :=
  (t.locate cwd .see p).toOption.map Location.place

theorem look?_of_locate {location : Location} (h : t.locate cwd .see p = .ok location) :
    t.look? cwd p = t.face? location.place := by
  have hholds := locate_holds h
  rw [look?, stat, find, h, face?]
  cases location with
  | found place node =>
    have hnode : t.node? place = some node := hholds
    rw [Location.place, hnode]
    rfl
  | vacant place =>
    rw [Location.place, hholds.1]
    rfl

theorem look?_of_error {e : FileError} (h : t.locate cwd .see p = .error e) :
    t.look? cwd p = none := by
  rw [look?, stat, find, h]
  rfl

/-- A path shows what is where it leads. -/
theorem look?_of_placeOf? {place : Place} (h : t.placeOf? cwd p = some place) :
    t.look? cwd p = t.face? place := by
  unfold placeOf? at h
  cases hloc : t.locate cwd .see p with
  | error e =>
    rw [hloc] at h
    cases h
  | ok location =>
    rw [hloc] at h
    cases h
    exact look?_of_locate hloc

theorem look?_eq_file_iff {octets : List UInt8} :
    t.look? cwd p = some (.file octets) ↔
      ∃ place, t.locate cwd .see p = .ok (.found place (.file octets)) := by
  constructor
  · intro h
    cases hloc : t.locate cwd .see p with
    | error e =>
      rw [look?_of_error hloc] at h
      cases h
    | ok location =>
      have hholds := locate_holds hloc
      rw [look?_of_locate hloc, face?] at h
      cases location with
      | found place node =>
        have hnode : t.node? place = some node := hholds
        rw [Location.place, hnode] at h
        cases node <;> cases h
        exact ⟨place, rfl⟩
      | vacant place =>
        rw [Location.place, hholds.1] at h
        cases h
  · rintro ⟨place, hloc⟩
    have hnode : t.node? place = some (.file octets) := locate_holds hloc
    rw [look?_of_locate hloc, Location.place, face?, hnode]
    rfl

theorem read_eq_ok_iff_look? {octets : List UInt8} :
    t.read cwd p = .ok octets ↔ t.look? cwd p = some (.file octets) := by
  rw [read_eq_ok_iff, look?_eq_file_iff]

/-- What a path shows decides what is said about it, and what is read. -/
theorem questions_of_look? {cwd' : Place} {q : Path} (h : t.look? cwd p = t'.look? cwd' q) :
    t.isFile cwd p = t'.isFile cwd' q ∧ t.isPresent cwd p = t'.isPresent cwd' q ∧
      (t.isPresent cwd p = true → t.read cwd p = t'.read cwd' q) := by
  rw [look?, look?] at h
  rw [isFile, isFile, isPresent, isPresent, read, read]
  cases hs : t.stat cwd p with
  | error e =>
    cases hs' : t'.stat cwd' q with
    | error e' => exact ⟨rfl, rfl, fun hpresent => by cases hpresent⟩
    | ok node' => simp [hs, hs', Except.toOption] at h
  | ok node =>
    cases hs' : t'.stat cwd' q with
    | error e' => simp [hs, hs', Except.toOption] at h
    | ok node' =>
      have hface : node.face = node'.face := by simpa [hs, hs', Except.toOption] using h
      cases node <;> cases node' <;> simp at hface
      · exact ⟨rfl, rfl, fun _ => rfl⟩
      · exact ⟨rfl, rfl, fun _ => by rw [hface]⟩
      · exact ⟨rfl, rfl, fun _ => rfl⟩

theorem isFile_of_look?_eq_none (h : t.look? cwd p = none) : t.isFile cwd p = false := by
  rw [look?] at h
  rw [isFile]
  cases hs : t.stat cwd p with
  | error e => rfl
  | ok node =>
    rw [hs] at h
    cases h

theorem isPresent_of_look?_eq_none (h : t.look? cwd p = none) : t.isPresent cwd p = false := by
  rw [look?] at h
  rw [isPresent]
  cases hs : t.stat cwd p with
  | error e => rfl
  | ok node =>
    rw [hs] at h
    cases h

theorem isFile_of_read {octets : List UInt8} (h : t.read cwd p = .ok octets) :
    t.isFile cwd p = true := by
  rw [read] at h
  rw [isFile]
  split at h
  · next hs => rw [hs]
  · cases h
  · cases h

theorem isPresent_of_isFile (h : t.isFile cwd p = true) : t.isPresent cwd p = true := by
  rw [isFile] at h
  rw [isPresent]
  cases hs : t.stat cwd p with
  | error e =>
    rw [hs] at h
    cases h
  | ok node => rfl

/-- A file that can be read can be written, where it is. -/
theorem write_of_look? {octets : List UInt8} (h : t.look? cwd p = some (.file octets)) :
    ∃ place, t.placeOf? cwd p = some place ∧ t.node? place = some (.file octets) ∧
      ∀ new, t.write cwd p new = .ok (t.set place (.file new)) := by
  obtain ⟨place, hloc⟩ := look?_eq_file_iff.mp h
  refine ⟨place, ?_, locate_holds hloc, fun new => ?_⟩
  · rw [placeOf?, hloc]
    rfl
  · rw [write, target, locate_write_of_see hloc]
    rfl

/-- What is written to is where the path leads. -/
theorem placeOf?_of_target {place : Place} {before : List UInt8}
    (h : t.target cwd p = .ok (place, before)) : t.placeOf? cwd p = some place := by
  rw [placeOf?]
  rcases target_eq_ok h with hloc | ⟨hloc, -⟩
  · rw [locate_see_of_write hloc]
    rfl
  · rw [locate_see_of_write hloc]
    rfl

/-- Where a path shows something, there is something at the path itself. -/
theorem exists_statLink {face : Face} (h : t.look? cwd p = some face) :
    ∃ node, t.statLink cwd p = .ok node := by
  cases hloc : t.locate cwd .see p with
  | error e =>
    rw [look?_of_error hloc] at h
    cases h
  | ok location =>
    cases location with
    | found place node =>
      obtain ⟨place', node', hloc'⟩ := locate_seeLink_of_see hloc
      exact ⟨node', by rw [statLink, find, hloc']; rfl⟩
    | vacant place =>
      have hholds := locate_holds hloc
      rw [look?_of_locate hloc, face?, Location.place, hholds.1] at h
      cases h

/-! ## §4 Later trees -/

section grown

variable (hgrown : ∀ q, Grown (t.node? q) (t'.node? q))
include hgrown

theorem placeOf?_of_grown (cwd : Place) (p : Path) : t'.placeOf? cwd p = t.placeOf? cwd p := by
  have hled := locate_led hgrown cwd .see p
  rw [placeOf?, placeOf?]
  generalize t.locate cwd .see p = located at hled
  generalize t'.locate cwd .see p = located' at hled
  cases hled <;> rfl

/-- A path shows what it showed, unless what is there has changed. -/
theorem look?_of_grown
    (hface : ∀ place, t.placeOf? cwd p = some place → t'.face? place = t.face? place) :
    t'.look? cwd p = t.look? cwd p := by
  have hplace := placeOf?_of_grown hgrown cwd p
  cases hloc : t.locate cwd .see p with
  | error e =>
    rw [placeOf?, placeOf?, hloc] at hplace
    cases hloc' : t'.locate cwd .see p with
    | error e' => rw [look?_of_error hloc, look?_of_error hloc']
    | ok location =>
      rw [hloc'] at hplace
      cases hplace
  | ok location =>
    have hled := locate_place hgrown hloc
    cases hloc' : t'.locate cwd .see p with
    | error e' =>
      rw [hloc'] at hled
      cases hled
    | ok location' =>
      rw [hloc'] at hled
      have hsame : location'.place = location.place := Except.ok.inj hled
      rw [look?_of_locate hloc, look?_of_locate hloc', hsame]
      exact hface _ (by rw [placeOf?, hloc]; rfl)

/-- What is at a path itself is there in the same way. -/
theorem statLink_of_grown {node : Node} (h : t.statLink cwd p = .ok node) :
    ∃ node', t'.statLink cwd p = .ok node' ∧ Alike (some node) (some node') := by
  have hled := locate_led hgrown cwd .seeLink p
  rw [statLink, find] at h ⊢
  generalize t.locate cwd .seeLink p = located at hled h
  generalize t'.locate cwd .seeLink p = located' at hled
  cases hled with
  | found place halike =>
    cases h
    exact ⟨_, rfl, halike⟩
  | vacant place => cases h
  | created place octets => cases h
  | refused e e' => cases h

/-- What could be written can be written later, to the same place. -/
theorem target_of_grown {place : Place} {before : List UInt8}
    (h : t.target cwd p = .ok (place, before)) : ∃ octets, t'.target cwd p = .ok (place, octets) := by
  have hled := locate_led hgrown cwd .write p
  rw [target]
  generalize t'.locate cwd .write p = located' at hled
  rcases target_eq_ok h with hloc | ⟨hloc, -⟩
  · rw [hloc] at hled
    cases hled with
    | found _ halike =>
      cases halike with
      | file _ octets => exact ⟨octets, rfl⟩
  · rw [hloc] at hled
    cases hled with
    | vacant => exact ⟨[], rfl⟩
    | created _ octets => exact ⟨octets, rfl⟩

end grown

/-- A file put at the place that is written to makes a later tree. -/
theorem grown_set_target {place : Place} {before : List UInt8}
    (h : t.target cwd p = .ok (place, before)) (octets : List UInt8) (q : Place) :
    Grown (t.node? q) ((t.set place (.file octets)).node? q) := by
  have hface := face?_set_target (q := q) h octets
  by_cases hq : q = place
  · subst hq
    rw [if_pos rfl, face?, Option.map_eq_some_iff] at hface
    obtain ⟨node, hnode, hfile⟩ := hface
    rw [hnode]
    cases node with
    | directory inner => cases hfile
    | link target => cases hfile
    | file octets' =>
      rcases target_eq_ok h with hloc | ⟨hloc, -⟩
      · have hbefore : t.node? q = some (.file before) := locate_holds hloc
        rw [hbefore]
        exact .alike (.file before octets')
      · have hbefore := locate_holds hloc
        rw [hbefore.1]
        exact .created octets'
  · rw [if_neg hq] at hface
    exact .alike (alike_of_face hface.symm)

/-- A file put at the place that is written to is what the path shows. -/
theorem look?_set_target {place : Place} {before : List UInt8}
    (h : t.target cwd p = .ok (place, before)) (octets : List UInt8) :
    (t.set place (.file octets)).look? cwd p = some (.file octets) := by
  have hplace : (t.set place (.file octets)).placeOf? cwd p = some place := by
    rw [placeOf?_of_grown (grown_set_target h octets), placeOf?_of_target h]
  rw [look?_of_placeOf? hplace, face?_set_target h, if_pos rfl]

end FileTree

end MarkerBlock
