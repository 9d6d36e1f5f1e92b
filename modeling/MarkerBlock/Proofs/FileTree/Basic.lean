/-
MarkerBlock.Proofs.FileTree.Basic — what a write does to the places of a tree.

A place is looked at through its `Face`: what is there, without what lies below
it.  A write to a place changes the face of that place and of no other
(`face?_set`), if the directory of the place exists and no directory is at the
place itself.  Both conditions are what following a path establishes.
-/
import Mathlib
import MarkerBlock.FileTree.Basic

namespace MarkerBlock

/-! ## §1 Faces -/

/-- What a node is, without what lies below it. -/
inductive Face where
  | directory
  | file (octets : List UInt8)
  | link (target : Path)
deriving Repr, DecidableEq

/-- A node without what lies below it. -/
def Node.face : Node → Face
  | .directory _ => .directory
  | .file octets => .file octets
  | .link target => .link target

@[simp] theorem Node.face_directory (entries : Entries) :
    (Node.directory entries).face = .directory := rfl

@[simp] theorem Node.face_file (octets : List UInt8) : (Node.file octets).face = .file octets := rfl

@[simp] theorem Node.face_link (target : Path) : (Node.link target).face = .link target := rfl

namespace FileTree

/-- What is at a place. -/
def face? (t : FileTree) (place : Place) : Option Face := (t.node? place).map Node.face

end FileTree

/-! ## §2 Entries -/

namespace Entries

/-- The directory in which a place lies is there. -/
def Reaches : Place → Entries → Prop
  | [], _ => False
  | [_], _ => True
  | name :: next :: rest, entries =>
    ∃ inner, get? entries name = some (.directory inner) ∧ Reaches (next :: rest) inner

theorem get?_cons (key : List Char) (node : Node) (rest : Entries) (name : List Char) :
    get? ((key, node) :: rest) name = if key = name then some node else get? rest name := by
  by_cases h : key = name <;> simp [get?, h]

theorem get?_alter_self {name : List Char} {change : Option Node → Option Node}
    {entries : Entries} {node : Node} (h : change (get? entries name) = some node) :
    get? (alter name change entries) name = some node := by
  induction entries with
  | nil =>
    have h' : change none = some node := h
    simp only [alter, h', get?_cons, if_pos]
  | cons entry rest ih =>
    obtain ⟨key, old⟩ := entry
    rw [get?_cons] at h
    rw [alter]
    by_cases hkey : key = name
    · rw [if_pos hkey] at h
      simp only [hkey, beq_self_eq_true, if_true, h, get?_cons]
    · rw [if_neg hkey] at h
      simp only [beq_iff_eq, hkey, if_false, get?_cons, ih h]

theorem get?_alter_of_ne {name other : List Char} (hne : other ≠ name)
    (change : Option Node → Option Node) (entries : Entries) :
    get? (alter name change entries) other = get? entries other := by
  induction entries with
  | nil =>
    rw [alter]
    cases change none with
    | none => rfl
    | some node => rw [get?_cons, if_neg (Ne.symm hne)]
  | cons entry rest ih =>
    obtain ⟨key, old⟩ := entry
    rw [alter]
    by_cases hkey : key = name
    · have hko : key ≠ other := fun h => hne (h ▸ hkey)
      simp only [beq_iff_eq, hkey, if_true, get?_cons, hkey ▸ hko, if_false]
      cases change (some old) with
      | none => rfl
      | some node => simp only [get?_cons, Ne.symm hne, if_false]
    · simp only [beq_iff_eq, hkey, if_false, get?_cons, ih]

@[simp] theorem node?_nil (entries : Entries) : node? [] entries = some (.directory entries) := rfl

/-- What is under a name is at the place of that name. -/
theorem node?_singleton (name : List Char) (entries : Entries) :
    node? [name] entries = get? entries name := by
  rw [node?]
  split
  · next h => rw [h, node?_nil]
  · next h => rw [h]; rfl
  · next h => rw [h]

/-- Below a directory. -/
theorem node?_cons_of_directory {name : List Char} {entries inner : Entries}
    (h : get? entries name = some (.directory inner)) (rest : Place) :
    node? (name :: rest) entries = node? rest inner := by
  rw [node?, h]

/-- What lies below a name depends on what is under it. -/
theorem node?_cons_congr {name : List Char} {entries entries' : Entries}
    (h : get? entries name = get? entries' name) (rest : Place) :
    node? (name :: rest) entries = node? (name :: rest) entries' := by
  rw [node?, node?, h]

/-- Nothing lies below what is not a directory. -/
theorem node?_cons_cons_of_not_directory {name : List Char} {entries : Entries}
    (h : ∀ inner, get? entries name ≠ some (.directory inner)) (next : List Char) (rest : Place) :
    node? (name :: next :: rest) entries = none := by
  rw [node?]
  split
  · next inner hget => exact absurd hget (h inner)
  · rfl
  · rfl

theorem node?_append {place : Place} {entries inner : Entries}
    (h : node? place entries = some (.directory inner)) (rest : Place) :
    node? (place ++ rest) entries = node? rest inner := by
  induction place generalizing entries with
  | nil =>
    cases h
    rfl
  | cons name below ih =>
    rw [List.cons_append]
    by_cases hdir : ∃ sub, get? entries name = some (.directory sub)
    · obtain ⟨sub, hsub⟩ := hdir
      rw [node?_cons_of_directory hsub] at h ⊢
      exact ih h
    · have hnot : ∀ sub, get? entries name ≠ some (.directory sub) := fun sub h => hdir ⟨sub, h⟩
      cases below with
      | nil =>
        rw [node?_singleton] at h
        exact absurd h (hnot inner)
      | cons next rest' =>
        rw [node?_cons_cons_of_not_directory hnot] at h
        cases h

theorem reaches_append {place : Place} {entries inner : Entries}
    (h : node? place entries = some (.directory inner)) (name : List Char) :
    Reaches (place ++ [name]) entries := by
  induction place generalizing entries with
  | nil => exact trivial
  | cons first below ih =>
    by_cases hdir : ∃ sub, get? entries first = some (.directory sub)
    · obtain ⟨sub, hsub⟩ := hdir
      rw [node?_cons_of_directory hsub] at h
      have hbelow := ih h
      cases hplace : below ++ [name] with
      | nil => simp at hplace
      | cons next rest =>
        rw [hplace] at hbelow
        rw [List.cons_append, hplace]
        exact ⟨sub, hsub, hbelow⟩
    · have hnot : ∀ sub, get? entries first ≠ some (.directory sub) := fun sub h => hdir ⟨sub, h⟩
      cases below with
      | nil =>
        rw [node?_singleton] at h
        exact absurd h (hnot inner)
      | cons next rest =>
        rw [node?_cons_cons_of_not_directory hnot] at h
        cases h

/-- A file put at a place changes the face of that place and of no other. -/
theorem face_alterAt {place : Place} {entries : Entries} (hreach : Reaches place entries)
    (hfree : ∀ inner, node? place entries ≠ some (.directory inner)) (octets : List UInt8)
    (q : Place) :
    (node? q (alterAt (fun _ => some (.file octets)) place entries)).map Node.face =
      if q = place then some (.file octets) else (node? q entries).map Node.face := by
  induction place generalizing entries q with
  | nil => exact hreach.elim
  | cons name below ih =>
    cases below with
    | nil =>
      -- the place lies in this directory
      rw [node?_singleton] at hfree
      have hself : get? (alter name (fun _ => some (.file octets)) entries) name
          = some (.file octets) := get?_alter_self rfl
      rw [alterAt]
      cases q with
      | nil => simp
      | cons other rest =>
        by_cases hname : other = name
        · subst hname
          cases rest with
          | nil => simp [node?_singleton, hself]
          | cons next rest =>
            rw [node?_cons_cons_of_not_directory (by simp [hself]),
              node?_cons_cons_of_not_directory hfree]
            simp
        · rw [node?_cons_congr (get?_alter_of_ne hname _ entries)]
          simp [hname]
    | cons next rest =>
      obtain ⟨inner, hinner, hbelow⟩ := hreach
      rw [node?_cons_of_directory hinner] at hfree
      rw [alterAt]
      cases q with
      | nil => simp
      | cons other below =>
        by_cases hname : other = name
        · subst hname
          rw [node?_cons_of_directory (get?_alter_self (by rw [hinner])),
            node?_cons_of_directory hinner, ih hbelow hfree]
          simp
        · rw [node?_cons_congr (get?_alter_of_ne hname _ entries)]
          simp [hname]

end Entries

/-! ## §3 Trees -/

namespace FileTree

/-- A file put at a place changes the face of that place and of no other. -/
theorem face?_set {t : FileTree} {place : Place} (hreach : Entries.Reaches place t.entries)
    (hfree : t.face? place ≠ some .directory) (octets : List UInt8) (q : Place) :
    (t.set place (.file octets)).face? q =
      if q = place then some (.file octets) else t.face? q := by
  refine Entries.face_alterAt hreach ?_ octets q
  intro inner h
  exact hfree (by rw [face?, node?, h]; rfl)

end FileTree

end MarkerBlock
