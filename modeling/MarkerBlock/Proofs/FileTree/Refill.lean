/-
MarkerBlock.Proofs.FileTree.Refill — files that are given other contents, in any order.

`refill` gives what is at a place other contents; unlike `set` it makes nothing new, so
it keeps the order of the entries.  Where something is, both do the same
(`set_eq_refill`), and refills of different places commute (`refill_comm`), as values
and not only in what a path shows.
-/
import Mathlib
import MarkerBlock.Proofs.FileTree.Basic

namespace MarkerBlock

namespace Entries

/-! ## §1 Changes in place -/

/-- What a change at a place below means for the node under the first name. -/
def descend (change : Node → Node) : Place → Node → Node
  | [], node => change node
  | next :: rest, .directory inner => .directory (alterAt (Option.map change) (next :: rest) inner)
  | _ :: _, node => node

section changes

variable {f g : Node → Node}

theorem alterAt_cons (f : Node → Node) (name : List Char) (rest : Place) (entries : Entries) :
    alterAt (Option.map f) (name :: rest) entries =
      alter name (Option.map (descend f rest)) entries := by
  cases rest with
  | nil => rfl
  | cons next rest =>
    rw [alterAt]
    congr 1
    funext node
    rcases node with _ | (_ | _ | _)
    · rfl
    · rfl
    · rfl
    · rfl

theorem alter_cons_self (name : List Char) (node : Node) (rest : Entries) :
    alter name (Option.map f) ((name, node) :: rest) = (name, f node) :: rest := by
  rw [alter, if_pos (beq_self_eq_true name)]
  rfl

theorem alter_cons_of_ne {name key : List Char} (hne : key ≠ name) (node : Node) (rest : Entries) :
    alter name (Option.map f) ((key, node) :: rest) =
      (key, node) :: alter name (Option.map f) rest := by
  rw [alter, if_neg (by simpa using hne)]

/-- Changes under one name commute if they commute on nodes. -/
theorem alter_comm_self (h : ∀ node, f (g node) = g (f node)) (name : List Char) (entries : Entries) :
    alter name (Option.map f) (alter name (Option.map g) entries) =
      alter name (Option.map g) (alter name (Option.map f) entries) := by
  induction entries with
  | nil => rfl
  | cons entry rest ih =>
    obtain ⟨key, node⟩ := entry
    by_cases hkey : key = name
    · subst hkey
      rw [alter_cons_self, alter_cons_self, alter_cons_self, alter_cons_self, h]
    · simp only [alter_cons_of_ne hkey, ih]

/-- Changes under two names commute. -/
theorem alter_comm {name other : List Char} (hne : name ≠ other) (entries : Entries) :
    alter name (Option.map f) (alter other (Option.map g) entries) =
      alter other (Option.map g) (alter name (Option.map f) entries) := by
  induction entries with
  | nil => rfl
  | cons entry rest ih =>
    obtain ⟨key, node⟩ := entry
    by_cases hkey : key = name
    · subst hkey
      rw [alter_cons_of_ne hne, alter_cons_self, alter_cons_self, alter_cons_of_ne hne]
    · by_cases hother : key = other
      · subst hother
        rw [alter_cons_self, alter_cons_of_ne hkey, alter_cons_of_ne hkey, alter_cons_self]
      · simp only [alter_cons_of_ne hkey, alter_cons_of_ne hother, ih]

end changes

/-! ## §2 Files -/

/-- Whatever is at a place becomes a file. -/
def refillAt (octets : List UInt8) (place : Place) (entries : Entries) : Entries :=
  alterAt (Option.map fun _ => .file octets) place entries

theorem refillAt_comm {p q : Place} (hne : p ≠ q) (a b : List UInt8) (entries : Entries) :
    refillAt a p (refillAt b q entries) = refillAt b q (refillAt a p entries) := by
  induction p generalizing q entries with
  | nil => rfl
  | cons name rest ih =>
    cases q with
    | nil => rfl
    | cons other rest' =>
      unfold refillAt
      rw [alterAt_cons, alterAt_cons, alterAt_cons, alterAt_cons]
      by_cases hname : name = other
      · subst hname
        -- both places lie under one name; a file on the way to the other stays a file
        refine alter_comm_self (fun node => ?_) name entries
        cases rest with
        | nil =>
          cases rest' with
          | nil => exact absurd rfl hne
          | cons next rest' => cases node <;> rfl
        | cons next rest =>
          cases rest' with
          | nil => cases node <;> rfl
          | cons next' rest' =>
            cases node with
            | directory inner =>
              have hbelow : next :: rest ≠ next' :: rest' := fun h => hne (by rw [h])
              exact congrArg Node.directory (ih hbelow inner)
            | file octets => rfl
            | link target => rfl
      · exact alter_comm hname entries

theorem alter_congr {name : List Char} {f g : Option Node → Option Node} {entries : Entries}
    (h : f (get? entries name) = g (get? entries name)) : alter name f entries = alter name g entries := by
  induction entries with
  | nil =>
    have hnone : f none = g none := h
    rw [alter, alter, hnone]
  | cons entry rest ih =>
    obtain ⟨key, node⟩ := entry
    rw [get?_cons] at h
    rw [alter, alter]
    by_cases hkey : key = name
    · rw [if_pos hkey] at h
      simp only [hkey, beq_self_eq_true, if_true, h]
    · rw [if_neg hkey] at h
      simp only [beq_iff_eq, hkey, if_false, ih h]

/-- Where something is, it makes no difference that nothing new is made. -/
theorem alterAt_eq_refillAt {place : Place} {entries : Entries} {node : Node}
    (h : node? place entries = some node) (octets : List UInt8) :
    alterAt (fun _ => some (.file octets)) place entries = refillAt octets place entries := by
  induction place generalizing entries with
  | nil => rfl
  | cons name rest ih =>
    cases rest with
    | nil =>
      rw [node?_singleton] at h
      exact alter_congr (by rw [h]; rfl)
    | cons next rest =>
      refine alter_congr ?_
      cases hget : get? entries name with
      | none => rfl
      | some inner =>
        cases inner with
        | directory inner =>
          rw [node?_cons_of_directory hget] at h
          exact congrArg (fun e => some (Node.directory e)) (ih h)
        | file octets => rfl
        | link target => rfl

end Entries

namespace FileTree

/-- The tree with other contents in what is at a place, if something is there. -/
def refill (t : FileTree) (place : Place) (octets : List UInt8) : FileTree :=
  ⟨Entries.refillAt octets place t.entries⟩

theorem set_eq_refill {t : FileTree} {place : Place} {node : Node}
    (h : t.node? place = some node) (octets : List UInt8) :
    t.set place (.file octets) = t.refill place octets :=
  congrArg FileTree.mk (Entries.alterAt_eq_refillAt h octets)

/-- Refills of different places commute. -/
theorem refill_comm (t : FileTree) {p q : Place} (hne : p ≠ q) (a b : List UInt8) :
    (t.refill q b).refill p a = (t.refill p a).refill q b :=
  congrArg FileTree.mk (Entries.refillAt_comm hne a b t.entries)

end FileTree

end MarkerBlock
