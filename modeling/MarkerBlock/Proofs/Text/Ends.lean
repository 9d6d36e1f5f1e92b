/-
MarkerBlock.Proofs.Text.Ends — what a list of ends says about a text.

Ends tell a language if they mark exactly the ends of the text that belong to it (`Tells`).  Each
step of a matcher that works from the back takes ends that tell a language to ends that tell this
language with one more part in front: one item, any number of items, or items up to a certain one.
-/
import Mathlib
import MarkerBlock.Text.Ends

namespace MarkerBlock.Text.Ends

variable {α : Type} {L M : Language α} {text : List α} {ends ends' : Ends}

/-! ## §1 Ends and languages -/

/-- The ends of a text that are marked are those in a language. -/
inductive Tells (L : Language α) : List α → Ends → Prop where
  | nil {b : Bool} (h : b = true ↔ [] ∈ L) : Tells L [] [b]
  | cons {item : α} {text : List α} {b : Bool} {ends : Ends} (h : b = true ↔ item :: text ∈ L)
      (later : Tells L text ends) : Tells L (item :: text) (b :: ends)

theorem Tells.whole_iff (h : Tells L text ends) : whole ends = true ↔ text ∈ L := by
  cases h with
  | nil h => exact h
  | cons h _ => exact h

theorem tells_nothing (text : List α) : Tells 1 text (nothing text) := by
  induction text with
  | nil => exact .nil (by simp)
  | cons item text ih => exact .cons (by simp) ih

theorem tells_none (text : List α) : Tells 0 text (none text) := by
  induction text with
  | nil => exact .nil (by simp)
  | cons item text ih => exact .cons (by simp) ih

theorem Tells.union (h : Tells L text ends) (h' : Tells M text ends') :
    Tells (L + M) text (ends.union ends') := by
  induction h generalizing ends' with
  | nil h =>
    cases h' with
    | nil h' => exact .nil (by rw [Bool.or_eq_true, h, h', Language.mem_add])
  | cons h _ ih =>
    cases h' with
    | cons h' later => exact .cons (by rw [Bool.or_eq_true, h, h', Language.mem_add]) (ih later)

/-! ## §2 One more part in front -/

/-- One item that satisfies `p`. -/
def one (p : α → Bool) : Language α := {t | ∃ item, p item = true ∧ t = [item]}

/-- Any number of items that satisfy `p`. -/
def run (p : α → Bool) : Language α := {t | ∀ item ∈ t, p item = true}

/-- Items, the last of which satisfies `p`. -/
def upTo (p : α → Bool) : Language α := {t | ∃ front item, p item = true ∧ t = front ++ [item]}

theorem nil_notMem_one_mul (p : α → Bool) : [] ∉ one p * L := by
  rintro ⟨_, ⟨item, -, rfl⟩, y, -, hxy⟩
  cases hxy

theorem cons_mem_one_mul {p : α → Bool} {item : α} :
    item :: text ∈ one p * L ↔ p item = true ∧ text ∈ L := by
  constructor
  · rintro ⟨_, ⟨item', hitem, rfl⟩, y, hy, hxy⟩
    obtain ⟨rfl, rfl⟩ := List.cons.inj hxy
    exact ⟨hitem, hy⟩
  · rintro ⟨hitem, htext⟩
    exact ⟨[item], ⟨item, hitem, rfl⟩, text, htext, rfl⟩

theorem nil_mem_run_mul {p : α → Bool} : [] ∈ run p * L ↔ [] ∈ L := by
  constructor
  · rintro ⟨x, -, y, hy, hxy⟩
    obtain ⟨-, rfl⟩ := List.append_eq_nil_iff.mp hxy
    exact hy
  · intro h
    exact ⟨[], fun _ hitem => absurd hitem List.not_mem_nil, [], h, rfl⟩

theorem cons_mem_run_mul {p : α → Bool} {item : α} :
    item :: text ∈ run p * L ↔ item :: text ∈ L ∨ (p item = true ∧ text ∈ run p * L) := by
  constructor
  · rintro ⟨x, hx, y, hy, hxy⟩
    cases x with
    | nil => exact .inl (hxy ▸ hy)
    | cons item' x =>
      obtain ⟨rfl, rfl⟩ := List.cons.inj hxy
      obtain ⟨hitem, hx⟩ := List.forall_mem_cons.mp hx
      exact .inr ⟨hitem, x, hx, y, hy, rfl⟩
  · rintro (h | ⟨hitem, x, hx, y, hy, rfl⟩)
    · exact ⟨[], fun _ hitem => absurd hitem List.not_mem_nil, item :: text, h, rfl⟩
    · exact ⟨item :: x, List.forall_mem_cons.mpr ⟨hitem, hx⟩, y, hy, rfl⟩

theorem nil_notMem_upTo_mul (p : α → Bool) : [] ∉ upTo p * L := by
  rintro ⟨_, ⟨front, item, -, rfl⟩, y, -, hxy⟩
  simp at hxy

theorem cons_mem_upTo_mul {p : α → Bool} {item : α} :
    item :: text ∈ upTo p * L ↔ (p item = true ∧ text ∈ L) ∨ text ∈ upTo p * L := by
  constructor
  · rintro ⟨_, ⟨front, last, hlast, rfl⟩, y, hy, hxy⟩
    cases front with
    | nil =>
      obtain ⟨rfl, rfl⟩ := List.cons.inj hxy
      exact .inl ⟨hlast, hy⟩
    | cons item' front =>
      obtain ⟨rfl, rfl⟩ := List.cons.inj hxy
      exact .inr ⟨front ++ [last], ⟨front, last, hlast, rfl⟩, y, hy, rfl⟩
  · rintro (⟨hitem, htext⟩ | ⟨_, ⟨front, last, hlast, rfl⟩, y, hy, rfl⟩)
    · exact ⟨[item], ⟨[], item, hitem, rfl⟩, text, htext, rfl⟩
    · exact ⟨item :: (front ++ [last]), ⟨item :: front, last, hlast, rfl⟩, y, hy, rfl⟩

theorem Tells.afterOne (h : Tells L text ends) (p : α → Bool) :
    Tells (one p * L) text (afterOne p text ends) := by
  induction h with
  | nil _ => exact .nil (iff_of_false Bool.false_ne_true (nil_notMem_one_mul p))
  | cons _ later ih =>
    refine .cons ?_ ih
    rw [Bool.and_eq_true, later.whole_iff, cons_mem_one_mul]

theorem Tells.afterRun (h : Tells L text ends) (p : α → Bool) :
    Tells (run p * L) text (afterRun p text ends) := by
  induction h with
  | nil h => exact .nil (h.trans nil_mem_run_mul.symm)
  | cons h _ ih =>
    refine .cons ?_ ih
    rw [Bool.or_eq_true, Bool.and_eq_true, h, ih.whole_iff, cons_mem_run_mul]

theorem Tells.afterSome (h : Tells L text ends) (p : α → Bool) :
    Tells (upTo p * L) text (afterSome p text ends) := by
  induction h with
  | nil _ => exact .nil (iff_of_false Bool.false_ne_true (nil_notMem_upTo_mul p))
  | cons _ later ih =>
    refine .cons ?_ ih
    rw [Bool.or_eq_true, Bool.and_eq_true, later.whole_iff, ih.whole_iff, cons_mem_upTo_mul]

end MarkerBlock.Text.Ends
