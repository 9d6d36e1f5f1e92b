/-
MarkerBlock.Diff.Slide — moving edits to where they read best.

An insertion between equal stretches can often be made at several places with
the same result: the line after a function may be taken for the line before the
next.  `slide` moves every insertion up as far as it goes, so that it meets
others and becomes one with them, and then down as far as it goes.  A deletion
only trades places with insertions beside it.
-/
import MarkerBlock.Diff.Edit

namespace MarkerBlock.Diff

/-! ## §1 One edit among others -/

/-- An edit, those before it (nearest first) and those after it. -/
structure Cursor where
  before : List Edit
  edit : Edit
  after : List Edit
deriving Repr

/-- An edit at a place `n` items further up. -/
def Edit.raise (e : Edit) (n : Nat) : Edit := { e with old := e.old - n, new := e.new - n }

/-- An edit at a place `n` items further down. -/
def Edit.lower (e : Edit) (n : Nat) : Edit := { e with old := e.old + n, new := e.new + n }

/-- The edits with a kept stretch in front that became `n` items longer at its
start; if there is none, `fresh` takes its place. -/
def growFirst (n : Nat) (fresh : Edit) : List Edit → List Edit
  | [] => [fresh]
  | e :: rest =>
    if e.kind = .keep then { e.raise n with size := e.size + n } :: rest else fresh :: e :: rest

/-- The edits with a kept stretch in front that became `n` items longer at its
end; if there is none, `fresh` takes its place. -/
def growLast (n : Nat) (fresh : Edit) : List Edit → List Edit
  | [] => [fresh]
  | e :: rest =>
    if e.kind = .keep then { e with size := e.size + n } :: rest else fresh :: e :: rest

/-- An edit in front of others, unless it covers nothing. -/
def consIf (e : Edit) (rest : List Edit) : List Edit := if e.size = 0 then rest else e :: rest

/-- Bound on the moves past a list of edits. -/
def weight : List Edit → Nat
  | [] => 0
  | e :: rest => e.size + 1 + weight rest

theorem weight_cons (e : Edit) (rest : List Edit) :
    weight (e :: rest) = e.size + 1 + weight rest := rfl

theorem weight_consIf_lt {e : Edit} {n : Nat} (rest : List Edit) (h : e.size < n) :
    weight (consIf e rest) < n + 1 + weight rest := by
  unfold consIf
  split
  · omega
  · rw [weight_cons]; omega

/-! ## §2 Moving -/

variable {α : Type} [BEq α]

/-- Move an edit up: past the end of a kept stretch that equals the end of what
is inserted, past edits of the other kind, and into one of the same kind. -/
def Cursor.up (a b : Array α) (c : Cursor) : Cursor :=
  match _h : c.before with
  | [] => c
  | e :: before =>
    if e.kind = .keep then
      let n := commonSuffix a b (e.old + e.oldSize) (c.edit.new + c.edit.newSize)
        (min e.oldSize c.edit.newSize)
      if _hn : 0 < n ∧ 0 < e.size then
        let fresh : Edit :=
          ⟨.keep, e.old + e.oldSize - n, c.edit.new + c.edit.newSize - n, n⟩
        Cursor.up a b
          { before := consIf { e with size := e.size - n } before
            edit := c.edit.raise n
            after := growFirst n fresh c.after }
      else c
    else if e.kind = c.edit.kind then
      Cursor.up a b { c with before, edit := { e with size := e.size + c.edit.size } }
    else Cursor.up a b { c with before, after := e :: c.after }
termination_by weight c.before
decreasing_by
  · rw [_h, weight_cons]
    exact weight_consIf_lt before (Nat.sub_lt _hn.2 _hn.1)
  · rw [_h, weight_cons]; omega
  · rw [_h, weight_cons]; omega

/-- Move an edit down: past the start of a kept stretch that equals the start of
what is inserted, past edits of the other kind, and over one of the same kind. -/
def Cursor.down (a b : Array α) (c : Cursor) : Cursor :=
  match _h : c.after with
  | [] => c
  | e :: after =>
    if e.kind = .keep then
      let n := commonPrefix a b e.old c.edit.new (min e.oldSize c.edit.newSize)
      if _hn : 0 < n ∧ 0 < e.size then
        Cursor.down a b
          { before := growLast n ⟨.keep, e.old, c.edit.new, n⟩ c.before
            edit := c.edit.lower n
            after := consIf { e.lower n with size := e.size - n } after }
      else c
    else if e.kind = c.edit.kind then
      Cursor.down a b { c with after, edit := { c.edit with size := c.edit.size + e.size } }
    else Cursor.down a b { c with before := e :: c.before, after }
termination_by weight c.after
decreasing_by
  · rw [_h, weight_cons]
    exact weight_consIf_lt after (Nat.sub_lt _hn.2 _hn.1)
  · rw [_h, weight_cons]; omega
  · rw [_h, weight_cons]; omega

/-- Move the edits of one kind among those after a place, at most `count` of
them; `before` holds what was passed, nearest first. -/
def slideFrom (a b : Array α) (kind : Kind) : Nat → List Edit → List Edit → List Edit
  | 0, before, after => before.reverse ++ after
  | count + 1, before, after =>
    let passed := after.takeWhile (·.kind != kind)
    match after.dropWhile (·.kind != kind) with
    | [] => before.reverse ++ passed
    | edit :: rest =>
      let c := (Cursor.up a b ⟨passed.reverse ++ before, edit, rest⟩).down a b
      slideFrom a b kind count (c.edit :: c.before) c.after

/-- Move the edits of one kind. -/
def slideKind (a b : Array α) (kind : Kind) (edits : List Edit) : List Edit :=
  slideFrom a b kind (edits.countP (·.kind == kind)) [] edits

/-- Move deletions, then insertions. -/
def slide (a b : Array α) (edits : List Edit) : List Edit :=
  slideKind a b .insert (slideKind a b .delete edits)

/-- The edits from one sequence to another. -/
def edits (a b : Array α) : List Edit := slide a b (script a b ⟨0, a.size, 0, b.size⟩)

end MarkerBlock.Diff
