/-
MarkerBlock.Diff.Edit — a shortest way to turn one sequence into another.

An edit keeps, deletes or inserts a stretch of items.  `script` finds edits for
a window on both sequences: what both begin and end with is kept, and what is
left is cut in two where a search from the front and one from the back meet
(`middle?`), each half being edited by itself.

The searches go round by round.  Round d finds, on every diagonal, how far d
deletions and insertions lead; stretches that agree cost nothing.
-/
namespace MarkerBlock.Diff

/-! ## §1 Edits -/

/-- What an edit does. -/
inductive Kind where
  | keep
  | delete
  | insert
deriving Repr, DecidableEq

/-- An edit of `size` items.  It applies at item `old` of the old sequence and
`new` of the new one. -/
structure Edit where
  kind : Kind
  old : Nat
  new : Nat
  size : Nat
deriving Repr, DecidableEq

/-- Number of items of the old sequence an edit covers. -/
def Edit.oldSize (e : Edit) : Nat := if e.kind = .insert then 0 else e.size

/-- Number of items of the new sequence an edit covers. -/
def Edit.newSize (e : Edit) : Nat := if e.kind = .delete then 0 else e.size

/-- An edit that keeps `size` items; none at all if there are none. -/
def keepIf (old new size : Nat) : List Edit :=
  if size = 0 then [] else [⟨.keep, old, new, size⟩]

/-! ## §2 Common stretches -/

variable {α : Type} [BEq α]

/-- How many items agree from `i` and `j` on, at most `limit`. -/
def commonPrefix (a b : Array α) (i j : Nat) : Nat → Nat
  | 0 => 0
  | limit + 1 => if a[i]? == b[j]? then commonPrefix a b (i + 1) (j + 1) limit + 1 else 0

/-- How many items agree just before `i` and `j`, going back, at most `limit`. -/
def commonSuffix (a b : Array α) (i j : Nat) : Nat → Nat
  | 0 => 0
  | limit + 1 => if a[i - 1]? == b[j - 1]? then commonSuffix a b (i - 1) (j - 1) limit + 1 else 0

/-! ## §3 Searching from both ends -/

/-- A part of both sequences: where it begins in each, and its size in each. -/
structure Window where
  old : Nat
  oldSize : Nat
  new : Nat
  newSize : Nat
deriving Repr, DecidableEq

/-- How much longer a window is in the old sequence. -/
def Window.excess (w : Window) : Int := w.oldSize - w.newSize

/-- How far a search has come on each diagonal: the number of old items passed.
Diagonal k is where k more old items have been passed than new ones. -/
structure Frontier where
  centre : Nat
  reach : Array Nat
deriving Repr

/-- A frontier for `rounds` rounds, at the start. -/
def Frontier.start (rounds : Nat) : Frontier :=
  ⟨rounds + 1, Array.replicate (2 * rounds + 3) 0⟩

/-- The reach on a diagonal. -/
def Frontier.get (f : Frontier) (k : Int) : Nat := f.reach.getD (k + f.centre).toNat 0

/-- A frontier with another reach on one diagonal. -/
def Frontier.set (f : Frontier) (k : Int) (x : Nat) : Frontier :=
  { f with reach := f.reach.setIfInBounds (k + f.centre).toNat x }

/-- Where round `d` enters diagonal `k`: by an insertion from the diagonal above
or a deletion from the one below, whichever leads further. -/
def Frontier.enter (f : Frontier) (d : Nat) (k : Int) : Nat :=
  if k = -d || (k != d && f.get (k - 1) < f.get (k + 1)) then f.get (k + 1)
  else f.get (k - 1) + 1

/-- The diagonals of round `d`, from the highest down. -/
def diagonals (d : Nat) : List Int := (List.range (d + 1)).map fun (i : Nat) => (d : Int) - 2 * i

/-- Round `d` of the search from the front.  Where it meets the search from the
back, the answer is the point at which the last common stretch begins. -/
def searchFront (a b : Array α) (w : Window) (d : Nat) (back : Frontier) :
    Frontier → List Int → Frontier × Option (Nat × Nat)
  | front, [] => (front, none)
  | front, k :: rest =>
    let x := front.enter d k
    let y := (x - k).toNat
    let limit := min (w.oldSize - x) (w.newSize - y)
    let reached := x + commonPrefix a b (w.old + x) (w.new + y) limit
    let front := front.set k reached
    if w.excess % 2 != 0 && (k - w.excess).natAbs < d
        && w.oldSize ≤ reached + back.get (w.excess - k) then (front, some (x, y))
    else searchFront a b w d back front rest

/-- Round `d` of the search from the back, which counts items from the ends.
Where it meets the search from the front, the answer is the point at which the
last common stretch begins. -/
def searchBack (a b : Array α) (w : Window) (d : Nat) (front : Frontier) :
    Frontier → List Int → Frontier × Option (Nat × Nat)
  | back, [] => (back, none)
  | back, k :: rest =>
    let x := back.enter d k
    let y := (x - k).toNat
    let limit := min (w.oldSize - x) (w.newSize - y)
    let same := commonSuffix a b (w.old + w.oldSize - x) (w.new + w.newSize - y) limit
    let reached := x + same
    let back := back.set k reached
    if w.excess % 2 == 0 && (k - w.excess).natAbs ≤ d
        && w.oldSize ≤ reached + front.get (w.excess - k) then
      (back, some (w.oldSize - reached, w.newSize - (y + same)))
    else searchBack a b w d front back rest

/-- Rounds from `d` on, at most `fuel` of them, until the searches meet. -/
def searchRounds (a b : Array α) (w : Window) :
    Nat → Nat → Frontier → Frontier → Option (Nat × Nat)
  | 0, _, _, _ => none
  | fuel + 1, d, front, back =>
    match searchFront a b w d back front (diagonals d) with
    | (_, some point) => some point
    | (front, none) =>
      match searchBack a b w d front back (diagonals d) with
      | (_, some point) => some point
      | (back, none) => searchRounds a b w fuel (d + 1) front back

/-- A point on a shortest way through a window: how many old and new items lie
before it. -/
def middle? (a b : Array α) (w : Window) : Option (Nat × Nat) :=
  let rounds := (w.oldSize + w.newSize + 1) / 2 + 1
  searchRounds a b w rounds 0 (.start rounds) (.start rounds)

/-! ## §4 The script -/

/-- What lies between the first `first` and the last `last` items of a window. -/
def Window.between (w : Window) (first last : Nat) : Window :=
  ⟨w.old + first, w.oldSize - first - last, w.new + first, w.newSize - first - last⟩

/-- The edits that delete and insert everything in a window. -/
def Window.replaceAll (w : Window) : List Edit :=
  (if w.oldSize = 0 then [] else [⟨.delete, w.old, w.new, w.oldSize⟩]) ++
    (if w.newSize = 0 then [] else [⟨.insert, w.old, w.new, w.newSize⟩])

/-- The edits for a window. -/
def script (a b : Array α) (w : Window) : List Edit :=
  let first := commonPrefix a b w.old w.new (min w.oldSize w.newSize)
  let last := commonSuffix a b (w.old + w.oldSize) (w.new + w.newSize)
    (min (w.oldSize - first) (w.newSize - first))
  let inner := w.between first last
  let edits :=
    if inner.oldSize = 0 || inner.newSize = 0 then inner.replaceAll
    else
      match middle? a b inner with
      | none => inner.replaceAll
      | some (x, y) =>
        if _h : x ≤ inner.oldSize ∧ y ≤ inner.newSize ∧ 0 < x + y ∧
            x + y < inner.oldSize + inner.newSize then
          script a b ⟨inner.old, x, inner.new, y⟩ ++
            script a b ⟨inner.old + x, inner.oldSize - x, inner.new + y, inner.newSize - y⟩
        else inner.replaceAll
  keepIf w.old w.new first ++ edits ++
    keepIf (w.old + w.oldSize - last) (w.new + w.newSize - last) last
termination_by w.oldSize + w.newSize
decreasing_by all_goals simp only [inner, Window.between] at _h ⊢; omega

end MarkerBlock.Diff
