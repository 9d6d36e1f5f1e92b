/-
MarkerBlock.Path — paths as text, and the components they consist of.

A path keeps the text it was written with, because that is what is shown.  What
it means is its list of components: the root, a leading `.`, `..`, and names.
Doubled slashes, a slash at the end and a `.` after the start mean nothing, so
paths are compared, ordered and taken apart by components.

* `parent?`, `stripPrefix?` and `ancestors` cut a path's text between
  components.
* `join` puts one path after another, `ofComponents` writes components plainly.
* `difference?` leads from one path to another by `..` and names.
* `relativeTo` is the form in which a path is matched and shown.
-/
import MarkerBlock.Text.Split

namespace MarkerBlock

/-- A path, as written. -/
structure Path where
  text : List Char
deriving Repr, DecidableEq, Inhabited

namespace Path

/-! ## §1 Components -/

/-- One step of a path. -/
inductive Component where
  | root
  /-- The `.` a relative path may begin with. -/
  | current
  | parent
  | name (n : List Char)
deriving Repr, DecidableEq

/-- How a component is written. -/
def Component.text : Component → List Char
  | .root => ['/']
  | .current => ['.']
  | .parent => ['.', '.']
  | .name n => n

/-- Rank of the kinds of components in the order of paths. -/
def Component.rank : Component → Nat
  | .root => 0
  | .current => 1
  | .parent => 2
  | .name _ => 3

/-- Lexicographic order of names by code point. -/
def compareNames : List Char → List Char → Ordering
  | [], [] => .eq
  | [], _ :: _ => .lt
  | _ :: _, [] => .gt
  | a :: as, b :: bs => (compare a.toNat b.toNat).then (compareNames as bs)

/-- Order of components. -/
def Component.cmp : Component → Component → Ordering
  | .name a, .name b => compareNames a b
  | a, b => compare a.rank b.rank

/-- What a path begins with. -/
inductive Lead where
  | nothing
  | root
  | current
deriving Repr, DecidableEq

/-- The component a path begins with, if it is not an ordinary one. -/
def Lead.components : Lead → List Component
  | .nothing => []
  | .root => [.root]
  | .current => [.current]

/-- The pieces of a path's text between slashes, after one at the start. -/
def segments (p : Path) : List (List Char) :=
  match p.text with
  | '/' :: rest => Text.split '/' rest
  | text => Text.split '/' text

/-- What a path begins with, and its segments after that. -/
def shape (p : Path) : Lead × List (List Char) :=
  if p.text.head? = some '/' then (.root, p.segments)
  else
    match p.segments with
    | ['.'] :: rest => (.current, rest)
    | segments => (.nothing, segments)

/-- The path of a shape. -/
def ofShape (lead : Lead) (segments : List (List Char)) : Path :=
  let body := List.intercalate ['/'] segments
  match lead with
  | .nothing => ⟨body⟩
  | .root => ⟨'/' :: body⟩
  | .current => if segments.isEmpty then ⟨['.']⟩ else ⟨'.' :: '/' :: body⟩

/-- A segment that means nothing: empty, or a `.` that is not at the start. -/
def isBlank (segment : List Char) : Bool := segment.isEmpty || segment == ['.']

/-- The component a segment is, unless it is blank. -/
def componentOf? (segment : List Char) : Option Component :=
  if isBlank segment then none
  else if segment = ['.', '.'] then some .parent
  else some (.name segment)

/-- The components of a path. -/
def components (p : Path) : List Component :=
  let (lead, segments) := p.shape
  lead.components ++ segments.filterMap componentOf?

/-- Whether two paths have the same components. -/
def same (p q : Path) : Bool := p.components == q.components

/-- Lexicographic order of lists of components. -/
def compareComponents : List Component → List Component → Ordering
  | [], [] => .eq
  | [], _ :: _ => .lt
  | _ :: _, [] => .gt
  | a :: as, b :: bs => (a.cmp b).then (compareComponents as bs)

/-- Order of paths, component by component. -/
def cmp (p q : Path) : Ordering := compareComponents p.components q.components

/-! ## §2 Text -/

/-- A path from a string. -/
def ofString (s : String) : Path := ⟨s.toList⟩

instance : ToString Path := ⟨fun p => String.ofList p.text⟩

/-- A path that starts at the root. -/
def isAbsolute (p : Path) : Bool := p.text.head? == some '/'

/-- One path after another; an absolute second path stands alone. -/
def join (p q : Path) : Path :=
  if q.isAbsolute then q
  else if p.text.isEmpty || p.text.getLast? == some '/' then ⟨p.text ++ q.text⟩
  else ⟨p.text ++ '/' :: q.text⟩

/-- The path written from components alone. -/
def ofComponents (cs : List Component) : Path :=
  match cs with
  | .root :: rest => ⟨'/' :: List.intercalate ['/'] (rest.map Component.text)⟩
  | _ => ⟨List.intercalate ['/'] (cs.map Component.text)⟩

/-! ## §3 Parts of a path -/

/-- Segments without blank ones at the end. -/
def trimEnd (segments : List (List Char)) : List (List Char) :=
  (segments.reverse.dropWhile isBlank).reverse

/-- The path without its last component; none if it has no component but
perhaps the root. -/
def parent? (p : Path) : Option Path :=
  let (lead, segments) := p.shape
  match trimEnd segments with
  | [] =>
    match lead with
    | .current => some ⟨[]⟩
    | _ => none
  | kept => some (ofShape lead (trimEnd kept.dropLast))

/-- `p`, its parent, the parent's parent and so on, at most `fuel` of them. -/
def ancestorsUpTo : Nat → Path → List Path
  | 0, _ => []
  | fuel + 1, p =>
    match p.parent? with
    | none => [p]
    | some q => p :: ancestorsUpTo fuel q

/-- A path and all its parents, nearest first. -/
def ancestors (p : Path) : List Path := ancestorsUpTo (p.components.length + 1) p

/-- The name a path ends in, unless it ends in `..` or has no name. -/
def fileName? (p : Path) : Option (List Char) :=
  match p.components.getLast? with
  | some (.name n) => some n
  | _ => none

/-- What follows the last dot of the file name; none if there is no dot or only
one at the start. -/
def extension? (p : Path) : Option (List Char) :=
  p.fileName?.bind fun n =>
    if n.contains '.' then
      let after := n.reverse.takeWhile (· != '.')
      if after.length + 1 = n.length then none else some after.reverse
    else none

/-- Segments without the first `count` that are not blank. -/
def dropComponents : Nat → List (List Char) → List (List Char)
  | 0, segments => segments
  | _, [] => []
  | count + 1, segment :: rest =>
    if isBlank segment then dropComponents (count + 1) rest else dropComponents count rest

/-- Whether the components of `base` begin those of `p`. -/
def startsWith (p base : Path) : Bool := base.components.isPrefixOf p.components

/-- What follows `base` in `p`, if `p` starts with it. -/
def stripPrefix? (p base : Path) : Option Path :=
  if p.startsWith base then
    let (lead, segments) := p.shape
    match base.components.length with
    | 0 => some (ofShape lead (trimEnd segments))
    | count =>
      let left := dropComponents (count - lead.components.length) segments
      some (ofShape .nothing (trimEnd (left.dropWhile isBlank)))
  else none

/-! ## §4 Relative paths -/

/-- The steps from `b` to `p`, both given by the components after their common
part; none where a `..` of `b` would have to be undone. -/
def steps? : List Component → List Component → Option (List Component)
  | p, [] => some p
  | [], b => some (b.map fun _ => .parent)
  | c :: p, .current :: b => (steps? p b).map (c :: ·)
  | _ :: _, .parent :: _ => none
  | c :: p, _ :: b => some (.parent :: (b.map fun _ => .parent) ++ c :: p)

/-- Two lists without their longest common beginning. -/
def dropCommon : List Component → List Component → List Component × List Component
  | a :: as, b :: bs => if a = b then dropCommon as bs else (a :: as, b :: bs)
  | as, bs => (as, bs)

/-- The path that leads from `base` to `p`: up by `..`, then down by names.  An
absolute path is not reached from a relative one otherwise than by itself, and
a relative one not at all from an absolute one. -/
def difference? (p base : Path) : Option Path :=
  if p.isAbsolute != base.isAbsolute then
    if p.isAbsolute then some p else none
  else
    let (rest, up) := dropCommon p.components base.components
    (steps? rest up).map ofComponents

/-- The components of a path without a leading `.`; a plain `.` if none is left. -/
def withoutCurrent (p : Path) : Path :=
  let plain := ofComponents (p.components.filter (· != .current))
  if plain.text.isEmpty then ⟨['.']⟩ else plain

/-- A path as seen from `base`: what follows `base` if the path lies below it,
else the way there by `..`.  A relative path is taken to be relative to `base`
already. -/
def relativeTo (p base : Path) : Path :=
  if p.isAbsolute then
    ((p.stripPrefix? base).or (p.difference? base)).getD p.withoutCurrent
  else p.withoutCurrent

/-- An absolute path as it is; a relative one put after the directory `cwd` and
written plainly. -/
def absoluteFrom (p cwd : Path) : Path :=
  if p.isAbsolute then p else ofComponents (cwd.join p).components

end Path

end MarkerBlock
