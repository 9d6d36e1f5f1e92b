/-
MarkerBlock.Glob.Pattern — reading globs, the patterns of ignore lists.

A glob is a sequence of tokens.  Besides literal characters there are `?` and
`*`, classes in brackets, alternatives in braces, and `**` as a whole component
of a path: at the start it stands for any leading directories, at the end for
everything below, in between for any directories.  A `**` elsewhere is two
stars.  A backslash takes the next character literally.

Where `unclosedClass` allows it, a bracket that is never closed is a literal
character, otherwise it is an error.
-/
namespace MarkerBlock.Glob

/-! ## §1 Tokens, options, errors -/

/-- One element of a glob. -/
inductive Token where
  | literal (c : Char)
  /-- `?` -/
  | anyOne
  /-- `*` -/
  | anyRun
  /-- `**` at the start. -/
  | leadingDirectories
  /-- `**` at the end, with the slash before it. -/
  | everythingBelow
  /-- `**` in between, with the slashes around it. -/
  | innerDirectories
  /-- Characters in brackets; a single character is a range of one. -/
  | oneOf (negated : Bool) (ranges : List (Char × Char))
  /-- Alternatives in braces. -/
  | alternatives (branches : List (List Token))
deriving Repr

/-- How a glob is read and matched. -/
structure Options where
  /-- `?` and `*` do not match a slash. -/
  literalSlash : Bool
  /-- A bracket that is never closed is a literal character. -/
  unclosedClass : Bool
deriving Repr, DecidableEq

/-- What is wrong with a glob. -/
inductive Fault where
  | unclosedClass
  | invalidRange (first last : Char)
  | unopenedAlternatives
  | unclosedAlternatives
  | danglingEscape
deriving Repr, DecidableEq

/-- Wording of a fault. -/
def Fault.message : Fault → String
  | .unclosedClass => "unclosed character class; missing ']'"
  | .invalidRange first last =>
    String.ofList ("invalid range; '".toList ++ [first] ++ "' > '".toList ++ [last, '\x27'])
  | .unopenedAlternatives =>
    "unopened alternate group; missing '\x7b' (maybe escape '\x7d' with '[\x7d]'?)"
  | .unclosedAlternatives =>
    "unclosed alternate group; missing '\x7d' (maybe escape '\x7b' with '[\x7b]'?)"
  | .danglingEscape => "dangling '\x5c'"

/-- A glob that cannot be read, and why. -/
structure Error where
  glob : List Char
  fault : Fault
deriving Repr, DecidableEq

/-- Wording of an error. -/
def Error.message (e : Error) : String :=
  s!"error parsing glob '{String.ofList e.glob}': {e.fault.message}"

/-! ## §2 Classes -/

/-- A class while it is read: its ranges, newest first, and whether a range has
been opened by a hyphen. -/
structure ClassDraft where
  ranges : List (Char × Char) := []
  inRange : Bool := false

/-- End the newest range at `last`. -/
def ClassDraft.endRange (draft : ClassDraft) (last : Char) : Except Fault ClassDraft :=
  match draft.ranges with
  | (first, _) :: rest =>
    if last.toNat < first.toNat then .error (.invalidRange first last)
    else .ok { ranges := (first, last) :: rest }
  | [] => .ok { ranges := [(last, last)] }

/-- Add one character.  A hyphen opens a range, except where it comes first or
ends a range itself. -/
def ClassDraft.add (draft : ClassDraft) (c : Char) : Except Fault ClassDraft :=
  if draft.inRange then draft.endRange c
  else if c = '-' && !draft.ranges.isEmpty then .ok { draft with inRange := true }
  else .ok { ranges := (c, c) :: draft.ranges }

/-- The ranges at the closing bracket; a hyphen just before it is a character. -/
def ClassDraft.finish (draft : ClassDraft) : List (Char × Char) :=
  if draft.inRange then (('-', '-') :: draft.ranges).reverse else draft.ranges.reverse

/-- Read a class up to its closing bracket: its ranges, and how many characters
were read.  A bracket that comes first is a character.  None if the class is
never closed. -/
def readClass (draft : ClassDraft) (count : Nat) :
    List Char → Except Fault (Option (List (Char × Char) × Nat))
  | [] => .ok none
  | c :: rest =>
    if c = ']' && !draft.ranges.isEmpty then .ok (some (draft.finish, count + 1))
    else
      match draft.add c with
      | .ok draft => readClass draft (count + 1) rest
      | .error fault => .error fault

/-- Read a class whose opening bracket has been read. -/
def classToken (cs : List Char) : Except Fault (Option (Token × Nat)) :=
  let negated := cs.head? == some '!' || cs.head? == some '^'
  let skipped := if negated then 1 else 0
  match readClass {} skipped (cs.drop skipped) with
  | .ok (some (ranges, count)) => .ok (some (.oneOf negated ranges, count))
  | .ok none => .ok none
  | .error fault => .error fault

/-! ## §3 Reading -/

/-- A group of alternatives while it is read: the finished branches and the
tokens of the current one, both newest first.  The glob itself is a group with
one branch. -/
structure Frame where
  done : List (List Token) := []
  current : List Token := []

/-- A reader: the innermost group, the groups around it, the character read last,
and whether an unclosed bracket has been met. -/
structure Reader where
  frame : Frame := {}
  outer : List Frame := []
  previous : Option Char := none
  foundUnclosed : Bool := false

namespace Reader

/-- Add a token to the current branch. -/
def push (r : Reader) (t : Token) : Reader :=
  { r with frame := { r.frame with current := t :: r.frame.current } }

/-- Put a token in the place of the newest one. -/
def replaceLast (r : Reader) (t : Token) : Reader :=
  { r with frame := { r.frame with current := t :: r.frame.current.tail } }

/-- Whether a group of alternatives is open. -/
def inGroup (r : Reader) : Bool := !r.outer.isEmpty

/-- Open a group. -/
def openGroup (r : Reader) : Reader := { r with frame := {}, outer := r.frame :: r.outer }

/-- Begin the next branch; outside a group a comma is a character. -/
def nextBranch (r : Reader) : Reader :=
  if r.inGroup then
    { r with frame := { done := r.frame.current.reverse :: r.frame.done } }
  else r.push (.literal ',')

/-- Close the innermost group. -/
def closeGroup (r : Reader) : Except Fault Reader :=
  match r.outer with
  | [] => .error .unopenedAlternatives
  | frame :: outer =>
    let branches := (r.frame.current.reverse :: r.frame.done).reverse
    .ok ({ r with frame, outer }.push (.alternatives branches))

/-- What a `**` that is followed by `rest` does: the reader after it, and whether
the next character is the slash that belongs to it. -/
def pushDoubleStar (r : Reader) (rest : List Char) : Reader × Bool :=
  let twoStars := ((r.push .anyRun).push .anyRun, false)
  match r.frame.current with
  | [] =>
    match rest with
    | [] => (r.push .leadingDirectories, false)
    | c :: _ => if c = '/' then (r.push .leadingDirectories, true) else twoStars
  | newest :: _ =>
    let startsComponent := r.previous = some '/' ||
      (r.inGroup && (r.previous = some ',' || r.previous = some '\x7b'))
    if !startsComponent then twoStars
    else
      let place (inner : Token) : Token :=
        match newest with
        | .leadingDirectories => .leadingDirectories
        | .everythingBelow => .everythingBelow
        | _ => inner
      match rest with
      | [] => (r.replaceLast (place .everythingBelow), false)
      | c :: _ =>
        if r.inGroup && (c = ',' || c = '\x7d') then
          (r.replaceLast (place .everythingBelow), false)
        else if c = '/' then (r.replaceLast (place .innerDirectories), true)
        else twoStars

/-- The tokens at the end of the glob. -/
def finish (r : Reader) : Except Fault (List Token) :=
  if r.inGroup then .error .unclosedAlternatives else .ok r.frame.current.reverse

end Reader

/-- Read the characters of a glob. -/
def readTokens (o : Options) (r : Reader) : List Char → Except Fault (List Token)
  | [] => r.finish
  | c :: rest =>
    let next := { r with previous := some c }
    if c = '?' then readTokens o (next.push .anyOne) rest
    else if c = '*' then
      match rest with
      | '*' :: more =>
        match r.pushDoubleStar more with
        | (r, true) => readTokens o { r with previous := some '/' } (more.drop 1)
        | (r, false) => readTokens o { r with previous := some '*' } more
      | rest => readTokens o (next.push .anyRun) rest
    else if c = '[' && !r.foundUnclosed then
      match classToken rest with
      | .error fault => .error fault
      | .ok (some (token, count)) =>
        readTokens o ({ r with previous := some ']' }.push token) (rest.drop count)
      | .ok none =>
        if o.unclosedClass then
          readTokens o ({ next with foundUnclosed := true }.push (.literal '[')) rest
        else .error .unclosedClass
    else if c = '\x7b' then readTokens o next.openGroup rest
    else if c = '\x7d' then
      match next.closeGroup with
      | .ok r => readTokens o r rest
      | .error fault => .error fault
    else if c = ',' then readTokens o next.nextBranch rest
    else if c = '\x5c' then
      match rest with
      | [] => .error .danglingEscape
      | e :: more => readTokens o ({ r with previous := some e }.push (.literal e)) more
    else readTokens o (next.push (.literal c)) rest
termination_by cs => cs.length
decreasing_by all_goals simp only [List.length_cons, List.length_drop]; omega

end Glob

/-- A glob: its tokens, and how it is matched. -/
structure Glob where
  options : Glob.Options
  tokens : List Glob.Token
deriving Repr

/-- Read a glob. -/
def Glob.parse (options : Glob.Options) (text : List Char) : Except Glob.Error Glob :=
  match Glob.readTokens options {} text with
  | .ok tokens => .ok { options, tokens }
  | .error fault => .error ⟨text, fault⟩

end MarkerBlock
