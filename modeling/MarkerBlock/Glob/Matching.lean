/-
MarkerBlock.Glob.Matching — which paths a glob matches.

Matching works on the UTF-8 octets of a path: `?` and a class stand for one
octet, and a class holds the octets of its characters.  A glob is matched from
the back (`Token.before`): what the rest of it matches is known before a token is
looked at.

A glob of the form `**/name` looks at the last name of a path only, and one that
looks at an extension first needs a last name.  The name `..` is none.
-/
import MarkerBlock.Glob.Method
import MarkerBlock.Text.Ends

namespace MarkerBlock.Glob

open Text

/-! ## §1 Octets -/

/-- The octets of a character. -/
abbrev octetsOf (c : Char) : List UInt8 := String.utf8EncodeChar c

/-- The slash. -/
def slash : UInt8 := 0x2F

/-- Whether `b` is among the octets of a range: those of both its ends, and those
between the last octet of the first and the first octet of the last. -/
def rangeHolds (b : UInt8) (range : Char × Char) : Bool :=
  let first := octetsOf range.1
  let last := octetsOf range.2
  if range.1 = range.2 then first.contains b
  else
    first.contains b || last.contains b ||
      (first.getLastD 0 ≤ b && b ≤ last.headD 0)

/-! ## §2 Tokens -/

mutual

/-- Alternatives that all stand for nothing are as if they were not there. -/
def isVacant : Token → Bool
  | .alternatives branches => areVacant branches
  | _ => false

/-- Every token is vacant. -/
def isVacantBranch : List Token → Bool
  | [] => true
  | t :: rest => isVacant t && isVacantBranch rest

/-- Every branch is vacant. -/
def areVacant : List (List Token) → Bool
  | [] => true
  | branch :: rest => isVacantBranch branch && areVacant rest

end

/-- An octet that `?` and `*` stand for. -/
def Options.admits (o : Options) (b : UInt8) : Bool := !o.literalSlash || b != slash

/-- The ends that begin with the given octets, before one of `ends`. -/
def afterOctets (octets text : List UInt8) (ends : Ends) : Ends :=
  octets.foldr (fun octet ends => Ends.afterOne (· == octet) text ends) ends

/-- The ends that are among `ends`, or lead to one of them after a slash. -/
def afterDirectories (text : List UInt8) (ends : Ends) : Ends :=
  ends.union (Ends.afterSome (· == slash) text ends)

mutual

/-- The ends of a text that begin with what a token stands for, before one of
`ends`. -/
def Token.before (o : Options) (text : List UInt8) : Token → Ends → Ends
  | .literal c, ends => afterOctets (octetsOf c) text ends
  | .anyOne, ends => Ends.afterOne o.admits text ends
  | .anyRun, ends => Ends.afterRun o.admits text ends
  | .leadingDirectories, ends => afterDirectories text ends
  | .everythingBelow, ends =>
    Ends.afterOne (· == slash) text (Ends.afterRun (fun _ => true) text ends)
  | .innerDirectories, ends => Ends.afterOne (· == slash) text (afterDirectories text ends)
  | .oneOf negated ranges, ends =>
    Ends.afterOne (fun b => ranges.any (rangeHolds b) != negated) text ends
  | .alternatives branches, ends =>
    if areVacant branches then ends else branchesBefore o text branches ends

/-- The ends of a text that begin with what a sequence of tokens stands for, before
one of `ends`. -/
def tokensBefore (o : Options) (text : List UInt8) : List Token → Ends → Ends
  | [], ends => ends
  | t :: rest, ends => t.before o text (tokensBefore o text rest ends)

/-- The ends of a text that begin with what one of several branches stands for,
before one of `ends`; vacant branches do not count. -/
def branchesBefore (o : Options) (text : List UInt8) : List (List Token) → Ends → Ends
  | [], _ => Ends.none text
  | branch :: rest, ends =>
    if isVacantBranch branch then branchesBefore o text rest ends
    else (tokensBefore o text branch ends).union (branchesBefore o text rest ends)

end

/-! ## §3 Globs -/

/-- The last name of a path: what follows its last slash, unless that is `..`. -/
def lastName (path : List UInt8) : List UInt8 :=
  let name := (path.reverse.takeWhile (· != slash)).reverse
  if name = [0x2E, 0x2E] then [] else name

/-- Whether tokens match a whole text; leading directories by themselves match
everything. -/
def matchesText (o : Options) (tokens : List Token) (text : List UInt8) : Bool :=
  match tokens with
  | [.leadingDirectories] => true
  | _ => (tokensBefore o text tokens (Ends.nothing text)).whole

/-- Whether a glob matches the octets of a path. -/
def acceptsOctets (g : Glob) (path : List UInt8) : Bool :=
  match g.method with
  | .name text => lastName path == text.flatMap octetsOf
  | .extension | .extensionFirst =>
    !(lastName path).isEmpty && matchesText g.options g.tokens path
  | .text | .expression => matchesText g.options g.tokens path

/-- Whether a glob matches a path. -/
def accepts (g : Glob) (path : List Char) : Bool := g.acceptsOctets (path.flatMap octetsOf)

end MarkerBlock.Glob
