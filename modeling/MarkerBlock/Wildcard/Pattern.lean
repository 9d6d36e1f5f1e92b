/-
MarkerBlock.Wildcard.Pattern — the wildcards by which a command line names
files.

`?` stands for one character, `*` for any, brackets for one character in (or,
after `!`, not in) a set, and `**` as a whole component for any directories.  A
pattern is read as a whole first, so that a fault is reported at its position,
and then component by component.
-/
import MarkerBlock.Text.Ends

namespace MarkerBlock.Wildcard

/-! ## §1 Tokens -/

/-- One element of a pattern. -/
inductive Token where
  | literal (c : Char)
  | anyOne
  | anyRun
  /-- `**` as a whole component. -/
  | anyDirectories
  | oneOf (negated : Bool) (ranges : List (Char × Char))
deriving Repr, DecidableEq

/-- What is wrong with a pattern. -/
inductive Fault where
  /-- More than two stars in a row. -/
  | tooManyStars
  /-- Two stars that are not a whole component. -/
  | misplacedDoubleStar
  /-- An empty or unclosed set. -/
  | invalidSet
deriving Repr, DecidableEq

/-- A fault and the position at which it was noticed. -/
structure Error where
  position : Nat
  fault : Fault
deriving Repr, DecidableEq

/-- Wording of a fault. -/
def Fault.message : Fault → String
  | .tooManyStars => String.ofList ("wildcards are either regular ".toList ++
      ['\x60', '*', '\x60'] ++ " or recursive ".toList ++ ['\x60', '*', '*', '\x60'])
  | .misplacedDoubleStar => "recursive wildcards must form a single path component"
  | .invalidSet => "invalid range pattern"

/-- Wording of an error. -/
def Error.message (e : Error) : String :=
  s!"Pattern syntax error near position {e.position}: {e.fault.message}"

/-! ## §2 Reading -/

/-- The ranges of a set, a single character being a range of one. -/
def rangesOf : List Char → List (Char × Char)
  | [] => []
  | a :: '-' :: b :: rest => (a, b) :: rangesOf rest
  | a :: rest => (a, a) :: rangesOf rest

/-- Read a set whose opening bracket has been read: its token and how many
characters it takes.  The first character never closes the set. -/
def readSet? (cs : List Char) : Option (Token × Nat) :=
  match cs with
  | '!' :: first :: rest =>
    (rest.findIdx? (· == ']')).map fun n =>
      (.oneOf true (rangesOf (first :: rest.take n)), n + 3)
  | first :: rest =>
    if first = '!' then none
    else (rest.findIdx? (· == ']')).map fun n =>
      (.oneOf false (rangesOf (first :: rest.take n)), n + 2)
  | [] => none

/-- Add a `**` to the tokens read so far; a second one in a row is dropped. -/
def pushDirectories (read : List Token) : List Token :=
  match read with
  | .anyDirectories :: _ :: _ => read
  | _ => .anyDirectories :: read

/-- Read tokens onto `read` (newest first).  `position` is where `cs` begins,
`previous` the character before it. -/
def readTokens (read : List Token) (position : Nat) (previous : Option Char) (cs : List Char) :
    Except Error (List Token) :=
  match cs with
  | [] => .ok read.reverse
  | c :: rest =>
    if c = '?' then readTokens (.anyOne :: read) (position + 1) (some c) rest
    else if c = '*' then
      let stars := 1 + (rest.takeWhile (· == '*')).length
      if 2 < stars then .error ⟨position + 2, .tooManyStars⟩
      else if stars = 2 then
        if position ≠ 0 && previous ≠ some '/' then
          .error ⟨position - 1, .misplacedDoubleStar⟩
        else
          match (rest.drop 1).head? with
          | none => .ok (pushDirectories read).reverse
          | some d =>
            if d = '/' then readTokens (pushDirectories read) (position + 3) (some d) (rest.drop 2)
            else .error ⟨position + 2, .misplacedDoubleStar⟩
      else readTokens (.anyRun :: read) (position + 1) (some c) rest
    else if c = '[' then
      match readSet? rest with
      | some (token, count) =>
        readTokens (token :: read) (position + 1 + count) (some ']') (rest.drop count)
      | none => .error ⟨position, .invalidSet⟩
    else readTokens (.literal c :: read) (position + 1) (some c) rest
termination_by cs.length
decreasing_by all_goals simp only [List.length_cons, List.length_drop]; omega

/-- Read a pattern. -/
def parse (text : List Char) : Except Error (List Token) := readTokens [] 0 none text

/-! ## §3 Matching one name -/

/-- Whether a character lies in one of the ranges. -/
def inRanges (ranges : List (Char × Char)) (c : Char) : Bool :=
  ranges.any fun range => range.1.toNat ≤ c.toNat && c.toNat ≤ range.2.toNat

/-- Whether a token stands for the single character `c`. -/
def Token.admits (t : Token) (c : Char) : Bool :=
  match t with
  | .literal d => c == d
  | .anyOne => true
  | .oneOf negated ranges => inRanges ranges c != negated
  | .anyRun | .anyDirectories => false

/-- The ends of a name that begin with what a token stands for, before one of
`ends`. -/
def Token.before (t : Token) (name : List Char) (ends : Text.Ends) : Text.Ends :=
  match t with
  | .anyRun | .anyDirectories => Text.Ends.afterRun (fun _ => true) name ends
  | t => Text.Ends.afterOne t.admits name ends

/-- Whether tokens match a whole name. -/
def matchName (tokens : List Token) (name : List Char) : Bool :=
  (tokens.foldr (fun t ends => t.before name ends) (Text.Ends.nothing name)).whole

/-- The text of a component without wildcards. -/
def literalText? (tokens : List Token) : Option (List Char) :=
  tokens.mapM fun t =>
    match t with
    | .literal c => some c
    | _ => none

end MarkerBlock.Wildcard
