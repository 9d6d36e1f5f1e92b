/-
MarkerBlock.Glob.Machine — the room a glob takes as a machine.

Regular expressions are carried out by a machine with states.  An octet, a mark
for the beginning or the end, a fork and a join is a state each; a class of
octets is two, the first with one transition for each run of octets.  The
machine may take only so much room.
-/
import MarkerBlock.Glob.Expression

namespace MarkerBlock.Glob

/-! ## §1 Measures -/

/-- Room for a state, in octets. -/
def stateRoom : Nat := 32

/-- Room for a transition of a state that has several. -/
def transitionRoom : Nat := 8

/-- Room for one way out of a fork. -/
def wayRoom : Nat := 4

/-- How much room a machine may take. -/
def roomLimit : Nat := 10485760

/-! ## §2 Tokens -/

/-- Room for a class with so many runs of octets. -/
def runsRoom (runs : Nat) : Nat := 2 * stateRoom + runs * transitionRoom

/-- The octets of a class, in order. -/
def classOctets (negated : Bool) (ranges : List (Char × Char)) : List Nat :=
  (List.range 256).filter fun n => ranges.any (rangeHolds (UInt8.ofNat n)) != negated

/-- Number of runs of numbers that follow one another; `next` is the number that
would lengthen the run before. -/
def runCount (next : Option Nat) : List Nat → Nat
  | [] => 0
  | n :: rest => (if next = some n then 0 else 1) + runCount (some (n + 1)) rest

/-- Room for a class in brackets.  A single octet is no class. -/
def classRoom (negated : Bool) (ranges : List (Char × Char)) : Nat :=
  match classOctets negated ranges with
  | [] => stateRoom
  | [_] => stateRoom
  | octets => runsRoom (runCount none octets)

/-- Room for what `?` stands for. -/
def Options.anyOneRoom (o : Options) : Nat := runsRoom (if o.literalSlash then 2 else 1)

/-- Room for any number of something. -/
def repeatedRoom (room : Nat) : Nat := stateRoom + 2 * wayRoom + room

/-- Room for something that may be left out. -/
def optionalRoom (room : Nat) : Nat := 2 * stateRoom + 2 * wayRoom + room

/-- Room for `count` alternatives that take up so much together. -/
def forkRoom (count room : Nat) : Nat :=
  if count ≤ 1 then room else 2 * stateRoom + count * wayRoom + room

/-- Room for any octets. -/
def anythingRoom : Nat := repeatedRoom (runsRoom 1)

mutual

/-- Room for a token. -/
def Token.room (o : Options) : Token → Nat
  | .literal c => (octetsOf c).length * stateRoom
  | .anyOne => o.anyOneRoom
  | .anyRun => repeatedRoom o.anyOneRoom
  | .leadingDirectories => forkRoom 2 (optionalRoom stateRoom + anythingRoom + stateRoom)
  | .everythingBelow => stateRoom + anythingRoom
  | .innerDirectories => forkRoom 2 (3 * stateRoom + anythingRoom)
  | .oneOf negated ranges => classRoom negated ranges
  | .alternatives branches =>
    if areVacant branches then 0
    else forkRoom (branchCount branches) (branchesRoom o branches)

/-- Room for a sequence of tokens. -/
def tokensRoom (o : Options) : List Token → Nat
  | [] => 0
  | t :: rest => t.room o + tokensRoom o rest

/-- Room for several branches. -/
def branchesRoom (o : Options) : List (List Token) → Nat
  | [] => 0
  | branch :: rest => tokensRoom o branch + branchesRoom o rest

end

/-! ## §3 Globs -/

/-- Room for a glob: with its tokens go the marks for beginning and end, two states
that note where it matched, and one that tells that it did. -/
def room (g : Glob) : Nat :=
  let body := match g.tokens with
    | [.leadingDirectories] => anythingRoom
    | tokens => tokensRoom g.options tokens
  5 * stateRoom + body

/-- Room for the globs of a list together. -/
def totalRoom : List Glob → Nat
  | [] => 0
  | g :: rest => g.room + totalRoom rest

/-- Whether the machine for several globs is too large. -/
def areTooLarge (globs : List Glob) : Bool :=
  roomLimit < stateRoom + forkRoom globs.length (totalRoom globs)

end MarkerBlock.Glob
