/-
MarkerBlock.Glob.Expression — the regular expression a glob stands for.

Regular expressions may be nested only so deep: a group, alternatives, a
sequence of several parts, a repetition and a class in brackets is each one level
more.
-/
import MarkerBlock.Glob.Matching

namespace MarkerBlock.Glob

/-! ## §1 The text of the expression -/

/-- The characters that mean something in a regular expression. -/
def metaCharacters : List Char :=
  ['\x5c', '.', '+', '*', '?', '(', ')', '|', '[', ']', '\x7b', '\x7d', '^', '$', '#', '&', '-', '~']

/-- One octet as it is written in an expression. -/
def octetText (b : UInt8) : List Char :=
  let c := Char.ofNat b.toNat
  if b < 0x80 then if metaCharacters.contains c then ['\x5c', c] else [c]
  else ['\x5c', 'x'] ++ Nat.toDigits 16 b.toNat

/-- A character as it is written in an expression, octet by octet. -/
def charText (c : Char) : List Char := (octetsOf c).flatMap octetText

/-- A range as it is written in a class. -/
def rangeText (range : Char × Char) : List Char :=
  if range.1 = range.2 then charText range.1 else charText range.1 ++ '-' :: charText range.2

/-- What `?` is written as. -/
def Options.anyOneText (o : Options) : List Char :=
  if o.literalSlash then ['[', '^', '/', ']'] else ['.']

mutual

/-- A token as it is written in an expression. -/
def Token.expressionText (o : Options) : Token → List Char
  | .literal c => charText c
  | .anyOne => o.anyOneText
  | .anyRun => o.anyOneText ++ ['*']
  | .leadingDirectories => "(?:/?|.*/)".toList
  | .everythingBelow => "/.*".toList
  | .innerDirectories => "(?:/|/.*/)".toList
  | .oneOf negated ranges =>
    '[' :: (if negated then ['^'] else []) ++ ranges.flatMap rangeText ++ [']']
  | .alternatives branches =>
    if areVacant branches then []
    else ['(', '?', ':'] ++ List.intercalate ['|'] (branchTexts o branches) ++ [')']

/-- A sequence of tokens as it is written in an expression. -/
def tokensText (o : Options) : List Token → List Char
  | [] => []
  | t :: rest => t.expressionText o ++ tokensText o rest

/-- The branches that stand for something, as they are written. -/
def branchTexts (o : Options) : List (List Token) → List (List Char)
  | [] => []
  | branch :: rest =>
    if isVacantBranch branch then branchTexts o rest
    else tokensText o branch :: branchTexts o rest

end

/-- The regular expression of a glob. -/
def expressionText (g : Glob) : List Char :=
  let body := match g.tokens with
    | [.leadingDirectories] => ['.', '*']
    | tokens => tokensText g.options tokens
  "(?-u)^".toList ++ body ++ ['$']

/-! ## §2 Nesting -/

/-- How many levels a regular expression may nest. -/
def nestingLimit : Nat := 250

/-- Number of items a range is written as in a class. -/
def rangeItems (range : Char × Char) : Nat :=
  let first := (octetsOf range.1).length
  if range.1 = range.2 then first else first + (octetsOf range.2).length - 1

/-- Number of items a class is written as. -/
def classItems : List (Char × Char) → Nat
  | [] => 0
  | range :: rest => rangeItems range + classItems rest

/-- Number of parts a token is written as. -/
def Token.parts : Token → Nat
  | .literal c => (octetsOf c).length
  | .everythingBelow => 2
  | .alternatives branches => if areVacant branches then 0 else 1
  | _ => 1

/-- Number of parts a sequence of tokens is written as. -/
def partsOf : List Token → Nat
  | [] => 0
  | t :: rest => t.parts + partsOf rest

/-- One level more if there are several of something. -/
def levelIfSeveral (count levels : Nat) : Nat := if 1 < count then levels + 1 else levels

mutual

/-- Number of levels a token nests. -/
def Token.levels (o : Options) : Token → Nat
  | .literal _ => 0
  | .anyOne => if o.literalSlash then 1 else 0
  | .anyRun => if o.literalSlash then 2 else 1
  | .leadingDirectories => 4
  | .everythingBelow => 1
  | .innerDirectories => 4
  | .oneOf _ ranges => levelIfSeveral (classItems ranges) 1
  | .alternatives branches =>
    if areVacant branches then 0
    else levelIfSeveral (branchCount branches) (branchesLevels o branches) + 1

/-- Number of levels the deepest of several tokens nests. -/
def tokensLevels (o : Options) : List Token → Nat
  | [] => 0
  | t :: rest => max (t.levels o) (tokensLevels o rest)

/-- Number of levels the deepest branch nests. -/
def branchesLevels (o : Options) : List (List Token) → Nat
  | [] => 0
  | branch :: rest =>
    max (levelIfSeveral (partsOf branch) (tokensLevels o branch)) (branchesLevels o rest)

/-- Number of branches that stand for something. -/
def branchCount : List (List Token) → Nat
  | [] => 0
  | branch :: rest => (if isVacantBranch branch then 0 else 1) + branchCount rest

end

/-- Number of levels the expression of a glob nests; it is itself one, having
marks for its beginning and its end. -/
def levels (g : Glob) : Nat := tokensLevels g.options g.tokens + 1

/-- Whether a glob nests too deeply. -/
def isTooDeep (g : Glob) : Bool := nestingLimit < g.levels

end MarkerBlock.Glob
