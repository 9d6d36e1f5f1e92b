/-
MarkerBlock.Toml.Text — the surface of a TOML document: blanks, comments, line
ends, keys and strings.

A reader takes something off the front of a text.  It gives what it read and
what is left, or nothing if the text does not begin with such a thing.
-/
namespace MarkerBlock.Toml

/-- What reads something off the front of a text. -/
abbrev Reader (α : Type) := List Char → Option (α × List Char)

/-! ## §1 Blanks, comments and line ends -/

/-- White space within a line. -/
def isBlank (c : Char) : Bool := c == ' ' || c == '\t'

/-- A control character that may not stand in a document as it is. -/
def isControl (c : Char) : Bool := (c.toNat < 0x20 && c != '\t') || c == '\x7f'

/-- A text without blanks at its front. -/
def skipBlanks (cs : List Char) : List Char := cs.dropWhile isBlank

/-- A text without a comment at its front, up to the end of the line. -/
def skipComment (cs : List Char) : List Char :=
  match cs with
  | '#' :: rest => rest.dropWhile (!isControl ·)
  | _ => cs

/-- What follows a line end. -/
def afterNewline? : List Char → Option (List Char)
  | '\n' :: rest => some rest
  | '\r' :: '\n' :: rest => some rest
  | _ => none

/-- What follows the rest of a line that has nothing more to say. -/
def afterLine? (cs : List Char) : Option (List Char) :=
  match skipComment (skipBlanks cs) with
  | [] => some []
  | rest => afterNewline? rest

/-- A text without blanks, comments and line ends at its front. -/
def skipGap (inComment : Bool) : List Char → List Char
  | [] => []
  | '\r' :: '\n' :: rest => skipGap false rest
  | c :: rest =>
    if c = '\n' then skipGap false rest
    else if inComment then if isControl c then c :: rest else skipGap true rest
    else if isBlank c then skipGap false rest
    else if c = '#' then skipGap true rest
    else c :: rest

/-- A text without white space and line ends at its front. -/
def skipSpace : List Char → List Char
  | [] => []
  | '\r' :: '\n' :: rest => skipSpace rest
  | c :: rest => if isBlank c || c = '\n' then skipSpace rest else c :: rest

theorem length_skipSpace_le : ∀ cs : List Char, (skipSpace cs).length ≤ cs.length := by
  intro cs
  fun_induction skipSpace cs with
  | case1 => simp
  | case2 rest ih => simp; omega
  | case3 c rest _ _ ih => simp; omega
  | case4 => simp

/-! ## §2 Escapes -/

/-- The value of a hexadecimal digit. -/
def hexValue? (c : Char) : Option Nat :=
  if c.isDigit then some (c.toNat - '0'.toNat)
  else if 'a' ≤ c && c ≤ 'f' then some (c.toNat - 'a'.toNat + 10)
  else if 'A' ≤ c && c ≤ 'F' then some (c.toNat - 'A'.toNat + 10)
  else none

/-- The character whose code point the first `count` digits give. -/
def codePoint? (count : Nat) (cs : List Char) : Option Char :=
  let digits := cs.take count
  if digits.length = count then
    match digits.mapM hexValue? with
    | some values =>
      let n := values.foldl (fun n v => n * 16 + v) 0
      if n.isValidChar then some (Char.ofNat n) else none
    | none => none
  else none

/-- The character of an escape that is a single letter. -/
def escapeOf? (letter : Char) : Option Char :=
  match letter with
  | 'b' => some '\x08'
  | 't' => some '\t'
  | 'n' => some '\n'
  | 'f' => some '\x0c'
  | 'r' => some '\r'
  | 'e' => some '\x1b'
  | '"' => some '"'
  | '\x5c' => some '\x5c'
  | _ => none

/-- Number of digits of an escape that gives a code point. -/
def escapeWidth? (letter : Char) : Option Nat :=
  match letter with
  | 'x' => some 2
  | 'u' => some 4
  | 'U' => some 8
  | _ => none

/-- The character of an escape, and how many characters follow the letter that
introduces it. -/
def escape? (letter : Char) (rest : List Char) : Option (Char × Nat) :=
  match escapeWidth? letter with
  | some width => (codePoint? width rest).map fun c => (c, width)
  | none => (escapeOf? letter).map fun c => (c, 0)

/-! ## §3 Strings -/

/-- The rest of a string in double quotes; `read` holds what was read, newest
first. -/
def basic (read : List Char) : Reader (List Char)
  | [] => none
  | '"' :: rest => some (read.reverse, rest)
  | '\x5c' :: [] => none
  | '\x5c' :: letter :: rest =>
    match escape? letter rest with
    | some (c, width) => basic (c :: read) (rest.drop width)
    | none => none
  | c :: rest => if isControl c then none else basic (c :: read) rest
termination_by cs => cs.length
decreasing_by
  · simp only [List.length_drop, List.length_cons]; omega
  · simp only [List.length_cons]; omega

/-- The rest of a string in single quotes. -/
def literal (cs : List Char) : Option (List Char × List Char) :=
  let text := cs.takeWhile (· != '\x27')
  match cs.dropWhile (· != '\x27') with
  | [] => none
  | _ :: rest => if text.any isControl then none else some (text, rest)

/-- How many quotes a string of several lines may end in, beyond the three that
end it. -/
def extraQuotes : Nat := 2

/-- What follows three quotes that end a string: up to two more quotes are part of
it. -/
def closeMulti (quote : Char) (read rest : List Char) : List Char × List Char :=
  let extra := (rest.take extraQuotes).takeWhile (· == quote)
  ((extra ++ read).reverse, rest.drop extra.length)

/-- The rest of a string between three double quotes.  A backslash at the end of
a line joins what follows the white space after it. -/
def multiBasic (read : List Char) : Reader (List Char)
  | [] => none
  | '"' :: '"' :: '"' :: rest => some (closeMulti '"' read rest)
  | '\x5c' :: [] => none
  | '\x5c' :: letter :: rest =>
    if (afterNewline? (skipBlanks (letter :: rest))).isSome then
      multiBasic read (skipSpace (letter :: rest))
    else
      match escape? letter rest with
      | some (c, width) => multiBasic (c :: read) (rest.drop width)
      | none => none
  | '\r' :: '\n' :: rest => multiBasic ('\n' :: '\r' :: read) rest
  | c :: rest =>
    if isControl c && c != '\n' then none else multiBasic (c :: read) rest
termination_by cs => cs.length
decreasing_by
  · have := length_skipSpace_le (letter :: rest)
    simp only [List.length_cons] at this ⊢; omega
  · simp only [List.length_drop, List.length_cons]; omega
  · simp only [List.length_cons]; omega
  · simp only [List.length_cons]; omega

/-- The rest of a string between three single quotes. -/
def multiLiteral (read : List Char) : Reader (List Char)
  | [] => none
  | '\x27' :: '\x27' :: '\x27' :: rest => some (closeMulti '\x27' read rest)
  | '\r' :: '\n' :: rest => multiLiteral ('\n' :: '\r' :: read) rest
  | c :: rest =>
    if isControl c && c != '\n' then none else multiLiteral (c :: read) rest

/-- A text without the line end that may follow opening quotes. -/
def skipFirstNewline (cs : List Char) : List Char := (afterNewline? cs).getD cs

/-- A string of any sort. -/
def string : Reader (List Char)
  | '"' :: '"' :: '"' :: rest => multiBasic [] (skipFirstNewline rest)
  | '"' :: rest => basic [] rest
  | '\x27' :: '\x27' :: '\x27' :: rest => multiLiteral [] (skipFirstNewline rest)
  | '\x27' :: rest => literal rest
  | _ => none

/-! ## §4 Keys -/

/-- A character of a key without quotes. -/
def isBare (c : Char) : Bool := c.isAlphanum || c == '-' || c == '_'

/-- One part of a key. -/
def simpleKey : Reader (List Char)
  | '"' :: rest => basic [] rest
  | '\x27' :: rest => literal rest
  | cs =>
    match cs.takeWhile isBare with
    | [] => none
    | name => some (name, cs.dropWhile isBare)

/-- How many parts a key may have. -/
def keyLimit : Nat := 80

/-- A key: parts between points, at most `count` of them. -/
def key : Nat → Reader (List (List Char))
  | 0, _ => none
  | count + 1, cs =>
    match simpleKey cs with
    | none => none
    | some (part, rest) =>
      match skipBlanks rest with
      | '.' :: more => (key count (skipBlanks more)).map fun (parts, rest) => (part :: parts, rest)
      | rest => some ([part], rest)

end MarkerBlock.Toml
