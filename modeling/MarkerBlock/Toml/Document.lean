/-
MarkerBlock.Toml.Document — TOML documents.

A document is a row of statements, one a line: headers, which choose the table
that is spoken of, and keys with values, which belong to the table chosen last.
-/
import MarkerBlock.Toml.Value

namespace MarkerBlock.Toml

/-- A statement. -/
inductive Statement where
  /-- A key, given in parts, has a value. -/
  | assign (parts : List (List Char)) (value : Value)
  /-- What follows belongs to this table. -/
  | openTable (parts : List (List Char))
  /-- What follows belongs to a new table of this array. -/
  | addTable (parts : List (List Char))
deriving Repr

/-- A header, after the brackets that open it. -/
def header (closing : List Char) (cs : List Char) : Option (List (List Char) × List Char) :=
  match key keyLimit (skipBlanks cs) with
  | some (parts, rest) =>
    if closing.isPrefixOf rest then some (parts, rest.drop closing.length) else none
  | none => none

/-- A statement.  `fuel` bounds the parts of its value. -/
def statement (fuel : Nat) (cs : List Char) : Option (Statement × List Char) :=
  match cs with
  | '[' :: '[' :: rest =>
    (header [']', ']'] rest).map fun (parts, rest) => (.addTable parts, rest)
  | '[' :: rest => (header [']'] rest).map fun (parts, rest) => (.openTable parts, rest)
  | _ =>
    match assignedKey cs with
    | none => none
    | some (parts, rest) =>
      (value nestingLimit fuel rest).map fun (v, rest) => (.assign parts v, rest)

/-- The statements of a document, at most `fuel` of them.  Each takes at least one
character, so what is left of `fuel` is enough for the parts of a value. -/
def statements : Nat → List Char → Option (List Statement)
  | 0, _ => none
  | fuel + 1, cs =>
    match skipGap false cs with
    | [] => some []
    | rest =>
      match statement fuel rest with
      | none => none
      | some (s, rest) =>
        match afterLine? rest with
        | none => none
        | some rest => (statements fuel rest).map (s :: ·)

/-- A document as far as it was read: its members, and the table that is spoken
of. -/
structure Draft where
  members : Members := []
  current : List (List Char) := []

/-- Take in a statement. -/
def Draft.add (d : Draft) : Statement → Option Draft
  | .assign parts v =>
    (d.members.within (·.putParts parts v) d.current).map fun members => { d with members }
  | .openTable parts =>
    match parts.getLast? with
    | some last =>
      (d.members.within (·.openTable last) parts.dropLast).map fun members =>
        { members, current := parts }
    | none => none
  | .addTable parts =>
    match parts.getLast? with
    | some last =>
      (d.members.within (·.addTable last) parts.dropLast).map fun members =>
        { members, current := parts }
    | none => none

/-- The byte order mark a document may begin with. -/
def byteOrderMark : Char := '\ufeff'

/-- The members of a document; nothing if it is not well-formed. -/
def parse (text : List Char) : Option Members :=
  let text := if text.head? = some byteOrderMark then text.drop 1 else text
  match statements (text.length + 1) text with
  | none => none
  | some ss => (ss.foldlM Draft.add {}).map Draft.members

end MarkerBlock.Toml
