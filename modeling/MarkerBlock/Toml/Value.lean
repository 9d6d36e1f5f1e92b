/-
MarkerBlock.Toml.Value — TOML values, and tables that grow.

A table remembers how it came about, since that decides what may still be put
into it: a table in braces is complete; one that a header opened may not be
opened again; one that only lies on the way to another may be; one that dotted
keys made may be extended by dotted keys only.
-/
import MarkerBlock.Toml.Scalar
import MarkerBlock.Toml.Text

namespace MarkerBlock.Toml

/-! ## §1 Values -/

/-- How a table came about. -/
inductive Form where
  /-- It lies on the way to a table that a header opened. -/
  | implicit
  /-- A header opened it. -/
  | header
  /-- It lies on the way to a value that a dotted key set. -/
  | dotted
  /-- It was written in braces. -/
  | inline
deriving Repr, DecidableEq

/-- A value. -/
inductive Value where
  | string (text : List Char)
  | scalar (sort : Scalar)
  | array (items : List Value)
  /-- An array of tables made by headers: the last table, which may still grow, and
  those before it, newest first. -/
  | tables (last : List (List Char × Value)) (before : List Value)
  | table (form : Form) (members : List (List Char × Value))
deriving Repr

/-- The members of a table, in order. -/
abbrev Members := List (List Char × Value)

mutual

/-- Whether every number in a value fits. -/
def Value.fits : Value → Bool
  | .string _ => true
  | .scalar sort => sort != .excessive
  | .array items => itemsFit items
  | .tables last before => membersFit last && itemsFit before
  | .table _ members => membersFit members

/-- Whether every number in several values fits. -/
def itemsFit : List Value → Bool
  | [] => true
  | item :: rest => item.fits && itemsFit rest

/-- Whether every number among the members of a table fits. -/
def membersFit : List (List Char × Value) → Bool
  | [] => true
  | (_, value) :: rest => value.fits && membersFit rest

end

/-- The value of a key. -/
def Members.get? (members : Members) (key : List Char) : Option Value :=
  (members.find? fun m => m.1 == key).map Prod.snd

/-- The members with a value set. -/
def Members.set (key : List Char) (value : Value) : Members → Members
  | [] => [(key, value)]
  | m :: rest => if m.1 == key then (key, value) :: rest else m :: Members.set key value rest

/-! ## §2 Growing tables -/

/-- Set the value of a dotted key: of `key` in the table that `path` leads to. -/
def Members.put (key : List Char) (value : Value) : List (List Char) → Members → Option Members
  | [], members =>
    match members.get? key with
    | some _ => none
    | none => some (members.set key value)
  | part :: path, members =>
    match members.get? part with
    | none =>
      (Members.put key value path []).map fun inner => members.set part (.table .dotted inner)
    | some (.table form inner) =>
      if form = .dotted || (form = .implicit && !path.isEmpty) then
        (Members.put key value path inner).map fun inner => members.set part (.table form inner)
      else none
    | some _ => none

/-- Change the table that `path` leads to; tables on the way are made if need be,
and of an array of tables the last is meant. -/
def Members.within (change : Members → Option Members) :
    List (List Char) → Members → Option Members
  | [], members => change members
  | part :: path, members =>
    match members.get? part with
    | none =>
      (Members.within change path []).map fun inner => members.set part (.table .implicit inner)
    | some (.table form inner) =>
      if form = .inline then none
      else
        (Members.within change path inner).map fun inner => members.set part (.table form inner)
    | some (.tables last before) =>
      (Members.within change path last).map fun last => members.set part (.tables last before)
    | some _ => none

/-- Open the table `key`. -/
def Members.openTable (key : List Char) (members : Members) : Option Members :=
  match members.get? key with
  | none => some (members.set key (.table .header []))
  | some (.table .implicit inner) => some (members.set key (.table .header inner))
  | some _ => none

/-- Put a new table at the end of the array of tables `key`. -/
def Members.addTable (key : List Char) (members : Members) : Option Members :=
  match members.get? key with
  | none => some (members.set key (.tables [] []))
  | some (.tables last before) =>
    some (members.set key (.tables [] (.table .header last :: before)))
  | some _ => none

/-! ## §3 Reading values -/

/-- A key and the sign that a value follows; blanks around it are skipped. -/
def assignedKey (cs : List Char) : Option (List (List Char) × List Char) :=
  match key keyLimit cs with
  | some (parts, '=' :: rest) => some (parts, skipBlanks rest)
  | _ => none

/-- Set the value of a dotted key, given in parts. -/
def Members.putParts (parts : List (List Char)) (value : Value) (members : Members) :
    Option Members :=
  match parts.getLast? with
  | some last => members.put last value parts.dropLast
  | none => none

/-- How deep brackets and braces may be nested. -/
def nestingLimit : Nat := 80

mutual

/-- A value.  `levels` bounds how deep brackets and braces may be nested, `fuel` the
number of parts. -/
def value (levels : Nat) : Nat → Reader Value
  | 0, _ => none
  | fuel + 1, cs =>
    match levels, cs with
    | levels + 1, '[' :: rest => items levels fuel [] (skipGap false rest)
    | levels + 1, '\x7b' :: rest => members levels fuel [] (skipGap false rest)
    | _, '"' :: _ => (string cs).map fun (text, rest) => (.string text, rest)
    | _, '\x27' :: _ => (string cs).map fun (text, rest) => (.string text, rest)
    | _, _ => (scalar cs).map fun (sort, rest) => (.scalar sort, rest)

/-- The rest of an array; `read` holds the items before, newest first. -/
def items (levels : Nat) : Nat → List Value → Reader Value
  | 0, _, _ => none
  | fuel + 1, read, cs =>
    match cs with
    | ']' :: rest => some (.array read.reverse, rest)
    | _ =>
      match value levels fuel cs with
      | none => none
      | some (item, rest) =>
        match skipGap false rest with
        | ',' :: rest => items levels fuel (item :: read) (skipGap false rest)
        | ']' :: rest => some (.array (item :: read).reverse, rest)
        | _ => none

/-- The rest of a table in braces; `read` holds the members before. -/
def members (levels : Nat) : Nat → Members → Reader Value
  | 0, _, _ => none
  | fuel + 1, read, cs =>
    match cs with
    | '\x7d' :: rest => some (.table .inline read, rest)
    | _ =>
      match assignedKey cs with
      | none => none
      | some (parts, rest) =>
        match value levels fuel rest with
        | none => none
        | some (item, rest) =>
          match read.putParts parts item with
          | none => none
          | some read =>
            match skipGap false rest with
            | ',' :: rest => members levels fuel read (skipGap false rest)
            | '\x7d' :: rest => some (.table .inline read, rest)
            | _ => none

end

end MarkerBlock.Toml
