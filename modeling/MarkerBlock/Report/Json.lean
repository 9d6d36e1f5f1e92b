/-
MarkerBlock.Report.Json — reports as a JSON document.

The document is an object with the files and the summary.  It is written over
several lines, indented by two blanks a level; members are in the order of their
names.
-/
import MarkerBlock.Report.Basic

namespace MarkerBlock.Report.Json

/-! ## §1 JSON -/

/-- A JSON value; a number is given by its text. -/
inductive Value where
  | null
  | bool (b : Bool)
  | number (text : String)
  | string (text : List Char)
  | array (items : List Value)
  | object (members : List (String × Value))
deriving Repr

/-- The escape of a control character: its code in four hexadecimal digits. -/
def codeEscape (c : Char) : List Char :=
  let digits := Nat.toDigits 16 c.toNat
  ['\x5c', 'u'] ++ List.replicate (4 - digits.length) '0' ++ digits

/-- A character as it stands in a string. -/
def escape (c : Char) : List Char :=
  if c = '"' then ['\x5c', '"']
  else if c = '\x5c' then ['\x5c', '\x5c']
  else if c = '\x08' then ['\x5c', 'b']
  else if c = '\t' then ['\x5c', 't']
  else if c = '\n' then ['\x5c', 'n']
  else if c = '\x0c' then ['\x5c', 'f']
  else if c = '\r' then ['\x5c', 'r']
  else if c.toNat < 0x20 then codeEscape c
  else [c]

/-- Text as a string. -/
def quote (text : List Char) : List Char := '"' :: text.flatMap escape ++ ['"']

/-- A line end and the indentation of a level. -/
def newLine (level : Nat) : List Char := '\n' :: List.replicate (2 * level) ' '

/-- Items between brackets, one a line, at a level. -/
def bracketed (opening closing : Char) (level : Nat) (items : List (List Char)) : List Char :=
  if items.isEmpty then [opening, closing]
  else
    opening :: List.intercalate [','] (items.map (newLine (level + 1) ++ ·)) ++
      newLine level ++ [closing]

mutual

/-- Text of a value at a level. -/
def Value.render (level : Nat) : Value → List Char
  | .null => "null".toList
  | .bool b => (toString b).toList
  | .number text => text.toList
  | .string text => quote text
  | .array items => bracketed '[' ']' level (renderItems (level + 1) items)
  | .object members => bracketed '\x7b' '\x7d' level (renderMembers (level + 1) members)

/-- Texts of the items of an array. -/
def renderItems (level : Nat) : List Value → List (List Char)
  | [] => []
  | item :: rest => item.render level :: renderItems level rest

/-- Texts of the members of an object. -/
def renderMembers (level : Nat) : List (String × Value) → List (List Char)
  | [] => []
  | (name, value) :: rest =>
    (quote name.toList ++ ':' :: ' ' :: value.render level) :: renderMembers level rest

end

/-! ## §2 The document -/

/-- A count as a value. -/
def count (n : Nat) : Value := .number (toString n)

/-- What is said about a file. -/
def ofFile (page : CodePage) (r : FileReport) : Value :=
  .object <|
    [("action", .string r.action.key.toList),
     ("encoding", match r.encoding with
       | some e => .string (e.displayName page).toList
       | none => .null),
     ("has_marker", .bool r.hasMarker),
     ("path", .string r.path.text)] ++
    match r.reason with
    | some reason => [("reason", .string reason.toList)]
    | none => []

/-- What is said about all files. -/
def ofSummary (s : Summary) : Value :=
  .object <|
    [("blocks_inserted", count s.inserted),
     ("files_failed", count s.failed),
     ("files_ignored", count s.ignored),
     ("files_missing_marker", count s.missing),
     ("files_with_marker", count s.withMarker),
     ("processing_time_seconds", .number (Decimal.shortest s.seconds))] ++
    (match s.timestamp with
      | some t => [("timestamp", .number (toString t))]
      | none => []) ++
    [("total_files", count s.total)]

/-- The whole document. -/
def render (page : CodePage) (reports : List FileReport) (s : Summary) : List Char :=
  (Value.object [("files", .array (reports.map (ofFile page))), ("summary", ofSummary s)]).render 0

end MarkerBlock.Report.Json
