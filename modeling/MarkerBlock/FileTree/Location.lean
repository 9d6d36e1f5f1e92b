/-
MarkerBlock.FileTree.Location — what a path leads to.

A path is followed segment by segment with a cursor, which stands in a directory
and knows the way back.  Links are followed; `..` means the directory that the
one reached lies in, not the text without its last name.  A path that passes more
than forty links, or whose text is too long, leads nowhere.
-/
import MarkerBlock.FileTree.Basic

namespace MarkerBlock

/-! ## §1 Refusals -/

/-- Why the file system refused. -/
inductive FileError where
  | notFound
  | notDirectory
  | isDirectory
  | nameTooLong
  | tooManyLinks
  /-- The path holds a NUL character. -/
  | nulInPath
  /-- The file is not UTF-8 text. -/
  | notUtf8
deriving Repr, DecidableEq

/-- Wording of a refusal. -/
def FileError.message : FileError → String
  | .notFound => "No such file or directory (os error 2)"
  | .notDirectory => "Not a directory (os error 20)"
  | .isDirectory => "Is a directory (os error 21)"
  | .nameTooLong => "File name too long (os error 36)"
  | .tooManyLinks => "Too many levels of symbolic links (os error 40)"
  | .nulInPath => "file name contained an unexpected NUL byte"
  | .notUtf8 => "stream did not contain valid UTF-8"

/-- A path that was refused, and why. -/
structure PathError where
  path : Path
  error : FileError
deriving Repr, DecidableEq

/-! ## §2 Cursors -/

/-- A cursor stands in a directory. -/
structure Cursor where
  /-- What the directory holds. -/
  entries : Entries
  /-- The directories above, nearest first: the name under which the way goes on,
  and what else is there. -/
  above : List (List Char × Entries)

namespace Cursor

/-- Where a cursor stands. -/
def place (c : Cursor) : Place := (c.above.map Prod.fst).reverse

/-- A cursor in the directory above; the root lies in itself. -/
def up (c : Cursor) : Cursor :=
  match c.above with
  | [] => c
  | (_, entries) :: above => ⟨entries, above⟩

/-- A cursor in the directory under a name. -/
def enter (c : Cursor) (name : List Char) (inner : Entries) : Cursor :=
  ⟨inner, (name, c.entries) :: c.above⟩

/-- A cursor in the directory at a place below. -/
def down? : Place → Cursor → Option Cursor
  | [], c => some c
  | name :: rest, c =>
    match Entries.get? c.entries name with
    | some (.directory inner) => down? rest (c.enter name inner)
    | _ => none

end Cursor

/-! ## §3 Following a path -/

namespace FileTree

/-- A cursor at the root. -/
def cursor (t : FileTree) : Cursor := ⟨t.entries, []⟩

/-- What a path leads to. -/
inductive Location where
  | found (place : Place) (node : Node)
  /-- Nothing is there, but the directory it would be in is. -/
  | vacant (place : Place)
deriving Repr

/-- How many links one path may pass. -/
def linkLimit : Nat := 40

/-- How long a name may be, in octets. -/
def nameLimit : Nat := 255

/-- How long the text of a path may be, in octets. -/
def pathLimit : Nat := 4095

/-- Number of octets of a text. -/
def octetLength : List Char → Nat
  | [] => 0
  | c :: rest => c.utf8Size + octetLength rest

/-- What is wrong with the text of a path, if anything is. -/
def textFault? (p : Path) : Option FileError :=
  if p.text.contains '\x00' then some .nulInPath
  else if p.text.isEmpty then some .notFound
  else if pathLimit < octetLength p.text then some .nameTooLong
  else none

/-- What a path is followed for. -/
inductive Purpose where
  /-- To look at what is there; a link at the end is itself meant. -/
  | seeLink
  /-- To look at what is there, links followed. -/
  | see
  /-- To write a file, which may have to be created.  A name with a slash after it
  can only be a directory's. -/
  | write
deriving Repr, DecidableEq

/-- Follow `segments` from where a cursor stands.  `links` bounds the links still
to be passed. -/
def walk (t : FileTree) (purpose : Purpose) (links : Nat) (c : Cursor)
    (segments : List (List Char)) : Except FileError Location :=
  match segments with
  | [] => .ok (.found c.place (.directory c.entries))
  | segment :: rest =>
    if Path.isBlank segment then walk t purpose links c rest
    else if segment = ['.', '.'] then walk t purpose links c.up rest
    else if purpose = .write && !rest.isEmpty && rest.all List.isEmpty then .error .isDirectory
    else if nameLimit < octetLength segment then .error .nameTooLong
    else
      match Entries.get? c.entries segment with
      | none => if rest.isEmpty then .ok (.vacant (c.place ++ [segment])) else .error .notFound
      | some (.directory inner) => walk t purpose links (c.enter segment inner) rest
      | some (.file octets) =>
        if rest.isEmpty then .ok (.found (c.place ++ [segment]) (.file octets))
        else .error .notDirectory
      | some (.link target) =>
        if rest.isEmpty && purpose = .seeLink then
          .ok (.found (c.place ++ [segment]) (.link target))
        else
          match links with
          | 0 => .error .tooManyLinks
          | links + 1 =>
            walk t purpose links (if target.isAbsolute then t.cursor else c)
              (target.segments ++ rest)
termination_by (links, segments.length)

/-- What the path `p` leads to, seen from the directory `cwd`. -/
def locate (t : FileTree) (cwd : Place) (purpose : Purpose) (p : Path) :
    Except FileError Location :=
  match textFault? p, if p.isAbsolute then some t.cursor else t.cursor.down? cwd with
  | some e, _ => .error e
  | none, none => .error .notFound
  | none, some c => t.walk purpose linkLimit c p.segments

/-- The place and node a path leads to. -/
def find (t : FileTree) (cwd : Place) (purpose : Purpose) (p : Path) :
    Except FileError (Place × Node) :=
  match t.locate cwd purpose p with
  | .ok (.found place node) => .ok (place, node)
  | .ok (.vacant _) => .error .notFound
  | .error e => .error e

end FileTree

end MarkerBlock
