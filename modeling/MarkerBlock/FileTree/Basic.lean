/-
MarkerBlock.FileTree.Basic — files, directories and symbolic links as a value.

A directory holds nodes under names, so the whole tree is the directory at its
root.  A place is the list of names that leads from the root to a node without
passing a link; the root is the empty list.

* `node?` is what is at a place.
* `set` and `erase` change what is at one place and at no other that does not lie
  below it.
-/
import MarkerBlock.Path

namespace MarkerBlock

/-! ## §1 Nodes -/

/-- What is at a place. -/
inductive Node where
  /-- A directory: what is under each name. -/
  | directory (entries : List (List Char × Node))
  | file (octets : List UInt8)
  | link (target : Path)
deriving Repr

/-- What is in a directory. -/
abbrev Entries := List (List Char × Node)

/-- A place: the names from the root down. -/
abbrev Place := List (List Char)

/-- The path from the root to a place. -/
def Place.path (place : Place) : Path := ⟨'/' :: List.intercalate ['/'] place⟩

/-! ## §2 Entries -/

namespace Entries

/-- What is under a name. -/
def get? (entries : Entries) (name : List Char) : Option Node :=
  (entries.find? fun entry => entry.1 == name).map Prod.snd

/-- What is at a place below. -/
def node? : Place → Entries → Option Node
  | [], entries => some (.directory entries)
  | name :: rest, entries =>
    match get? entries name with
    | some (.directory inner) => node? rest inner
    | some node => if rest.isEmpty then some node else none
    | none => none

/-- The entries with what is under `name` changed; `none` stands for nothing. -/
def alter (name : List Char) (change : Option Node → Option Node) : Entries → Entries
  | [] =>
    match change none with
    | some node => [(name, node)]
    | none => []
  | (key, node) :: rest =>
    if key == name then
      match change (some node) with
      | some node => (key, node) :: rest
      | none => rest
    else (key, node) :: alter name change rest

/-- The entries with what is at a place below changed.  All stays as it is if
something on the way is not a directory. -/
def alterAt (change : Option Node → Option Node) : Place → Entries → Entries
  | [], entries => entries
  | [name], entries => alter name change entries
  | name :: next :: rest, entries =>
    alter name
      (fun node =>
        match node with
        | some (.directory inner) => some (.directory (alterAt change (next :: rest) inner))
        | other => other)
      entries

end Entries

mutual

/-- All that lies below a node that is at `place`. -/
def Node.contents (place : Place) : Node → List (Place × Node)
  | .directory entries => nodesOf place entries
  | _ => []

/-- All entries of the directory at `place`, each before what lies below it. -/
def nodesOf (place : Place) : List (List Char × Node) → List (Place × Node)
  | [] => []
  | (name, node) :: rest =>
    (place ++ [name], node) :: (node.contents (place ++ [name]) ++ nodesOf place rest)

end

/-! ## §3 Trees -/

/-- All that there is, by what the root holds. -/
structure FileTree where
  entries : Entries
deriving Repr

namespace FileTree

/-- The tree that holds nothing but its root. -/
def empty : FileTree := ⟨[]⟩

/-- The node at a place. -/
def node? (t : FileTree) (place : Place) : Option Node := Entries.node? place t.entries

/-- The tree with `node` at `place`, whatever was there.  The directory it lies in
must exist. -/
def set (t : FileTree) (place : Place) (node : Node) : FileTree :=
  ⟨Entries.alterAt (fun _ => some node) place t.entries⟩

/-- The tree without what is at `place`. -/
def erase (t : FileTree) (place : Place) : FileTree :=
  ⟨Entries.alterAt (fun _ => none) place t.entries⟩

/-- All nodes but the root, each with its place. -/
def nodes (t : FileTree) : List (Place × Node) := nodesOf [] t.entries

end FileTree

end MarkerBlock
