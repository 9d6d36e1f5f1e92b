/-
MarkerBlock.FileTree — looking at files, and changing them.

`read`, `write`, `append`, `entries?` and `remove` are what the library does to
files.  `write` to a path changes the node the path leads to and no other.
-/
import MarkerBlock.FileTree.Location

namespace MarkerBlock.FileTree

/-! ## §1 Questions about a path -/

/-- The node a path leads to, links followed. -/
def stat (t : FileTree) (cwd : Place) (p : Path) : Except FileError Node :=
  (t.find cwd .see p).map Prod.snd

/-- The node at a path itself, a link at the end not followed. -/
def statLink (t : FileTree) (cwd : Place) (p : Path) : Except FileError Node :=
  (t.find cwd .seeLink p).map Prod.snd

/-- Something is there. -/
def isPresent (t : FileTree) (cwd : Place) (p : Path) : Bool := (t.stat cwd p).isOk

/-- A directory, or a link to one, is there. -/
def isDirectory (t : FileTree) (cwd : Place) (p : Path) : Bool :=
  match t.stat cwd p with
  | .ok (.directory _) => true
  | _ => false

/-- A regular file, or a link to one, is there. -/
def isFile (t : FileTree) (cwd : Place) (p : Path) : Bool :=
  match t.stat cwd p with
  | .ok (.file _) => true
  | _ => false

/-! ## §2 Reading and writing -/

/-- The octets of a file. -/
def read (t : FileTree) (cwd : Place) (p : Path) : Except FileError (List UInt8) :=
  match t.stat cwd p with
  | .ok (.file octets) => .ok octets
  | .ok _ => .error .isDirectory
  | .error e => .error e

/-- What is in a directory. -/
def entries? (t : FileTree) (cwd : Place) (p : Path) : Except FileError Entries :=
  match t.find cwd .see p with
  | .ok (_, .directory entries) => .ok entries
  | .ok _ => .error .notDirectory
  | .error e => .error e

/-- Where a file that is to be written lies, and what it holds; new files are
empty. -/
def target (t : FileTree) (cwd : Place) (p : Path) : Except FileError (Place × List UInt8) :=
  match t.locate cwd .write p with
  | .ok (.found place (.file octets)) => .ok (place, octets)
  | .ok (.found _ _) => .error .isDirectory
  | .ok (.vacant place) => .ok (place, [])
  | .error e => .error e

/-- Make `octets` the contents of a file, which is created if need be. -/
def write (t : FileTree) (cwd : Place) (p : Path) (octets : List UInt8) :
    Except FileError FileTree :=
  (t.target cwd p).map fun (place, _) => t.set place (.file octets)

/-- Put `octets` after the contents of a file, which is created if need be. -/
def append (t : FileTree) (cwd : Place) (p : Path) (octets : List UInt8) :
    Except FileError FileTree :=
  (t.target cwd p).map fun (place, before) => t.set place (.file (before ++ octets))

/-- The tree with a directory at a path and at those above it, wherever nothing is
yet.  Links on the way are followed. -/
def makeDirectories (t : FileTree) (cwd : Place) (p : Path) : FileTree :=
  let make (above : Path) (t : FileTree) : FileTree :=
    match t.locate cwd .see above with
    | .ok (.vacant place) => t.set place (.directory [])
    | _ => t
  (Path.ofComponents p.components).ancestors.foldr make t

/-- Remove a file or link. -/
def remove (t : FileTree) (cwd : Place) (p : Path) : Except FileError FileTree :=
  match t.find cwd .seeLink p with
  | .ok (_, .directory _) => .error .isDirectory
  | .ok (place, _) => .ok (t.erase place)
  | .error e => .error e

end MarkerBlock.FileTree
