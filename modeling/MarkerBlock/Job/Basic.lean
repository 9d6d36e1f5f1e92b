/-
MarkerBlock.Job.Basic — what is to be done to every file of a run.

A job says what to insert, which files to leave alone, and whether files are
changed or only examined.  It also says how the encoding of a file is found.  Any
way to do so is a `Detector`: the rules of detection (`Detector.heuristic`) look at
the file, one encoding may be fixed for all (`Detector.fixed`), and a detector may
as well go by the path or by other files.
-/
import MarkerBlock.Diff.Output
import MarkerBlock.Encoding.Detection
import MarkerBlock.Encoding.Message
import MarkerBlock.Filter
import MarkerBlock.Insertion

namespace MarkerBlock

/-! ## §1 Detectors -/

/-- How the encoding of a file is found. -/
structure Detector where
  /-- The encoding of the file at a path, and what is said about it. -/
  detect (page : CodePage) (tree : FileTree) (cwd : Place) (p : Path) : Encoding × List Remark

namespace Detector

/-- Text of a length. -/
def lengthText : Encoding.Length → String
  | .finite n => s!"Finite({n})"
  | .unbounded => "Unbounded"

/-- What is said about lengths that were compared. -/
def lengthRemark (p : Path) (ascii utf8 : Encoding.Length) : Remark :=
  let asciiText := lengthText ascii
  let utf8Text := lengthText utf8
  .diagnostic .trace s!"{p}: character lengths ascii={asciiText} utf8={utf8Text}"

/-- What is said about a file that can be read. -/
def readableRemarks (page : CodePage) (p : Path) (octets : List UInt8) : List Remark :=
  let sample := octets.take Encoding.sampleSize
  if octets.length < Encoding.signatureSize then []
  else
    match Encoding.ofSignature? sample, Encoding.ofNulls? sample with
    | some e, _ =>
      [.diagnostic .trace s!"{p}: byte order mark indicates {e.displayName page}"]
    | none, some e =>
      [.diagnostic .trace s!"{p}: null-byte distribution indicates {e.displayName page}"]
    | none, none =>
      [lengthRemark p (Encoding.length page .ascii octets)
        (Encoding.length page (.utf8 false) octets)]

/-- What is said about a file that cannot be read.  A directory can be opened, but
not read. -/
def unreadableRemarks (p : Path) (e : FileError) : List Remark :=
  let attempt := if e = .isDirectory then "read" else "open"
  [.diagnostic .debug s!"Cannot {attempt} {p} for detection: {e.message}",
   .diagnostic .debug s!"Cannot read {p} as ASCII: {e.message}",
   .diagnostic .debug s!"Cannot read {p} as UTF-8: {e.message}",
   lengthRemark p .unbounded .unbounded]

/-- The rules of detection. -/
def heuristic : Detector where
  detect page tree cwd p :=
    match tree.read cwd p with
    | .ok octets => (Encoding.detectFile page (some octets), readableRemarks page p octets)
    | .error e => (Encoding.detectFile page none, unreadableRemarks p e)

/-- The same encoding for every file. -/
def fixed (e : Encoding) : Detector where
  detect _ _ _ _ := (e, [])

end Detector

/-! ## §2 Jobs -/

/-- What is to be done to every file of a run. -/
structure Job where
  /-- The directory to which filters and ignore files refer. -/
  workspace : Path
  inserter : Inserter
  filter : Filter
  /-- Files are changed; otherwise they are only examined. -/
  modifies : Bool := true
  diffs : Diff.Output := {}
  detector : Detector := .heuristic

/-! ## §3 Failures -/

/-- Why a file could not be worked on. -/
inductive FileFailure where
  | read (path : Path) (e : FileError)
  | write (path : Path) (e : FileError)
  | decode (e : Encoding.DecodeError)
  | encode (e : Encoding.EncodeError)
  | noAnchor (e : Inserter.NoAnchor)
deriving Repr, DecidableEq

/-- Wording of a failure. -/
def FileFailure.message (page : CodePage) : FileFailure → String
  | .read path e => s!"failed to read '{path}': {e.message}"
  | .write path e => s!"failed to write '{path}': {e.message}"
  | .decode e => s!"cannot decode as {e.encoding.displayName page}: {e.message page}"
  | .encode e => s!"cannot encode as {e.encoding.displayName page}: {e.message page}"
  | .noAnchor e => e.message

end MarkerBlock
