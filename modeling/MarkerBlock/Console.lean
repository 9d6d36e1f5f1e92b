/-
MarkerBlock.Console — what a run prints.

Output is a list of lines, each for one of the two streams.  The functions here
say which lines a piece of news is worth, by mode: a quiet console shows failures
and, bare, the paths of files that lack the block; a verbose one shows every
path and more about each.  Nothing is hidden from the error stream but details.
What a diagnostic quotes cannot make a terminal act.
-/
import MarkerBlock.Remark
import MarkerBlock.Report.Basic
import MarkerBlock.Text.Terminal

namespace MarkerBlock

/-! ## §1 Lines -/

/-- The two streams of a program. -/
inductive Stream where
  | out
  | err
deriving Repr, DecidableEq

/-- A line for a stream. -/
structure Line where
  stream : Stream
  text : String
deriving Repr, DecidableEq

/-- What a stream shows of some lines. -/
def Line.collect (stream : Stream) (lines : List Line) : String :=
  String.join ((lines.filter (·.stream == stream)).map fun line => line.text ++ "\n")

/-! ## §2 Styles -/

/-- A way to set text off. -/
inductive Style where
  | bold
  | dimmed
  | red
  | green
  | yellow
  | cyan
deriving Repr, DecidableEq

/-- The terminal code that begins a style. -/
def Style.startCode : Style → Nat
  | .bold => 1
  | .dimmed => 2
  | .red => 31
  | .green => 32
  | .yellow => 33
  | .cyan => 36

/-- The terminal code that ends a style. -/
def Style.stopCode : Style → Nat
  | .bold | .dimmed => 0
  | _ => 39

/-- Text in a style. -/
def Style.apply (style : Style) (text : String) : String :=
  s!"\x1b[{style.startCode}m{text}\x1b[{style.stopCode}m"

/-! ## §3 Consoles -/

/-- How much a console shows. -/
inductive Mode where
  | normal
  | quiet
  | verbose
deriving Repr, DecidableEq

/-- A console. -/
structure Console where
  mode : Mode := .normal
  /-- Whether styles are shown on the output stream. -/
  styledOut : Bool := false
  /-- Whether styles are shown on the error stream. -/
  styledErr : Bool := false
  /-- The least important diagnostics that are shown. -/
  level : Level := .warn
deriving Repr, DecidableEq

namespace Console

/-- Text in a style, where the stream shows styles. -/
def styled (c : Console) (stream : Stream) (style : Style) (text : String) : String :=
  let shown := match stream with
    | .out => c.styledOut
    | .err => c.styledErr
  if shown then style.apply text else text

/-- Text in a style on the output stream. -/
def onOut (c : Console) (style : Style) (text : String) : String := c.styled .out style text

/-- Lines for the output stream, unless the console is quiet. -/
def say (c : Console) (texts : List String) : List Line :=
  if c.mode = .quiet then [] else texts.map (⟨.out, ·⟩)

/-- Lines for the error stream. -/
def complain (texts : List String) : List Line := texts.map (⟨.err, ·⟩)

/-! ## §4 Remarks -/

/-- The style of a line of a diff. -/
def diffStyle? (line : String) : Option Style :=
  if line.startsWith "+++" || line.startsWith "---" then some .bold
  else if line.startsWith "+" then some .green
  else if line.startsWith "-" then some .red
  else if line.startsWith "@@" then some .cyan
  else none

/-- What is shown of a remark. -/
def remark (c : Console) : Remark → List Line
  | .detail text => if c.mode = .verbose then complain [text] else []
  | .diagnostic level text =>
    if level.rank ≤ c.level.rank then complain [s!"{level.label} {Text.shown text}"] else []
  | .diffLine text =>
    match diffStyle? text with
    | some style => complain [c.styled .err style text]
    | none => complain [text]

/-- What is shown of several remarks. -/
def remarks (c : Console) (rs : List Remark) : List Line := rs.flatMap c.remark

/-! ## §5 News of a run -/

/-- A count of files. -/
def countFiles (n : Nat) : String := if n = 1 then "1 file" else s!"{n} files"

/-- The run begins. -/
def started (c : Console) (count : Nat) (modifies : Bool) : List Line :=
  let activity := if modifies then "Processing" else "Checking"
  c.say [s!"{activity} {countFiles count}..."]

/-- An empty line. -/
def blank (c : Console) : List Line := c.say [""]

/-- Mark of what is as it should be. -/
def tick : String := "✓"

/-- Mark of what is not. -/
def cross : String := "✗"

/-- How many paths a console shows that is not verbose. -/
def listLimit : Nat := 20

/-- Paths under a header. -/
def pathList (c : Console) (header : String) (reports : List FileReport) : List String :=
  let limit := if c.mode = .verbose then reports.length else listLimit
  let more := reports.length - limit
  header :: (reports.take limit).map (fun r => s!"  {r.path}") ++
    if more = 0 then []
    else ["  " ++ c.onOut .dimmed s!"... and {more} more (use -v to see all)"]

/-- Files that lack the block. -/
def missing (c : Console) (reports : List FileReport) (marker : String) : List Line :=
  if reports.isEmpty then []
  else if c.mode = .quiet then reports.map fun r => ⟨.out, toString r.path⟩
  else
    let header := s!"{c.onOut .red cross} {countFiles reports.length} missing the {marker} block:"
    c.say (c.pathList header reports)

/-- Files into which the block was inserted. -/
def inserted (c : Console) (reports : List FileReport) (marker : String) : List Line :=
  if reports.isEmpty then []
  else
    let count := countFiles reports.length
    c.say (c.pathList s!"{c.onOut .green tick} Inserted the {marker} block into {count}:" reports)

/-- A file that could not be worked on, and why. -/
def failure (r : FileReport) : String :=
  let reason := r.reason.getD "unknown error"
  s!"  {r.path}: {reason}"

/-- Files that could not be worked on. -/
def failed (c : Console) (reports : List FileReport) : List Line :=
  if reports.isEmpty then []
  else
    let count := countFiles reports.length
    complain
      (s!"{c.styled .err .red cross} {count} could not be processed:" :: reports.map failure)

/-- A file that needed nothing, and its encoding. -/
def presentDetail (c : Console) (page : CodePage) (r : FileReport) : String :=
  s!"  {c.onOut .green tick} {r.path} ({r.encodingName page})"

/-- A file that was skipped, and why. -/
def skippedDetail (c : Console) (r : FileReport) : String :=
  let dash := c.onOut .dimmed "-"
  let path := c.onOut .dimmed (toString r.path)
  let reason := r.reason.getD "filtered"
  s!"  {dash} {path} (ignored: {reason})"

/-- Files that needed nothing or were skipped, on a verbose console. -/
def details (c : Console) (page : CodePage) (categories : Categories) : List Line :=
  if c.mode = .verbose then
    c.say
      (categories.present.map (c.presentDetail page) ++ categories.ignored.map c.skippedDetail)
  else []

/-- No file lacks the block. -/
def allPresent (c : Console) (marker : String) : List Line :=
  c.say [s!"{c.onOut .green tick} All files have the {marker} block."]

/-- A count, in red if it is a cause for concern and not zero. -/
def concern (c : Console) (n : Nat) : String :=
  c.onOut (if n = 0 then .cyan else .red) (toString n)

/-- The counts of a run. -/
def summary (c : Console) (s : Summary) : List Line :=
  let ok := c.onOut .cyan (toString s.withMarker)
  let missing := c.concern (s.missing - s.inserted)
  let ignored := c.onOut .dimmed (toString s.ignored)
  let counts :=
    s!"Summary: {ok} OK, {missing} missing, {c.concern s.failed} failed, {ignored} ignored"
  let inserted := if s.inserted = 0 then "" else s!", {s.inserted} inserted"
  let time := if c.mode = .verbose then s!" ({Decimal.fixed 2 s.seconds}s)" else ""
  c.say [counts ++ inserted ++ time]

/-- Advice, or news of something done. -/
def note (c : Console) (text : String) : List Line := c.say [c.onOut .yellow text]

end Console

end MarkerBlock
