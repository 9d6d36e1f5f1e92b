/-
MarkerBlock.Ignore.Rule — the lines of an ignore file.

A line is a glob with some marks around it.  A `!` in front turns the rule
round: what it matches is kept.  A slash in front, or anywhere but at the end,
ties the glob to the whole path; without one it may match at any depth.  A slash
at the end restricts the rule to directories.  A backslash before a `!` or `#`
in front makes that a character.
-/
import MarkerBlock.Glob.Matching
import MarkerBlock.Path
import MarkerBlock.Text.Lines

namespace MarkerBlock.Ignore

/-- One rule. -/
structure Rule where
  glob : Glob
  /-- What the rule matches is kept, not ignored. -/
  keeps : Bool
  directoriesOnly : Bool
deriving Repr

/-- How the globs of rules are read: stars stay within a name, and an unclosed
bracket is a character. -/
def Rule.globOptions : Glob.Options := { literalSlash := true, unclosedClass := true }

/-- A line without white space at its end; a space behind a backslash stays. -/
def trimLine (line : List Char) : List Char :=
  if ['\x5c', ' '].isSuffixOf line then line else Text.trimRight line

/-- The marks of a line, and the glob between them. -/
structure Marks where
  keeps : Bool
  anchored : Bool
  directoriesOnly : Bool
  glob : List Char
deriving Repr, DecidableEq

/-- Take the marks in front off a line. -/
def frontMarks (line : List Char) : Marks :=
  if ['\x5c', '!'].isPrefixOf line || ['\x5c', '#'].isPrefixOf line then
    { keeps := false, anchored := false, directoriesOnly := false, glob := line.drop 1 }
  else
    let keeps := line.head? == some '!'
    let line := if keeps then line.drop 1 else line
    let anchored := line.head? == some '/'
    { keeps, anchored, directoriesOnly := false, glob := if anchored then line.drop 1 else line }

/-- Take the slash at the end off, with a backslash before it. -/
def endMark (marks : Marks) : Marks :=
  if marks.glob.getLast? = some '/' then
    let glob := marks.glob.dropLast
    { marks with
      directoriesOnly := true
      glob := if glob.getLast? = some '\x5c' then glob.dropLast else glob }
  else marks

/-- The glob a rule is matched by: it may match at any depth unless it is tied to
the whole path, and `**` at its end means everything inside. -/
def Marks.fullGlob (marks : Marks) : List Char :=
  let anywhere := ['*', '*', '/']
  let glob :=
    if marks.anchored || marks.glob.contains '/' || anywhere.isPrefixOf marks.glob
        || marks.glob = ['*', '*'] then marks.glob
    else anywhere ++ marks.glob
  if ['/', '*', '*'].isSuffixOf glob then glob ++ ['/', '*'] else glob

/-- Read a line; none if it holds no rule.  An error names the line as it was
trimmed. -/
def Rule.ofLine? (line : List Char) : Except Glob.Error (Option Rule) :=
  if line.head? = some '#' then .ok none
  else
    let trimmed := trimLine line
    if trimmed.isEmpty then .ok none
    else
      let marks := endMark (frontMarks trimmed)
      match Glob.parse globOptions marks.fullGlob with
      | .error e => .error { e with glob := trimmed }
      | .ok glob =>
        .ok (some { glob, keeps := marks.keeps, directoriesOnly := marks.directoriesOnly })

/-- Whether a rule speaks about a path. -/
def Rule.appliesTo (rule : Rule) (isDirectory : Bool) (path : Path) : Bool :=
  (isDirectory || !rule.directoriesOnly) && rule.glob.accepts path.text

/-- The last rule that speaks about a path. -/
def lastRule? (rules : List Rule) (isDirectory : Bool) (path : Path) : Option Rule :=
  rules.reverse.find? (·.appliesTo isDirectory path)

/-- The rule that decides about a file: the last that speaks about the file, or
else the last about the nearest directory above it that one speaks about. -/
def decidingRule? (rules : List Rule) (path : Path) : Option Rule :=
  (lastRule? rules false path).or
    ((path.ancestors.drop 1).findSome? (lastRule? rules true))

end MarkerBlock.Ignore
