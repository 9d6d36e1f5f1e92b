/-
MarkerBlock.CommandLine.Arguments — reading the arguments of the program.

Options have a long name and perhaps a letter.  Letters may stand together; the
value of an option follows after an equals sign, directly after its letter, or
as the next argument.  After a lone `--` everything is a pattern.

An option that waits for its value is settled when the next option comes or the
arguments end.  Only then does it count as given twice, or its value as bad; an
option nobody knows is refused before that.  What may not stand together is
checked at the end, and that there are patterns last of all.
-/
namespace MarkerBlock

/-! ## §1 Arguments -/

/-- When to show styles. -/
inductive Colors where
  /-- Where the stream is a terminal. -/
  | auto
  | never
  | always
deriving Repr, DecidableEq

/-- How a choice of colors is written. -/
def Colors.name : Colors → String
  | .auto => "auto"
  | .never => "never"
  | .always => "always"

/-- The choice a text names. -/
def Colors.ofText? (text : String) : Option Colors :=
  [Colors.auto, .never, .always].find? fun c => c.name == text

/-- What the program was asked to do. -/
structure Arguments where
  patterns : List String := []
  config : Option String := none
  noConfig : Bool := false
  dryRun : Bool := false
  modify : Bool := false
  showDiff : Bool := false
  saveDiff : Option String := none
  ignore : List String := []
  excludePath : List String := []
  includeExt : List String := []
  excludeExt : List String := []
  marker : Option String := none
  verbosity : Nat := 0
  quiet : Bool := false
  colors : Option Colors := none
  reportJson : Option String := none
  reportCsv : Option String := none
deriving Repr, DecidableEq

namespace Arguments

/-! ## §2 Options -/

/-- Options that are on or off. -/
inductive Flag where
  | noConfig
  | dryRun
  | modify
  | showDiff
  | quiet
deriving Repr, DecidableEq

/-- Options with one value. -/
inductive Single where
  | config
  | saveDiff
  | marker
  | reportJson
  | reportCsv
deriving Repr, DecidableEq

/-- Options that may be given several times, with a value each. -/
inductive Repeated where
  | ignore
  | excludePath
  | includeExt
  | excludeExt
deriving Repr, DecidableEq

/-- An option. -/
inductive Switch where
  | flag (f : Flag)
  | single (s : Single)
  | repeated (r : Repeated)
  /-- Its value may be left out. -/
  | colors
  | verbose
  | help
  | version
deriving Repr, DecidableEq

/-- The long names of options. -/
def longNames : List (String × Switch) :=
  [("config", .single .config), ("no-config", .flag .noConfig), ("dry-run", .flag .dryRun),
   ("modify", .flag .modify), ("show-diff", .flag .showDiff), ("save-diff", .single .saveDiff),
   ("ignore", .repeated .ignore), ("exclude-path", .repeated .excludePath),
   ("include-ext", .repeated .includeExt), ("exclude-ext", .repeated .excludeExt),
   ("marker", .single .marker), ("verbose", .verbose), ("quiet", .flag .quiet),
   ("colors", .colors), ("report-json", .single .reportJson), ("report-csv", .single .reportCsv),
   ("help", .help), ("version", .version)]

/-- The letters of options. -/
def letters : List (Char × Switch) :=
  [('o', .single .saveDiff), ('i', .repeated .ignore), ('v', .verbose), ('q', .flag .quiet),
   ('h', .help), ('V', .version)]

/-- The option with a long name. -/
def ofLong? (name : String) : Option Switch :=
  (longNames.find? fun entry => entry.1 == name).map Prod.snd

/-- The option with a letter. -/
def ofLetter? (letter : Char) : Option Switch :=
  (letters.find? fun entry => entry.1 == letter).map Prod.snd

/-- Whether an option takes a value. -/
def Switch.takesValue : Switch → Bool
  | .single _ | .repeated _ | .colors => true
  | _ => false

/-! ## §3 Refusals -/

/-- Why the arguments are not carried out. -/
inductive Refusal where
  | unknownArgument
  /-- A value is missing or bad. -/
  | invalidValue
  /-- An option that takes no value was given one. -/
  | tooManyValues
  /-- Options that exclude each other, or one that was given twice. -/
  | conflict
  /-- There are no patterns. -/
  | noPatterns
  /-- Help was asked for. -/
  | help
  /-- The version was asked for. -/
  | version
deriving Repr, DecidableEq

/-- The status the program ends with. -/
def Refusal.exitCode : Refusal → Nat
  | .help | .version => 0
  | _ => 2

/-! ## §4 Settling options -/

/-- Whether a flag is set. -/
def isSet (a : Arguments) : Flag → Bool
  | .noConfig => a.noConfig
  | .dryRun => a.dryRun
  | .modify => a.modify
  | .showDiff => a.showDiff
  | .quiet => a.quiet

/-- Set a flag. -/
def setFlag (a : Arguments) : Flag → Arguments
  | .noConfig => { a with noConfig := true }
  | .dryRun => { a with dryRun := true }
  | .modify => { a with modify := true }
  | .showDiff => { a with showDiff := true }
  | .quiet => { a with quiet := true }

/-- The value of an option with one value. -/
def valueOf (a : Arguments) : Single → Option String
  | .config => a.config
  | .saveDiff => a.saveDiff
  | .marker => a.marker
  | .reportJson => a.reportJson
  | .reportCsv => a.reportCsv

/-- Set the value of an option with one value. -/
def setValue (a : Arguments) (value : String) : Single → Arguments
  | .config => { a with config := some value }
  | .saveDiff => { a with saveDiff := some value }
  | .marker => { a with marker := some value }
  | .reportJson => { a with reportJson := some value }
  | .reportCsv => { a with reportCsv := some value }

/-- Add a value to an option with several. -/
def addValue (a : Arguments) (value : String) : Repeated → Arguments
  | .ignore => { a with ignore := a.ignore ++ [value] }
  | .excludePath => { a with excludePath := a.excludePath ++ [value] }
  | .includeExt => { a with includeExt := a.includeExt ++ [value] }
  | .excludeExt => { a with excludeExt := a.excludeExt ++ [value] }

/-- Whether the value of an option may be empty: that of a path may not. -/
def Single.admits (s : Single) (value : String) : Bool := s == .marker || !value.isEmpty

/-- How often the verbosity can be counted up. -/
def maxVerbosity : Nat := 255

/-- Take an option, with its value if it has one, into account. -/
def settle (a : Arguments) (switch : Switch) (value : Option String) :
    Except Refusal Arguments :=
  match switch, value with
  | .flag f, _ => if a.isSet f then .error .conflict else .ok (a.setFlag f)
  | .verbose, _ => .ok { a with verbosity := min (a.verbosity + 1) maxVerbosity }
  | .help, _ => .error .help
  | .version, _ => .error .version
  | .single _, none => .error .invalidValue
  | .single s, some value =>
    if (a.valueOf s).isSome then .error .conflict
    else if s.admits value then .ok (a.setValue value s)
    else .error .invalidValue
  | .repeated _, none => .error .invalidValue
  | .repeated r, some value => .ok (a.addValue value r)
  | .colors, value =>
    if a.colors.isSome then .error .conflict
    else
      match value with
      | none => .ok { a with colors := some .always }
      | some text =>
        match Colors.ofText? text with
        | some c => .ok { a with colors := some c }
        | none => .error .invalidValue

/-! ## §5 Reading -/

/-- The arguments as far as they were read. -/
structure Draft where
  settled : Arguments := {}
  /-- The option read last, if it is not settled, and its value, if it has come. -/
  pending : Option (Switch × Option String) := none
  /-- A lone `--` has been read. -/
  onlyPatterns : Bool := false
deriving Repr, DecidableEq

namespace Draft

/-- Settle the option that is pending. -/
def resolve (d : Draft) : Except Refusal Draft :=
  match d.pending with
  | none => .ok d
  | some (switch, value) =>
    match d.settled.settle switch value with
    | .ok settled => .ok { d with settled, pending := none }
    | .error e => .error e

/-- Settle the option that is pending, and then another. -/
def settle (d : Draft) (switch : Switch) (value : Option String) : Except Refusal Draft :=
  match d.resolve with
  | .error e => .error e
  | .ok d =>
    match d.settled.settle switch value with
    | .ok settled => .ok { d with settled }
    | .error e => .error e

/-- Read an option that takes a value, which may be attached to it. -/
def await (d : Draft) (switch : Switch) (attached : Option String) : Except Refusal Draft :=
  match attached with
  | some value => d.settle switch (some value)
  | none =>
    match d.resolve with
    | .ok d => .ok { d with pending := some (switch, none) }
    | .error e => .error e

/-- Read a pattern. -/
def addPattern (d : Draft) (pattern : String) : Except Refusal Draft :=
  match d.resolve with
  | .ok d =>
    .ok { d with settled := { d.settled with patterns := d.settled.patterns ++ [pattern] } }
  | .error e => .error e

/-- Read an option by its long name, perhaps with a value after an equals sign. -/
def addLong (d : Draft) (text : List Char) : Except Refusal Draft :=
  let name := String.ofList (text.takeWhile (· != '='))
  let attached := match text.dropWhile (· != '=') with
    | [] => none
    | _ :: value => some (String.ofList value)
  match ofLong? name with
  | none => .error .unknownArgument
  | some switch =>
    if switch.takesValue then d.await switch attached
    else if attached.isSome then .error .tooManyValues
    else d.settle switch none

/-- The value that follows directly after a letter; an equals sign may stand
between. -/
def attachedTo (rest : List Char) : Option String :=
  match rest with
  | [] => none
  | '=' :: value => some (String.ofList value)
  | value => some (String.ofList value)

/-- Read options by their letters. -/
def addLetters (d : Draft) : List Char → Except Refusal Draft
  | [] => .ok d
  | letter :: rest =>
    match ofLetter? letter with
    | none => .error .unknownArgument
    | some switch =>
      if switch.takesValue then d.await switch (attachedTo rest)
      else
        match d.settle switch none with
        | .ok d => d.addLetters rest
        | .error e => .error e

/-- Read what is not an option: a value somebody waits for, or a pattern. -/
def addPlain (d : Draft) (text : String) : Except Refusal Draft :=
  match d.pending with
  | some (switch, none) => .ok { d with pending := some (switch, some text) }
  | _ => d.addPattern text

/-- Read one argument. -/
def add (d : Draft) (argument : String) : Except Refusal Draft :=
  if d.onlyPatterns then d.addPattern argument
  else
    match argument.toList with
    | ['-', '-'] => .ok { d with onlyPatterns := true }
    | '-' :: '-' :: name => d.addLong name
    | '-' :: letter :: rest => d.addLetters (letter :: rest)
    | _ => d.addPlain argument

end Draft

/-- Check what can only be said about all arguments together. -/
def check (a : Arguments) : Except Refusal Arguments :=
  if (a.quiet && a.verbosity != 0) || (a.dryRun && a.modify) then .error .conflict
  else if a.patterns.isEmpty then .error .noPatterns
  else .ok a

/-- Read the arguments of the program. -/
def parse (arguments : List String) : Except Refusal Arguments :=
  match arguments.foldlM Draft.add {} with
  | .error e => .error e
  | .ok d =>
    match d.resolve with
    | .error e => .error e
    | .ok d => d.settled.check

end Arguments

end MarkerBlock
