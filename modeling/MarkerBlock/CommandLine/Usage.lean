/-
MarkerBlock.CommandLine.Usage — what the program says about itself.

`helpLines` is printed when help is asked for, `Refusal.lines` when the arguments
are not carried out.
-/
import MarkerBlock.CommandLine.Arguments
import MarkerBlock.Console

namespace MarkerBlock

/-- What the program prints when it is asked for its version. -/
def versionLine : String := "crtdebug 0.1.0"

/-- How the program is called. -/
def usageLine : String := "Usage: crtdebug [OPTIONS] <PATTERNS>..."

/-- An option as help shows it: how it is written, and what it does. -/
def optionHelp : List (String × String) :=
  [("    --config <FILE>", "Read settings from this file instead of .crtdebug.toml"),
   ("    --no-config", "Use the standard settings even if there is a settings file"),
   ("    --modify", "Insert the block into files that lack it; without this, only report them"),
   ("    --show-diff", "Show what would be inserted as a diff"),
   ("-o, --save-diff <FILE>", "Save what would be inserted as a diff"),
   ("-i, --ignore <IGNORE>", "Leave out paths that match a glob (repeatable)"),
   ("    --exclude-path <TEXT>", "Leave out paths that contain this text (repeatable)"),
   ("    --include-ext <EXT>", "Work only on files with this extension (repeatable)"),
   ("    --exclude-ext <EXT>", "Leave out files with this extension (repeatable)"),
   ("    --marker <TEXT>", "The marker whose presence means that a file has the block"),
   ("-v, --verbose...", "Say more"),
   ("-q, --quiet", "Say nothing but errors and the paths of files that lack the block"),
   ("    --colors [<WHEN>]", "When to use colors: auto, never or always"),
   ("    --report-json <OUTPUT>", "Write a report as JSON"),
   ("    --report-csv <OUTPUT>", "Write a report as CSV"),
   ("-h, --help", "Print help"),
   ("-V, --version", "Print version")]

/-- What the program prints when it is asked for help. -/
def helpLines : List String :=
  versionLine :: "" :: usageLine :: "" :: "Options:" ::
    optionHelp.flatMap fun (option, purpose) => ["  " ++ option, "          " ++ purpose]

namespace Arguments

/-- Wording of a refusal. -/
def Refusal.message : Refusal → String
  | .unknownArgument => "unexpected argument found"
  | .invalidValue => "an option has no value, or one it cannot have"
  | .tooManyValues => "an option that takes no value was given one"
  | .conflict => "options were given that cannot be used together, or one of them twice"
  | .noPatterns => "the following required arguments were not provided: <PATTERNS>..."
  | .help => "help was asked for"
  | .version => "the version was asked for"

/-- What the program prints in place of a run: answers as output, refusals as
errors. -/
def Refusal.lines : Refusal → List Line
  | .help => helpLines.map (⟨.out, ·⟩)
  | .version => [⟨.out, versionLine⟩]
  | refusal =>
    [s!"error: {refusal.message}", "", usageLine, "", "For more information, try '--help'."].map
      (⟨.err, ·⟩)

end Arguments

end MarkerBlock
