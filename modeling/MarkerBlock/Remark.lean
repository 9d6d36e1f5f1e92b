/-
MarkerBlock.Remark — what is said about the work while it is done.

A remark is either a detail, told to a user who asked for more, or a diagnostic
of some level, told to someone who looks into the program.  Functions that have
something to say return their remarks in order; what becomes of them is decided
where output is written.
-/
namespace MarkerBlock

/-- How much a diagnostic matters. -/
inductive Level where
  | error
  | warn
  | debug
  | trace
deriving Repr, DecidableEq

/-- Lower numbers matter more. -/
def Level.rank : Level → Nat
  | .error => 1
  | .warn => 2
  | .debug => 4
  | .trace => 5

/-- The name of a level, right-aligned. -/
def Level.label : Level → String
  | .error => "ERROR"
  | .warn => " WARN"
  | .debug => "DEBUG"
  | .trace => "TRACE"

/-- Something said about the work. -/
inductive Remark where
  | detail (text : String)
  | diagnostic (level : Level) (text : String)
  /-- A line of a diff that is shown. -/
  | diffLine (text : String)
deriving Repr, DecidableEq

end MarkerBlock
