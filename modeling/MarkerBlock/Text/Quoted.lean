/-
MarkerBlock.Text.Quoted — a character in single quotes, safe to print.

NUL, tab, line feed, carriage return, the backslash and the single quote are
written as two-character escapes.  Other characters that cannot be seen by
themselves, because they extend their neighbour or have no visible form, are
written as their code point.
-/
import MarkerBlock.Text.CharSet.Tables

namespace MarkerBlock.Text.Quoted

/-- The two-character escape of a character, if it has one: the letter after
the backslash. -/
def escapeLetter? (c : Char) : Option Char :=
  if c = '\x00' then some '0'
  else if c = '\t' then some 't'
  else if c = '\n' then some 'n'
  else if c = '\r' then some 'r'
  else if c = '\x27' then some c
  else if c = '\x5c' then some c
  else none

/-- The escape that gives the code point in hexadecimal digits. -/
def codePointEscape (c : Char) : List Char :=
  ['\x5c', 'u', '\x7b'] ++ Nat.toDigits 16 c.toNat ++ ['\x7d']

/-- Whether a character can be seen by itself. -/
def isVisible (c : Char) : Bool :=
  !CharSet.unprintable.contains c && !CharSet.fillers.contains c &&
    (!CharSet.graphemeExtend.contains c || CharSet.voiceMarks.contains c)

/-- A character, escaped where it could not be read. -/
def escape (c : Char) : List Char :=
  match escapeLetter? c with
  | some letter => ['\x5c', letter]
  | none => if isVisible c then [c] else codePointEscape c

/-- A character in single quotes. -/
def char (c : Char) : String := String.ofList (['\x27'] ++ escape c ++ ['\x27'])

end MarkerBlock.Text.Quoted
