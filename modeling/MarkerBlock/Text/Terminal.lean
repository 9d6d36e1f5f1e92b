/-
MarkerBlock.Text.Terminal — text that a terminal only shows.

A terminal acts on some control characters: it erases, sounds the bell, or takes
what follows for a command.  `shown` writes these characters out, and all others
as they are.
-/
import MarkerBlock.Text.Quoted

namespace MarkerBlock.Text

/-- The control characters of ASCII that are written out. -/
def terminalControls : List Char := ['\x07', '\x08', '\x0c', '\x1b', '\x7f']

/-- Whether a character is one of the control characters above ASCII. -/
def isHighControl (c : Char) : Bool := 0x80 ≤ c.toNat && c.toNat ≤ 0x9F

/-- A character that a terminal may act on, written out; any other as it is. -/
def shownChar (c : Char) : List Char :=
  if isHighControl c then Quoted.codePointEscape c
  else if terminalControls.contains c then
    ['\x5c', 'x', Nat.digitChar (c.toNat / 16), Nat.digitChar (c.toNat % 16)]
  else [c]

/-- A text in which nothing makes a terminal act. -/
def shown (text : String) : String := String.ofList (text.toList.flatMap shownChar)

end MarkerBlock.Text
