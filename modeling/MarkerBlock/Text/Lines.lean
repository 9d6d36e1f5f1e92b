/-
MarkerBlock.Text.Lines — lines of a text file, and white space around text.

`lines` cuts at line feeds and drops the ends; `endedLines` also cuts at a
carriage return that stands alone, and keeps the ends, so that its pieces put
together are the text.
-/
import MarkerBlock.Text.CharSet.Tables
import MarkerBlock.Text.Split

namespace MarkerBlock.Text

/-- A line that a line feed ended, without the carriage return before it. -/
def dropReturn (line : List Char) : List Char :=
  if line.getLast? = some '\r' then line.dropLast else line

/-- The lines of a text, without line ends.  A text that ends in a line feed has
no further line after it. -/
def lines (text : List Char) : List (List Char) :=
  match (split '\n' text).reverse with
  | [] => []
  | last :: ended =>
    (ended.map dropReturn).reverse ++ if last.isEmpty then [] else [last]

/-- Put one character in front of a list of lines with their ends. -/
def consLine (c : Char) (lines : List (List Char)) : List (List Char) :=
  if c = '\n' then [c] :: lines
  else
    match lines with
    | [] => [[c]]
    | line :: rest =>
      if c = '\r' then if line = ['\n'] then (c :: line) :: rest else [c] :: line :: rest
      else (c :: line) :: rest

/-- The lines of a text with their ends: a line feed, a carriage return, or a
carriage return and a line feed. -/
def endedLines (text : List Char) : List (List Char) := text.foldr consLine []

/-- Text without white space at its end. -/
def trimRight (text : List Char) : List Char :=
  (text.reverse.dropWhile CharSet.whiteSpace.contains).reverse

/-- Text without white space at either end. -/
def trim (text : List Char) : List Char :=
  trimRight (text.dropWhile CharSet.whiteSpace.contains)

end MarkerBlock.Text
