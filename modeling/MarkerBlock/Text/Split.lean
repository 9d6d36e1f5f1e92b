/-
MarkerBlock.Text.Split — cutting text at a separator, and searching in it.

`split sep` and `List.intercalate [sep]` are inverse to each other on pieces
without the separator; n separators make n + 1 pieces.
-/
namespace MarkerBlock.Text

/-- Put one character in front of a list of pieces. -/
def extendSplit (sep c : Char) : List (List Char) → List (List Char)
  | [] => if c = sep then [[], []] else [[c]]
  | piece :: pieces => if c = sep then [] :: piece :: pieces else (c :: piece) :: pieces

/-- The pieces of a text between separators. -/
def split (sep : Char) (text : List Char) : List (List Char) :=
  text.foldr (extendSplit sep) [[]]

/-- Whether `needle` is a contiguous part of a text. -/
def occursIn (needle : List Char) : List Char → Bool
  | [] => needle.isEmpty
  | c :: rest => needle.isPrefixOf (c :: rest) || occursIn needle rest

end MarkerBlock.Text
