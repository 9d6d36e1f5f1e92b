/-
MarkerBlock.Glob.Method — how a glob is carried out.

A glob of a simple form needs no search: it can be compared with the name, the
extension or the text of a path.  Every other glob is carried out as a regular
expression; one that ends in an extension is tried only on paths that have it.
-/
import MarkerBlock.Glob.Pattern

namespace MarkerBlock.Glob

/-- How a glob is carried out. -/
inductive Method where
  /-- The last name of a path is compared. -/
  | name (text : List Char)
  /-- The extension of the last name is compared. -/
  | extension
  /-- The text of a path, its beginning or its end is compared. -/
  | text
  /-- A regular expression, for paths with the extension the glob ends in. -/
  | extensionFirst
  /-- A regular expression. -/
  | expression
deriving Repr, DecidableEq

/-- The character of a literal token. -/
def Token.literal? : Token → Option Char
  | .literal c => some c
  | _ => none

/-- The text of tokens that are all literal; nothing if there is none. -/
def literalText? (tokens : List Token) : Option (List Char) :=
  match tokens with
  | [] => none
  | _ => tokens.mapM Token.literal?

/-- The tokens after leading directories, if there are any. -/
def afterLeading (tokens : List Token) : List Token :=
  match tokens with
  | .leadingDirectories :: rest => rest
  | _ => tokens

/-- The name in a glob of the form `**/name`. -/
def lastName? (tokens : List Token) : Option (List Char) :=
  match tokens with
  | .leadingDirectories :: rest => (literalText? rest).filter (!·.contains '/')
  | _ => none

/-- A glob of the form `*.extension`, at any depth. -/
def isExtension (o : Options) (tokens : List Token) : Bool :=
  match tokens, afterLeading tokens with
  | .anyRun :: _, .anyRun :: .literal '.' :: rest =>
    !o.literalSlash && ((rest.mapM Token.literal?).any fun e => !e.contains '.' && !e.contains '/')
  | _, .anyRun :: .literal '.' :: rest =>
    (rest.mapM Token.literal?).any fun e => !e.contains '.' && !e.contains '/'
  | _, _ => false

/-- A glob that is literal up to its end, where anything may follow. -/
def isBeginning (o : Options) (tokens : List Token) : Bool :=
  match tokens.getLast? with
  | some .anyRun => !o.literalSlash && (literalText? tokens.dropLast).isSome
  | some .everythingBelow => (tokens.dropLast.mapM Token.literal?).isSome
  | _ => false

/-- A glob that is literal after its beginning, where anything may come before. -/
def isEnd (o : Options) (tokens : List Token) : Bool :=
  match tokens, afterLeading tokens with
  | .leadingDirectories :: _, .literal c :: rest => (literalText? (.literal c :: rest)).isSome
  | _, .anyRun :: rest =>
    !o.literalSlash && ((literalText? rest).any fun text => text != ['/'])
  | _, _ => false

/-- The extension at the end of a glob: the literal characters from the last point
on, unless a slash is among them. -/
def extensionAtEnd? (tokens : List Token) : Option (List Char) :=
  let literals := (tokens.reverse.map Token.literal?).takeWhile Option.isSome |>.filterMap id
  let extension := literals.takeWhile (· != '.')
  if extension.contains '/' || extension.length = literals.length then none
  else some ('.' :: extension.reverse)

/-- How the tokens of a glob are carried out. -/
def methodOf (o : Options) (tokens : List Token) : Method :=
  match lastName? tokens with
  | some name => .name name
  | none =>
    if (literalText? tokens).isSome then .text
    else if isExtension o tokens then .extension
    else if isBeginning o tokens || isEnd o tokens then .text
    else if (extensionAtEnd? tokens).isSome then .extensionFirst
    else .expression

/-- How a glob is carried out. -/
def method (g : Glob) : Method := methodOf g.options g.tokens

end MarkerBlock.Glob
