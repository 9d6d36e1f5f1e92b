/-
MarkerBlock.Toml.Scalar — numbers, truth values, dates and times.

Only their form and their size matter here: a document is told apart from one
that is not well-formed, a date from a number, and a number that fits from one
that is too large, but no value is kept.
-/
import MarkerBlock.Toml.Number

namespace MarkerBlock.Toml

/-! ## §1 Dates and times -/

/-- The value of a row of digits. -/
def fieldValue (cs : List Char) : Nat := cs.foldl (fun n c => n * 10 + (c.toNat - '0'.toNat)) 0

/-- A number of exactly `width` digits that lies in a range. -/
def isField (width low high : Nat) (cs : List Char) : Bool :=
  cs.length == width && cs.all Char.isDigit && low ≤ fieldValue cs && fieldValue cs ≤ high

/-- Number of days of a month. -/
def daysIn (year month : Nat) : Nat :=
  if month = 2 then
    if year % 4 = 0 && (year % 100 != 0 || year % 400 = 0) then 29 else 28
  else if [4, 6, 9, 11].contains month then 30
  else 31

/-- A date: year, month and day. -/
def isDate (cs : List Char) : Bool :=
  match Text.split '-' cs with
  | [year, month, day] =>
    isField 4 0 9999 year && isField 2 1 12 month &&
      isField 2 1 (daysIn (fieldValue year) (fieldValue month)) day
  | _ => false

/-- The seconds of a time, perhaps with a fraction. -/
def isSeconds (cs : List Char) : Bool :=
  match Text.split '.' cs with
  | [seconds] => isField 2 0 60 seconds
  | [seconds, fraction] =>
    isField 2 0 60 seconds && !fraction.isEmpty && fraction.all Char.isDigit
  | _ => false

/-- A time of day; the seconds may be left out. -/
def isTime (cs : List Char) : Bool :=
  match Text.split ':' cs with
  | [hour, minute] => isField 2 0 23 hour && isField 2 0 59 minute
  | [hour, minute, seconds] =>
    isField 2 0 23 hour && isField 2 0 59 minute && isSeconds seconds
  | _ => false

/-- The distance from universal time. -/
def isOffset (cs : List Char) : Bool :=
  match Text.split ':' cs with
  | [hour, minute] => isField 2 0 23 hour && isField 2 0 59 minute
  | _ => false

/-- A time of day, perhaps with its distance from universal time. -/
def isZonedTime (cs : List Char) : Bool :=
  match cs.getLast? with
  | some 'Z' => isTime cs.dropLast
  | some 'z' => isTime cs.dropLast
  | _ =>
    match cs.dropWhile (!isSign ·) with
    | [] => isTime cs
    | _ :: offset => isTime (cs.takeWhile (!isSign ·)) && isOffset offset

/-- What stands between a date and a time. -/
def isTimeMark (c : Char) : Bool := c == 'T' || c == 't' || c == ' '

/-- A date, a time, or both. -/
def isMoment (cs : List Char) : Bool :=
  match cs.dropWhile (!isTimeMark ·) with
  | [] => isDate cs || isTime cs
  | _ :: time => isDate (cs.takeWhile (!isTimeMark ·)) && isZonedTime time

/-! ## §2 Scalars -/

/-- What sort of scalar a text is. -/
inductive Scalar where
  /-- A number that fits, or a truth value. -/
  | plain
  /-- A number that is too large. -/
  | excessive
  /-- A date, a time, or both. -/
  | moment
deriving Repr, DecidableEq

/-- The scalar a text is, if it is one. -/
def Scalar.ofText? (cs : List Char) : Option Scalar :=
  if cs = ['t', 'r', 'u', 'e'] || cs = ['f', 'a', 'l', 's', 'e'] then some .plain
  else if isInteger cs then some (if integerFits cs then .plain else .excessive)
  else if isFloat cs then some (if floatFits cs then .plain else .excessive)
  else if isMoment cs then some .moment
  else none

/-- A character scalars are made of. -/
def isScalarChar (c : Char) : Bool :=
  c.isAlphanum || isSign c || c == '_' || c == '.' || c == ':'

/-- A scalar at the front of a text.  A blank may stand between a date and a time. -/
def scalar (cs : List Char) : Option (Scalar × List Char) :=
  let first := cs.takeWhile isScalarChar
  let rest := cs.dropWhile isScalarChar
  let (token, rest) :=
    match rest with
    | ' ' :: next :: more =>
      if isDate first && next.isDigit then
        (first ++ ' ' :: (next :: more).takeWhile isScalarChar,
          (next :: more).dropWhile isScalarChar)
      else (first, rest)
    | _ => (first, rest)
  (Scalar.ofText? token).map fun s => (s, rest)

end MarkerBlock.Toml
