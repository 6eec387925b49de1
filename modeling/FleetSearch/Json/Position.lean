/-
# FleetSearch.Json.Position -- places in a text

A place is a line, from 1, and the number of bytes of that line before it. In a message it comes
last, as in "trailing comma at line 3 column 7". The words of a message and the place at its end
can be told apart again: the place is what follows the last " at line ", if that is two numbers
of 64 bits with " column " between them and nothing else.
-/

import FleetSearch.Text.Decimal

namespace FleetSearch.Json

/-- A place in a text: the line, from 1, and the bytes of the line before it. -/
structure Position where
  line : Nat
  column : Nat
  deriving DecidableEq

namespace Position

/-- The place after that many more bytes of the text; a place may lie inside a character. -/
def advance (p : Position) (bytes : Nat) : List Char → Position
  | [] => p
  | c :: s =>
    if bytes < c.utf8Size then ⟨p.line, p.column + bytes⟩
    else if c = '\n' then advance ⟨p.line + 1, 0⟩ (bytes - 1) s
    else advance ⟨p.line, p.column + c.utf8Size⟩ (bytes - c.utf8Size) s

/-- The place after that many bytes of a whole text. -/
def after (bytes : Nat) (s : List Char) : Position := advance ⟨1, 0⟩ bytes s

/-! ## In words -/

/-- The words before the line. -/
def lineWords : String := " at line "

/-- The words before the column. -/
def columnWords : String := " column "

/-- The place at the end of a message. -/
def text (p : Position) : String := lineWords ++ p.line.repr ++ columnWords ++ p.column.repr

/-- The value of a numeral that fits in 64 bits. -/
def number? (s : List Char) : Option Nat := (Text.decimal? s).filter (· < UInt64.size)

/-- The place whose line and column are given with the words between them. -/
def ofNumbers? (s : List Char) : Option Position :=
  let rest := s.dropWhile Char.isDigit
  if columnWords.toList.isPrefixOf rest then do
    let line ← number? (s.takeWhile Char.isDigit)
    let column ← number? (rest.drop columnWords.length)
    some ⟨line, column⟩
  else none

/-- What stands before and after the last words for a line, if there are any. -/
def splitAtLine? : List Char → Option (List Char × List Char)
  | [] => none
  | c :: s =>
    match splitAtLine? s with
    | some (before, after) => some (c :: before, after)
    | none =>
      if lineWords.toList.isPrefixOf (c :: s) then
        some ([], (c :: s).drop lineWords.length)
      else none

/-- The words of a message and the place at its end, if it ends in one. -/
def ofMessage? (message : List Char) : Option (List Char × Position) := do
  let (words, numbers) ← splitAtLine? message
  let p ← ofNumbers? numbers
  some (words, p)

end Position

end FleetSearch.Json
