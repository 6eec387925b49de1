/-
# FleetSearch.Text.Quoted -- a text in quotes, with nothing hidden

Messages show a text between double quotes in such a way that every character can be told: the
quote and the backslash get a backslash, the common controls their letter, and any other hidden
character its code point in hexadecimal.
-/

import FleetSearch.Text.Hidden

namespace FleetSearch.Text

/-- A code point in lower-case hexadecimal, without leading zeros. -/
def hexadecimal (n : Nat) : List Char := Nat.toDigits 16 n

/-- A character as it is shown between quotes. -/
def showChar (c : Char) : List Char :=
  if c = '\x00' then "\\0".toList
  else if c = '\t' then "\\t".toList
  else if c = '\n' then "\\n".toList
  else if c = '\r' then "\\r".toList
  else if c = '"' then "\\\"".toList
  else if c = '\\' then "\\\\".toList
  else if isHidden c then "\\u\x7b".toList ++ hexadecimal c.toNat ++ "\x7d".toList
  else [c]

/-- The text between double quotes. -/
def quoted (s : String) : String := String.ofList ('"' :: s.toList.flatMap showChar ++ ['"'])

end FleetSearch.Text
