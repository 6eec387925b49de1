/-
# FleetSearch.Json.Printer -- the written form of a tree

Trees are written over several lines, two spaces deeper for each list and object; an empty list
or object stays on one line. In strings the quote, the backslash and the control characters
below the space are escaped, and every other character stands for itself.
-/

import FleetSearch.Json.Tree

namespace FleetSearch.Json

/-- A hexadecimal digit in lower case. -/
def hexDigit (n : Nat) : Char := Nat.digitChar n

/-- A character as it is written in a JSON string. -/
def escapeChar (c : Char) : List Char :=
  if c = '"' then "\\\"".toList
  else if c = '\\' then "\\\\".toList
  else if c = '\x08' then "\\b".toList
  else if c = '\x0c' then "\\f".toList
  else if c = '\n' then "\\n".toList
  else if c = '\r' then "\\r".toList
  else if c = '\t' then "\\t".toList
  else if c.toNat < 0x20 then "\\u00".toList ++ [hexDigit (c.toNat / 16), hexDigit (c.toNat % 16)]
  else [c]

/-- A text as a JSON string. -/
def stringText (s : String) : List Char := '"' :: s.toList.flatMap escapeChar ++ ['"']

/-- The start of a new line at the given depth. -/
def newLine (depth : Nat) : List Char := '\n' :: List.replicate (2 * depth) ' '

namespace Tree

mutual

/-- The tree as it is written at the given depth. -/
def print (depth : Nat) : Tree → List Char
  | .null => "null".toList
  | .boolean b => if b then "true".toList else "false".toList
  | .number n => n.text
  | .string s => stringText s
  | .list [] => "[]".toList
  | .list (t :: ts) =>
    '[' :: newLine (depth + 1) ++ t.print (depth + 1) ++ printItems (depth + 1) ts ++
      newLine depth ++ [']']
  | .object [] => "\x7b\x7d".toList
  | .object ((key, t) :: ms) =>
    '\x7b' :: newLine (depth + 1) ++ stringText key ++ ": ".toList ++ t.print (depth + 1) ++
      printMembers (depth + 1) ms ++ newLine depth ++ ['\x7d']

/-- Further items of a list, each after a comma. -/
def printItems (depth : Nat) : List Tree → List Char
  | [] => []
  | t :: ts => ',' :: newLine depth ++ t.print depth ++ printItems depth ts

/-- Further members of an object, each after a comma. -/
def printMembers (depth : Nat) : List (String × Tree) → List Char
  | [] => []
  | (key, t) :: ms =>
    ',' :: newLine depth ++ stringText key ++ ": ".toList ++ t.print depth ++
      printMembers depth ms

end

/-- The written form of a tree. -/
def pretty (t : Tree) : String := String.ofList (t.print 0)

end Tree

end FleetSearch.Json
