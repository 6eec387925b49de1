/-
# FleetSearch.Json.Skip -- passing over a value that nobody asked for

The value of an unknown key has to be well formed, but it is not built: numbers may have any
size, surrogates need not pair up, and lists and objects may be nested to any depth.
-/

import FleetSearch.Json.Numeral
import FleetSearch.Json.StringText

namespace FleetSearch.Json

/-- Go past the key of a skipped member and its colon. -/
def skipKey (s : List Char) : Except Halt (List Char) :=
  match skipSpace s with
  | [] => .error (atEnd .endInObject)
  | '"' :: t => skipString t >>= readColon
  | t => .error (past .keyNotString t)

/- The number bounds the values, items and members still to come; the length of the text is
always enough. -/
mutual

/-- Skip a value. -/
def skipUpTo : Nat → List Char → Except Halt (List Char)
  | 0, s => .error (past .expectedValue s)
  | n + 1, s =>
    match skipSpace s with
    | [] => .error (atEnd .endInValue)
    | 'n' :: t => readWord "ull".toList t
    | 't' :: t => readWord "rue".toList t
    | 'f' :: t => readWord "alse".toList t
    | '-' :: t => skipNumber t
    | '"' :: t => skipString t
    | '[' :: t => skipItems n true t
    | '\x7b' :: t => skipMembers n true t
    | t => if startsDigit t then skipNumber t else .error (past .expectedValue t)

/-- Skip the items of a list and its closing bracket. -/
def skipItems : Nat → Bool → List Char → Except Halt (List Char)
  | 0, _, s => .error (past .expectedListCommaOrEnd s)
  | n + 1, isFirst, s =>
    match skipSpace s with
    | [] => .error (atEnd .endInList)
    | ']' :: t => .ok t
    | c :: t =>
      if isFirst then skipUpTo n (c :: t) >>= skipItems n false
      else if c = ',' then skipUpTo n t >>= skipItems n false
      else .error (past .expectedListCommaOrEnd (c :: t))

/-- Skip the members of an object and its closing brace. -/
def skipMembers : Nat → Bool → List Char → Except Halt (List Char)
  | 0, _, s => .error (past .expectedObjectCommaOrEnd s)
  | n + 1, isFirst, s =>
    match skipSpace s with
    | [] => .error (atEnd .endInObject)
    | '\x7d' :: t => .ok t
    | c :: t =>
      if isFirst then skipKey (c :: t) >>= skipUpTo n >>= skipMembers n false
      else if c = ',' then skipKey t >>= skipUpTo n >>= skipMembers n false
      else .error (past .expectedObjectCommaOrEnd (c :: t))

end

/-- Skip a value of any kind. -/
def skipValue (s : List Char) : Except Halt (List Char) := skipUpTo (2 * s.length + 1) s

end FleetSearch.Json
