/-
# FleetSearch.Json.Plain -- values of a known type

A reader for each type of value that has no fields: texts, truth values, natural numbers, values
that may be null, and lists. A value of another type is named in the fault, and so is what should
stand in its place.
-/

import FleetSearch.Json.Numeral
import FleetSearch.Json.StringText

namespace FleetSearch.Json

/-! ## Values of another type -/

/-- The halt at a value of another type than expected, from its first character on. A plain value
is read first, and a fault in it counts more. -/
def wrongType (expected : String) (s : List Char) : Halt :=
  let refuse (found : Found) (rest : List Char) : Halt := here (.wrongType found expected) rest
  let constant (found : Found) (word t : List Char) : Halt :=
    match readWord word t with
    | .ok rest => refuse found rest
    | .error halt => halt
  let numeral (isNegative : Bool) (t : List Char) : Halt :=
    match readNumber isNegative t with
    | .ok (n, rest) => refuse (.number n) rest
    | .error halt => halt
  match s with
  | 'n' :: t => constant .null "ull".toList t
  | 't' :: t => constant (.boolean true) "rue".toList t
  | 'f' :: t => constant (.boolean false) "alse".toList t
  | '-' :: t => numeral true t
  | '"' :: t =>
    match readString t with
    | .ok (text, rest) => refuse (.string text) rest
    | .error halt => halt
  | '[' :: _ => refuse .sequence s
  | '\x7b' :: _ => refuse .map s
  | _ => if startsDigit s then numeral false s else past .expectedValue s

/-! ## Readers -/

/-- Read a string; `expected` says what should stand here. -/
def readText (expected : String) (s : List Char) : Reading String :=
  match skipSpace s with
  | [] => .error (atEnd .endInValue)
  | '"' :: t => readString t
  | t => .error (wrongType expected t)

/-- Read a truth value. -/
def readBool (s : List Char) : Except Halt (Bool × List Char) :=
  match skipSpace s with
  | [] => .error (atEnd .endInValue)
  | 't' :: t => do let rest ← readWord "rue".toList t; .ok (true, rest)
  | 'f' :: t => do let rest ← readWord "alse".toList t; .ok (false, rest)
  | t => .error (wrongType "a boolean" t)

/-- The number that was read if it is natural and below the limit; `expected` says what should
stand here. -/
def boundedNat (expected : String) (limit : Nat) : Reading Number → Reading Nat
  | .ok (.natural n, s) =>
    if n < limit then .ok (n, s) else .error (here (.wrongValue (.number (.natural n)) expected) s)
  | .ok (.negative n, s) => .error (here (.wrongValue (.number (.negative n)) expected) s)
  | .ok (n, s) => .error (here (.wrongType (.number n) expected) s)
  | .error halt => .error halt

/-- Read a natural number below a limit of at most 2 ^ 64. -/
def readNat (expected : String) (limit : Nat) (s : List Char) : Reading Nat :=
  match skipSpace s with
  | [] => .error (atEnd .endInValue)
  | '-' :: t => boundedNat expected limit (readNumber true t)
  | t =>
    if startsDigit t then boundedNat expected limit (readNumber false t)
    else .error (wrongType expected t)

/-- Read a value that may be null. -/
def readOptional {α : Type} (value : Reader α) (s : List Char) :
    Except Halt (Option α × List Char) :=
  match skipSpace s with
  | 'n' :: t => do let rest ← readWord "ull".toList t; .ok (none, rest)
  | t => do let (a, rest) ← value t; .ok (some a, rest)

/-- Read a list of values. -/
def readListOf {α : Type} (item : Reader α) (s : List Char) : Reading (List α) :=
  match skipSpace s with
  | [] => .error (atEnd .endInValue)
  | '[' :: t => enclose closeList (readItems item (t.length + 1) true t)
  | t => .error (wrongType "a sequence" t)

end FleetSearch.Json
