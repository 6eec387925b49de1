/-
# FleetSearch.Json.Tree -- JSON values of any shape

A tree is the value of a JSON text. Objects keep their members as they were written, in order
and with repeats; what a repeat means is for the reader of the tree to say.
-/

import FleetSearch.Json.Numeral
import FleetSearch.Json.StringText

namespace FleetSearch.Json

/-- A JSON value. -/
inductive Tree where
  | null
  | boolean (b : Bool)
  | number (n : Number)
  | string (s : String)
  | list (items : List Tree)
  | object (members : List (String × Tree))

namespace Tree

/-- A natural number below 2 ^ 64 as a tree. -/
def natural (n : Nat) : Tree := .number (.natural n)

/-! ## Reading -/

/-- Apply a function to the value that was read. -/
def readAs {α : Type} (f : α → Tree) : Reading α → Reading Tree
  | .ok (a, s) => .ok (f a, s)
  | .error halt => .error halt

/-- Read a word that stands for a tree. -/
def readConstant (t : Tree) (word s : List Char) : Reading Tree :=
  match readWord word s with
  | .ok rest => .ok (t, rest)
  | .error halt => .error halt

/-- Read a value, given readers for a list and an object from their opening brackets on. -/
def readWith (list object : Reader Tree) (s : List Char) : Reading Tree :=
  match skipSpace s with
  | [] => .error (atEnd .endInValue)
  | 'n' :: t => readConstant .null "ull".toList t
  | 't' :: t => readConstant (.boolean true) "rue".toList t
  | 'f' :: t => readConstant (.boolean false) "alse".toList t
  | '-' :: t => readAs .number (readNumber true t)
  | '"' :: t => readAs .string (readString t)
  | '[' :: t => list ('[' :: t)
  | '\x7b' :: t => object ('\x7b' :: t)
  | t =>
    if startsDigit t then readAs .number (readNumber false t)
    else .error (past .expectedValue t)

/-- Read a list from its opening bracket on. -/
def readList (value : Reader Tree) (s : List Char) : Reading Tree :=
  readAs .list (enclose closeList (readItems value s.length true (s.drop 1)))

/-- Read the members of an object up to its closing brace. The number bounds how many there
are. -/
def readMembers (value : Reader Tree) : Nat → Bool → Reader (List (String × Tree))
  | 0, _, s => .error (past .expectedObjectCommaOrEnd s)
  | n + 1, isFirst, s => do
    let (more, s) ← nextKey isFirst s
    if more then
      let (key, s) ← readString s
      let s ← readColon s
      let (t, s) ← value s
      let (members, s) ← readMembers value n false s
      .ok ((key, t) :: members, s)
    else .ok ([], s)

/-- Read an object from its opening brace on. -/
def readObject (value : Reader Tree) (s : List Char) : Reading Tree :=
  readAs .object (enclose closeObject (readMembers value s.length true (s.drop 1)))

/-- Refuse a list or object that is nested too deep. -/
def readTooDeep (s : List Char) : Reading Tree := .error (past .tooDeep s)

/-- Read a value with lists and objects nested at most so deep. -/
def readNested : Nat → Reader Tree
  | 0 => readWith readTooDeep readTooDeep
  | depth + 1 => readWith (readList (readNested depth)) (readObject (readNested depth))

/-- How deep lists and objects may be nested. -/
def maxDepth : Nat := 127

/-- Read a value of any shape. -/
def read : Reader Tree := readNested maxDepth

/-- The tree of a JSON text. -/
def ofText (text : String) : Except Fault Tree := readWhole read text

end Tree

end FleetSearch.Json
