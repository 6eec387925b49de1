/-
# FleetSearch.Pattern.Basic -- search patterns and how they are written

A pattern describes a piece of text: literal characters, runs of white space or digits, word
edges, sequences, and alternatives that are tried in order. The same value is matched against
queries and written out as the source of a regular expression, so the two cannot drift apart.

**Runs are maximal.** `blanks` takes all the white space there is and `digits` all the digits,
and neither gives anything back. Nothing that this library puts after a run can begin inside the
run, so no match is lost.
-/

namespace FleetSearch

/-- A search pattern. -/
inductive Pattern where
  /-- The empty piece of text. -/
  | nothing
  /-- One given character. -/
  | char (c : Char)
  /-- All the white space that comes next, possibly none. -/
  | blanks
  /-- All the ASCII digits that come next, at least one. -/
  | digits
  /-- No text, but a word edge. -/
  | edge
  /-- A pattern in brackets. -/
  | group (p : Pattern)
  /-- A pattern whose text is kept apart. -/
  | capture (p : Pattern)
  /-- A pattern if it is there. -/
  | optional (p : Pattern)
  /-- One pattern and then another. -/
  | seq (p q : Pattern)
  /-- One pattern or, failing that, another. -/
  | either (p q : Pattern)
  deriving DecidableEq

namespace Pattern

/-! ## Composing patterns -/

/-- The characters of a word, one after the other. -/
def literal : List Char → Pattern
  | [] => .nothing
  | c :: s => .seq (.char c) (literal s)

/-- A phrase in which each space stands for any run of white space. -/
def loose : List Char → Pattern
  | [] => .nothing
  | c :: s => .seq (if c = ' ' then .blanks else .char c) (loose s)

/-- The given patterns one after the other. -/
def all : List Pattern → Pattern
  | [] => .nothing
  | [p] => p
  | p :: ps => .seq p (all ps)

/-- The first of the given patterns that leads to a match. -/
def oneOf : List Pattern → Pattern
  | [] => .nothing
  | [p] => p
  | p :: ps => .either p (oneOf ps)

/-- A pattern between word edges. -/
def wholeWord (p : Pattern) : Pattern := all [.edge, p, .edge]

/-! ## Written form -/

/-- The characters that mean something else in a regular expression unless a backslash stands
before them. -/
def metaChars : List Char := "\\.+*?()|[]\x7b\x7d^$#&-~".toList

/-- A character as it is written in a regular expression. -/
def escape (c : Char) : List Char := if c ∈ metaChars then ['\\', c] else [c]

/-- The regular expression that the pattern stands for. -/
def source : Pattern → List Char
  | .nothing => []
  | .char c => escape c
  | .blanks => "\\s*".toList
  | .digits => "[0-9]+".toList
  | .edge => "\\b".toList
  | .group p => "(?:".toList ++ p.source ++ ")".toList
  | .capture p => "(".toList ++ p.source ++ ")".toList
  | .optional p => p.source ++ "?".toList
  | .seq p q => p.source ++ q.source
  | .either p q => p.source ++ "|".toList ++ q.source

end Pattern

end FleetSearch
