/-
# FleetSearch.Pattern.Hits -- the ways a pattern matches at one place

`Pattern.hits` lists every way in which a pattern matches the start of a text, best way first:
an alternative that is written earlier wins over a later one, and an optional part that is there
wins over its absence. Only a word edge looks at what stands before the text, so the matcher is
told the character before.
-/

import FleetSearch.Pattern.Basic
import FleetSearch.Text.Blank
import FleetSearch.Text.WordChar

namespace FleetSearch

/-- One way in which a pattern matches the start of a text. -/
structure Hit where
  /-- The text taken. -/
  text : List Char
  /-- The texts of the captures, left to right. -/
  groups : List (List Char)
  /-- The text that follows. -/
  rest : List Char
  deriving DecidableEq

namespace Hit

/-- A hit that takes no text. -/
def here (s : List Char) : Hit := ⟨[], [], s⟩

/-- The hit that takes the longest run of such characters. -/
def run (p : Char → Bool) (s : List Char) : Hit := ⟨s.takeWhile p, [], s.dropWhile p⟩

/-- A hit followed by a hit in the rest of the text. -/
def andThen (h k : Hit) : Hit := ⟨h.text ++ k.text, h.groups ++ k.groups, k.rest⟩

/-- The same hit with its own text as the first capture. -/
def captured (h : Hit) : Hit := ⟨h.text, h.text :: h.groups, h.rest⟩

/-- The character before the rest, when `before` is the one before the hit. -/
def lastOr (h : Hit) (before : Option Char) : Option Char := h.text.getLast?.or before

end Hit

namespace Pattern

/-- Every way in which the pattern matches the start of the text, best way first. -/
def hits : Pattern → Option Char → List Char → List Hit
  | .nothing, _, s => [.here s]
  | .char _, _, [] => []
  | .char c, _, d :: s => if d = c then [⟨[d], [], s⟩] else []
  | .blanks, _, s => [.run Text.isBlank s]
  | .digits, _, s => if s.head?.any Char.isDigit then [.run Char.isDigit s] else []
  | .edge, before, s => if Text.isWordEdge before s.head? then [.here s] else []
  | .group p, before, s => p.hits before s
  | .capture p, before, s => (p.hits before s).map Hit.captured
  | .optional p, before, s => p.hits before s ++ [.here s]
  | .seq p q, before, s =>
    (p.hits before s).flatMap fun h => (q.hits (h.lastOr before) h.rest).map h.andThen
  | .either p q, before, s => p.hits before s ++ q.hits before s

/-- The best way in which the pattern matches some text at the start of `s`. -/
def hit? (p : Pattern) (before : Option Char) (s : List Char) : Option Hit :=
  (p.hits before s).find? fun h => !h.text.isEmpty

end Pattern

end FleetSearch
