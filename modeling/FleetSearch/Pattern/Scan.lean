/-
# FleetSearch.Pattern.Scan -- finding a pattern anywhere in a text

A scan goes through a text from left to right and cuts it into pieces: the finds, each the best
hit at the first place where there is one, and the characters between them. Finds do not
overlap. The finds by themselves are what a search reads, the kept characters are what is left
when every find is erased.
-/

import FleetSearch.Pattern.Hits

namespace FleetSearch

/-- A piece of a scanned text: a character between finds, or a find. -/
inductive Piece where
  | kept (c : Char)
  | found (h : Hit)

namespace Pattern

/-- Whether the pattern matches at some place of a text that follows the character `before`. -/
def occursAfter (p : Pattern) (before : Option Char) : List Char → Bool
  | [] => !(p.hits before []).isEmpty
  | c :: s => !(p.hits before (c :: s)).isEmpty || p.occursAfter (some c) s

/-- Whether the pattern matches anywhere in the text. -/
def occurs (p : Pattern) (s : List Char) : Bool := p.occursAfter none s

/-- The pieces of a text that follows the character `before`, after passing over the first
`skip` characters, which belong to the find before. -/
def piecesAfter (p : Pattern) : Nat → Option Char → List Char → List Piece
  | _, _, [] => []
  | skip + 1, _, c :: s => p.piecesAfter skip (some c) s
  | 0, before, c :: s =>
    match p.hit? before (c :: s) with
    | some h => .found h :: p.piecesAfter (h.text.length - 1) (some c) s
    | none => .kept c :: p.piecesAfter 0 (some c) s

/-- The pieces of the text. -/
def pieces (p : Pattern) (s : List Char) : List Piece := p.piecesAfter 0 none s

/-- What the pattern finds in the text, left to right and without overlap. -/
def finds (p : Pattern) (s : List Char) : List Hit :=
  (p.pieces s).filterMap fun | .found h => some h | .kept _ => none

/-- The text without what the pattern finds in it. -/
def erase (p : Pattern) (s : List Char) : List Char :=
  (p.pieces s).filterMap fun | .found _ => none | .kept c => some c

end Pattern

end FleetSearch
