/-
# FleetSearch.Query.Residual -- what is left of a query without its keywords

Stripping erases, one pattern after the other, every phrase that a classification can be read
from, as long as it consists of whole words. Tiers go first, then superships, types, nations and
categories. The separators left over become spaces, and the words left over are joined by single
spaces: they are the name to look for.
-/

import FleetSearch.Pattern.Scan
import FleetSearch.Vocabulary

namespace FleetSearch.Query

open Vocabulary

/-- The punctuation that separates keywords. -/
def separators : List Char := [',', ';', '-', '–', '—']

/-- A number in digits or as a roman numeral. -/
def number : Pattern := .group (.either .digits romanPattern)

/-- The phrases for tiers, whole ranges before their parts. -/
def tierPhrases : List Pattern := [
  bandPattern (bands.flatMap (·.qualifiers)),
  .all [word "tier", .blanks, number, .blanks, separatorPattern, .blanks, word "tier", .blanks,
    number],
  .all [word "tier", .blanks, number, .blanks, separatorPattern, .blanks, number],
  .all [word "t", .digits, .blanks, separatorPattern, .blanks, .digits],
  .all [word "tier", .blanks, number],
  .seq (word "t") .digits,
  .all [word "super", .blanks, word "ship", .optional (.char 's')]]

/-- The patterns that stripping erases, in order. -/
def keywordPatterns : List Pattern :=
  (tierPhrases ++
    [Pattern.seq (anyPhrase (phrases typeAliases)) (.optional (.char 's'))] ++
    (phrases nationAliases).map word ++
    [anyPhrase (phrases categoryKeywords)]).map Pattern.wholeWord

/-- The query after every keyword pattern in turn has been erased. -/
def eraseKeywords (q : List Char) : List Char :=
  keywordPatterns.foldl (fun s p => p.erase s) q

/-- The text with each separator turned into a space. -/
def dropSeparators (s : List Char) : List Char :=
  s.map fun c => if c ∈ separators then ' ' else c

/-- The words of the query that belong to no keyword, with single spaces between them. -/
def residual (q : List Char) : List Char :=
  Text.join [' '] (Text.words (dropSeparators (eraseKeywords q)))

end FleetSearch.Query
