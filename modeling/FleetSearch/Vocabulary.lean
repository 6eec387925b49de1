/-
# FleetSearch.Vocabulary -- the words that queries are understood by

The tables list every keyword of every classification. Recognising keywords and stripping them
both read these tables, and both go through them front to back.
-/

import FleetSearch.Label
import FleetSearch.Pattern.Basic

namespace FleetSearch.Vocabulary

/-! ## Tiers -/

/-- A band of tiers that a query can name, as in "high tier". -/
structure Band where
  name : String
  /-- The words that name the band when a band noun follows. -/
  qualifiers : List String
  first : Nat
  last : Nat
  deriving DecidableEq

/-- The words that close the name of a band. -/
def bandNouns : List String := ["tier", "lvl"]

/-- The bands of tiers. -/
def bands : List Band := [
  ⟨"high", ["high", "top"], 8, 11⟩,
  ⟨"mid", ["middle", "mid"], 5, 7⟩,
  ⟨"low", ["bottom", "low"], 1, 4⟩]

/-- The tier of superships. -/
def superTier : Nat := 11

/-- The words that may stand between the ends of a range of tiers. -/
def rangeSeparators : List String := ["-", "–", "—", "to"]

/-- The roman numerals of tiers, none of which begins with an earlier one. -/
def romanNumerals : List (String × Nat) := [
  ("viii", 8), ("vii", 7), ("iii", 3), ("ix", 9), ("iv", 4), ("vi", 6), ("ii", 2), ("i", 1),
  ("v", 5), ("x", 10)]

/-- The value of a roman numeral in small letters. -/
def romanValue? (s : String) : Option Nat := romanNumerals.lookup s

/-! ## Types, nations and categories -/

/-- The words for each ship type. -/
def typeAliases : List (ShipType × List String) := [
  (.battleship, ["battleship", "battle ship", "bb"]),
  (.cruiser, ["cruiser", "ca", "cl"]),
  (.destroyer, ["destroyer", "dd"]),
  (.airCarrier, ["carrier", "aircraft carrier", "cv"]),
  (.submarine, ["submarine", "sub", "ss"])]

/-- The words for each nation. -/
def nationAliases : List (Nation × List String) := [
  (.japan, ["japan", "japanese", "jpn", "ijn"]),
  (.usa, ["usa", "american", "america", "us", "usn"]),
  (.ussr, ["ussr", "soviet", "russian", "russia", "vmf"]),
  (.germany, ["germany", "german", "kriegsmarine"]),
  (.uk, ["uk", "british", "britain", "royal navy", "rn"]),
  (.france, ["france", "french"]),
  (.panAsia, ["pan asia", "pan-asia", "panasia", "asian"]),
  (.italy, ["italy", "italian", "regia marina"]),
  (.commonwealth, ["commonwealth"]),
  (.panAmerica, ["pan america", "pan-america", "panamerica"]),
  (.europe, ["europe", "european"]),
  (.netherlands, ["netherlands", "dutch"]),
  (.spain, ["spain", "spanish"]),
  (.portugal, ["portugal", "portuguese"])]

/-- The words for each category. -/
def categoryKeywords : List (Category × List String) := [
  (.premium, ["premium"]),
  (.special, ["special", "promo", "event", "reward"]),
  (.techTree, ["tech tree", "standard", "regular", "researchable", "silver"])]

/-- The words of every row of a table, in order. -/
def phrases {α : Type} (table : List (α × List String)) : List String :=
  table.flatMap fun row => row.2

/-! ## Patterns -/

/-- A word as it stands. -/
def word (s : String) : Pattern := .literal s.toList

/-- A phrase whose words may be any white space apart, or none. -/
def phrase (s : String) : Pattern := .loose s.toList

/-- One of the given phrases. -/
def anyPhrase (ss : List String) : Pattern := .group (.oneOf (ss.map phrase))

/-- One of the words as it stands. -/
def anyWord (ss : List String) : Pattern := .oneOf (ss.map word)

/-- A qualifier, any white space, and a band noun. -/
def bandPattern (qualifiers : List String) : Pattern :=
  .all [anyPhrase qualifiers, .blanks, anyPhrase bandNouns]

/-- A mention of superships. -/
def superPattern : Pattern :=
  .either (.all [word "super", .blanks, word "ship"]) (.all [word "tier", .blanks, word "11"])

/-- What may stand between the ends of a range of tiers. -/
def separatorPattern : Pattern := .group (anyWord rangeSeparators)

/-- One of the roman numerals. -/
def romanPattern : Pattern := anyWord (romanNumerals.map Prod.fst)

end FleetSearch.Vocabulary
