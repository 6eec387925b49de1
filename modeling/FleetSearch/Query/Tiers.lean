/-
# FleetSearch.Query.Tiers -- the tiers that a query mentions

Three rules read the tiers of a lower-case query, and the first that yields any tier decides:

* a band, as in "high tier", "mid lvl" or "supership";
* ranges, as in "tier 7-10", "t5-8" or "tier 3 to tier 6";
* single tiers, as in "tier 8", "t8" or "tier viii".

Mentions are looked for anywhere, also inside longer words.
-/

import FleetSearch.Pattern.Scan
import FleetSearch.Tier
import FleetSearch.Vocabulary

namespace FleetSearch.Query

open Vocabulary

/-- The list with an item at its end, unless the item is already there. -/
def appendNew {α : Type} [DecidableEq α] (items : List α) (item : α) : List α :=
  if item ∈ items then items else items ++ [item]

/-- The items without repeats, each where it first appears. -/
def firstSeen {α : Type} [DecidableEq α] (items : List α) : List α := items.foldl appendNew []

/-! ## Bands -/

/-- The patterns of the bands, and then of superships, with their first and last tiers. -/
def bandPatterns : List (Pattern × Nat × Nat) :=
  bands.map (fun band => (bandPattern band.qualifiers, band.first, band.last)) ++
    [(superPattern, superTier, superTier)]

/-- The tiers of the first band that the query names. -/
def bandTiers (q : List Char) : List Tier :=
  match bandPatterns.find? fun row => row.1.occurs q with
  | some (_, first, last) => Tier.between first last
  | none => []

/-! ## Ranges -/

/-- A numeral that is kept apart. -/
def numeral : Pattern := .capture .digits

/-- The three spellings of a range of tiers. -/
def rangePatterns : List Pattern := [
  .all [word "tier", .blanks, numeral, .blanks, separatorPattern, .blanks, numeral],
  .all [word "t", numeral, .blanks, separatorPattern, .blanks, numeral],
  .all [word "tier", .blanks, numeral, .blanks, separatorPattern, .blanks, word "tier", .blanks,
    numeral]]

/-- The tiers of one range; none if an end is no tier. -/
def rangeOf (h : Hit) : List Tier :=
  match h.groups.map Tier.ofDigits? with
  | [some start, some stop] => start.span stop
  | _ => []

/-- The tiers of all ranges in the query. -/
def rangeTiers (q : List Char) : List Tier :=
  firstSeen (rangePatterns.flatMap fun p => (p.finds q).flatMap rangeOf)

/-! ## Single tiers -/

/-- The spellings of a single tier in digits. -/
def digitPatterns : List Pattern := [.all [word "tier", .blanks, numeral], .seq (word "t") numeral]

/-- The spelling of a single tier as a roman numeral. -/
def romanTierPattern : Pattern := .all [word "tier", .blanks, .capture romanPattern, .edge]

/-- The tier that a find mentions, read by the given rule. -/
def tierOf (read : List Char → Option Tier) (h : Hit) : Option Tier := h.groups.head?.bind read

/-- The tier that a roman numeral stands for. -/
def romanTier? (s : List Char) : Option Tier := (romanValue? (String.ofList s)).bind Tier.ofNat?

/-- The tiers mentioned one at a time, those in digits before those in roman numerals. -/
def singleTiers (q : List Char) : List Tier :=
  firstSeen <|
    (digitPatterns.flatMap fun p => (p.finds q).filterMap (tierOf Tier.ofDigits?)) ++
      (romanTierPattern.finds q).filterMap (tierOf romanTier?)

/-! ## The rules in order -/

/-- The rules in order of precedence. -/
def tierRules : List (List Char → List Tier) := [bandTiers, rangeTiers, singleTiers]

/-- The tiers by the first rule that yields any. -/
def tiers (q : List Char) : List Tier :=
  (tierRules.findSome? fun rule => if (rule q).isEmpty then none else some (rule q)).getD []

end FleetSearch.Query
