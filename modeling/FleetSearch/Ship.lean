/-
# FleetSearch.Ship -- ships and the filters they match

A ship carries the labels of its type and nation as the catalog spells them, known or not, and
any tier number of one byte. It matches filters if it meets every classification asked for and
its name contains the name asked for, both in lower case.
-/

import FleetSearch.Filters
import FleetSearch.Text.LowerCase
import FleetSearch.Text.Within

namespace FleetSearch

/-- A ship of a catalog. -/
structure Ship where
  shipId : UInt64
  name : String
  tier : UInt8
  /-- The label of the ship's class. -/
  type : String
  /-- The label of the ship's nation. -/
  nation : String
  isPremium : Bool := false
  isSpecial : Bool := false
  deriving DecidableEq

namespace Ship

/-- How the ship is acquired; a ship both premium and special counts as premium. -/
def category (ship : Ship) : Category :=
  if ship.isPremium then .premium else if ship.isSpecial then .special else .techTree

/-- Whether nothing is asked for or something asked for is met. -/
def meets {α : Type} (asked : List α) (test : α → Bool) : Bool := asked.isEmpty || asked.any test

/-- Whether the ship meets every classification of the filters and its lower-case name contains
the given one. -/
def satisfies (ship : Ship) (f : Filters) (nameLower : List Char) : Bool :=
  meets f.tiers (fun tier => tier.value == ship.tier.toNat) &&
    meets f.types (fun type => type.label == ship.type) &&
    meets f.nations (fun nation => nation.label == ship.nation) &&
    meets f.categories (fun category => category == ship.category) &&
    (nameLower.isEmpty || Text.isWithin nameLower (Text.lower ship.name.toList))

end Ship

end FleetSearch
