/-
# FleetSearch.Filters -- what a search asks for

Filters hold one list for each of the four classifications and a name to look for. An empty list
asks for nothing, and so does an empty name.
-/

import FleetSearch.Label
import FleetSearch.Tier

namespace FleetSearch

/-- What a search asks for. -/
structure Filters where
  tiers : List Tier := []
  types : List ShipType := []
  nations : List Nation := []
  categories : List Category := []
  /-- Text that a ship's name has to contain, in any case. -/
  shipName : String := ""
  deriving DecidableEq

namespace Filters

/-- Whether a tier, type, nation or category is asked for. -/
def isClassified (f : Filters) : Bool :=
  !f.tiers.isEmpty || !f.types.isEmpty || !f.nations.isEmpty || !f.categories.isEmpty

/-- Whether nothing at all is asked for. -/
def isEmpty (f : Filters) : Bool := !f.isClassified && f.shipName.isEmpty

end Filters

end FleetSearch
