/-
# FleetSearch.Catalog.Facets -- the values that a catalog can be filtered by

The facets of a catalog are the nations, tiers and types that occur in it, each once and in
ascending order.
-/

import FleetSearch.Catalog.Basic

namespace FleetSearch

/-- The values that occur in a catalog. -/
structure Facets where
  nations : List String
  tiers : List UInt8
  types : List String
  deriving DecidableEq

/-- The values that occur in the catalog. -/
def Catalog.facets (c : Catalog) : Facets where
  nations := distinct textBefore (c.ships.map (·.nation))
  tiers := distinct (fun a b => a < b) (c.ships.map (·.tier))
  types := distinct textBefore (c.ships.map (·.type))

end FleetSearch
