/-
# FleetSearch.Catalog.Basic -- catalogs and searching them

A catalog is a list of ships. Narrowing keeps the ships that match, by tier and then by name;
ships alike in both keep their order.
-/

import FleetSearch.Ship
import FleetSearch.Sorting

namespace FleetSearch

/-- A list of ships to search. -/
structure Catalog where
  ships : List Ship := []
  deriving DecidableEq

namespace Catalog

/-- The number of ships. -/
def size (c : Catalog) : Nat := c.ships.length

/-- Whether there are no ships. -/
def isEmpty (c : Catalog) : Bool := c.ships.isEmpty

/-- Whether a ship may stand before another in a listing: by tier, and then by name. -/
def inOrder (a b : Ship) : Bool :=
  if a.tier < b.tier then true
  else if b.tier < a.tier then false
  else !textBefore b.name a.name

/-- The ships that match, in the order of a listing. -/
def narrow (c : Catalog) (f : Filters) : List Ship :=
  let nameLower := Text.lower f.shipName.toList
  stableSort inOrder (c.ships.filter fun ship => ship.satisfies f nameLower)

end Catalog

end FleetSearch
