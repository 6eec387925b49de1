/-
# FleetSearch.Query.Interpret -- from a query to filters

A query is trimmed and lower-cased, and every classification is read from that form. If none is
found the whole query is a name, in the case it was typed in; otherwise the name is what
stripping leaves. Every query has an interpretation.
-/

import FleetSearch.Filters
import FleetSearch.Query.Labels
import FleetSearch.Query.Residual
import FleetSearch.Query.Tiers
import FleetSearch.Text.LowerCase

namespace FleetSearch.Query

/-- The classifications of a query in lower case, without a name. -/
def classify (q : List Char) : Filters where
  tiers := tiers q
  types := types q
  nations := nations q
  categories := categories q

/-- The filters that a trimmed query asks for. -/
def interpretTrimmed (typed : List Char) : Filters :=
  let lowered := Text.lower typed
  let filters := classify lowered
  let name := if filters.isClassified then residual lowered else typed
  { filters with shipName := String.ofList name }

/-- The filters that a query asks for. -/
def interpret (query : String) : Filters := interpretTrimmed (Text.trim query.toList)

end FleetSearch.Query
