/-
# FleetSearch.Display.Report -- what a search shows

The report of a search is one line for the filters, one line for each ship in columns, and one
line for the counts. Columns are as wide as given, counted in characters, and never cut a value
short.
-/

import FleetSearch.Catalog.Facets
import FleetSearch.Display.Styled

namespace FleetSearch.Display

/-! ## Building blocks -/

/-- The text with spaces after it up to the given width. -/
def pad (width : Nat) (s : List Char) : List Char :=
  s ++ List.replicate (width - s.length) ' '

/-- Texts with a comma and a space between neighbours. -/
def commaList : List String → List Char
  | [] => []
  | [s] => s.toList
  | s :: ss => s.toList ++ ", ".toList ++ commaList ss

/-- A label in color and its values. -/
def labeled (label : String) (values : List Char) : Styled :=
  within .cyan (label.toList ++ [':']) ++ [.text (' ' :: values)]

/-! ## Filters -/

/-- The fields of filters that ask for something, each by its label and values. -/
def filterFields (f : Filters) : List (String × List String) :=
  let fields := [
    ("tiers", f.tiers.map Tier.label),
    ("types", f.types.map ShipType.label),
    ("nations", f.nations.map Nation.label),
    ("categories", f.categories.map Category.label),
    ("name", if f.shipName.isEmpty then [] else ["\"" ++ f.shipName ++ "\""])]
  fields.filter fun field => !field.2.isEmpty

/-- Fields with two spaces between neighbours. -/
def fieldRow : List (String × List String) → Styled
  | [] => []
  | [(label, values)] => labeled label (commaList values)
  | (label, values) :: fields =>
    labeled label (commaList values) ++ .text [' ', ' '] :: fieldRow fields

/-- The line for the filters. -/
def filterLine (f : Filters) : Styled :=
  if f.isEmpty then [.text "(no filters)\n".toList]
  else fieldRow (filterFields f) ++ [.text ['\n']]

/-! ## Ships -/

/-- The width of the column of names. -/
def nameWidth : Nat := 24

/-- The line for a ship. Only premium ships have their category in color, and the line ends in
the default style in any case. -/
def shipLine (ship : Ship) : Styled :=
  within .green ('T' :: pad 3 (Text.numeral ship.tier.toNat).toList) ++
    within .bold (pad nameWidth ship.name.toList) ++
    within .magenta (' ' :: pad 11 ship.type.toList) ++
    [.text (' ' :: pad 13 ship.nation.toList)] ++
    (if ship.category = .premium then [.start .yellow] else []) ++
    [.text (' ' :: ship.category.label.toList ++ ['\n']), .reset]

/-- The lines for ships. -/
def shipLines (ships : List Ship) : Styled := ships.flatMap shipLine

/-! ## Counts and facets -/

/-- The line for the counts: how many ships are shown, if not all of those that matched. -/
def countLine (shown matched : Nat) : Styled :=
  let counts :=
    if shown < matched then Text.numeral shown ++ " of " ++ Text.numeral matched
    else Text.numeral matched
  within .dimmed (counts ++ " ships\n").toList

/-- The lines for the facets of a catalog. -/
def facetLines (f : Facets) : Styled :=
  labeled "nations" (commaList f.nations ++ ['\n']) ++
    labeled "tiers" (commaList (f.tiers.map fun t => Text.numeral t.toNat) ++ ['\n']) ++
    labeled "types" (commaList f.types ++ ['\n'])

/-- The whole report of a search. -/
def searchReport (f : Filters) (shown : List Ship) (matched : Nat) : Styled :=
  filterLine f ++ shipLines shown ++ countLine shown.length matched

end FleetSearch.Display
