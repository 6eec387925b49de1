/-
# FleetSearch.Filters.Json -- filters as JSON

Filters are an object with five fields, all of which have to be there. Each classification is a
list of labels; a tier is labelled by its number as a string.
-/

import FleetSearch.Filters
import FleetSearch.Json.Printer
import FleetSearch.Json.Record

namespace FleetSearch.Filters

open FleetSearch.Json

/-! ## Writing -/

/-- A list of labels. -/
def labelList {α : Type} (label : α → String) (items : List α) : Tree :=
  .list (items.map fun a => .string (label a))

/-- Filters as a tree. -/
def toTree (f : Filters) : Tree := .object [
  ("tiers", labelList Tier.label f.tiers),
  ("types", labelList ShipType.label f.types),
  ("nations", labelList Nation.label f.nations),
  ("categories", labelList Category.label f.categories),
  ("shipName", .string f.shipName)]

/-! ## Reading -/

/-- Read a tier by its label. -/
def readTier (s : List Char) : Except Halt (Tier × List Char) := do
  let (text, rest) ← readText "a string" s
  match Tier.ofDigits? text.toList with
  | some tier => .ok (tier, rest)
  | none => .error (refusal ("invalid tier label: " ++ text) rest)

/-- Filters of which some fields may be missing. -/
structure Draft where
  tiers : Option (List Tier) := none
  types : Option (List ShipType) := none
  nations : Option (List Nation) := none
  categories : Option (List Category) := none
  shipName : Option String := none

/-- The filters of a draft, or the first field that is missing. -/
def Draft.build (d : Draft) : Except String Filters := do
  let tiers ← required "tiers" d.tiers
  let types ← required "types" d.types
  let nations ← required "nations" d.nations
  let categories ← required "categories" d.categories
  let shipName ← required "shipName" d.shipName
  pure ⟨tiers, types, nations, categories, shipName⟩

/-- How filters are read. -/
def record : Record Draft Filters where
  title := "struct SearchFilters"
  fields := [
    .of "tiers" Draft.tiers (fun d a => { d with tiers := some a }) (readListOf readTier),
    .of "types" Draft.types (fun d a => { d with types := some a })
      (readListOf (readLabel ShipType.all ShipType.label)),
    .of "nations" Draft.nations (fun d a => { d with nations := some a })
      (readListOf (readLabel Nation.all Nation.label)),
    .of "categories" Draft.categories (fun d a => { d with categories := some a })
      (readListOf (readLabel Category.all Category.label)),
    .of "shipName" Draft.shipName (fun d a => { d with shipName := some a })
      (readText "a string")]
  blank := {}
  build := Draft.build

/-- The filters of a JSON text. -/
def ofText (text : String) : Except Fault Filters := record.ofText text

end FleetSearch.Filters
