/-
# FleetSearch.Ship.Json -- ships as JSON

A ship is an object with seven fields, of which the two marks at the end are false unless they
are given; or a list of the fields in order. It can be read straight from a text, with the place
of a fault, or from a tree.
-/

import FleetSearch.Json.Printer
import FleetSearch.Json.Record
import FleetSearch.Ship

namespace FleetSearch.Ship

open FleetSearch.Json

/-! ## Writing -/

/-- A ship as a tree. -/
def toTree (ship : Ship) : Tree := .object [
  ("ship_id", .natural ship.shipId.toNat),
  ("name", .string ship.name),
  ("tier", .natural ship.tier.toNat),
  ("type", .string ship.type),
  ("nation", .string ship.nation),
  ("is_premium", .boolean ship.isPremium),
  ("is_special", .boolean ship.isSpecial)]

/-! ## Reading from a text -/

/-- A ship of which some fields may be missing. -/
structure Draft where
  shipId : Option UInt64 := none
  name : Option String := none
  tier : Option UInt8 := none
  type : Option String := none
  nation : Option String := none
  isPremium : Option Bool := none
  isSpecial : Option Bool := none

/-- The ship of a draft, or the first field that is missing. -/
def Draft.build (d : Draft) : Except String Ship := do
  let shipId ← required "ship_id" d.shipId
  let name ← required "name" d.name
  let tier ← required "tier" d.tier
  let type ← required "type" d.type
  let nation ← required "nation" d.nation
  pure ⟨shipId, name, tier, type, nation, d.isPremium.getD false, d.isSpecial.getD false⟩

/-- Read the number of a ship. -/
def readId (s : List Char) : Except Halt (UInt64 × List Char) := do
  let (n, rest) ← readNat "u64" UInt64.size s
  .ok (.ofNat n, rest)

/-- Read the tier of a ship. -/
def readTier (s : List Char) : Except Halt (UInt8 × List Char) := do
  let (n, rest) ← readNat "u8" UInt8.size s
  .ok (.ofNat n, rest)

/-- How ships are read. -/
def record : Record Draft Ship where
  title := "struct ShipRecord"
  fields := [
    .of "ship_id" Draft.shipId (fun d a => { d with shipId := some a }) readId,
    .of "name" Draft.name (fun d a => { d with name := some a }) (readText "a string"),
    .of "tier" Draft.tier (fun d a => { d with tier := some a }) readTier,
    .of "type" Draft.type (fun d a => { d with type := some a }) (readText "a string"),
    .of "nation" Draft.nation (fun d a => { d with nation := some a }) (readText "a string"),
    .of "is_premium" Draft.isPremium (fun d a => { d with isPremium := some a }) readBool,
    .of "is_special" Draft.isSpecial (fun d a => { d with isSpecial := some a }) readBool]
  blank := {}
  build := Draft.build

/-- The ships of a JSON text that is a list of ships. -/
def listOfText (text : String) : Except Fault (List Ship) :=
  readWhole (readListOf record.read) text

/-! ## Reading from a tree -/

/-- The ship number that a tree stands for. -/
def id? : Tree → Option UInt64
  | .number (.natural n) => if n < UInt64.size then some (.ofNat n) else none
  | _ => none

/-- The tier number that a tree stands for. -/
def tier? : Tree → Option UInt8
  | .number (.natural n) => if n < UInt8.size then some (.ofNat n) else none
  | _ => none

/-- The text that a tree stands for. -/
def text? : Tree → Option String
  | .string s => some s
  | _ => none

/-- The mark that a tree stands for, false if there is no tree. -/
def mark? : Option Tree → Option Bool
  | none => some false
  | some (.boolean b) => some b
  | some _ => none

/-- The value of a key that may come once; none if it comes more often. -/
def once? (key : String) (members : List (String × Tree)) : Option (Option Tree) :=
  match members.filter fun member => member.1 == key with
  | [] => some none
  | [(_, t)] => some (some t)
  | _ => none

/-- The ship with these fields. -/
def ofFields? (shipId name tier type nation : Tree) (isPremium isSpecial : Option Tree) :
    Option Ship := do
  let shipId ← id? shipId
  let name ← text? name
  let tier ← tier? tier
  let type ← text? type
  let nation ← text? nation
  let isPremium ← mark? isPremium
  let isSpecial ← mark? isSpecial
  some ⟨shipId, name, tier, type, nation, isPremium, isSpecial⟩

/-- The ship of an object with these members. -/
def ofMembers? (members : List (String × Tree)) : Option Ship := do
  let shipId ← (← once? "ship_id" members)
  let name ← (← once? "name" members)
  let tier ← (← once? "tier" members)
  let type ← (← once? "type" members)
  let nation ← (← once? "nation" members)
  let isPremium ← once? "is_premium" members
  let isSpecial ← once? "is_special" members
  ofFields? shipId name tier type nation isPremium isSpecial

/-- The ship of a tree. -/
def ofTree? : Tree → Option Ship
  | .object members => ofMembers? members
  | .list [shipId, name, tier, type, nation] =>
    ofFields? shipId name tier type nation none none
  | .list [shipId, name, tier, type, nation, isPremium] =>
    ofFields? shipId name tier type nation (some isPremium) none
  | .list [shipId, name, tier, type, nation, isPremium, isSpecial] =>
    ofFields? shipId name tier type nation (some isPremium) (some isSpecial)
  | _ => none

end FleetSearch.Ship
