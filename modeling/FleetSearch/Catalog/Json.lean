/-
# FleetSearch.Catalog.Json -- the layouts of a catalog file

A catalog file is a list of ships, or an object of ships by key. In both a null stands for a ship
that is no longer known and is passed over. The ships of an object come by ascending key, and of
several members with one key the last counts. One entry that is no ship makes the file no
catalog.
-/

import FleetSearch.Catalog.Basic
import FleetSearch.Ship.Json

namespace FleetSearch.Catalog

open FleetSearch.Json

/-- The entry of a tree: a ship, or no ship if it is null; none if it is neither. -/
def entry? : Tree → Option (Option Ship)
  | .null => some none
  | t => (Ship.ofTree? t).map some

/-- The entries of trees, if all of them are entries. -/
def entries? : List Tree → Option (List (Option Ship))
  | [] => some []
  | t :: ts => do some ((← entry? t) :: (← entries? ts))

/-- The entries of members with their keys, if all of them are entries. -/
def keyedEntries? : List (String × Tree) → Option (List (String × Option Ship))
  | [] => some []
  | (key, t) :: members => do some ((key, ← entry? t) :: (← keyedEntries? members))

/-- The catalog of a tree. -/
def ofTree? : Tree → Option Catalog
  | .list items => do some ⟨(← entries? items).filterMap id⟩
  | .object members => do
    some ⟨(lastByKey textBefore (← keyedEntries? members)).filterMap Prod.snd⟩
  | _ => none

/-- Why a tree that is in neither layout is refused. -/
def noLayout : Cause := .refused "data did not match any variant of untagged enum CatalogFile"

/-- Read a catalog. A tree in neither layout is refused as such, without a place, whatever comes
after it. -/
def read (s : List Char) : Except Halt (Catalog × List Char) := do
  let (t, rest) ← Tree.read s
  match ofTree? t with
  | some catalog => .ok (catalog, rest)
  | none => .error (.pending noLayout rest)

/-- The catalog of a JSON text. -/
def ofText (text : String) : Except Fault Catalog := readWhole read text

end FleetSearch.Catalog
