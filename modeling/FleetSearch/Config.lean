/-
# FleetSearch.Config -- settings that last from run to run

The configuration holds a catalog to search by default, whether terminal output is colored, and
how many ships a search shows. Its file is a JSON object in which every field may be missing. A
file that is not there stands for the default configuration.
-/

import FleetSearch.Failure
import FleetSearch.Json.Printer
import FleetSearch.Json.Record

namespace FleetSearch

/-- The settings. -/
structure Config where
  /-- The catalog to search when none is named. -/
  catalogPath : Option String := none
  /-- Whether output to a terminal is colored. -/
  color : Bool := true
  /-- How many ships a search shows; 0 is no limit. -/
  limit : UInt64 := 0
  deriving DecidableEq

namespace Config

open FleetSearch.Json

/-! ## Using settings -/

/-- The catalog to search: the one named, or else the one configured. -/
def resolve (c : Config) (named : Option String) : Except Failure String :=
  match named.or c.catalogPath with
  | some path => .ok path
  | none => .error ⟨none, .noCatalog⟩

/-- How many ships to show at most, if there is a limit: as asked for, or else as configured. -/
def effectiveLimit (c : Config) (asked : Option UInt64) : Option UInt64 :=
  let limit := asked.getD c.limit
  if limit = 0 then none else some limit

/-! ## The file -/

/-- Settings as a tree. -/
def toTree (c : Config) : Tree := .object [
  ("catalog_path", (c.catalogPath.map Tree.string).getD .null),
  ("color", .boolean c.color),
  ("limit", .natural c.limit.toNat)]

/-- Settings as the text of a configuration file. -/
def text (c : Config) : String := c.toTree.pretty

/-- Settings of which some may be missing. -/
structure Draft where
  catalogPath : Option (Option String) := none
  color : Option Bool := none
  limit : Option UInt64 := none

/-- The settings of a draft, with defaults for what is missing. -/
def Draft.build (d : Draft) : Except String Config :=
  .ok ⟨d.catalogPath.getD none, d.color.getD true, d.limit.getD 0⟩

/-- Read a limit. -/
def readLimit (s : List Char) : Except Halt (UInt64 × List Char) := do
  let (n, rest) ← readNat "usize" UInt64.size s
  .ok (.ofNat n, rest)

/-- How settings are read. -/
def record : Record Draft Config where
  title := "struct AppConfig"
  fields := [
    .of "catalog_path" Draft.catalogPath (fun d a => { d with catalogPath := some a })
      (readOptional (readText "path string")),
    .of "color" Draft.color (fun d a => { d with color := some a }) readBool,
    .of "limit" Draft.limit (fun d a => { d with limit := some a }) readLimit]
  blank := {}
  build := Draft.build

/-- The settings of a JSON text. -/
def ofText (text : String) : Except Fault Config := record.ofText text

/-- The settings of a configuration file, which may be missing. -/
def load (file : Option ByteArray) : Except Failure Config :=
  match file with
  | none => .ok {}
  | some bytes =>
    match textOf bytes with
    | .error fault => .error ⟨some "Failed to read config file", .file fault⟩
    | .ok text =>
      match ofText text with
      | .error fault => .error ⟨some "Failed to parse config file", .json fault⟩
      | .ok config => .ok config

/-- The contents of the configuration file after saving. -/
def save (c : Config) : ByteArray := c.text.toUTF8

/-- The failure of saving where no file can be written. -/
def saveFailure (fault : FileFault) : Failure := ⟨some "Failed to write config file", .file fault⟩

end Config

end FleetSearch
