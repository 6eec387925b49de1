/-
# FleetSearch.Command.Run -- carrying out a request

A run reads the configuration and a catalog and gives an exit code and what it writes. A search
goes on with the default configuration if the file is broken, and says so. A run that fails
writes nothing but why.
-/

import FleetSearch.Catalog.Json
import FleetSearch.Command.Arguments
import FleetSearch.Config
import FleetSearch.Display.Report
import FleetSearch.Filters.Json
import FleetSearch.Query.Interpret

namespace FleetSearch.Command

/-! ## Surroundings and outcome -/

/-- What a run finds around it. -/
structure Surroundings where
  /-- The bytes of the configuration file, if there is one. -/
  config : Option ByteArray := none
  /-- Where the configuration file is. -/
  configPath : String
  /-- The bytes of the file at a path. -/
  fileAt : String → Except FileFault ByteArray
  /-- Whether standard output is a terminal. -/
  isTerminal : Bool := false

/-- What a run leaves behind. -/
structure Outcome where
  code : Nat
  stdout : String
  stderr : String
  deriving DecidableEq

/-- The outcome of a run that has given its text, or failed. -/
def outcome : Except Failure String → Outcome
  | .ok text => ⟨0, text, ""⟩
  | .error failure => ⟨1, "", failure.report⟩

/-- The outcome with a line on standard error before everything else. -/
def Outcome.warned (line : String) (o : Outcome) : Outcome := { o with stderr := line ++ o.stderr }

/-! ## Catalogs -/

/-- Read the catalog at a path. -/
def loadCatalog (w : Surroundings) (path : String) : Except Failure Catalog :=
  match w.fileAt path >>= textOf with
  | .error fault => .error ⟨some ("Failed to read catalog " ++ path), .file fault⟩
  | .ok text =>
    match Catalog.ofText text with
    | .error fault => .error ⟨some ("Failed to parse catalog " ++ path), .json fault⟩
    | .ok catalog => .ok catalog

/-- The catalog file that a request reads, if it gets that far. -/
def wantedPath (w : Surroundings) (request : Request) : Option String :=
  let config := (Config.load w.config).toOption.getD {}
  let path (named : Option String) : Option String := (config.resolve named).toOption
  match request with
  | .search r => path r.catalog
  | .facets named => path named
  | _ => none

/-- Read the catalog that is named or configured. -/
def openCatalog (w : Surroundings) (config : Config) (named : Option String) :
    Except Failure Catalog := do
  loadCatalog w (← config.resolve named)

/-! ## Searches -/

/-- The first ships up to a limit. -/
def shown (limit : Option UInt64) (ships : List Ship) : List Ship :=
  match limit with
  | some n => ships.take n.toNat
  | none => ships

/-- The result of a search as a tree. -/
def resultTree (f : Filters) (matched : Nat) (ships : List Ship) : Json.Tree := .object [
  ("filters", f.toTree),
  ("matched", .natural matched),
  ("ships", .list (ships.map Ship.toTree))]

/-- Whether to use colors. -/
def useColor (choice : ColorChoice) (config : Config) (isTerminal : Bool) : Bool :=
  match choice with
  | .always => true
  | .never => false
  | .auto => config.color && isTerminal

/-- What a search writes. -/
def search (w : Surroundings) (config : Config) (r : SearchRequest) : Except Failure String := do
  let catalog ← openCatalog w config r.catalog
  let filters := Query.interpret r.query
  let found := catalog.narrow filters
  let ships := shown (config.effectiveLimit r.limit) found
  if r.asJson then .ok ((resultTree filters found.length ships).pretty ++ "\n")
  else
    .ok (Display.render (useColor r.color config w.isTerminal)
      (Display.searchReport filters ships found.length))

/-- What listing the facets of a catalog writes. -/
def facets (w : Surroundings) (config : Config) (named : Option String) :
    Except Failure String := do
  let catalog ← openCatalog w config named
  .ok (Display.render (useColor .auto config w.isTerminal) (Display.facetLines catalog.facets))

/-- Carry out a run with the configuration, or with the default one and a warning. -/
def withConfig (w : Surroundings) (run : Config → Except Failure String) : Outcome :=
  match Config.load w.config with
  | .ok config => outcome (run config)
  | .error failure =>
    (outcome (run {})).warned ("WARN shipsearch: ignoring config: " ++ failure.line ++ "\n")

/-! ## Requests -/

/-- What showing the settings writes. -/
def showConfig (w : Surroundings) : Except Failure String := do
  let config ← Config.load w.config
  .ok (config.text ++ "\n")

/-- Carry out a request. -/
def run (w : Surroundings) : Request → Outcome
  | .parse query => outcome (.ok ((Query.interpret query).toTree.pretty ++ "\n"))
  | .search request => withConfig w fun config => search w config request
  | .facets named => withConfig w fun config => facets w config named
  | .config true => outcome (.ok (w.configPath ++ "\n"))
  | .config false => outcome (showConfig w)

end FleetSearch.Command
