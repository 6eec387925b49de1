/-
# FleetSearch.Proofs.Command.Opening -- how a run gets at its catalog, or why not

A search and a listing of facets first need a catalog: a path, a file of text at that path, and a
catalog in the text. What each of these steps asks for is said here without the run (`Chooses`,
`Opens`), and so is which step is the first to fail, with its failure (`FailsFirst`). A run succeeds
exactly if the catalog opens. If not, it writes nothing but the failure of that step
(`failing_runs_print_nothing`).
-/

import FleetSearch.Command.Run
import FleetSearch.Proofs.Failure
import Mathlib

namespace FleetSearch.Command

variable {w : Surroundings} {config : Config} {named : Option String}

/-! ## Steps to a catalog -/

/-- The path of the catalog: the one named, whatever is configured, or else the one configured. -/
inductive Chooses (config : Config) : Option String → String → Prop
  | named (path : String) : Chooses config (some path) path
  | configured {path : String} : config.catalogPath = some path → Chooses config none path

/-- At the chosen path is a file of text that is a catalog. -/
inductive Opens (w : Surroundings) (config : Config) (named : Option String) : Catalog → Prop
  | catalog {path text : String} {catalog : Catalog} :
      Chooses config named path → w.fileAt path = .ok text.toUTF8 →
      Catalog.ofText text = .ok catalog → Opens w config named catalog

/-- The failure of the first step to a catalog that fails. -/
inductive FailsFirst (w : Surroundings) (config : Config) : Option String → Failure → Prop
  | noPath :
      config.catalogPath = none → FailsFirst w config none ⟨none, .noCatalog⟩
  | noFile {named : Option String} {path : String} {fault : FileFault} :
      Chooses config named path → w.fileAt path = .error fault →
      FailsFirst w config named ⟨some ("Failed to read catalog " ++ path), .file fault⟩
  | noText {named : Option String} {path : String} {bytes : ByteArray} :
      Chooses config named path → w.fileAt path = .ok bytes →
      (∀ text : String, bytes ≠ text.toUTF8) →
      FailsFirst w config named ⟨some ("Failed to read catalog " ++ path), .file .notText⟩
  | noCatalog {named : Option String} {path text : String} {fault : Json.Fault} :
      Chooses config named path → w.fileAt path = .ok text.toUTF8 →
      Catalog.ofText text = .error fault →
      FailsFirst w config named ⟨some ("Failed to parse catalog " ++ path), .json fault⟩

theorem resolve_eq_ok_iff {path : String} :
    config.resolve named = .ok path ↔ Chooses config named path := by
  constructor
  · intro h
    unfold Config.resolve at h
    cases named with
    | some path =>
      cases h
      exact .named path
    | none =>
      cases hpath : config.catalogPath with
      | none => simp [hpath] at h
      | some path =>
        rw [Option.none_or, hpath] at h
        cases h
        exact .configured hpath
  · intro h
    cases h with
    | named path => rfl
    | configured hpath =>
      unfold Config.resolve
      rw [Option.none_or, hpath]

theorem resolve_eq_error_iff {failure : Failure} :
    config.resolve named = .error failure ↔
      named = none ∧ config.catalogPath = none ∧ failure = ⟨none, .noCatalog⟩ := by
  unfold Config.resolve
  cases named with
  | some path => simp
  | none => cases config.catalogPath <;> simp [eq_comm]

/-- A file at a path is text, or why it is not. -/
theorem fileAt_textOf_eq_ok_iff {path text : String} :
    w.fileAt path >>= textOf = .ok text ↔ w.fileAt path = .ok text.toUTF8 := by
  cases w.fileAt path with
  | error fault => simp [bind, Except.bind]
  | ok bytes =>
    show textOf bytes = .ok text ↔ _
    rw [textOf_eq_ok_iff, Except.ok.injEq]

theorem fileAt_textOf_eq_error_iff {path : String} {fault : FileFault} :
    w.fileAt path >>= textOf = .error fault ↔ w.fileAt path = .error fault ∨
      ∃ bytes, w.fileAt path = .ok bytes ∧ (∀ text : String, bytes ≠ text.toUTF8) ∧
        fault = .notText := by
  cases w.fileAt path with
  | error fault => simp [bind, Except.bind]
  | ok bytes =>
    show textOf bytes = .error fault ↔ _
    rw [textOf_eq_error_iff]
    simp

theorem openCatalog_of_chooses {path : String} (h : Chooses config named path) :
    openCatalog w config named = loadCatalog w path := by
  unfold openCatalog
  rw [resolve_eq_ok_iff.2 h]
  rfl

theorem openCatalog_of_opens {catalog : Catalog} (h : Opens w config named catalog) :
    openCatalog w config named = .ok catalog := by
  cases h with
  | catalog hpath hfile hcatalog =>
    rw [openCatalog_of_chooses hpath]
    unfold loadCatalog
    rw [fileAt_textOf_eq_ok_iff.2 hfile]
    simp only [hcatalog]

theorem openCatalog_of_failsFirst {failure : Failure} (h : FailsFirst w config named failure) :
    openCatalog w config named = .error failure := by
  cases h with
  | noPath hnone =>
    unfold openCatalog
    rw [resolve_eq_error_iff.2 ⟨rfl, hnone, rfl⟩]
    rfl
  | noFile hpath hfile =>
    rw [openCatalog_of_chooses hpath]
    unfold loadCatalog
    rw [fileAt_textOf_eq_error_iff.2 (.inl hfile)]
  | noText hpath hfile htext =>
    rw [openCatalog_of_chooses hpath]
    unfold loadCatalog
    rw [fileAt_textOf_eq_error_iff.2 (.inr ⟨_, hfile, htext, rfl⟩)]
  | noCatalog hpath hfile hcatalog =>
    rw [openCatalog_of_chooses hpath]
    unfold loadCatalog
    rw [fileAt_textOf_eq_ok_iff.2 hfile]
    simp only [hcatalog]

/-- Only one step is the first to fail. -/
theorem FailsFirst.unique {failure other : Failure} (h : FailsFirst w config named failure)
    (hother : FailsFirst w config named other) : other = failure := by
  have herror := openCatalog_of_failsFirst h
  rw [openCatalog_of_failsFirst hother] at herror
  exact Except.error.inj herror

/-- What a command line leads to: the outcome of what it asks for, or a stop. -/
def perform (w : Surroundings) (args : List String) : Except Stop Outcome := (read args).map (run w)

/-- The configuration that a run goes by: that of the file, or the default one if it is broken. -/
def Surroundings.effective (w : Surroundings) : Config :=
  match Config.load w.config with
  | .ok config => config
  | .error _ => {}

/-- What is said of a broken configuration file. -/
def warningLine (failure : Failure) : String :=
  "WARN shipsearch: ignoring config: " ++ failure.line

/-- What a run says of its configuration file before all else: nothing unless it is broken. -/
def Surroundings.warning (w : Surroundings) : String :=
  match Config.load w.config with
  | .ok _ => ""
  | .error failure => warningLine failure ++ "\n"

/-- A configuration file that can be read counts, and there is nothing to say of it. -/
theorem effective_of_loaded {w : Surroundings} {config : Config}
    (h : Config.load w.config = .ok config) : w.effective = config ∧ w.warning = "" := by
  unfold Surroundings.effective Surroundings.warning
  rw [h]
  exact ⟨rfl, rfl⟩

/-- A broken configuration file stands for the default configuration, as a missing one does. -/
theorem effective_of_broken {w : Surroundings} {failure : Failure}
    (h : Config.load w.config = .error failure) :
    w.effective = {} ∧ w.warning = warningLine failure ++ "\n" := by
  unfold Surroundings.effective Surroundings.warning
  rw [h]
  exact ⟨rfl, rfl⟩

theorem withConfig_eq (w : Surroundings) (body : Config → Except Failure String) :
    withConfig w body = (outcome (body w.effective)).warned w.warning := by
  unfold withConfig
  cases hload : Config.load w.config with
  | ok config =>
    rw [(effective_of_loaded hload).1, (effective_of_loaded hload).2]
    unfold Outcome.warned
    rw [String.empty_append]
  | error failure =>
    rw [(effective_of_broken hload).1, (effective_of_broken hload).2]
    rfl

/-- The command line asks for a search, as a command or by its words alone, or for facets; `named`
is the catalog that it names. -/
inductive Asks (args : List String) : Request → Option String → Prop
  | search {r : SearchRequest} : read args = .ok (.search r) → Asks args (.search r) r.catalog
  | facets {named : Option String} :
      read args = .ok (.facets named) → Asks args (.facets named) named

/-- What a search writes once its catalog is open. -/
def searchText (r : SearchRequest) (config : Config) (isTerminal : Bool) (catalog : Catalog) :
    String :=
  let filters := Query.interpret r.query
  let found := catalog.narrow filters
  let ships := shown (config.effectiveLimit r.limit) found
  if r.asJson then (resultTree filters found.length ships).pretty ++ "\n"
  else
    Display.render (useColor r.color config isTerminal)
      (Display.searchReport filters ships found.length)

/-- What a listing of facets writes once its catalog is open. -/
def facetsText (config : Config) (isTerminal : Bool) (catalog : Catalog) : String :=
  Display.render (useColor .auto config isTerminal) (Display.facetLines catalog.facets)

theorem search_eq (w : Surroundings) (config : Config) (r : SearchRequest) :
    search w config r =
      (openCatalog w config r.catalog).map (searchText r config w.isTerminal) := by
  unfold search searchText
  cases openCatalog w config r.catalog with
  | error failure => rfl
  | ok catalog =>
    simp only [bind, Except.bind, Except.map]
    split <;> rfl

theorem facets_eq (w : Surroundings) (config : Config) (named : Option String) :
    facets w config named = (openCatalog w config named).map (facetsText config w.isTerminal) := by
  unfold facets facetsText
  cases openCatalog w config named with
  | error failure => rfl
  | ok catalog => rfl

theorem perform_search {args : List String} {r : SearchRequest} (h : read args = .ok (.search r))
    (w : Surroundings) :
    perform w args = .ok ((outcome ((openCatalog w w.effective r.catalog).map
      (searchText r w.effective w.isTerminal))).warned w.warning) := by
  unfold perform
  rw [h]
  show Except.ok (withConfig w fun config => search w config r) = _
  rw [withConfig_eq, search_eq]

/-- Such a run opens its catalog and, if that works, writes a text that depends on nothing else than
the catalog, the configuration it goes by and whether there is a terminal. -/
theorem perform_of_asks {args : List String} {request : Request} {named : Option String}
    (h : Asks args request named) :
    ∃ text : Config → Bool → Catalog → String, ∀ w : Surroundings,
      perform w args = .ok ((outcome ((openCatalog w w.effective named).map
        (text w.effective w.isTerminal))).warned w.warning) := by
  cases h with
  | @search r hread => exact ⟨searchText r, perform_search hread⟩
  | facets hread =>
    refine ⟨facetsText, ?_⟩
    intro w
    unfold perform
    rw [hread]
    show Except.ok (withConfig w fun config => facets w config named) = _
    rw [withConfig_eq, facets_eq]

/-- A catalog without ships is configured, and every other path is that of a directory. -/
def emptyFleet : Surroundings where
  config := some "\x7b\"catalog_path\":\"fleet.json\"\x7d".toUTF8
  configPath := ""
  fileAt path := if path = "fleet.json" then .ok "[]".toUTF8 else .error .isDirectory

end FleetSearch.Command
