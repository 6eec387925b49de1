/-
# FleetSearch.Proofs.Command.SearchForms -- one search, as text and as JSON

What a search finds depends on the query, the catalog and a limit: the filters, how many ships match
them, and the first of these ships (`Findings.of`). It is written as text for a reader or as JSON
for a program. Both forms show the same findings: the text is that of the findings, and the JSON is
read back as the findings (`search_forms_agree`). The limit is the one asked for or else the one
configured, and it cuts the ships and not their number.
-/

import FleetSearch.Proofs.Catalog.Narrow
import FleetSearch.Proofs.Catalog.Written
import FleetSearch.Proofs.Command.Opening
import FleetSearch.Proofs.Command.SearchLine
import FleetSearch.Proofs.Filters.Json

namespace FleetSearch.Command

open Json

/-! ## Findings -/

/-- What a search finds: the filters it goes by, how many ships match, and those that it shows. -/
structure Findings where
  filters : Filters
  matched : Nat
  ships : List Ship

namespace Findings

/-- The findings of a query in a catalog. Of the ships that match, the first are shown, up to the
limit; 0 is no limit. -/
def of (catalog : Catalog) (query : String) (limit : Nat) : Findings :=
  let filters := Query.interpret query
  let found := catalog.narrow filters
  ⟨filters, found.length, if limit = 0 then found else found.take (min limit found.length)⟩

/-- The last line of the text: how many ships are shown, if not all of those that match. -/
def summary (f : Findings) : String :=
  if f.ships.length < f.matched then
    Text.numeral f.ships.length ++ " of " ++ Text.numeral f.matched ++ " ships\n"
  else Text.numeral f.matched ++ " ships\n"

/-- Findings as text: a line for the filters, a line for each ship, and the summary. -/
def text (colors : Bool) (f : Findings) : String :=
  Display.render colors (Display.filterLine f.filters) ++
    Display.render colors (Display.shipLines f.ships) ++
    Display.render colors (Display.within .dimmed f.summary.toList)

/-- Findings as JSON. -/
def json (f : Findings) : String := (resultTree f.filters f.matched f.ships).pretty ++ "\n"

/-- Findings of which some fields may be missing. -/
structure Draft where
  filters : Option Filters := none
  matched : Option Nat := none
  ships : Option (List Ship) := none

/-- The findings of a draft, or the first field that is missing. -/
def Draft.build (d : Draft) : Except String Findings := do
  let filters ← required "filters" d.filters
  let matched ← required "matched" d.matched
  let ships ← required "ships" d.ships
  pure ⟨filters, matched, ships⟩

/-- How a program reads findings. -/
def record : Record Draft Findings where
  title := "struct Findings"
  fields := [
    .of "filters" Draft.filters (fun d a => { d with filters := some a }) Filters.record.read,
    .of "matched" Draft.matched (fun d a => { d with matched := some a })
      (readNat "usize" UInt64.size),
    .of "ships" Draft.ships (fun d a => { d with ships := some a }) (readListOf Ship.record.read)]
  blank := {}
  build := Draft.build

/-! ## Text -/

theorem render_append (colors : Bool) (a b : Display.Styled) :
    Display.render colors (a ++ b) = Display.render colors a ++ Display.render colors b := by
  unfold Display.render
  rw [← String.ofList_append]
  cases colors with
  | false => simp [Display.plain]
  | true => simp [Display.colored]

/-- The report of a search is the text of its findings. -/
theorem render_searchReport (colors : Bool) (f : Findings) :
    Display.render colors (Display.searchReport f.filters f.ships f.matched) = f.text colors := by
  have hcounts : Display.countLine f.ships.length f.matched =
      Display.within .dimmed f.summary.toList := by
    unfold Display.countLine summary
    split <;> rfl
  unfold Display.searchReport text
  rw [render_append, render_append, hcounts]

/-! ## JSON -/

/-- The members of findings fill a draft with all three fields. -/
theorem fills_resultTree (f : Findings) (hmatched : f.matched < UInt64.size) :
    Fills record.fields record.blank [
        ("filters", f.filters.toTree),
        ("matched", .natural f.matched),
        ("ships", Catalog.shipsTree f.ships)]
      ⟨some f.filters, some f.matched, some f.ships⟩ := by
  have hfilters : ReadsBack Filters.record.read f.filters.toTree f.filters :=
    Record.readsBack f.filters.fills_toTree rfl
  have hnumber := readsBack_nat "usize" hmatched (le_refl wordLimit)
  have hships := Catalog.readsBack_shipsTree f.ships
  exact .cons rfl rfl (hfilters.field _ _ _ _) <| .cons rfl rfl (hnumber.field _ _ _ _) <|
    .cons rfl rfl (hships.field _ _ _ _) (.nil _)

/-- **Findings are read back** from the JSON that they are written as. -/
theorem ofText_json (f : Findings) (hmatched : f.matched < UInt64.size) :
    record.ofText f.json = .ok f := by
  have hread : ReadsBack record.read (resultTree f.filters f.matched f.ships) f :=
    Record.readsBack (f.fills_resultTree hmatched) rfl
  exact hread.readWhole_lines

/-- The ships in the JSON are a catalog file by themselves, for a program that knows nothing of
findings. -/
theorem json_holds_catalog (f : Findings) (hmatched : f.matched < UInt64.size) :
    ∃ members ships, Tree.ofText f.json = .ok (.object members) ∧
      Ship.IsOnly members "ships" ships ∧ Catalog.ofText ships.pretty = .ok ⟨f.ships⟩ := by
  have hsimple : (resultTree f.filters f.matched f.ships).IsSimple (124 + 3) := by
    refine .object ?_
    simp only [List.forall_mem_cons, List.not_mem_nil, false_implies, implies_true, and_true]
    exact ⟨f.filters.isSimple_toTree 124, .natural hmatched, Catalog.isSimple_shipsTree f.ships 124⟩
  exact ⟨_, _, hsimple.readsBack.readWhole_lines, rfl, Catalog.ofText_written f.ships⟩

/-! ## Limits -/

/-- Cutting the ships at the effective limit shows those of the findings. -/
theorem shown_effectiveLimit (config : Config) (asked : Option UInt64) (found : List Ship) :
    shown (config.effectiveLimit asked) found =
      if (asked.getD config.limit).toNat = 0 then found
      else found.take (min (asked.getD config.limit).toNat found.length) := by
  have hzero : asked.getD config.limit = 0 ↔ (asked.getD config.limit).toNat = 0 := by
    rw [← UInt64.toNat_inj]
    rfl
  unfold shown Config.effectiveLimit
  simp only [hzero]
  split
  · next heq =>
    split at heq
    · cases heq
    · next hlimit =>
      cases heq
      rw [if_neg hlimit, ← List.take_eq_take_min]
  · next heq =>
    split at heq
    · next hlimit => rw [if_pos hlimit]
    · cases heq

/-- No more ships match than the catalog has. -/
theorem matched_le_size (catalog : Catalog) (query : String) (limit : Nat) :
    (of catalog query limit).matched ≤ catalog.size := by
  show (catalog.narrow (Query.interpret query)).length ≤ catalog.ships.length
  rw [(Catalog.isListing_narrow catalog _).perm.length_eq]
  exact List.length_filter_le _ _

end Findings

/-! ## Runs -/

/-- Every file that can be read is so short that its bytes can be counted in 64 bits, as those of a
text in memory can. -/
def Surroundings.FilesFit (w : Surroundings) : Prop :=
  ∀ path bytes, w.fileAt path = .ok bytes → bytes.size < UInt64.size

/-- The ships of a catalog from a file that fits can be counted in 64 bits. -/
theorem Opens.size_lt {w : Surroundings} {config : Config} {named : Option String}
    {catalog : Catalog} (h : Opens w config named catalog) (hfit : w.FilesFit) :
    catalog.size < UInt64.size := by
  cases h with
  | catalog _ hfile hcatalog =>
    have hbytes := hfit _ _ hfile
    rw [String.toUTF8_eq_toByteArray, String.size_toByteArray] at hbytes
    exact (Catalog.size_le_of_ofText hcatalog).trans_lt hbytes

theorem searchText_eq (r : SearchRequest) (config : Config) (isTerminal : Bool)
    (catalog : Catalog) :
    searchText r config isTerminal catalog =
      let found := Findings.of catalog r.query (r.limit.getD config.limit).toNat
      if r.asJson then found.json else found.text (useColor r.color config isTerminal) := by
  unfold searchText
  simp only [Findings.shown_effectiveLimit]
  rw [← Findings.render_searchReport]
  rfl

/-- A search whose catalog opens writes what it finds. -/
theorem perform_search_of_opens {args : List String} {r : SearchRequest}
    (h : read args = .ok (.search r)) {w : Surroundings} {catalog : Catalog}
    (hopens : Opens w w.effective r.catalog catalog) :
    let found := Findings.of catalog r.query (r.limit.getD w.effective.limit).toNat
    perform w args = .ok ⟨0,
      if r.asJson then found.json else found.text (useColor r.color w.effective w.isTerminal),
      w.warning⟩ := by
  intro found
  have hsilent : w.warning ++ "" = w.warning := String.append_empty
  rw [perform_search h, openCatalog_of_opens hopens]
  show Except.ok
    (Outcome.mk 0 (searchText r w.effective w.isTerminal catalog) (w.warning ++ "")) = _
  rw [searchText_eq, hsilent]

/-- **Text and JSON agree.** For any words, limit and catalog that opens, the search that writes
text and the one that writes JSON both succeed; `read_searchLine` has command lines for them. With
the limit asked for, or else the configured one, the text is that of the findings, and the JSON is
read back as the findings. The ships in it are a catalog file by themselves, with the ships that are
shown. -/
theorem search_forms_agree {textArgs jsonArgs words : List String} {named : Option String}
    {limit : Option UInt64} {color jsonColor : ColorChoice}
    (htext : read textArgs = .ok (.search ⟨queryOf words, named, false, limit, color⟩))
    (hjson : read jsonArgs = .ok (.search ⟨queryOf words, named, true, limit, jsonColor⟩))
    {w : Surroundings} (hfit : w.FilesFit) {catalog : Catalog}
    (hopens : Opens w w.effective named catalog) :
    ∃ text json, perform w textArgs = .ok text ∧ perform w jsonArgs = .ok json ∧
      text.code = 0 ∧ json.code = 0 ∧
      let found := Findings.of catalog (queryOf words) (limit.getD w.effective.limit).toNat
      text.stdout = found.text (useColor color w.effective w.isTerminal) ∧
      Findings.record.ofText json.stdout = .ok found ∧
      ∃ members ships, Tree.ofText json.stdout = .ok (.object members) ∧
        Ship.IsOnly members "ships" ships ∧ Catalog.ofText ships.pretty = .ok ⟨found.ships⟩ := by
  have hmatched : (Findings.of catalog (queryOf words)
      (limit.getD w.effective.limit).toNat).matched < UInt64.size :=
    (Findings.matched_le_size _ _ _).trans_lt (hopens.size_lt hfit)
  exact ⟨_, _, perform_search_of_opens htext hopens, perform_search_of_opens hjson hopens, rfl, rfl,
    rfl, Findings.ofText_json _ hmatched, Findings.json_holds_catalog _ hmatched⟩

/-- A catalog of two ships is configured, and so is a limit of one. -/
def twoShips : Surroundings where
  config := some "\x7b\"catalog_path\":\"fleet.json\",\"limit\":1\x7d".toUTF8
  configPath := ""
  fileAt path :=
    if path = "fleet.json" then
      .ok "[[1,\"Kaga\",8,\"B\",\"usa\"],[2,\"Kaga\",7,\"B\",\"japan\"]]".toUTF8
    else .error .missing

/-- Both forms show the ship of the lower tier and say that two match. -/
theorem search_forms_agree_kaga :
    ∃ text json, perform twoShips ["search", "kaga"] = .ok text ∧
      perform twoShips ["search", "--json", "kaga"] = .ok json ∧
      text.stdout = "name: \"kaga\"\n" ++
        "T7  Kaga                     B           japan         tech_tree\n" ++
        "1 of 2 ships\n" ∧
      Findings.record.ofText json.stdout =
        .ok ⟨{ shipName := "kaga" }, 2, [⟨2, "Kaga", 7, "B", "japan", false, false⟩]⟩ := by
  have htext : read ["search", "kaga"] =
      .ok (.search ⟨queryOf ["kaga"], none, false, none, .auto⟩) := by
    cbv
  have hjson : read ["search", "--json", "kaga"] =
      .ok (.search ⟨queryOf ["kaga"], none, true, none, .auto⟩) := by
    cbv
  have hload : Config.load twoShips.config =
      .ok { catalogPath := some "fleet.json", limit := 1 } := by
    cbv
  obtain ⟨heffective, -⟩ := effective_of_loaded hload
  have hfit : twoShips.FilesFit := by
    intro path bytes hfile
    unfold twoShips at hfile
    simp only at hfile
    split at hfile
    · cases hfile
      decide +kernel
    · cases hfile
  have hopens : Opens twoShips twoShips.effective none
      ⟨[⟨1, "Kaga", 8, "B", "usa", false, false⟩, ⟨2, "Kaga", 7, "B", "japan", false, false⟩]⟩ := by
    rw [heffective]
    exact .catalog (.configured rfl) rfl (by cbv)
  obtain ⟨text, json, hruntext, hrunjson, -, -, hstdout, hread, -⟩ :=
    search_forms_agree htext hjson hfit hopens
  have hfound : Findings.of
      ⟨[⟨1, "Kaga", 8, "B", "usa", false, false⟩, ⟨2, "Kaga", 7, "B", "japan", false, false⟩]⟩
      (queryOf ["kaga"]) ((none : Option UInt64).getD twoShips.effective.limit).toNat =
      ⟨{ shipName := "kaga" }, 2, [⟨2, "Kaga", 7, "B", "japan", false, false⟩]⟩ := by
    have hfilters : Query.interpret (queryOf ["kaga"]) = { shipName := "kaga" } := by
      decide +kernel
    have hnarrow : Catalog.narrow
        ⟨[⟨1, "Kaga", 8, "B", "usa", false, false⟩, ⟨2, "Kaga", 7, "B", "japan", false, false⟩]⟩
        { shipName := "kaga" } =
        [⟨2, "Kaga", 7, "B", "japan", false, false⟩, ⟨1, "Kaga", 8, "B", "usa", false, false⟩] := by
      decide +kernel
    unfold Findings.of
    rw [heffective, hfilters]
    simp only [hnarrow]
    rfl
  rw [hfound] at hstdout hread
  refine ⟨text, json, hruntext, hrunjson, ?_, hread⟩
  rw [hstdout]
  decide +kernel

end FleetSearch.Command
