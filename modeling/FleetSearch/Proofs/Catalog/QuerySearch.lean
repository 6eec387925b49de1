/-
# FleetSearch.Proofs.Catalog.QuerySearch -- searching a catalog by a query

A search does not depend on the case of its query or on white space around it
(`Catalog.search_ignores_case`). Only a query without a classification keeps its case, as a name,
and names are compared in lower case.

A ship whose name has no classification is found by it, and also by its tier and its name if
stripping leaves the name alone (`Catalog.plain_name_found`): the name is a clause that adds nothing
to the tier before it, and the tier leaves nothing in the name.
-/

import FleetSearch.Proofs.Catalog.Narrow
import FleetSearch.Proofs.Query.NormalForm
import FleetSearch.Proofs.Query.PlainClauses
import FleetSearch.Proofs.Text.LowerBlank

namespace FleetSearch

open Text Query

/-! ## The case of a query -/

namespace Query

/-- A query in lower case, between two texts. -/
def inLowerCase (before query after : String) : String :=
  before ++ String.ofList (lower query.toList) ++ after

theorem trim_inLowerCase {before after : String} (hbefore : IsGap before.toList)
    (hafter : IsGap after.toList) (query : String) :
    trim (inLowerCase before query after).toList = lower (trim query.toList) := by
  unfold inLowerCase
  rw [String.toList_append, String.toList_append, String.toList_ofList]
  exact trim_pad_lower hbefore hafter query.toList

/-- In lower case a query is interpreted as before, save that a query which is all name has the name
in lower case. -/
theorem interpretTrimmed_lower (s : List Char) :
    interpretTrimmed (lower s) =
      if (interpretTrimmed s).isClassified then interpretTrimmed s
      else { interpretTrimmed s with shipName := String.ofList (lower s) } := by
  have hclass : (interpretTrimmed s).isClassified = (classify (lower s)).isClassified := rfl
  rw [hclass]
  unfold interpretTrimmed
  simp only [lower_lower]
  split
  · rfl
  · rfl

end Query

namespace Catalog

/-- **A search ignores case and white space around the query.** In lower case and with white space
on both sides a query has the same classifications, if it has any the same name as well, and it
lists the same ships. -/
theorem search_ignores_case (c : Catalog) (query : String) {before after : String}
    (hbefore : IsGap before.toList) (hafter : IsGap after.toList) :
    c.narrow (interpret (inLowerCase before query after)) = c.narrow (interpret query) ∧
      (interpret (inLowerCase before query after)).tiers = (interpret query).tiers ∧
      (interpret (inLowerCase before query after)).types = (interpret query).types ∧
      (interpret (inLowerCase before query after)).nations = (interpret query).nations ∧
      (interpret (inLowerCase before query after)).categories = (interpret query).categories ∧
      ((interpret query).isClassified = true →
        (interpret (inLowerCase before query after)).shipName = (interpret query).shipName) := by
  have hread : interpret (inLowerCase before query after) =
      if (interpret query).isClassified then interpret query
      else { interpret query with shipName := String.ofList (lower (trim query.toList)) } := by
    rw [interpret, trim_inLowerCase hbefore hafter, interpretTrimmed_lower]
    rfl
  by_cases hclass : (interpret query).isClassified = true
  · rw [hread, if_pos hclass]
    exact ⟨rfl, rfl, rfl, rfl, rfl, fun _ => rfl⟩
  · rw [hread, if_neg hclass]
    -- The two names differ in case alone.
    have hname := interpret_shipName query
    rw [if_neg hclass] at hname
    refine ⟨?_, rfl, rfl, rfl, rfl, fun h => absurd h hclass⟩
    apply narrow_eq_of_alike
    exact {
      tiers _ := .rfl
      types _ := .rfl
      nations _ := .rfl
      categories _ := .rfl
      name := by rw [hname, String.toList_ofList, lower_lower] }

/-- A query with a classification and a name that ends in a final sigma. -/
theorem search_ignores_case_odysseus :
    IsGap "\u2003".toList ∧ IsGap "\n".toList ∧ (interpret "T8 ΟΔΥΣΣΕΥΣ").isClassified = true ∧
      (Catalog.mk [⟨1, "Οδυσσεύς", 8, "Cruiser", "europe", false, false⟩]).narrow
          (interpret (inLowerCase "\u2003" "T8 ΟΔΥΣΣΕΥΣ" "\n")) =
        (Catalog.mk [⟨1, "Οδυσσεύς", 8, "Cruiser", "europe", false, false⟩]).narrow
          (interpret "T8 ΟΔΥΣΣΕΥΣ") ∧
      (interpret (inLowerCase "\u2003" "T8 ΟΔΥΣΣΕΥΣ" "\n")).shipName =
        (interpret "T8 ΟΔΥΣΣΕΥΣ").shipName := by
  have hbefore : IsGap "\u2003".toList := by
    intro c hc
    rw [List.mem_singleton.1 hc]
    rfl
  have hafter : IsGap "\n".toList := by
    intro c hc
    rw [List.mem_singleton.1 hc]
    rfl
  have hclass : (interpret "T8 ΟΔΥΣΣΕΥΣ").isClassified = true := by decide +kernel
  obtain ⟨hlist, -, -, -, -, hname⟩ :=
    search_ignores_case (Catalog.mk [⟨1, "Οδυσσεύς", 8, "Cruiser", "europe", false, false⟩])
      "T8 ΟΔΥΣΣΕΥΣ" hbefore hafter
  exact ⟨hbefore, hafter, hclass, hlist, hname hclass⟩

end Catalog

/-! ## Names as queries -/

namespace Query

/-- The query that asks for a tier and then goes on with a text in a clause of its own. -/
def tierThen (k : Tier) (text : String) : String := "t" ++ k.label ++ ", " ++ text

/-- The clause that asks for a tier alone. -/
def tierClause (k : Tier) : List Char := 't' :: k.label.toList

theorem classify_tierClause (k : Tier) : classify (tierClause k) = { tiers := [k] } :=
  Tier.forall_tier (P := fun k => classify (tierClause k) = { tiers := [k] }) (by decide +kernel) k

theorem residual_tierClause (k : Tier) : residual (tierClause k) = [] :=
  Tier.forall_tier (P := fun k => residual (tierClause k) = []) (by decide +kernel) k

theorem isSmall_tierClause (k : Tier) : ∀ c ∈ tierClause k ++ [','], IsSmall c := by
  have hall : (tierClause k ++ [',']).all (fun c => decide (IsSmall c)) = true :=
    Tier.forall_tier (P := fun k => (tierClause k ++ [',']).all (fun c => decide (IsSmall c)) = true)
      (by decide +kernel) k
  simpa only [List.all_eq_true, decide_eq_true_eq] using hall

theorem toList_tierThen (k : Tier) (text : String) :
    (tierThen k text).toList = tierClause k ++ ',' :: ' ' :: text.toList := by
  unfold tierThen tierClause
  simp

/-- Behind a tier a text is read in lower case, with the space before it; before no text the space
is trimmed off. -/
theorem lower_trim_tierThen (k : Tier) {text : String}
    (hlast : ∀ c ∈ text.toList.getLast?, isBlank c = false) :
    lower (trim (tierThen k text).toList) =
      tierClause k ++ ',' :: if text.toList = [] then [] else ' ' :: lower text.toList := by
  have hsmall := lower_eq_self (isSmall_tierClause k)
  split
  · next hnil =>
    have htrim : IsTrimmed (tierThen k text).toList (tierClause k ++ [',']) := {
      cut := ⟨[], [' '], by rw [toList_tierThen, hnil]; simp, by simp, by simp [isBlank]⟩
      first := by simp [tierClause, isBlank]
      last := by simp [isBlank] }
    rw [htrim.trim_eq, hsmall]
  · next hne =>
    have htrim : trim (tierThen k text).toList = (tierThen k text).toList := by
      rw [toList_tierThen]
      apply trim_eq_self
      · simp [tierClause, isBlank]
      · rw [List.getLast?_append_of_ne_nil _ (List.cons_ne_nil _ _), List.getLast?_cons_cons,
          List.getLast?_cons_of_ne_nil hne]
        exact hlast
    have hcut : tierClause k ++ ',' :: ' ' :: text.toList =
        (tierClause k ++ [',']) ++ ' ' :: text.toList := by simp
    rw [htrim, toList_tierThen, hcut, lower_append_break (by rfl), hsmall]
    simp

theorem residual_tierClause_append (k : Tier) (b : List Char) :
    residual (tierClause k ++ ',' :: b) = residual b := by
  rw [residual_append (.inl rfl), residual_tierClause]
  exact if_pos rfl

theorem interpretTrimmed_of_isClassified {typed : List Char}
    (h : (classify (lower typed)).isClassified = true) :
    interpretTrimmed typed =
      { classify (lower typed) with shipName := String.ofList (residual (lower typed)) } := by
  unfold interpretTrimmed
  simp only [h, if_true]

/-- **A tier and a clause without a classification** ask for the tier and for what stripping leaves
of the clause. -/
theorem interpret_tierThen (k : Tier) {text : String}
    (hlast : ∀ c ∈ text.toList.getLast?, isBlank c = false)
    (hplain : (classify (lower text.toList)).isClassified = false) :
    interpret (tierThen k text) =
      { tiers := [k], shipName := String.ofList (residual (lower text.toList)) } := by
  -- The space before the text, or none, changes neither its classification nor its name.
  obtain ⟨b, hread, hb, hname⟩ : ∃ b,
      lower (trim (tierThen k text).toList) = tierClause k ++ ',' :: b ∧
        (classify b).isClassified = false ∧ residual b = residual (lower text.toList) := by
    refine ⟨_, lower_trim_tierThen k hlast, ?_⟩
    split
    · next hnil =>
      rw [hnil] at hplain ⊢
      exact ⟨hplain, rfl⟩
    · rw [classify_cons_break (by decide), residual_cons_space]
      exact ⟨hplain, rfl⟩
  have hclass : classify (tierClause k ++ ',' :: b) = { tiers := [k] } := by
    rw [classify_append_plain (.inl rfl) hb, classify_tierClause]
  rw [interpret, interpretTrimmed_of_isClassified (by rw [hread, hclass]; rfl), hread, hclass,
    residual_tierClause_append, hname]

end Query

/-- Filters without a classification ask for no more than a name. -/
theorem Filters.isClassified_eq_false_iff {f : Filters} : f.isClassified = false ↔
    f.tiers = [] ∧ f.types = [] ∧ f.nations = [] ∧ f.categories = [] := by
  simp [isClassified, and_assoc]

namespace Catalog

/-- **A ship with a plain name is found by it**, and by its tier and its name if stripping leaves
the name alone. -/
theorem plain_name_found {c : Catalog} {ship : Ship} (hship : ship ∈ c.ships)
    (hplain : (interpret ship.name).isClassified = false) :
    ship ∈ c.narrow (interpret ship.name) ∧
      ∀ k : Tier, k.value = ship.tier.toNat →
        residual (lower ship.name.toList) = lower ship.name.toList →
        interpret (tierThen k ship.name) =
            { tiers := [k], shipName := String.ofList (lower ship.name.toList) } ∧
          ship ∈ c.narrow (interpret (tierThen k ship.name)) := by
  refine ⟨?byName, ?byTier⟩
  case byName =>
    obtain ⟨htiers, htypes, hnations, hcategories⟩ := Filters.isClassified_eq_false_iff.1 hplain
    have hname := interpret_shipName ship.name
    rw [if_neg (by simp [hplain])] at hname
    rw [mem_narrow]
    refine ⟨hship, .inl htiers, .inl htypes, .inl hnations, .inl hcategories, .inr ?_⟩
    rw [hname]
    exact lower_trim_infix _
  case byTier =>
    intro k hk hkept
    -- A name in normal form does not begin or end with white space, in lower case or not.
    have hnormal := isNormalName_residual ship.name.toList
    rw [hkept] at hnormal
    have hfirst : ∀ c ∈ ship.name.toList.head?, isBlank c = false := by
      rw [not_any_isBlank_iff, ← isBlank_head?_lower, ← not_any_isBlank_iff]
      exact hnormal.first
    have hlast : ∀ c ∈ ship.name.toList.getLast?, isBlank c = false := by
      rw [not_any_isBlank_iff, ← isBlank_getLast?_lower, ← not_any_isBlank_iff]
      exact hnormal.last
    rw [interpret_isClassified, trim_eq_self hfirst hlast] at hplain
    have hread := interpret_tierThen k hlast hplain
    rw [hkept] at hread
    refine ⟨hread, ?_⟩
    rw [hread, mem_narrow]
    refine ⟨hship, .inr ⟨k, List.mem_singleton_self k, hk⟩, .inl rfl, .inl rfl, .inl rfl, .inr ?_⟩
    rw [String.toList_ofList, lower_lower]

/-- A ship whose name has an accent, a small sharp s and a space. -/
theorem plain_name_found_grosse_elan :
    (⟨7, "Große Élan", 8, "Cruiser", "germany", false, false⟩ : Ship) ∈
        [(⟨7, "Große Élan", 8, "Cruiser", "germany", false, false⟩ : Ship)] ∧
      (interpret "Große Élan").isClassified = false ∧
      residual (lower "Große Élan".toList) = lower "Große Élan".toList ∧
      interpret (tierThen ⟨8, by decide, by decide⟩ "Große Élan") =
        { tiers := [⟨8, by decide, by decide⟩], shipName := "große élan" } ∧
      (⟨7, "Große Élan", 8, "Cruiser", "germany", false, false⟩ : Ship) ∈
        (Catalog.mk [⟨7, "Große Élan", 8, "Cruiser", "germany", false, false⟩]).narrow
          (interpret (tierThen ⟨8, by decide, by decide⟩ "Große Élan")) := by
  have hplain : (interpret "Große Élan").isClassified = false := by decide +kernel
  have hkept : residual (lower "Große Élan".toList) = lower "Große Élan".toList := by decide +kernel
  have hname : lower "Große Élan".toList = "große élan".toList := by decide +kernel
  have hship := List.mem_singleton_self
    (⟨7, "Große Élan", 8, "Cruiser", "germany", false, false⟩ : Ship)
  obtain ⟨hread, hfound⟩ := (plain_name_found
    (c := ⟨[⟨7, "Große Élan", 8, "Cruiser", "germany", false, false⟩]⟩) hship hplain).2
    ⟨8, by decide, by decide⟩ rfl hkept
  rw [hname, String.ofList_toList] at hread
  exact ⟨hship, hplain, hkept, hread, hfound⟩

end Catalog

end FleetSearch
