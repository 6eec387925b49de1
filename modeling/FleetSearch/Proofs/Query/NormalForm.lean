/-
# FleetSearch.Proofs.Query.NormalForm -- what every interpretation looks like

The filters read from a query have no repeats, and their labels stand in the order of the tables. A
query without any classification is a name as it was typed. In any other query the name left over
is in a normal form: small characters, no separators, and single spaces between words
(`IsNormalName`). So nothing is asked for by white space alone, and something by everything else.
-/

import FleetSearch.Query.Interpret
import FleetSearch.Proofs.Query.Clauses
import FleetSearch.Proofs.Query.Tiers
import FleetSearch.Proofs.Text.LowerCase

namespace FleetSearch.Query

open Text Vocabulary

/-! ## Names -/

/-- The normal form of a name next to a classification. -/
structure IsNormalName (s : List Char) : Prop extends IsSpaced s where
  noSeparator : ∀ c ∈ s, c ∉ separators
  lowered : lower s = s

/-- A name is made of characters of the query, neither white space nor separators. -/
theorem mem_nameWords {q w : List Char} (hw : w ∈ nameWords q) :
    w ≠ [] ∧ ∀ c ∈ w, isBlank c = false ∧ c ∉ separators ∧ c ∈ q := by
  rw [nameWords, words_eq_runs] at hw
  obtain ⟨hne, hword⟩ := mem_runs hw
  refine ⟨hne, ?_⟩
  intro c hc
  have hblank : isBlank c = false := by simpa using hword c hc
  obtain ⟨d, hd, rfl⟩ := List.mem_map.1 (mem_of_mem_runs hw c hc)
  -- A separator has become a space, so it is in no word.
  split at hblank
  · cases hblank
  · next hsep =>
    rw [if_neg hsep]
    exact ⟨hblank, hsep, (eraseKeywords_sublist q).subset hd⟩

theorem isSpaced_residual (q : List Char) : IsSpaced (residual q) := by
  rw [residual_eq_join]
  apply isSpaced_join
  intro w hw
  obtain ⟨hne, hchar⟩ := mem_nameWords hw
  exact ⟨hne, fun c hc => (hchar c hc).1⟩

theorem mem_residual {q : List Char} {c : Char} (hc : c ∈ residual q) :
    c = ' ' ∨ c ∉ separators ∧ c ∈ q := by
  rw [residual_eq_join] at hc
  rcases mem_join hc with hc | ⟨w, hw, hc⟩
  · exact .inl (List.mem_singleton.1 hc)
  · exact .inr ((mem_nameWords hw).2 c hc).2

theorem not_mem_separators_of_mem_residual {q : List Char} {c : Char} (hc : c ∈ residual q) :
    c ∉ separators := by
  rcases mem_residual hc with rfl | ⟨hsep, _⟩
  · decide
  · exact hsep

theorem isNormalName_residual (q : List Char) : IsNormalName (residual (lower q)) := by
  refine ⟨isSpaced_residual _, fun _ => not_mem_separators_of_mem_residual, ?_⟩
  apply lower_eq_self
  intro c hc
  rcases mem_residual hc with rfl | ⟨_, hmem⟩
  · decide
  · exact isSmall_of_mem_lower hmem

/-! ## Filters -/

/-- What all filters have in common that are read from the query. -/
structure IsReadFrom (query : List Char) (f : Filters) : Prop where
  tiers_nodup : f.tiers.Nodup
  types_nodup : f.types.Nodup
  nations_nodup : f.nations.Nodup
  categories_nodup : f.categories.Nodup
  tiers_bounds : ∀ t ∈ f.tiers, 1 ≤ t.value ∧ t.value ≤ 11
  types_inOrder : f.types.Sublist typeTable
  nations_inOrder : f.nations.Sublist nationTable
  categories_inOrder : f.categories.Sublist categoryTable
  verbatim : f.isClassified = false → IsTrimmed query f.shipName.toList
  normalName : f.isClassified = true → IsNormalName f.shipName.toList
  isEmpty_iff : f.isEmpty = true ↔ ∀ c ∈ query, isBlank c = true

theorem interpret_isClassified (query : String) :
    (interpret query).isClassified = (classify (lower (trim query.toList))).isClassified := by
  show (interpretTrimmed (trim query.toList)).isClassified = _
  simp only [interpretTrimmed, Filters.isClassified]

/-- The name of the filters is what stripping leaves if they have a classification. -/
theorem interpret_shipName (query : String) :
    (interpret query).shipName.toList =
      if (interpret query).isClassified then residual (lower (trim query.toList))
      else trim query.toList := by
  have hname : ∀ typed, (interpretTrimmed typed).shipName =
      String.ofList (if (interpretTrimmed typed).isClassified then residual (lower typed)
        else typed) := fun _ => rfl
  rw [interpret, hname, String.toList_ofList]

/-- **Every query has an interpretation in normal form.** -/
theorem interpret_isReadFrom (query : String) : IsReadFrom query.toList (interpret query) := by
  have hname := interpret_shipName query
  have hverbatim : (interpret query).isClassified = false →
      IsTrimmed query.toList (interpret query).shipName.toList := by
    intro hclass
    rw [hname, if_neg (by simp [hclass])]
    exact isTrimmed_trim query.toList
  exact {
    tiers_nodup := tiers_nodup _
    types_nodup := typeTable_nodup.sublist (types_sublist _)
    nations_nodup := nationTable_nodup.sublist (nations_sublist _)
    categories_nodup := categoryTable_nodup.sublist (categories_sublist _)
    tiers_bounds := fun t _ => ⟨t.min_le, t.le_max⟩
    types_inOrder := types_sublist _
    nations_inOrder := nations_sublist _
    categories_inOrder := categories_sublist _
    verbatim := hverbatim
    -- Lower-casing comes before stripping, and stripping adds no character but spaces.
    normalName := by
      intro hclass
      rw [hname, if_pos hclass]
      exact isNormalName_residual _
    isEmpty_iff := by
      rw [Filters.isEmpty, Bool.and_eq_true, Bool.not_eq_true', String.isEmpty_iff,
        ← String.toList_eq_nil_iff, ← trim_eq_nil_iff]
      constructor
      · rintro ⟨hclass, hnil⟩
        rwa [hname, if_neg (by simp [hclass])] at hnil
      · intro hnil
        have hclass : (interpret query).isClassified = false := by
          rw [interpret, hnil]
          decide
        exact ⟨hclass, by rw [hname, if_neg (by simp [hclass]), hnil]⟩ }

end FleetSearch.Query
