/-
# FleetSearch.Proofs.Filters.Json -- reading the filters that are written

Each value of a classification is read back from its label, so filters are read back from the JSON
text that they are written as (`Filters.filters_read_back`).
-/

import FleetSearch.Filters.Json
import FleetSearch.Proofs.Json.Tree
import FleetSearch.Proofs.Tier

namespace FleetSearch

open FleetSearch.Json

/-! ## Labels -/

theorem Tier.ofDigits?_label (t : Tier) : Tier.ofDigits? t.label.toList = some t := by
  rw [Tier.label, Tier.ofDigits?_of_decimal? (Text.decimal?_numeral t.value), Tier.ofNat?_eq_some]

theorem ShipType.ofLabel_label (t : ShipType) : ofLabel all label t.label = .ok t := by
  cases t <;> rfl

theorem Nation.ofLabel_label (n : Nation) : ofLabel all label n.label = .ok n := by
  cases n <;> rfl

theorem Category.ofLabel_label (c : Category) : ofLabel all label c.label = .ok c := by
  cases c <;> rfl

namespace Filters

/-- A tier is read back from its label. -/
theorem readsBack_tier (t : Tier) : ReadsBack readTier (.string t.label) t where
  starts := string_starts t.label
  reads depth s rest hrest hs := by
    have htext := (readsBack_text "a string" t.label).reads depth s rest hrest hs
    unfold readTier
    simp only [bind, Except.bind, htext, Tier.ofDigits?_label]

/-- A list of labels is read back if each value is from its label. -/
theorem readsBack_labelList {α : Type} {item : Reader α} {label : α → String}
    (h : ∀ a, ReadsBack item (.string (label a)) a) (as : List α) :
    ReadsBack (readListOf item) (labelList label as) as := by
  apply readsBack_list
  induction as with
  | nil => exact .nil
  | cons a as ih => exact .cons (h a) ih

/-- The members of filters fill a draft with all five fields. -/
theorem fills_toTree (f : Filters) :
    Fills record.fields record.blank [
        ("tiers", labelList Tier.label f.tiers),
        ("types", labelList ShipType.label f.types),
        ("nations", labelList Nation.label f.nations),
        ("categories", labelList Category.label f.categories),
        ("shipName", .string f.shipName)]
      ⟨some f.tiers, some f.types, some f.nations, some f.categories, some f.shipName⟩ := by
  have htiers := readsBack_labelList readsBack_tier f.tiers
  have htypes := readsBack_labelList (fun t => readsBack_label t.ofLabel_label) f.types
  have hnations := readsBack_labelList (fun n => readsBack_label n.ofLabel_label) f.nations
  have hcategories := readsBack_labelList (fun c => readsBack_label c.ofLabel_label) f.categories
  have hname := readsBack_text "a string" f.shipName
  exact .cons rfl rfl (htiers.field _ _ _ _) <| .cons rfl rfl (htypes.field _ _ _ _) <|
    .cons rfl rfl (hnations.field _ _ _ _) <| .cons rfl rfl (hcategories.field _ _ _ _) <|
    .cons rfl rfl (hname.field _ _ _ _) (.nil _)

/-- Filters are written as a tree of strings in lists. -/
theorem isSimple_toTree (f : Filters) (depth : Nat) : f.toTree.IsSimple (depth + 2) := by
  have hlabels : ∀ {α : Type} (label : α → String) (as : List α),
      (labelList label as).IsSimple (depth + 1) := by
    intro α label as
    refine .list ?_
    rw [List.forall_mem_map]
    exact fun a _ => .string (label a)
  refine .object ?_
  simp only [List.forall_mem_cons, List.not_mem_nil, false_implies, implies_true, and_true]
  exact ⟨hlabels _ _, hlabels _ _, hlabels _ _, hlabels _ _, .string _⟩

/-- **Filters are read back** from the JSON text that they are written as. -/
theorem filters_read_back (f : Filters) : Filters.ofText f.toTree.pretty = .ok f := by
  have hrecord : ReadsBack record.read f.toTree f := Record.readsBack (fills_toTree f) rfl
  exact hrecord.readWhole_pretty

end Filters

end FleetSearch
