/-
# FleetSearch.Proofs.Query.Tiers -- the tiers that a query mentions

Each of the three rules yields every tier at most once. The rule that decides is the first that
yields any (`tiers_eq`), so the result has no repeats either.
What a single rule yields is read off the patterns that it looks for (`bandTiers_ne_nil_iff`,
`mem_rangeTiers`, `mem_singleTiers`).
-/

import FleetSearch.Query.Tiers
import FleetSearch.Proofs.Pattern.Scan
import FleetSearch.Proofs.Tier

namespace FleetSearch

open Text Vocabulary

namespace Query

/-! ## Items where they first appear -/

section

variable {α : Type} [DecidableEq α]

theorem mem_appendNew {items : List α} {item x : α} :
    x ∈ appendNew items item ↔ x ∈ items ∨ x = item := by
  unfold appendNew
  split
  · next hmem =>
    constructor
    · exact .inl
    · rintro (hx | rfl)
      · exact hx
      · exact hmem
  · simp

theorem appendNew_nodup {items : List α} (h : items.Nodup) (item : α) :
    (appendNew items item).Nodup := by
  unfold appendNew
  split
  · exact h
  · next hmem =>
    rw [← List.concat_eq_append]
    exact h.concat hmem

/-- Going through more items keeps the list free of repeats and adds these items. -/
theorem foldl_appendNew (items : List α) {seen : List α} (h : seen.Nodup) :
    (items.foldl appendNew seen).Nodup ∧
      ∀ x, x ∈ items.foldl appendNew seen ↔ x ∈ seen ∨ x ∈ items := by
  induction items generalizing seen with
  | nil => simp [h]
  | cons item items ih =>
    obtain ⟨hnodup, hmem⟩ := ih (appendNew_nodup h item)
    refine ⟨hnodup, ?_⟩
    intro x
    rw [List.foldl_cons, hmem, mem_appendNew, List.mem_cons, or_assoc]

theorem firstSeen_nodup (items : List α) : (firstSeen items).Nodup :=
  (foldl_appendNew items List.nodup_nil).1

theorem mem_firstSeen {items : List α} {x : α} : x ∈ firstSeen items ↔ x ∈ items := by
  unfold firstSeen
  rw [(foldl_appendNew items List.nodup_nil).2]
  simp

/-- Items where they first appear are the items without those that repeat an earlier one. -/
theorem firstSeen_eq_eraseDups (items : List α) : firstSeen items = items.eraseDups := by
  have hfold : ∀ seen : List α, items.foldl appendNew seen =
      seen ++ (items.filter fun item => !decide (item ∈ seen)).eraseDups := by
    induction items with
    | nil => simp
    | cons item items ih =>
      intro seen
      rw [List.foldl_cons, ih]
      by_cases hmem : item ∈ seen
      · simp [appendNew, hmem]
      · have hfilter : (items.filter fun x => !decide (x ∈ seen ++ [item])) =
            (items.filter fun x => !decide (x ∈ seen)).filter fun x => !x == item := by
          rw [List.filter_filter]
          apply List.filter_congr
          intro x _
          by_cases hx : x ∈ seen <;> simp [hx, beq_eq_decide]
        rw [appendNew, if_neg hmem, hfilter, List.filter_cons_of_pos (by simpa using hmem),
          List.eraseDups_cons, List.append_assoc, List.singleton_append]
  unfold firstSeen
  simpa using hfold []

end

/-! ## The rules -/

theorem bandTiers_nodup (q : List Char) : (bandTiers q).Nodup := by
  unfold bandTiers
  split
  · exact Tier.between_nodup _ _
  · exact List.nodup_nil

theorem tiers_eq (q : List Char) :
    tiers q = if bandTiers q ≠ [] then bandTiers q
      else if rangeTiers q ≠ [] then rangeTiers q else singleTiers q := by
  simp only [tiers, tierRules, List.findSome?]
  cases bandTiers q <;> cases rangeTiers q <;> cases singleTiers q <;> rfl

/-- **No tier twice.** -/
theorem tiers_nodup (q : List Char) : (tiers q).Nodup := by
  rw [tiers_eq]
  split
  · exact bandTiers_nodup q
  · split
    · exact firstSeen_nodup _
    · exact firstSeen_nodup _

/-- Some tier is mentioned exactly if one of the rules yields any. -/
theorem tiers_ne_nil_iff {q : List Char} :
    tiers q ≠ [] ↔ bandTiers q ≠ [] ∨ rangeTiers q ≠ [] ∨ singleTiers q ≠ [] := by
  rw [tiers_eq]
  split
  · next hband => simp [hband]
  · next hband =>
    split
    · next hrange => simp [hrange]
    · next hrange =>
      rw [not_not] at hband hrange
      simp [hband, hrange]

theorem bandTiers_ne_nil_iff {q : List Char} :
    bandTiers q ≠ [] ↔ ∃ row ∈ bandPatterns, row.1.occurs q = true := by
  have hspan : ∀ row ∈ bandPatterns, Tier.between row.2.1 row.2.2 ≠ [] := by decide
  unfold bandTiers
  split
  · next p first last hfind =>
    have hrow := List.mem_of_find?_eq_some hfind
    have hoccurs := List.find?_some hfind
    constructor
    · intro _
      exact ⟨_, hrow, hoccurs⟩
    · intro _
      exact hspan _ hrow
  · next hnone =>
    rw [List.find?_eq_none] at hnone
    constructor
    · intro h
      exact absurd rfl h
    · rintro ⟨row, hrow, hoccurs⟩
      exact absurd hoccurs (hnone row hrow)

theorem mem_rangeTiers {q : List Char} {t : Tier} :
    t ∈ rangeTiers q ↔ ∃ p ∈ rangePatterns, ∃ h ∈ p.finds q, t ∈ rangeOf h := by
  simp only [rangeTiers, mem_firstSeen, List.mem_flatMap]

theorem mem_singleTiers {q : List Char} {t : Tier} :
    t ∈ singleTiers q ↔
      (∃ p ∈ digitPatterns, ∃ h ∈ p.finds q, tierOf Tier.ofDigits? h = some t) ∨
        ∃ h ∈ romanTierPattern.finds q, tierOf romanTier? h = some t := by
  simp only [singleTiers, mem_firstSeen, List.mem_append, List.mem_flatMap, List.mem_filterMap]

end Query

end FleetSearch
