/-
# FleetSearch.Proofs.Query.Spacing -- the white space of a query does not matter

What a query mentions does not depend on how its words are spaced: queries with the same words
between white space have the same tiers, types and categories (`classified_by_words`). No pattern
for one of these sees how wide white space is. This does not hold of nations: their names are
written with a plain space, so "royal  navy" with two spaces is none.
-/

import FleetSearch.Proofs.Pattern.Spacing
import FleetSearch.Proofs.Query.Labels
import FleetSearch.Proofs.Query.Tiers
import Mathlib.Data.List.Find

namespace FleetSearch.Query

open Text Vocabulary Pattern

/-! ## The patterns -/

theorem ignoresSpacing_bandPatterns : ∀ row ∈ bandPatterns, row.1.IgnoresSpacing := by decide

theorem ignoresSpacing_rangePatterns : ∀ p ∈ rangePatterns, p.IgnoresSpacing := by decide

theorem ignoresSpacing_digitPatterns : ∀ p ∈ digitPatterns, p.IgnoresSpacing := by decide

theorem ignoresSpacing_romanTierPattern : romanTierPattern.IgnoresSpacing := by decide

theorem ignoresSpacing_typePatterns :
    ∀ row ∈ typePatterns, ∀ p ∈ row.2, p.IgnoresSpacing := by decide

theorem ignoresSpacing_categoryPatterns :
    ∀ row ∈ categoryPatterns, ∀ p ∈ row.2, p.IgnoresSpacing := by decide

/-! ## Queries with the same words -/

section

variable {q q' : List Char} (h : words q = words q')
include h

theorem bandTiers_respaced : bandTiers q = bandTiers q' := by
  have hfind : bandPatterns.find? (fun row => row.1.occurs q) =
      bandPatterns.find? fun row => row.1.occurs q' := by
    apply List.find?_congr
    intro row hrow
    exact occurs_respaced (ignoresSpacing_bandPatterns row hrow) h
  unfold bandTiers
  rw [hfind]

/-- A range is read off what is captured. -/
theorem rangeTiers_respaced : rangeTiers q = rangeTiers q' := by
  have hread : ∀ hs : List Hit, hs.flatMap rangeOf =
      (hs.map Hit.groups).flatMap fun gs => rangeOf ⟨[], gs, []⟩ := by
    intro hs
    rw [List.flatMap_map]
    rfl
  unfold rangeTiers
  congr 1
  apply List.flatMap_congr
  intro p hp
  rw [hread, hread, finds_respaced (ignoresSpacing_rangePatterns p hp) h]

/-- A single tier is read off what is captured. -/
theorem filterMap_tierOf_respaced {p : Pattern} (hp : p.IgnoresSpacing)
    (read : List Char → Option Tier) :
    (p.finds q).filterMap (tierOf read) = (p.finds q').filterMap (tierOf read) := by
  have hread : ∀ hs : List Hit, hs.filterMap (tierOf read) =
      (hs.map Hit.groups).filterMap fun gs => tierOf read ⟨[], gs, []⟩ := by
    intro hs
    rw [List.filterMap_map]
    rfl
  rw [hread, hread, finds_respaced hp h]

theorem singleTiers_respaced : singleTiers q = singleTiers q' := by
  have hdigits : (digitPatterns.flatMap fun p => (p.finds q).filterMap (tierOf Tier.ofDigits?)) =
      digitPatterns.flatMap fun p => (p.finds q').filterMap (tierOf Tier.ofDigits?) := by
    apply List.flatMap_congr
    intro p hp
    exact filterMap_tierOf_respaced h (ignoresSpacing_digitPatterns p hp) _
  unfold singleTiers
  rw [hdigits, filterMap_tierOf_respaced h ignoresSpacing_romanTierPattern]

theorem mentioned_respaced {α : Type} {rows : List (α × List Pattern)}
    (hrows : ∀ row ∈ rows, ∀ p ∈ row.2, p.IgnoresSpacing) :
    mentioned rows q = mentioned rows q' := by
  have hsame : ∀ row ∈ rows, ∀ p ∈ row.2, p.occurs q = p.occurs q' := by
    intro row hrow p hp
    exact occurs_respaced (hrows row hrow p hp) h
  apply List.Sublist.antisymm
  · apply mentioned_sublist_mentioned
    intro row hrow p hp hocc
    rwa [← hsame row hrow p hp]
  · apply mentioned_sublist_mentioned
    intro row hrow p hp hocc
    rwa [hsame row hrow p hp]

end

/-- **The white space of a query does not matter.** Queries with the same words between white space
have the same tiers, types and categories, however much white space of whatever kind stands between
the words, before the first and behind the last. -/
theorem classified_by_words {q q' : List Char} (h : words q = words q') :
    tiers q = tiers q' ∧ types q = types q' ∧ categories q = categories q' := by
  refine ⟨?_, mentioned_respaced h ignoresSpacing_typePatterns,
    mentioned_respaced h ignoresSpacing_categoryPatterns⟩
  rw [tiers_eq, tiers_eq, bandTiers_respaced h, rangeTiers_respaced h, singleTiers_respaced h]

/-- Among many kinds of white space, at the ends and in the middle, "tier 3 to tier 5" and
"tech tree" are still read. -/
theorem classified_by_words_wide :
    words "\ttier  3\u3000to\ntier 5 tech\u00a0 tree ".toList =
        words "tier 3 to tier 5 tech tree".toList ∧
      tiers "\ttier  3\u3000to\ntier 5 tech\u00a0 tree ".toList =
        tiers "tier 3 to tier 5 tech tree".toList ∧
      types "\ttier  3\u3000to\ntier 5 tech\u00a0 tree ".toList =
        types "tier 3 to tier 5 tech tree".toList ∧
      categories "\ttier  3\u3000to\ntier 5 tech\u00a0 tree ".toList =
        categories "tier 3 to tier 5 tech tree".toList := by
  have hwords : words "\ttier  3\u3000to\ntier 5 tech\u00a0 tree ".toList =
      words "tier 3 to tier 5 tech tree".toList := by decide
  exact ⟨hwords, classified_by_words hwords⟩

/-- Nations are not part of this. -/
example : words "royal  navy".toList = words "royal navy".toList ∧
    nations "royal  navy".toList = [] ∧ nations "royal navy".toList = [.uk] := by decide

end FleetSearch.Query
