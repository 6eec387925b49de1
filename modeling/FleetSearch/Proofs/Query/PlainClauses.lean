/-
# FleetSearch.Proofs.Query.PlainClauses -- clauses in which nothing is recognised

Classifications do not see what stands before the first word of a query (`classify_cons_break`). Nor
do they see a clause that has none itself: with it or without it the same rule decides the tiers,
and every label stands at the same place (`classify_append_plain`). Each pass is looked at by what
its patterns find, so both facts follow from one congruence for each pass.
-/

import FleetSearch.Proofs.Query.Clauses
import FleetSearch.Proofs.Query.Vocabulary
import Mathlib.Data.List.Find

namespace FleetSearch.Query

open Text Vocabulary

/-! ## What each pass depends on -/

section

variable {q r : List Char}

theorem mentioned_congr {α : Type} {rows : List (α × List Pattern)}
    (h : ∀ row ∈ rows, ∀ p ∈ row.2, p.occurs q = p.occurs r) :
    mentioned rows q = mentioned rows r := by
  have hrow : ∀ row ∈ rows, (row.2.any (·.occurs q)) = row.2.any (·.occurs r) := by
    intro row hrow
    rw [Bool.eq_iff_iff, List.any_eq_true, List.any_eq_true]
    exact exists_congr fun p => and_congr_right fun hp => by rw [h row hrow p hp]
  unfold mentioned
  rw [List.filter_congr hrow]

theorem bandTiers_congr (h : ∀ row ∈ bandPatterns, row.1.occurs q = row.1.occurs r) :
    bandTiers q = bandTiers r := by
  unfold bandTiers
  rw [List.find?_congr h]

theorem rangeTiers_congr (h : ∀ p ∈ rangePatterns,
      (p.finds q).flatMap rangeOf = (p.finds r).flatMap rangeOf) :
    rangeTiers q = rangeTiers r := by
  unfold rangeTiers
  rw [List.flatMap_congr h]

theorem singleTiers_congr
    (hdigits : ∀ p ∈ digitPatterns,
      (p.finds q).filterMap (tierOf Tier.ofDigits?) = (p.finds r).filterMap (tierOf Tier.ofDigits?))
    (hroman : (romanTierPattern.finds q).filterMap (tierOf romanTier?) =
      (romanTierPattern.finds r).filterMap (tierOf romanTier?)) :
    singleTiers q = singleTiers r := by
  unfold singleTiers
  rw [List.flatMap_congr hdigits, hroman]

theorem classify_congr (hband : bandTiers q = bandTiers r) (hrange : rangeTiers q = rangeTiers r)
    (hsingle : singleTiers q = singleTiers r) (htypes : types q = types r)
    (hnations : nations q = nations r) (hcategories : categories q = categories r) :
    classify q = classify r := by
  have htiers : tiers q = tiers r := by rw [tiers_eq, tiers_eq, hband, hrange, hsingle]
  unfold classify
  rw [htiers, htypes, hnations, hcategories]

end

/-! ## Before the first word -/

/-- Every pattern that queries are read by begins inside a word. -/
theorem startsInWord_of_mem_queryPatterns {p : Pattern} (hp : p ∈ queryPatterns) :
    p.isProper = true ∧ p.startsInWord = true := by
  have hall : (queryPatterns.all fun p => p.isProper && p.startsInWord) = true := by decide
  have hboth := List.all_eq_true.1 hall p hp
  rwa [Bool.and_eq_true] at hboth

section

variable {c : Char} (hc : isWord c = false)
include hc

theorem occurs_cons_break {p : Pattern} (hp : p ∈ queryPatterns) (q : List Char) :
    p.occurs (c :: q) = p.occurs q :=
  have hstarts := startsInWord_of_mem_queryPatterns hp
  Pattern.occurs_cons_break hstarts.1 hstarts.2 hc q

theorem finds_cons_break {p : Pattern} (hp : p ∈ queryPatterns) (q : List Char) :
    p.finds (c :: q) = p.finds q :=
  have hstarts := startsInWord_of_mem_queryPatterns hp
  Pattern.finds_cons_break hstarts.1 hstarts.2 hc q

theorem mentioned_cons_break {α : Type} {rows : List (α × List Pattern)}
    (hrows : rows.flatMap Prod.snd ∈ queryPasses) (q : List Char) :
    mentioned rows (c :: q) = mentioned rows q := by
  apply mentioned_congr
  intro row hrow p hp
  exact occurs_cons_break hc (mem_queryPatterns hrows (List.mem_flatMap.2 ⟨row, hrow, hp⟩)) q

/-- **What stands before the first word** of a query is not seen by any classification. -/
theorem classify_cons_break (q : List Char) : classify (c :: q) = classify q := by
  refine classify_congr (bandTiers_congr ?_) (rangeTiers_congr ?_) (singleTiers_congr ?_ ?_)
    (mentioned_cons_break hc (by simp [queryPasses]) q)
    (mentioned_cons_break hc (by simp [queryPasses]) q)
    (mentioned_cons_break hc (by simp [queryPasses]) q)
  · intro row hrow
    have hpass : row.1 ∈ bandPatterns.map Prod.fst := List.mem_map_of_mem hrow
    exact occurs_cons_break hc (mem_queryPatterns (by simp [queryPasses]) hpass) q
  · intro p hp
    rw [finds_cons_break hc (mem_queryPatterns (by simp [queryPasses]) hp)]
  · intro p hp
    rw [finds_cons_break hc (mem_queryPatterns (by simp [queryPasses]) hp)]
  · rw [finds_cons_break hc romanTierPattern_mem]

end

/-- Nor does a space before a query leave anything in its name. -/
theorem nameWords_cons_space (s : List Char) : nameWords (' ' :: s) = nameWords s := by
  have hfold : eraseKeywords (' ' :: s) = ' ' :: eraseKeywords s :=
    Pattern.foldl_erase_cons_break takesWords_of_mem_keywordPatterns (by decide) s
  have hdrop : dropSeparators (' ' :: eraseKeywords s) = ' ' :: dropSeparators (eraseKeywords s) :=
    rfl
  simp only [nameWords, words_eq_runs]
  rw [hfold, hdrop, runs_cons_break (by decide)]

theorem residual_cons_space (q : List Char) : residual (' ' :: q) = residual q := by
  rw [residual_eq_join, residual_eq_join, nameWords_cons_space]

/-! ## Behind a clause -/

section

variable {c : Char} (hc : IsClauseEnd c) {b : List Char}
include hc

theorem occurs_append_plain {p : Pattern} (hp : p ∈ queryPatterns) (hb : ¬ p.occurs b = true)
    (a : List Char) : p.occurs (a ++ c :: b) = p.occurs a := by
  have hiff := occurs_append_iff hc hp a b
  rw [or_iff_left hb] at hiff
  exact Bool.eq_iff_iff.2 hiff

theorem mentioned_append_plain {α : Type} {rows : List (α × List Pattern)}
    (hrows : rows.flatMap Prod.snd ∈ queryPasses) (hb : mentioned rows b = []) (a : List Char) :
    mentioned rows (a ++ c :: b) = mentioned rows a := by
  apply mentioned_congr
  rintro ⟨l, ps⟩ hrow p hp
  refine occurs_append_plain hc ?_ ?_ a
  · exact mem_queryPatterns hrows (List.mem_flatMap.2 ⟨(l, ps), hrow, hp⟩)
  · intro hocc
    have hmem := mem_mentioned.2 ⟨ps, hrow, p, hp, hocc⟩
    rw [hb] at hmem
    exact List.not_mem_nil hmem

theorem bandTiers_append_plain (hb : bandTiers b = []) (a : List Char) :
    bandTiers (a ++ c :: b) = bandTiers a := by
  apply bandTiers_congr
  intro row hrow
  have hpass : row.1 ∈ bandPatterns.map Prod.fst := List.mem_map_of_mem hrow
  refine occurs_append_plain hc (mem_queryPatterns (by simp [queryPasses]) hpass) ?_ a
  intro hocc
  exact bandTiers_ne_nil_iff.2 ⟨row, hrow, hocc⟩ hb

/-- What is read from the finds in two clauses is read from those in the first if the second yields
nothing, as long as the text behind a find does not count. -/
theorem finds_append_plain {α : Type} {p : Pattern} (hp : p ∈ queryPatterns) {f : Hit → List α}
    (hf : ∀ h t, f (h.extend t) = f h) (hb : (p.finds b).flatMap f = []) (a : List Char) :
    (p.finds (a ++ c :: b)).flatMap f = (p.finds a).flatMap f := by
  have hext : ((p.finds a).map (.extend (c :: b))).flatMap f = (p.finds a).flatMap f := by
    rw [List.flatMap_map]
    apply List.flatMap_congr
    intro h _
    exact hf h _
  rw [Pattern.finds_append_break (isWord_of_isClauseEnd hc) (avoids_of_mem_queryPatterns hc hp),
    List.flatMap_append, hext, hb, List.append_nil]

theorem rangeTiers_append_plain (hb : rangeTiers b = []) (a : List Char) :
    rangeTiers (a ++ c :: b) = rangeTiers a := by
  apply rangeTiers_congr
  intro p hp
  apply finds_append_plain hc (mem_queryPatterns (by simp [queryPasses]) hp) (fun _ _ => rfl)
  rw [List.eq_nil_iff_forall_not_mem] at hb ⊢
  intro t ht
  obtain ⟨h, hh, ht⟩ := List.mem_flatMap.1 ht
  exact hb t (mem_rangeTiers.2 ⟨p, hp, h, hh, ht⟩)

theorem filterMap_append_plain {α : Type} {p : Pattern} (hp : p ∈ queryPatterns)
    {f : Hit → Option α} (hf : ∀ h t, f (h.extend t) = f h) (hb : ∀ h ∈ p.finds b, f h = none)
    (a : List Char) : (p.finds (a ++ c :: b)).filterMap f = (p.finds a).filterMap f := by
  rw [List.filterMap_eq_flatMap_toList, List.filterMap_eq_flatMap_toList]
  apply finds_append_plain hc hp
  · intro h t
    rw [hf h t]
  · rw [← List.filterMap_eq_flatMap_toList, List.filterMap_eq_nil_iff]
    exact hb

theorem singleTiers_append_plain (hb : singleTiers b = []) (a : List Char) :
    singleTiers (a ++ c :: b) = singleTiers a := by
  rw [List.eq_nil_iff_forall_not_mem] at hb
  apply singleTiers_congr
  · intro p hp
    apply filterMap_append_plain hc (mem_queryPatterns (by simp [queryPasses]) hp)
      (fun _ _ => rfl)
    intro h hh
    rw [Option.eq_none_iff_forall_ne_some]
    intro t ht
    exact hb t (mem_singleTiers.2 (.inl ⟨p, hp, h, hh, ht⟩))
  · apply filterMap_append_plain hc romanTierPattern_mem (fun _ _ => rfl)
    intro h hh
    rw [Option.eq_none_iff_forall_ne_some]
    intro t ht
    exact hb t (mem_singleTiers.2 (.inr ⟨h, hh, ht⟩))

/-- **A clause without a classification** leaves those of the clause before it as they are. -/
theorem classify_append_plain (hb : (classify b).isClassified = false) (a : List Char) :
    classify (a ++ c :: b) = classify a := by
  have hnone : ¬ (classify b).isClassified = true := by simp [hb]
  simp only [isClassified_iff, tiers_ne_nil_iff, not_or, not_not] at hnone
  obtain ⟨⟨hband, hrange, hsingle⟩, htypes, hnations, hcategories⟩ := hnone
  exact classify_congr (bandTiers_append_plain hc hband a) (rangeTiers_append_plain hc hrange a)
    (singleTiers_append_plain hc hsingle a)
    (mentioned_append_plain hc (by simp [queryPasses]) htypes a)
    (mentioned_append_plain hc (by simp [queryPasses]) hnations a)
    (mentioned_append_plain hc (by simp [queryPasses]) hcategories a)

end

end FleetSearch.Query
