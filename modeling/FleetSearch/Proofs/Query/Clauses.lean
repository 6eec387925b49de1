/-
# FleetSearch.Proofs.Query.Clauses -- clauses are read apart

A comma or a semicolon is a clause break for every pattern of the query language: no pattern can
take it, and it belongs to no word. So the labels that two clauses mention together are those that
they mention by themselves, and the name left over is made of the two names left over
(`clauses_read_apart`).
-/

import FleetSearch.Query.Interpret
import FleetSearch.Proofs.Query.Labels
import FleetSearch.Proofs.Query.Tiers
import FleetSearch.Proofs.Text.Runs

namespace FleetSearch.Query

open Text Vocabulary

/-- A character that ends a clause. -/
def IsClauseEnd (c : Char) : Prop := c = ',' ∨ c = ';'

theorem isWord_of_isClauseEnd {c : Char} (hc : IsClauseEnd c) : isWord c = false := by
  rcases hc with rfl | rfl <;> decide

/-- The patterns of each pass over a query. -/
def queryPasses : List (List Pattern) :=
  [bandPatterns.map Prod.fst, rangePatterns, digitPatterns, [romanTierPattern],
    typePatterns.flatMap Prod.snd, nationPatterns.flatMap Prod.snd,
    categoryPatterns.flatMap Prod.snd, keywordPatterns]

/-- Every pattern that queries are read by. -/
def queryPatterns : List Pattern := queryPasses.flatten

theorem mem_queryPatterns {pass : List Pattern} (hpass : pass ∈ queryPasses) {p : Pattern}
    (hp : p ∈ pass) : p ∈ queryPatterns := List.mem_flatten_of_mem hpass hp

theorem romanTierPattern_mem : romanTierPattern ∈ queryPatterns :=
  mem_queryPatterns (by simp [queryPasses]) (List.mem_singleton_self romanTierPattern)

/-- **No pattern can take the end of a clause.** -/
theorem avoids_of_mem_queryPatterns {c : Char} (hc : IsClauseEnd c) {p : Pattern}
    (hp : p ∈ queryPatterns) : p.avoids c = true := by
  have hall : (queryPatterns.all fun p => p.avoids ',' && p.avoids ';') = true := by decide
  have hboth := List.all_eq_true.1 hall p hp
  rw [Bool.and_eq_true] at hboth
  rcases hc with rfl | rfl
  · exact hboth.1
  · exact hboth.2

/-! ## Labels -/

/-- The last list is the union of the two before it, without repeats and in the order of the
table. -/
structure IsUnion {α : Type} (table xs ys zs : List α) : Prop where
  inOrder : zs.Sublist table
  nodup : zs.Nodup
  mem_iff : ∀ l, l ∈ zs ↔ l ∈ xs ∨ l ∈ ys

/-- A list that has the members of two others has some if one of them has. -/
theorem ne_nil_congr_or {α : Type} {xs ys zs : List α} (h : ∀ x, x ∈ zs ↔ x ∈ xs ∨ x ∈ ys) :
    zs ≠ [] ↔ xs ≠ [] ∨ ys ≠ [] := by
  simp only [← List.isEmpty_eq_false_iff, List.isEmpty_eq_false_iff_exists_mem, h, exists_or]

/-- A query has a classification if one of the four passes finds something. -/
theorem isClassified_iff {q : List Char} :
    (classify q).isClassified = true ↔
      tiers q ≠ [] ∨ types q ≠ [] ∨ nations q ≠ [] ∨ categories q ≠ [] := by
  simp [Filters.isClassified, classify, or_assoc]

section

variable {c : Char} (hc : IsClauseEnd c)
include hc

/-- A pattern occurs in two clauses together exactly if it occurs in one of them. -/
theorem occurs_append_iff {p : Pattern} (hp : p ∈ queryPatterns) (a b : List Char) :
    p.occurs (a ++ c :: b) = true ↔ p.occurs a = true ∨ p.occurs b = true := by
  have havoids := avoids_of_mem_queryPatterns hc hp
  rw [Pattern.occurs_append_break (isWord_of_isClauseEnd hc) havoids, Bool.or_eq_true]

theorem mem_mentioned_append {α : Type} {rows : List (α × List Pattern)}
    (hrows : rows.flatMap Prod.snd ∈ queryPasses) (a b : List Char) (l : α) :
    l ∈ mentioned rows (a ++ c :: b) ↔ l ∈ mentioned rows a ∨ l ∈ mentioned rows b := by
  have hoccurs : ∀ ps, (l, ps) ∈ rows → ∀ p ∈ ps,
      (p.occurs (a ++ c :: b) = true ↔ p.occurs a = true ∨ p.occurs b = true) := by
    intro ps hrow p hp
    apply occurs_append_iff hc
    exact mem_queryPatterns hrows (List.mem_flatMap.2 ⟨_, hrow, hp⟩)
  simp only [mem_mentioned]
  constructor
  · rintro ⟨ps, hrow, p, hp, hocc⟩
    rcases (hoccurs ps hrow p hp).1 hocc with hocc | hocc
    · exact .inl ⟨ps, hrow, p, hp, hocc⟩
    · exact .inr ⟨ps, hrow, p, hp, hocc⟩
  · rintro (⟨ps, hrow, p, hp, hocc⟩ | ⟨ps, hrow, p, hp, hocc⟩)
    · exact ⟨ps, hrow, p, hp, (hoccurs ps hrow p hp).2 (.inl hocc)⟩
    · exact ⟨ps, hrow, p, hp, (hoccurs ps hrow p hp).2 (.inr hocc)⟩

/-- The labels of two clauses together are those of the one and those of the other. -/
theorem isUnion_mentioned {α : Type} {table : List (α × List String)}
    {pattern : List String → List Pattern} (htable : (table.map Prod.fst).Nodup)
    (hrows : (rowPatterns table pattern).flatMap Prod.snd ∈ queryPasses) (a b : List Char) :
    IsUnion (table.map Prod.fst) (mentioned (rowPatterns table pattern) a)
      (mentioned (rowPatterns table pattern) b)
      (mentioned (rowPatterns table pattern) (a ++ c :: b)) where
  inOrder := mentioned_rowPatterns_sublist table pattern _
  nodup := htable.sublist (mentioned_rowPatterns_sublist table pattern _)
  mem_iff := mem_mentioned_append hc hrows a b

theorem isUnion_types (a b : List Char) :
    IsUnion typeTable (types a) (types b) (types (a ++ c :: b)) :=
  isUnion_mentioned hc typeTable_nodup (by simp [queryPasses, typePatterns]) a b

theorem isUnion_nations (a b : List Char) :
    IsUnion nationTable (nations a) (nations b) (nations (a ++ c :: b)) :=
  isUnion_mentioned hc nationTable_nodup (by simp [queryPasses, nationPatterns]) a b

theorem isUnion_categories (a b : List Char) :
    IsUnion categoryTable (categories a) (categories b) (categories (a ++ c :: b)) :=
  isUnion_mentioned hc categoryTable_nodup (by simp [queryPasses, categoryPatterns]) a b

/-! ## Tiers and classifications -/

theorem bandTiers_append_ne_nil_iff (a b : List Char) :
    bandTiers (a ++ c :: b) ≠ [] ↔ bandTiers a ≠ [] ∨ bandTiers b ≠ [] := by
  simp only [bandTiers_ne_nil_iff, ← exists_or, ← and_or_left]
  apply exists_congr
  intro row
  apply and_congr_right
  intro hrow
  have hpass : row.1 ∈ bandPatterns.map Prod.fst := List.mem_map_of_mem hrow
  exact occurs_append_iff hc (mem_queryPatterns (by simp [queryPasses]) hpass) a b

/-- The finds of several patterns in two clauses together are those in either of them. -/
theorem exists_finds_append {ps : List Pattern} (hps : ps ∈ queryPasses)
    {P : Hit → Prop} (hP : ∀ h t, P (h.extend t) ↔ P h) (a b : List Char) :
    (∃ p ∈ ps, ∃ h ∈ p.finds (a ++ c :: b), P h) ↔
      (∃ p ∈ ps, ∃ h ∈ p.finds a, P h) ∨ ∃ p ∈ ps, ∃ h ∈ p.finds b, P h := by
  rw [← exists_or]
  apply exists_congr
  intro p
  rw [← and_or_left]
  apply and_congr_right
  intro hp
  have havoids := avoids_of_mem_queryPatterns hc (mem_queryPatterns hps hp)
  exact Pattern.exists_finds_append_break (isWord_of_isClauseEnd hc) havoids hP a b

theorem mem_rangeTiers_append (a b : List Char) (t : Tier) :
    t ∈ rangeTiers (a ++ c :: b) ↔ t ∈ rangeTiers a ∨ t ∈ rangeTiers b := by
  simp only [mem_rangeTiers]
  exact exists_finds_append hc (by simp [queryPasses]) (fun _ _ => Iff.rfl) a b

theorem mem_singleTiers_append (a b : List Char) (t : Tier) :
    t ∈ singleTiers (a ++ c :: b) ↔ t ∈ singleTiers a ∨ t ∈ singleTiers b := by
  -- The pattern of roman tiers stands alone, so it is looked at as a list of one.
  have hroman : [romanTierPattern] ∈ queryPasses := by simp [queryPasses]
  have hfinds := exists_finds_append hc hroman
    (P := fun h => tierOf romanTier? h = some t) (fun _ _ => Iff.rfl) a b
  simp only [List.mem_singleton, exists_eq_left] at hfinds
  simp only [mem_singleTiers]
  rw [exists_finds_append hc (by simp [queryPasses]) (fun _ _ => Iff.rfl) a b, hfinds]
  exact or_or_or_comm ..

/-- Some tier is found in two clauses together exactly if one is found in either of them. It need
not be the same, because the other clause may settle the matter by an earlier rule. -/
theorem tiers_append_ne_nil_iff (a b : List Char) :
    tiers (a ++ c :: b) ≠ [] ↔ tiers a ≠ [] ∨ tiers b ≠ [] := by
  have hrange : rangeTiers (a ++ c :: b) ≠ [] ↔ rangeTiers a ≠ [] ∨ rangeTiers b ≠ [] :=
    ne_nil_congr_or (mem_rangeTiers_append hc a b)
  have hsingle : singleTiers (a ++ c :: b) ≠ [] ↔ singleTiers a ≠ [] ∨ singleTiers b ≠ [] :=
    ne_nil_congr_or (mem_singleTiers_append hc a b)
  rw [tiers_ne_nil_iff, bandTiers_append_ne_nil_iff hc, hrange, hsingle, tiers_ne_nil_iff,
    tiers_ne_nil_iff]
  exact (or_or_or_comm.trans (or_congr_right or_or_or_comm)).symm

/-- Two clauses together have a classification exactly if one of them has. -/
theorem isClassified_append (a b : List Char) :
    (classify (a ++ c :: b)).isClassified = true ↔
      (classify a).isClassified = true ∨ (classify b).isClassified = true := by
  have htypes : types (a ++ c :: b) ≠ [] ↔ types a ≠ [] ∨ types b ≠ [] :=
    ne_nil_congr_or (isUnion_types hc a b).mem_iff
  have hnations : nations (a ++ c :: b) ≠ [] ↔ nations a ≠ [] ∨ nations b ≠ [] :=
    ne_nil_congr_or (isUnion_nations hc a b).mem_iff
  have hcategories : categories (a ++ c :: b) ≠ [] ↔ categories a ≠ [] ∨ categories b ≠ [] :=
    ne_nil_congr_or (isUnion_categories hc a b).mem_iff
  rw [isClassified_iff, tiers_append_ne_nil_iff hc, htypes, hnations, hcategories,
    isClassified_iff, isClassified_iff]
  exact (or_or_or_comm.trans (or_congr_right
    (or_or_or_comm.trans (or_congr_right or_or_or_comm)))).symm

/-! ## Names -/

theorem eraseKeywords_append (a b : List Char) :
    eraseKeywords (a ++ c :: b) = eraseKeywords a ++ c :: eraseKeywords b := by
  apply Pattern.foldl_erase_append_break (isWord_of_isClauseEnd hc)
  intro p hp
  exact avoids_of_mem_queryPatterns hc (mem_queryPatterns (by simp [queryPasses]) hp)

end

theorem eraseKeywords_sublist (q : List Char) : (eraseKeywords q).Sublist q :=
  Pattern.foldl_erase_sublist keywordPatterns q

/-- The words of the name that is left over. -/
def nameWords (q : List Char) : List (List Char) := words (dropSeparators (eraseKeywords q))

theorem residual_eq_join (q : List Char) : residual q = join [' '] (nameWords q) := rfl

theorem dropSeparators_append_cons {c : Char} (hc : c ∈ separators) (s t : List Char) :
    dropSeparators (s ++ c :: t) = dropSeparators s ++ ' ' :: dropSeparators t := by
  simp [dropSeparators, hc]

theorem nameWords_append {c : Char} (hc : IsClauseEnd c) (a b : List Char) :
    nameWords (a ++ c :: b) = nameWords a ++ nameWords b := by
  have hsep : c ∈ separators := by
    rcases hc with rfl | rfl <;> decide
  unfold nameWords
  rw [eraseKeywords_append hc, dropSeparators_append_cons hsep]
  -- The end of the clause has become a space, where runs without white space part.
  simp only [words_eq_runs]
  rw [runs_append_break (by decide)]

theorem nameWords_ne_nil {q w : List Char} (hw : w ∈ nameWords q) : w ≠ [] := by
  rw [nameWords, words_eq_runs] at hw
  exact (mem_runs hw).1

/-- Two names with a space between them, unless one of them is empty. -/
def joinNames (a b : List Char) : List Char :=
  if a = [] then b else if b = [] then a else a ++ ' ' :: b

theorem join_append_eq_joinNames {ws vs : List (List Char)} (hws : ∀ w ∈ ws, w ≠ [])
    (hvs : ∀ v ∈ vs, v ≠ []) :
    join [' '] (ws ++ vs) = joinNames (join [' '] ws) (join [' '] vs) := by
  unfold joinNames
  split
  · next hnil =>
    rw [join_eq_nil_iff hws] at hnil
    rw [hnil, List.nil_append]
  · next hne =>
    rw [join_eq_nil_iff hws] at hne
    split
    · next hnil =>
      rw [join_eq_nil_iff hvs] at hnil
      rw [hnil, List.append_nil]
    · next hne' =>
      rw [join_eq_nil_iff hvs] at hne'
      rw [join_append hne hne', List.append_assoc, List.singleton_append]

theorem residual_append {c : Char} (hc : IsClauseEnd c) (a b : List Char) :
    residual (a ++ c :: b) = joinNames (residual a) (residual b) := by
  rw [residual_eq_join, nameWords_append hc]
  exact join_append_eq_joinNames (fun w => nameWords_ne_nil) fun v => nameWords_ne_nil

/-! ## Both together -/

/-- **Clauses are read apart.** On two clauses with a comma or a semicolon between them, each of
the three label passes finds the union of what it finds in the clauses, and stripping leaves their
two names with a space between them. -/
theorem clauses_read_apart (a b : List Char) {c : Char} (hc : IsClauseEnd c) :
    IsUnion typeTable (types a) (types b) (types (a ++ c :: b)) ∧
      IsUnion nationTable (nations a) (nations b) (nations (a ++ c :: b)) ∧
      IsUnion categoryTable (categories a) (categories b) (categories (a ++ c :: b)) ∧
      residual (a ++ c :: b) = joinNames (residual a) (residual b) := by
  exact ⟨isUnion_types hc a b, isUnion_nations hc a b, isUnion_categories hc a b,
    residual_append hc a b⟩

set_option maxRecDepth 4000 in
theorem clauses_read_apart_kaga_hood :
    IsClauseEnd ';' ∧
      IsUnion nationTable [.japan] [.uk]
        (nations ("japanese kaga t8".toList ++ ';' :: "royal navy hood".toList)) ∧
      residual ("japanese kaga t8".toList ++ ';' :: "royal navy hood".toList) =
        "kaga hood".toList := by
  have hc : IsClauseEnd ';' := .inr rfl
  have hleft : nations "japanese kaga t8".toList = [.japan] := by decide
  have hright : nations "royal navy hood".toList = [.uk] := by decide
  obtain ⟨_, hnations, _, hname⟩ :=
    clauses_read_apart "japanese kaga t8".toList "royal navy hood".toList hc
  rw [hleft, hright] at hnations
  exact ⟨hc, hnations, hname.trans (by decide)⟩

end FleetSearch.Query
