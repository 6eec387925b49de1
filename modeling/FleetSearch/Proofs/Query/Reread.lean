/-
# FleetSearch.Proofs.Query.Reread -- the keywords that can be read in a name left over

A nation or a category is mentioned exactly where one of its phrases stands as whole words
(`mem_nations_iff`, `mem_categories_iff`). Reading the name that stripping leaves in this way
nearly always finds nothing: no keyword in one word is left, and no separator. But every pattern is
erased only once, and white space is folded after that. So two words that no pattern takes by
themselves can come to stand next to each other when the pattern for both of them has had its turn.
There are four such phrases (`pairedPhrases`), and they are all that can be read in a name
(`name_reread`).
-/

import FleetSearch.Proofs.Query.LabelMentions
import FleetSearch.Proofs.Query.NormalForm
import FleetSearch.Proofs.Query.WholeWords

namespace FleetSearch.Query

open Text Vocabulary Pattern

/-! ## What is left -/

/-- The names of nations in two words neither of which is erased by itself. -/
def pairedNations : List (Nation × String) :=
  [(.uk, "royal navy"), (.panAsia, "pan asia"), (.italy, "regia marina")]

/-- The phrases of categories in two words neither of which is erased by itself. -/
def pairedCategories : List (Category × String) := [(.techTree, "tech tree")]

/-- All phrases in two words neither of which is erased by itself. -/
def pairedPhrases : List String :=
  pairedNations.map Prod.snd ++ pairedCategories.map Prod.snd

section

variable {q a : List Char}

/-- What stands in a name is made of words of the query. -/
theorem wordRuns_sublist_of_standsIn_residual (ha : StandsIn a (residual q)) :
    (wordRuns a).Sublist (wordRuns q) := by
  have hwords := ha.wordRuns_sublist
  rw [wordRuns_residual] at hwords
  exact hwords.trans (wordRuns_eraseKeywords q).1

/-- What stands in a name has no keyword in one word. -/
theorem not_oneWordKeyword_of_standsIn_residual (ha : StandsIn a (residual q)) :
    ∀ w ∈ wordRuns a, ¬ OneWordKeyword w := by
  intro w hw
  have hmem := ha.wordRuns_sublist.subset hw
  rw [wordRuns_residual] at hmem
  exact (wordRuns_eraseKeywords q).2 w hmem

/-- White space between two words that stand in a name is a single space, if there is any. -/
theorem gap_of_standsIn_residual {u w v : List Char} (h : StandsIn (u ++ (w ++ v)) (residual q))
    (hw : IsGap w) : w = [] ∨ w = [' '] := by
  obtain ⟨s, t, hcut, _, _⟩ := h
  have hspaced := isSpaced_residual q
  have hassoc : s ++ (u ++ (w ++ v) ++ t) = (s ++ u) ++ (w ++ (v ++ t)) := by
    simp only [List.append_assoc]
  rw [hcut, hassoc] at hspaced
  exact hspaced.gap hw

/-- A category's phrase does not stand in a name as one word. -/
theorem not_standsIn_residual_squeeze {a : String} (ha : a ∈ phrases categoryKeywords) :
    ¬ StandsIn (squeeze a) (residual q) := by
  have hword : ∀ a ∈ phrases categoryKeywords, squeeze a ∈ wordRuns (squeeze a) := by decide
  intro hstands
  exact not_oneWordKeyword_of_standsIn_residual hstands _ (hword a ha) (.category ha)

end

/-- The nations that can be read in a name. -/
theorem mem_nations_residual_iff {q : List Char} {n : Nation} :
    n ∈ nations (residual q) ↔
      ∃ a, (n, a) ∈ pairedNations ∧ StandsIn a.toList (residual q) := by
  rw [mem_nations_iff]
  constructor
  · rintro ⟨as, hrow, a, ha, hstands⟩
    have hcases : ∀ row ∈ nationAliases, ∀ a ∈ row.2, (row.1, a) ∈ pairedNations ∨
        '-' ∈ a.toList ∨ ∃ b ∈ phrases nationAliases,
          b.toList.all isWord = true ∧ b.toList ∈ wordRuns a.toList := by
      decide
    rcases hcases _ hrow a ha with hpair | hdash | ⟨b, hb, hword, hmem⟩
    · exact ⟨a, hpair, hstands⟩
    · exact absurd (by decide) (not_mem_separators_of_mem_residual (hstands.subset hdash))
    -- A name of several words may have the name of another nation among them.
    · exact absurd (.nation hb (List.all_eq_true.1 hword))
        (not_oneWordKeyword_of_standsIn_residual hstands _ hmem)
  · rintro ⟨a, hpair, hstands⟩
    have hrows : ∀ row ∈ pairedNations, ∃ r ∈ nationAliases, r.1 = row.1 ∧ row.2 ∈ r.2 := by decide
    obtain ⟨⟨_, as⟩, hrow, rfl, ha⟩ := hrows _ hpair
    exact ⟨as, hrow, a, ha, hstands⟩

/-- The categories that can be read in a name. -/
theorem mem_categories_residual_iff {q : List Char} {c : Category} :
    c ∈ categories (residual q) ↔
      ∃ a, (c, a) ∈ pairedCategories ∧ StandsIn a.toList (residual q) := by
  rw [mem_categories_iff]
  constructor
  · rintro ⟨as, hrow, a, ha, t, hspell, hstands⟩
    have hmem : a ∈ phrases categoryKeywords := List.mem_flatMap.2 ⟨_, hrow, ha⟩
    have hcases : ∀ row ∈ categoryKeywords, ∀ a ∈ row.2,
        (row.1 = .techTree ∧ a = "tech tree") ∨ ' ' ∉ a.toList := by
      decide
    rcases hcases _ hrow a ha with ⟨rfl, rfl⟩ | hspace
    -- Of the spellings in two words only the one with a single space is left, and none in one word.
    · obtain ⟨w, rfl, hw⟩ := hspell.of_two_words (u := "tech".toList) (a := "tree".toList)
        (by decide) (by decide)
      rcases gap_of_standsIn_residual hstands hw with rfl | rfl
      · have hsqueeze : "tech".toList ++ ([] ++ "tree".toList) = squeeze "tech tree" := by decide
        exact absurd (hsqueeze ▸ hstands) (not_standsIn_residual_squeeze hmem)
      · have hphrase : "tech".toList ++ ([' '] ++ "tree".toList) = "tech tree".toList := by decide
        exact ⟨"tech tree", List.mem_singleton_self _, hphrase ▸ hstands⟩
    · rw [hspell.eq_self hspace, ← squeeze_eq_self hspace] at hstands
      exact absurd hstands (not_standsIn_residual_squeeze hmem)
  · rintro ⟨a, hpair, hstands⟩
    have hrows : ∀ row ∈ pairedCategories, ∃ r ∈ categoryKeywords, r.1 = row.1 ∧ row.2 ∈ r.2 := by
      decide
    obtain ⟨⟨_, as⟩, hrow, rfl, ha⟩ := hrows _ hpair
    exact ⟨as, hrow, a, ha, _, spelling_self _, hstands⟩

/-- **What can be read in a name.** The nations and categories that can be read in the name that
stripping leaves are those of the four paired phrases that stand in it, so there are none exactly if
no paired phrase stands in it. The words of such a phrase are words of the query, in their order. -/
theorem name_reread (q : List Char) :
    (∀ n, n ∈ nations (residual q) ↔
        ∃ a, (n, a) ∈ pairedNations ∧ StandsIn a.toList (residual q)) ∧
      (∀ c, c ∈ categories (residual q) ↔
        ∃ a, (c, a) ∈ pairedCategories ∧ StandsIn a.toList (residual q)) ∧
      (nations (residual q) = [] ∧ categories (residual q) = [] ↔
        ∀ a ∈ pairedPhrases, ¬ StandsIn a.toList (residual q)) ∧
      ∀ a ∈ pairedPhrases, StandsIn a.toList (residual q) →
        (wordRuns a.toList).Sublist (wordRuns q) := by
  refine ⟨fun _ => mem_nations_residual_iff, fun _ => mem_categories_residual_iff, ?_,
    fun _ _ => wordRuns_sublist_of_standsIn_residual⟩
  simp only [List.eq_nil_iff_forall_not_mem, mem_nations_residual_iff, mem_categories_residual_iff,
    pairedPhrases, List.mem_append, List.mem_map, Prod.exists, exists_eq_right]
  constructor
  · rintro ⟨hnations, hcategories⟩ a (⟨n, ha⟩ | ⟨c, ha⟩) hstands
    · exact hnations n ⟨a, ha, hstands⟩
    · exact hcategories c ⟨a, ha, hstands⟩
  · intro hnone
    constructor
    · rintro n ⟨a, ha, hstands⟩
      exact hnone a (.inl ⟨n, ha⟩) hstands
    · rintro c ⟨a, ha, hstands⟩
      exact hnone a (.inr ⟨c, ha⟩) hstands

set_option maxRecDepth 4000 in
/-- Stripping can put keywords together: it erases what stands between the words of a category, and
it folds the wide space between the words of a nation when no name with such a space was found. -/
theorem name_reread_finds_keywords :
    categories (residual "tech premium tree".toList) = [.techTree] ∧
      nations (residual "royal  navy".toList) = [.uk] := by
  decide

end FleetSearch.Query
