/-
# FleetSearch.Proofs.Query.WholeWords -- stripping filters the words of a query

Every keyword pattern takes whole words, so the words left of a query are some of its words, in
their order and spelling. And every keyword that can be written as one word is caught by one of the
patterns, so none of them is left (`residual_filters_words`).
-/

import FleetSearch.Proofs.Query.Vocabulary

namespace FleetSearch.Query

open Text Vocabulary Pattern

set_option maxRecDepth 4000 in
/-- Folding separators and white space into single spaces does not touch the words. -/
theorem wordRuns_residual (q : List Char) : wordRuns (residual q) = wordRuns (eraseKeywords q) := by
  have hsep : separators.all (fun c => !isWord c) = true := by decide
  show wordRuns (join [' '] (words (dropSeparators (eraseKeywords q)))) = _
  rw [wordRuns_join_words]
  -- Separators belong to no word, so turning them into spaces moves no break.
  apply runs_map
  · intro c hc
    have hnot : c ∉ separators := by
      intro hmem
      have hbreak := List.all_eq_true.1 hsep c hmem
      simp [hc] at hbreak
    rw [if_neg hnot]
  · intro c hc
    split
    · decide
    · exact hc

/-! ## Keywords in one word -/

/-- A phrase without its spaces. -/
def squeeze (a : String) : List Char := a.toList.filter (· ≠ ' ')

theorem squeeze_eq_self {a : String} (ha : ' ' ∉ a.toList) : squeeze a = a.toList := by
  unfold squeeze
  rw [List.filter_eq_self]
  intro c hc
  have hne : c ≠ ' ' := by
    rintro rfl
    exact ha hc
  simpa using hne

theorem isSolid_squeeze {a : String} (ha : IsSolid a.toList) : IsSolid (squeeze a) := by
  have hkeep : ∀ c, isWord c = true → c ≠ ' ' := by
    rintro c hc rfl
    cases hc
  have hne := ha.ne_nil
  obtain ⟨hfirst, hlast⟩ := ha
  unfold squeeze
  constructor
  · obtain ⟨c, s, hcs⟩ := List.exists_cons_of_ne_nil hne
    rw [hcs] at hfirst ⊢
    rw [List.filter_cons_of_pos (by simpa using hkeep c hfirst)]
    exact hfirst
  · obtain ⟨s, c, hsc⟩ := (List.eq_nil_or_concat' a.toList).resolve_left hne
    rw [hsc, List.getLast?_append] at hlast
    rw [hsc, List.filter_append, List.filter_cons_of_pos (by simpa using hkeep c hlast)]
    exact isWordAt_getLast?_append _ hlast

/-- A keyword that is written as one word. -/
inductive OneWordKeyword : List Char → Prop
  | type {a : String} {e : List Char} :
      a ∈ phrases typeAliases → IsPlural e → OneWordKeyword (squeeze a ++ e)
  | nation {a : String} :
      a ∈ phrases nationAliases → (∀ c ∈ a.toList, isWord c = true) → OneWordKeyword a.toList
  | category {a : String} : a ∈ phrases categoryKeywords → OneWordKeyword (squeeze a)
  | supership {e : List Char} : IsPlural e → OneWordKeyword ("supership".toList ++ e)
  | shortTier {ds : List Char} : IsDigits ds → OneWordKeyword ('t' :: ds)
  | tier {ds : List Char} : IsDigits ds → OneWordKeyword ("tier".toList ++ ds)
  | romanTier {r : String} :
      r ∈ romanNumerals.map Prod.fst → OneWordKeyword ("tier".toList ++ r.toList)
  | band {a n : String} : a ∈ qualifiers → n ∈ bandNouns → OneWordKeyword (a.toList ++ n.toList)

theorem OneWordKeyword.isSolid {w : List Char} (hw : OneWordKeyword w) : IsSolid w := by
  cases hw with
  | type ha he =>
    have hword := isSolid_keyword (by simp [keywordLists]) ha
    exact isSolid_append_plural (isSolid_squeeze hword) he
  | nation ha _ => exact isSolid_keyword (by simp [keywordLists]) ha
  | category ha => exact isSolid_squeeze (isSolid_keyword (by simp [keywordLists]) ha)
  | supership he => exact isSolid_append_plural (by decide) he
  | shortTier hds => exact ⟨rfl, isWordAt_getLast?_append ['t'] hds.isWordAt_getLast?⟩
  | tier hds => exact ⟨rfl, isWordAt_getLast?_append _ hds.isWordAt_getLast?⟩
  | romanTier hr =>
    have hroman := isSolid_keyword (by simp [keywordLists]) hr
    exact ⟨rfl, isWordAt_getLast?_append _ hroman.2⟩
  | band ha hn =>
    have hqualifier := isSolid_keyword (by simp [keywordLists]) ha
    exact hqualifier.append (isSolid_keyword (by simp [keywordLists]) hn)

/-- One of the shapes takes the keyword wherever no word goes on. -/
theorem OneWordKeyword.exists_takes {w : List Char} (hw : OneWordKeyword w) :
    ∃ shape ∈ keywordShapes, ∀ s, isWordAt s.head? = false → shape.Takes w [] s := by
  cases hw with
  | type ha he =>
    exact ⟨typeShape, by simp [keywordShapes],
      fun _ _ => takes_typeShape ha (spelling_squeeze _) he⟩
  | @nation a ha _ =>
    have hshape : word a ∈ keywordShapes := by
      unfold keywordShapes
      rw [List.mem_append, List.mem_append]
      exact .inl (.inr (List.mem_map_of_mem ha))
    exact ⟨word a, hshape, fun _ _ => (takesOnly_word a).takes⟩
  | category ha =>
    have htight := isTight_keyword (by simp [keywordLists]) ha
    exact ⟨anyPhrase (phrases categoryKeywords), by simp [keywordShapes],
      fun _ _ => takes_anyPhrase ha htight (spelling_squeeze _)⟩
  | supership he =>
    refine ⟨superShape, by simp [keywordShapes], fun s _ => ?_⟩
    have hparts : "supership".toList = "super".toList ++ "ship".toList := by decide
    have htakes := takes_superShape (s := s) isGap_nil he
    rwa [List.nil_append, ← List.append_assoc, ← hparts] at htakes
  | shortTier hds =>
    refine ⟨shortShape .digits, by simp [keywordShapes], fun s hs => ?_⟩
    have hdigit := head?_any_isDigit_of_not_isWordAt hs
    exact (takesOnly_shortShape readsDigits_digits hds hdigit).takes
  | tier hds =>
    refine ⟨tierShape number, by simp [keywordShapes], fun s hs => ?_⟩
    have hdigit := head?_any_isDigit_of_not_isWordAt hs
    have htakes := (takesOnly_tierShape readsDigits_number isGap_nil hds hdigit).takes
    rwa [List.nil_append] at htakes
  | romanTier hr =>
    refine ⟨tierShape number, by simp [keywordShapes], fun s _ => ?_⟩
    have htakes := takes_tierShape_roman (s := s) isGap_nil hr
    rwa [List.nil_append] at htakes
  | band ha hn =>
    refine ⟨bandPattern qualifiers, by simp [keywordShapes], fun s _ => ?_⟩
    have htight := isTight_keyword (by simp [keywordLists]) ha
    have htakes := takes_bandPattern (s := s) ha htight isGap_nil hn
    rwa [List.nil_append] at htakes

/-- **Every keyword in one word is caught.** -/
theorem OneWordKeyword.exists_catches {w : List Char} (hw : OneWordKeyword w) :
    ∃ p ∈ keywordPatterns, p.Catches w := by
  obtain ⟨shape, hshape, htakes⟩ := hw.exists_takes
  refine ⟨wholeWord shape, ?_, ?_⟩
  · rw [keywordPatterns_eq]
    exact List.mem_map_of_mem hshape
  · apply catches_wholeWord hw.isSolid
    intro s hs
    exact ⟨[], htakes s hs⟩

/-! ## The words that are left -/

theorem wordRuns_eraseKeywords (q : List Char) :
    (wordRuns (eraseKeywords q)).Sublist (wordRuns q) ∧
      ∀ w ∈ wordRuns (eraseKeywords q), ¬ OneWordKeyword w := by
  obtain ⟨hsub, hcaught⟩ := wordRuns_foldl_erase takesWords_of_mem_keywordPatterns q
  refine ⟨hsub, ?_⟩
  intro w hw hkeyword
  obtain ⟨p, hp, hcatch⟩ := hkeyword.exists_catches
  exact hcaught w hw p hp hcatch

/-- **Stripping removes whole words, and every keyword in one word.** The words of the name left
over are words of the query in the same order and spelling, and none of them is a keyword by
itself. -/
theorem residual_filters_words (q : List Char) :
    (wordRuns (residual q)).Sublist (wordRuns q) ∧
      ∀ w ∈ wordRuns (residual q), ¬ OneWordKeyword w := by
  rw [wordRuns_residual]
  exact wordRuns_eraseKeywords q

end FleetSearch.Query
