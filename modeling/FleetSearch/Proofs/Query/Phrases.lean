/-
# FleetSearch.Proofs.Query.Phrases -- keyword phrases

A keyword phrase is a mention of tiers, types, nations or categories spelled as the vocabulary has
it (`KeywordPhrase`). It begins and ends inside a word, lower-casing has nothing to do in it, and by
itself it has a classification (`KeywordPhrase.isClassified`): a pattern that takes a text occurs in
it, and one that takes it in one way only finds just that.
-/

import FleetSearch.Proofs.Query.Clauses
import FleetSearch.Proofs.Query.TierMentions
import FleetSearch.Proofs.Text.LowerCase

namespace FleetSearch.Query

open Text Vocabulary Pattern

/-- Digits that stand for a tier. -/
structure IsNumeralOf (t : Tier) (ds : List Char) : Prop extends IsDigits ds where
  value : Tier.ofDigits? ds = some t

/-- A phrase that a classification can be read from, spelled as in the vocabulary. -/
inductive KeywordPhrase : List Char → Prop
  | band {a n : String} {w : List Char} :
      a ∈ qualifiers → IsGap w → n ∈ bandNouns → KeywordPhrase (a.toList ++ (w ++ n.toList))
  | supership {w e : List Char} :
      IsGap w → IsPlural e → KeywordPhrase ("super".toList ++ (w ++ ("ship".toList ++ e)))
  | tier {w ds : List Char} {t : Tier} :
      IsGap w → IsNumeralOf t ds → KeywordPhrase ("tier".toList ++ (w ++ ds))
  | short {ds : List Char} {t : Tier} : IsNumeralOf t ds → KeywordPhrase ("t".toList ++ ds)
  | roman {w : List Char} {r : String} :
      IsGap w → r ∈ romanNumerals.map Prod.fst → KeywordPhrase ("tier".toList ++ (w ++ r.toList))
  | range {m n s : List Char} {start stop : Tier} :
      IsNumeralOf start m → IsNumeralOf stop n → start.value ≤ stop.value →
      RangeSpelling m n s → KeywordPhrase s
  | type {a : String} {e : List Char} :
      a ∈ phrases typeAliases → IsPlural e → KeywordPhrase (a.toList ++ e)
  | nation {a : String} : a ∈ phrases nationAliases → KeywordPhrase a.toList
  | category {a : String} : a ∈ phrases categoryKeywords → KeywordPhrase a.toList

/-! ## Their characters -/

theorem RangeSpelling.isSolid {m n s : List Char} (hn : IsDigits n) (h : RangeSpelling m n s) :
    IsSolid s := by
  have hfirst : isWordAt s.head? = true := by cases h <;> rfl
  refine ⟨hfirst, ?_⟩
  cases h <;> simp only [← List.append_assoc] <;>
    exact isWordAt_getLast?_append _ hn.isWordAt_getLast?

/-- A phrase begins and ends with a word character. -/
theorem KeywordPhrase.isSolid {s : List Char} (hs : KeywordPhrase s) : IsSolid s := by
  cases hs with
  | band ha hw hn =>
    have hqualifier := isSolid_keyword (by simp [keywordLists]) ha
    have hnoun := isSolid_keyword (by simp [keywordLists]) hn
    exact ⟨isWordAt_head?_append hqualifier.1 _,
      isWordAt_getLast?_append _ (isWordAt_getLast?_append _ hnoun.2)⟩
  | supership hw he =>
    have hships : IsSolid ("ship".toList ++ _) := isSolid_append_plural (by decide) he
    exact ⟨rfl, isWordAt_getLast?_append _ (isWordAt_getLast?_append _ hships.2)⟩
  | tier _ hds =>
    exact ⟨rfl, isWordAt_getLast?_append _
      (isWordAt_getLast?_append _ hds.isWordAt_getLast?)⟩
  | short hds => exact ⟨rfl, isWordAt_getLast?_append _ hds.isWordAt_getLast?⟩
  | roman _ hr =>
    have hroman := isSolid_keyword (by simp [keywordLists]) hr
    exact ⟨rfl, isWordAt_getLast?_append _ (isWordAt_getLast?_append _ hroman.2)⟩
  | range _ hn _ hrange => exact hrange.isSolid hn.toIsDigits
  | type ha he => exact isSolid_append_plural (isSolid_keyword (by simp [keywordLists]) ha) he
  | nation ha => exact isSolid_keyword (by simp [keywordLists]) ha
  | category ha => exact isSolid_keyword (by simp [keywordLists]) ha

/-- White space is small. -/
theorem IsGap.isSmall {w : List Char} (hw : IsGap w) : ∀ c ∈ w, IsSmall c := by
  intro c hc
  exact forall_blank (P := IsSmall) (by decide) (hw c hc)

/-- Digits are small. -/
theorem IsDigits.isSmall {ds : List Char} (hds : IsDigits ds) : ∀ c ∈ ds, IsSmall c := by
  have hall := isSmall_of_all (s := "0123456789".toList) (by decide)
  intro c hc
  exact hall c (mem_digits_of_isDigit (hds.all c hc))

/-- The words of the vocabulary and the separators are written in small letters. -/
theorem isSmall_keyword {words : List String} (hwords : words ∈ rangeSeparators :: keywordLists)
    {a : String} (ha : a ∈ words) : ∀ c ∈ a.toList, IsSmall c := by
  have hall : ∀ words ∈ rangeSeparators :: keywordLists, ∀ a ∈ words,
      (a.toList.all fun c => decide (IsSmall c)) = true := by
    decide
  exact isSmall_of_all (hall words hwords a ha)

theorem IsPlural.isSmall {e : List Char} (he : IsPlural e) : ∀ c ∈ e, IsSmall c := by
  rcases he with rfl | rfl <;> exact isSmall_of_all (by decide)

theorem RangeSpelling.isSmall {m n s : List Char} (hm : IsDigits m) (hn : IsDigits n)
    (h : RangeSpelling m n s) : ∀ c ∈ s, IsSmall c := by
  have htier := isSmall_of_all (s := "tier".toList) (by decide)
  have ht := isSmall_of_all (s := "t".toList) (by decide)
  have hseparator : ∀ {a : String}, a ∈ rangeSeparators → ∀ c ∈ a.toList, IsSmall c := fun ha =>
    isSmall_keyword (by simp) ha
  cases h with
  | tier hw₁ hw₂ hw₃ ha =>
    simp only [List.forall_mem_append]
    exact ⟨htier, hw₁.isSmall, hm.isSmall, hw₂.isSmall, hseparator ha, hw₃.isSmall,
      hn.isSmall⟩
  | short hw₁ hw₂ ha =>
    simp only [List.forall_mem_append]
    exact ⟨ht, hm.isSmall, hw₁.isSmall, hseparator ha, hw₂.isSmall, hn.isSmall⟩
  | full hw₁ hw₂ hw₃ hw₄ ha =>
    simp only [List.forall_mem_append]
    exact ⟨htier, hw₁.isSmall, hm.isSmall, hw₂.isSmall, hseparator ha, hw₃.isSmall, htier,
      hw₄.isSmall, hn.isSmall⟩

/-- Lower-casing has nothing to do in a phrase. -/
theorem KeywordPhrase.isSmall {s : List Char} (hs : KeywordPhrase s) : ∀ c ∈ s, IsSmall c := by
  have htier := isSmall_of_all (s := "tier".toList) (by decide)
  have ht := isSmall_of_all (s := "t".toList) (by decide)
  have hsuper := isSmall_of_all (s := "super".toList) (by decide)
  have hship := isSmall_of_all (s := "ship".toList) (by decide)
  cases hs with
  | band ha hw hn =>
    simp only [List.forall_mem_append]
    exact ⟨isSmall_keyword (by simp [keywordLists]) ha, hw.isSmall,
      isSmall_keyword (by simp [keywordLists]) hn⟩
  | supership hw he =>
    simp only [List.forall_mem_append]
    exact ⟨hsuper, hw.isSmall, hship, he.isSmall⟩
  | tier hw hds =>
    simp only [List.forall_mem_append]
    exact ⟨htier, hw.isSmall, hds.isSmall⟩
  | short hds =>
    simp only [List.forall_mem_append]
    exact ⟨ht, hds.isSmall⟩
  | roman hw hr =>
    simp only [List.forall_mem_append]
    exact ⟨htier, hw.isSmall, isSmall_keyword (by simp [keywordLists]) hr⟩
  | range hm hn _ hrange => exact hrange.isSmall hm.toIsDigits hn.toIsDigits
  | type ha he =>
    simp only [List.forall_mem_append]
    exact ⟨isSmall_keyword (by simp [keywordLists]) ha, he.isSmall⟩
  | nation ha => exact isSmall_keyword (by simp [keywordLists]) ha
  | category ha => exact isSmall_keyword (by simp [keywordLists]) ha

/-! ## Their classification -/

theorem tiers_ne_nil_of_mem_singleTiers {s : List Char} {t : Tier} (h : t ∈ singleTiers s) :
    tiers s ≠ [] := tiers_ne_nil_iff.2 (.inr (.inr (List.ne_nil_of_mem h)))

section

variable {w e s m n : List Char}

theorem tiers_band_ne_nil {a b : String} (ha : a ∈ qualifiers) (hw : IsGap w) (hb : b ∈ bandNouns) :
    tiers (a.toList ++ (w ++ b.toList)) ≠ [] := by
  have htight := isTight_keyword (by simp [keywordLists]) ha
  obtain ⟨band, hband, ha⟩ := List.mem_flatMap.1 ha
  have htakes := takes_bandPattern (s := []) ha htight hw hb
  have hoccurs := htakes.occurs
  rw [List.append_nil] at hoccurs
  have hrow : (bandPattern band.qualifiers, band.first, band.last) ∈ bandPatterns := by
    unfold bandPatterns
    rw [List.mem_append]
    exact .inl (List.mem_map_of_mem hband)
  exact tiers_ne_nil_iff.2 (.inl (bandTiers_ne_nil_iff.2 ⟨_, hrow, hoccurs⟩))

theorem tiers_supership_ne_nil (hw : IsGap w) :
    tiers ("super".toList ++ (w ++ ("ship".toList ++ e))) ≠ [] := by
  -- The pattern of super ships ends with the noun, so an ending is left for the rest.
  have htakes : superPattern.Takes ("super".toList ++ (w ++ "ship".toList)) [] e :=
    ((takesOnly_word "super").takes.seq ((takesOnly_gap hw rfl).takes.seq
      (takesOnly_word "ship").takes)).either_left
  have hoccurs := htakes.occurs
  rw [List.append_assoc, List.append_assoc] at hoccurs
  have hrow : (superPattern, superTier, superTier) ∈ bandPatterns := by simp [bandPatterns]
  exact tiers_ne_nil_iff.2 (.inl (bandTiers_ne_nil_iff.2 ⟨_, hrow, hoccurs⟩))

/-- A text that a pattern of single tiers takes in one way only is found as the tier of its
number. -/
theorem IsNumeralOf.mem_singleTiers {t : Tier} {ds : List Char} (hds : IsNumeralOf t ds)
    {p : Pattern} (hp : p ∈ digitPatterns) (hs : s ≠ []) (honly : p.TakesOnly s [ds] []) :
    t ∈ singleTiers s :=
  Query.mem_singleTiers.2 (.inl ⟨p, hp, _, honly.mem_finds hs, hds.value⟩)

theorem IsNumeralOf.mem_tier {t : Tier} {ds : List Char} (hds : IsNumeralOf t ds) (hw : IsGap w) :
    t ∈ singleTiers ("tier".toList ++ (w ++ ds)) :=
  hds.mem_singleTiers (by simp [digitPatterns_eq]) (by simp)
    (takesOnly_tierShape readsDigits_numeral hw hds.toIsDigits rfl)

theorem IsNumeralOf.mem_short {t : Tier} {ds : List Char} (hds : IsNumeralOf t ds) :
    t ∈ singleTiers ("t".toList ++ ds) :=
  hds.mem_singleTiers (by simp [digitPatterns_eq]) (by simp)
    (takesOnly_shortShape readsDigits_numeral hds.toIsDigits rfl)

/-- A range is found with its two ends. -/
theorem RangeSpelling.mem_finds (hm : IsDigits m) (hn : IsDigits n) (h : RangeSpelling m n s) :
    ∃ p ∈ rangePatterns, ⟨s, [m, n], []⟩ ∈ p.finds s := by
  have hne := (h.isSolid hn).ne_nil
  rw [rangePatterns_eq]
  cases h with
  | tier hw₁ hw₂ hw₃ ha =>
    have honly := takesOnly_rangeShape (s := []) readsDigits_numeral hw₁ hw₂ hw₃ ha hm hn rfl
    exact ⟨_, by simp, honly.mem_finds hne⟩
  | short hw₁ hw₂ ha =>
    have honly := takesOnly_shortRangeShape (s := []) readsDigits_numeral hw₁ hw₂ ha hm hn rfl
    exact ⟨_, by simp, honly.mem_finds hne⟩
  | full hw₁ hw₂ hw₃ hw₄ ha =>
    have honly :=
      takesOnly_fullRangeShape (s := []) readsDigits_numeral hw₁ hw₂ hw₃ hw₄ ha hm hn rfl
    exact ⟨_, by simp, honly.mem_finds hne⟩

theorem tiers_range_ne_nil {start stop : Tier} (hm : IsNumeralOf start m) (hn : IsNumeralOf stop n)
    (hle : start.value ≤ stop.value) (h : RangeSpelling m n s) : tiers s ≠ [] := by
  obtain ⟨p, hp, hfind⟩ := h.mem_finds hm.toIsDigits hn.toIsDigits
  have hspan : start ∈ rangeOf ⟨s, [m, n], []⟩ := by
    simp only [rangeOf, List.map_cons, List.map_nil, hm.value, hn.value]
    exact Tier.mem_between.2 ⟨Nat.le_refl _, hle⟩
  have hmem : start ∈ rangeTiers s := mem_rangeTiers.2 ⟨p, hp, _, hfind, hspan⟩
  exact tiers_ne_nil_iff.2 (.inr (.inl (List.ne_nil_of_mem hmem)))

theorem tiers_roman_ne_nil {r : String} (hw : IsGap w) (hr : r ∈ romanNumerals.map Prod.fst) :
    tiers ("tier".toList ++ (w ++ r.toList)) ≠ [] := by
  have htier : ∀ row ∈ romanNumerals, (romanTier? row.1.toList).isSome = true := by decide
  obtain ⟨n, hmem⟩ := exists_mem_romanNumerals hr
  have hedge : isWordEdge r.toList.getLast? none = true := (isWordEdge_roman_iff hmem none).2 rfl
  have htaken := takes_romanTierPattern (s := []) hw hmem hedge none
  rw [List.append_nil] at htaken
  -- The best hit may have read another numeral, but any numeral stands for a tier.
  obtain ⟨h, hh⟩ := exists_hit? htaken (by simp)
  obtain ⟨x, k, hx, hgroups, -⟩ := mem_hits_romanTierPattern (hit?_eq_some hh).1
  obtain ⟨t, ht⟩ := Option.isSome_iff_exists.1 (htier _ hx)
  have hread : tierOf romanTier? h = some t := by
    unfold tierOf
    rw [hgroups]
    exact ht
  exact tiers_ne_nil_of_mem_singleTiers
    (mem_singleTiers.2 (.inr ⟨h, mem_finds_of_hit? hh, hread⟩))

theorem types_ne_nil {a : String} (ha : a ∈ phrases typeAliases) : types (a.toList ++ e) ≠ [] := by
  have htight := isTight_keyword (by simp [keywordLists]) ha
  obtain ⟨⟨l, words⟩, hrow, hmem⟩ := List.mem_flatMap.1 ha
  have htakes := takes_anyPhrase (s := e) hmem htight (spelling_self _)
  have hlabel : l ∈ types (a.toList ++ e) :=
    mem_mentioned.2 ⟨_, mem_rowPatterns hrow _, _, by simp, htakes.occurs⟩
  exact List.ne_nil_of_mem hlabel

theorem nations_ne_nil {a : String} (ha : a ∈ phrases nationAliases) : nations a.toList ≠ [] := by
  have hsolid := (KeywordPhrase.nation ha).isSolid
  obtain ⟨⟨l, words⟩, hrow, hmem⟩ := List.mem_flatMap.1 ha
  have hoccurs := (takesOnly_word a).takes.occurs_wholeWord hsolid
  have hlabel : l ∈ nations a.toList :=
    mem_mentioned.2 ⟨_, mem_rowPatterns hrow _, _, List.mem_map_of_mem hmem, hoccurs⟩
  exact List.ne_nil_of_mem hlabel

theorem categories_ne_nil {a : String} (ha : a ∈ phrases categoryKeywords) :
    categories a.toList ≠ [] := by
  have hsolid := (KeywordPhrase.category ha).isSolid
  have htight := isTight_keyword (by simp [keywordLists]) ha
  obtain ⟨⟨l, words⟩, hrow, hmem⟩ := List.mem_flatMap.1 ha
  have hoccurs := (takes_anyPhrase hmem htight (spelling_self _)).occurs_wholeWord hsolid
  have hlabel : l ∈ categories a.toList :=
    mem_mentioned.2 ⟨_, mem_rowPatterns hrow _, _, by simp, hoccurs⟩
  exact List.ne_nil_of_mem hlabel

end

/-- **Every keyword phrase has a classification.** -/
theorem KeywordPhrase.isClassified {s : List Char} (hs : KeywordPhrase s) :
    (classify s).isClassified = true := by
  rw [isClassified_iff]
  cases hs with
  | band ha hw hn => exact .inl (tiers_band_ne_nil ha hw hn)
  | supership hw _ => exact .inl (tiers_supership_ne_nil hw)
  | tier hw hds => exact .inl (tiers_ne_nil_of_mem_singleTiers (hds.mem_tier hw))
  | short hds => exact .inl (tiers_ne_nil_of_mem_singleTiers hds.mem_short)
  | roman hw hr => exact .inl (tiers_roman_ne_nil hw hr)
  | range hm hn hle h => exact .inl (tiers_range_ne_nil hm hn hle h)
  | type ha _ => exact .inr (.inl (types_ne_nil ha))
  | nation ha => exact .inr (.inr (.inl (nations_ne_nil ha)))
  | category ha => exact .inr (.inr (.inr (categories_ne_nil ha)))

end FleetSearch.Query
