/-
# FleetSearch.Proofs.Query.ErasedPhrases -- stripping a keyword phrase

Stripping erases every keyword phrase, with two exceptions (`KeywordPhrase.eraseKeywords`).

The patterns are erased one after the other, so a phrase has to come through all patterns before its
own. For phrases with numbers and gaps it is enough to count characters of some kind: the phrase has
too few of them for any hit of those patterns (`eraseKeywords_eq_nil`). A phrase of one word needs
no such argument, since no keyword in one word is left over (`OneWordKeyword.eraseKeywords`).

The exceptions are the names of a nation that hold a name of an earlier nation as a word. That word
is erased first and the longer name no longer found, so its other word stays (`splitNames`).
-/

import FleetSearch.Proofs.Query.Phrases
import FleetSearch.Proofs.Query.WholeWords

namespace FleetSearch.Query

open Text Vocabulary Pattern

/-! ## Phrases with numbers and gaps -/

/-- A text that a pattern erases comes through all patterns before it, if it has too few of the
given characters for any of their hits. -/
theorem eraseKeywords_eq_nil (before : List Pattern) (shape : Pattern) {after : List Pattern}
    {s : List Char} (hshapes : keywordShapes = before ++ shape :: after) (cs : List Char)
    (hbefore : ∀ p ∈ before, s.countP cs.contains < p.atLeast cs.contains)
    (hshape : (wholeWord shape).erase s = []) : eraseKeywords s = [] := by
  have hkept : ∀ p ∈ before.map wholeWord, p.erase s = s := by
    intro p hp
    obtain ⟨q, hq, rfl⟩ := List.mem_map.1 hp
    refine erase_eq_self cs.contains ?_
    have hlt := hbefore q hq
    show s.countP cs.contains < 0 + (q.atLeast cs.contains + 0)
    omega
  rw [eraseKeywords, keywordPatterns_eq, hshapes, List.map_append, List.map_cons,
    List.foldl_append, foldl_erase_eq_self hkept, List.foldl_cons, hshape, foldl_erase_nil]

section

variable {w e ds s m n : List Char}

theorem eraseKeywords_band {a b : String} (ha : a ∈ qualifiers) (hw : IsGap w)
    (hb : b ∈ bandNouns) : eraseKeywords (a.toList ++ (w ++ b.toList)) = [] := by
  have hcount : ∀ a ∈ qualifiers, a.toList.countP ['r', 'v'].contains = 0 := by decide
  have hword : ∀ b ∈ bandNouns, b.toList.all isWord = true := by decide
  refine eraseKeywords_eq_nil [] (bandPattern qualifiers) rfl [] (by simp) ?_
  have hsolid := (KeywordPhrase.band ha hw hb).isSolid
  have htight := isTight_keyword (by simp [keywordLists]) ha
  have htakes := takes_bandPattern (s := []) ha htight hw hb
  rw [← List.append_assoc] at hsolid htakes ⊢
  refine erase_wholeWord_of_lastWord ?_ hsolid htakes ['r', 'v'].contains ?_ (hword b hb)
  · exact isWordy_of_mem_keywordShapes _ (by simp [keywordShapes])
  · rw [List.countP_append, hcount a ha, hw.countP_eq_zero (by decide)]
    decide

theorem eraseKeywords_supership (hw : IsGap w) (he : IsPlural e) :
    eraseKeywords ("super".toList ++ (w ++ ("ship".toList ++ e))) = [] := by
  refine eraseKeywords_eq_nil [bandPattern qualifiers, fullRangeShape number,
    rangeShape number, shortRangeShape .digits, tierShape number, shortShape .digits]
    superShape rfl ['t', 'l'] ?_ ?_
  · have hcount :
        ("super".toList ++ (w ++ ("ship".toList ++ e))).countP ['t', 'l'].contains = 0 := by
      have hgap : w.countP ['t', 'l'].contains = 0 := hw.countP_eq_zero (by decide)
      have hplural : e.countP ['t', 'l'].contains = 0 := by rcases he with rfl | rfl <;> rfl
      rw [List.countP_append, List.countP_append, List.countP_append, hgap, hplural]
      rfl
    rw [hcount]
    decide
  · have hsolid := (KeywordPhrase.supership hw he).isSolid
    have htakes := takes_superShape (s := []) hw he
    have hword : ("ship".toList ++ e).all isWord = true := by
      rcases he with rfl | rfl <;> decide
    rw [← List.append_assoc] at hsolid htakes ⊢
    refine erase_wholeWord_of_lastWord ?_ hsolid htakes ['h'].contains ?_ hword
    · exact isWordy_of_mem_keywordShapes _ (by simp [keywordShapes])
    · rw [List.countP_append, hw.countP_eq_zero (by decide)]
      decide

/-- The patterns before those of single tiers need a separator or the qualifier of a band. -/
theorem eraseKeywords_tierShape {v : List Char} (hw : IsGap w)
    (hv : v.countP ['h', 'o', 'm', '-', '–', '—'].contains = 0)
    (hshape : (wholeWord (tierShape number)).erase ("tier".toList ++ (w ++ v)) = []) :
    eraseKeywords ("tier".toList ++ (w ++ v)) = [] := by
  refine eraseKeywords_eq_nil [bandPattern qualifiers, fullRangeShape number,
    rangeShape number, shortRangeShape .digits] (tierShape number) rfl
    ['h', 'o', 'm', '-', '–', '—'] ?_ hshape
  rw [List.countP_append, List.countP_append, hv, hw.countP_eq_zero (by decide)]
  decide

theorem eraseKeywords_tier (hw : IsGap w) (hds : IsDigits ds) :
    eraseKeywords ("tier".toList ++ (w ++ ds)) = [] := by
  refine eraseKeywords_tierShape hw (hds.countP_eq_zero (by decide)) ?_
  have hsolid : IsSolid ("tier".toList ++ (w ++ ds)) := ⟨rfl,
    isWordAt_getLast?_append _ (isWordAt_getLast?_append _ hds.isWordAt_getLast?)⟩
  exact erase_wholeWord_of_takesOnly hsolid (takesOnly_tierShape readsDigits_number hw hds rfl)

theorem eraseKeywords_roman {r : String} (hw : IsGap w) (hr : r ∈ romanNumerals.map Prod.fst) :
    eraseKeywords ("tier".toList ++ (w ++ r.toList)) = [] := by
  have hcount : ∀ r ∈ romanNumerals.map Prod.fst,
      r.toList.countP ['h', 'o', 'm', '-', '–', '—'].contains = 0 := by
    decide
  have hword : ∀ r ∈ romanNumerals.map Prod.fst, r.toList.all isWord = true := by decide
  refine eraseKeywords_tierShape hw (hcount r hr) ?_
  have hsolid := (KeywordPhrase.roman hw hr).isSolid
  have htakes := takes_tierShape_roman (s := []) hw hr
  rw [← List.append_assoc] at hsolid htakes ⊢
  -- A shorter numeral is not enough: every hit takes a second character of a numeral.
  refine erase_wholeWord_of_lastWord ?_ hsolid htakes ("0123456789ivx".toList).contains ?_
    (hword r hr)
  · exact isWordy_of_mem_keywordShapes _ (by simp [keywordShapes])
  · rw [List.countP_append, hw.countP_eq_zero (by decide)]
    decide

theorem eraseKeywords_short (hds : IsDigits ds) : eraseKeywords ("t".toList ++ ds) = [] := by
  refine eraseKeywords_eq_nil [bandPattern qualifiers, fullRangeShape number,
    rangeShape number, shortRangeShape .digits, tierShape number] (shortShape .digits) rfl
    ['h', 'o', 'm', 'e', '-', '–', '—'] ?_ ?_
  · rw [List.countP_append, hds.countP_eq_zero (by decide)]
    decide
  · have hsolid : IsSolid ("t".toList ++ ds) :=
      ⟨rfl, isWordAt_getLast?_append _ hds.isWordAt_getLast?⟩
    exact erase_wholeWord_of_takesOnly hsolid (takesOnly_shortShape readsDigits_digits hds rfl)

/-- Whether gaps, numbers and separators have none of the characters. -/
def isTelltale (cs : List Char) : Bool :=
  (cs.all fun c => !isBlank c) && (cs.all fun c => !c.isDigit) &&
    rangeSeparators.all fun a => a.toList.countP cs.contains == 0

theorem countP_afterNumber {w₁ w₂ v cs : List Char} {a : String} (hcs : isTelltale cs = true)
    (hm : IsDigits m) (hw₁ : IsGap w₁) (ha : a ∈ rangeSeparators) (hw₂ : IsGap w₂) :
    (m ++ (w₁ ++ (a.toList ++ (w₂ ++ v)))).countP cs.contains = v.countP cs.contains := by
  rw [isTelltale, Bool.and_eq_true, Bool.and_eq_true] at hcs
  obtain ⟨⟨hblank, hdigit⟩, hseparators⟩ := hcs
  have hsep : a.toList.countP cs.contains = 0 := by
    have hnone := List.all_eq_true.1 hseparators a ha
    simpa using hnone
  simp only [List.countP_append, hm.countP_eq_zero hdigit, hw₁.countP_eq_zero hblank,
    hw₂.countP_eq_zero hblank, hsep, Nat.zero_add]

theorem eraseKeywords_range (hm : IsDigits m) (hn : IsDigits n) (h : RangeSpelling m n s) :
    eraseKeywords s = [] := by
  have hsolid := h.isSolid hn
  -- One "tier" has too few letters for a range with two, and "t" too few for either.
  cases h with
  | tier hw₁ hw₂ hw₃ ha =>
    refine eraseKeywords_eq_nil [bandPattern qualifiers, fullRangeShape number]
      (rangeShape number) rfl ['h', 'p', 'm', 'w', 'e', 'l'] ?_ ?_
    · rw [List.countP_append, List.countP_append, countP_afterNumber (by decide) hm hw₂ ha hw₃,
        hw₁.countP_eq_zero (by decide), hn.countP_eq_zero (by decide)]
      decide
    · exact erase_wholeWord_of_takesOnly hsolid
        (takesOnly_rangeShape readsDigits_number hw₁ hw₂ hw₃ ha hm hn rfl)
  | short hw₁ hw₂ ha =>
    refine eraseKeywords_eq_nil [bandPattern qualifiers, fullRangeShape number,
      rangeShape number] (shortRangeShape .digits) rfl ['h', 'p', 'm', 'w', 'e'] ?_ ?_
    · rw [List.countP_append, countP_afterNumber (by decide) hm hw₁ ha hw₂,
        hn.countP_eq_zero (by decide)]
      decide
    · exact erase_wholeWord_of_takesOnly hsolid
        (takesOnly_shortRangeShape readsDigits_digits hw₁ hw₂ ha hm hn rfl)
  | full hw₁ hw₂ hw₃ hw₄ ha =>
    refine eraseKeywords_eq_nil [bandPattern qualifiers]
      (fullRangeShape number) rfl ['h', 'p', 'm', 'w'] ?_ ?_
    · rw [List.countP_append, List.countP_append, countP_afterNumber (by decide) hm hw₂ ha hw₃,
        List.countP_append, List.countP_append, hw₁.countP_eq_zero (by decide),
        hw₄.countP_eq_zero (by decide), hn.countP_eq_zero (by decide)]
      decide
    · exact erase_wholeWord_of_takesOnly hsolid
        (takesOnly_fullRangeShape readsDigits_number hw₁ hw₂ hw₃ hw₄ ha hm hn rfl)

end

/-! ## Phrases of words -/

/-- A keyword in one word is erased, because none is left over and no other word can be. -/
theorem OneWordKeyword.eraseKeywords {s : List Char} (hs : OneWordKeyword s)
    (hword : s.all isWord = true) : eraseKeywords s = [] := by
  obtain ⟨hsub, hkeyword⟩ := wordRuns_eraseKeywords s
  by_contra hne
  have hsne : s ≠ [] := by
    rintro rfl
    exact hne (foldl_erase_nil keywordPatterns)
  have hall := List.all_eq_true.1 hword
  -- What is left is one word again, so it is the whole keyword.
  have hleft : ∀ c ∈ Query.eraseKeywords s, isWord c = true := by
    intro c hc
    exact hall c ((eraseKeywords_sublist s).subset hc)
  have hself : wordRuns s = [s] := runs_of_all hsne hall
  have hruns : wordRuns (Query.eraseKeywords s) = [Query.eraseKeywords s] := runs_of_all hne hleft
  rw [hruns, hself, List.singleton_sublist, List.mem_singleton] at hsub
  rw [hruns, hsub] at hkeyword
  exact hkeyword s (List.mem_singleton.2 rfl) hs

/-- The names of nations that hold a name of an earlier nation as a word. -/
def splitNames : List String := ["pan america", "pan-america"]

set_option maxRecDepth 4000 in
theorem eraseKeywords_type {a : String} {e : List Char} (ha : a ∈ phrases typeAliases)
    (he : IsPlural e) : eraseKeywords (a.toList ++ e) = [] := by
  have hphrases : ∀ a ∈ phrases typeAliases, ' ' ∈ a.toList →
      ∀ e ∈ [[], ['s']], eraseKeywords (a.toList ++ e) = [] := by
    decide
  have hwords : ∀ a ∈ phrases typeAliases, ' ' ∉ a.toList →
      ∀ e ∈ [[], ['s']], (a.toList ++ e).all isWord = true := by
    decide
  have hmem : e ∈ [[], ['s']] := by simpa [IsPlural] using he
  by_cases hspace : ' ' ∈ a.toList
  · exact hphrases a ha hspace e hmem
  · have hkeyword := OneWordKeyword.type ha he
    rw [squeeze_eq_self hspace] at hkeyword
    exact hkeyword.eraseKeywords (hwords a ha hspace e hmem)

set_option maxRecDepth 4000 in
theorem eraseKeywords_category {a : String} (ha : a ∈ phrases categoryKeywords) :
    eraseKeywords a.toList = [] := by
  have hphrases : ∀ a ∈ phrases categoryKeywords, ' ' ∈ a.toList → eraseKeywords a.toList = [] := by
    decide
  have hwords : ∀ a ∈ phrases categoryKeywords, ' ' ∉ a.toList → a.toList.all isWord = true := by
    decide
  by_cases hspace : ' ' ∈ a.toList
  · exact hphrases a ha hspace
  · have hkeyword := OneWordKeyword.category ha
    rw [squeeze_eq_self hspace] at hkeyword
    exact hkeyword.eraseKeywords (hwords a ha hspace)

set_option maxRecDepth 4000 in
theorem eraseKeywords_nation {a : String} (ha : a ∈ phrases nationAliases) :
    eraseKeywords a.toList = [] ∨ a ∈ splitNames := by
  have hphrases : ∀ a ∈ phrases nationAliases, ¬ a.toList.all isWord = true →
      eraseKeywords a.toList = [] ∨ a ∈ splitNames := by
    decide
  by_cases hword : a.toList.all isWord = true
  · exact .inl ((OneWordKeyword.nation ha (List.all_eq_true.1 hword)).eraseKeywords hword)
  · exact hphrases a ha hword

/-- **Stripping erases every keyword phrase** but the names of nations that it splits. -/
theorem KeywordPhrase.eraseKeywords {s : List Char} (hs : KeywordPhrase s) :
    eraseKeywords s = [] ∨ s ∈ splitNames.map String.toList := by
  cases hs with
  | band ha hw hn => exact .inl (eraseKeywords_band ha hw hn)
  | supership hw he => exact .inl (eraseKeywords_supership hw he)
  | tier hw hds => exact .inl (eraseKeywords_tier hw hds.toIsDigits)
  | short hds => exact .inl (eraseKeywords_short hds.toIsDigits)
  | roman hw hr => exact .inl (eraseKeywords_roman hw hr)
  | range hm hn _ h => exact .inl (eraseKeywords_range hm.toIsDigits hn.toIsDigits h)
  | type ha he => exact .inl (eraseKeywords_type ha he)
  | nation ha => exact (eraseKeywords_nation ha).imp_right List.mem_map_of_mem
  | category ha => exact .inl (eraseKeywords_category ha)

end FleetSearch.Query
