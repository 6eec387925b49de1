/-
# FleetSearch.Proofs.Query.LabelMentions -- what mentions a type, a nation or a category

Types are searched for in every part of the query: a type is mentioned exactly where one of its
phrases is written, with any white space or none for each space (`mem_types_iff`). So a query that
goes on at either end mentions at least as many (`types_by_substring`).

A nation or a category is mentioned exactly where one of its phrases stands as whole words. The
names of nations have to stand as they are, the phrases of categories with any white space
(`mem_nations_iff`, `mem_categories_iff`). A name of one word stands in a query exactly if it is
one of the query's words (`nations_and_categories_by_phrase`).
-/

import FleetSearch.Proofs.Query.Labels
import FleetSearch.Proofs.Query.Vocabulary

namespace FleetSearch.Query

open Text Vocabulary Pattern

/-! ## Phrases with any white space -/

section

variable {s : List Char} {as : List String}

theorem mem_hits_anyPhrase (has : as ≠ []) {b : Option Char} {h : Hit}
    (hh : h ∈ (anyPhrase as).hits b s) : ∃ a ∈ as, Spelling a.toList h.text := by
  obtain ⟨p, hp, hh⟩ := (mem_hits_oneOf (by simpa using has)).1 hh
  obtain ⟨a, ha, rfl⟩ := List.mem_map.1 hp
  exact ⟨a, ha, mem_hits_loose hh⟩

/-- Phrases occur where one of their spellings is written, also inside longer words. -/
theorem occurs_anyPhrase_iff (has : as ≠ []) (htight : ∀ a ∈ as, isTight a.toList = true) :
    (anyPhrase as).occurs s = true ↔ ∃ a ∈ as, ∃ t, Spelling a.toList t ∧ t <:+: s := by
  rw [occurs_iff]
  constructor
  · rintro ⟨u, v, rfl, h, hh⟩
    obtain ⟨a, ha, hspell⟩ := mem_hits_anyPhrase has hh
    refine ⟨a, ha, h.text, hspell, u, h.rest, ?_⟩
    rw [List.append_assoc, text_append_rest hh]
  · rintro ⟨a, ha, t, hspell, u, v, rfl⟩
    exact ⟨u, t ++ v, List.append_assoc .., _, takes_anyPhrase ha (htight a ha) hspell _⟩

end

/-! ## Types -/

section

variable {s : List Char}

theorem occurs_type_iff {t : ShipType} {as : List String} (hrow : (t, as) ∈ typeAliases) :
    (anyPhrase as).occurs s = true ↔ ∃ a ∈ as, ∃ m, Spelling a.toList m ∧ m <:+: s := by
  have hne : ∀ row ∈ typeAliases, row.2 ≠ [] := by decide
  apply occurs_anyPhrase_iff (hne _ hrow)
  exact fun a ha => isTight_keyword (by simp [keywordLists]) (mem_phrases hrow ha)

/-- A type is mentioned where one of its phrases is written, with any white space for each of its
spaces. -/
theorem mem_types_iff {t : ShipType} :
    t ∈ types s ↔
      ∃ as, (t, as) ∈ typeAliases ∧ ∃ a ∈ as, ∃ m, Spelling a.toList m ∧ m <:+: s := by
  rw [types, typePatterns, mem_mentioned_rowPatterns]
  apply exists_congr
  intro as
  apply and_congr_right
  intro hrow
  rw [← occurs_type_iff hrow]
  simp

/-- **Types are found wherever they are written.** A type is mentioned exactly if some part of the
query is one of its phrases, each space of it replaced by white space or by nothing. The types stand
in the order of the table, none twice, and a query with more text around it mentions at least these
types. -/
theorem types_by_substring (q : List Char) :
    (∀ t, t ∈ types q ↔
        ∃ as, (t, as) ∈ typeAliases ∧ ∃ a ∈ as, ∃ m, Spelling a.toList m ∧ m <:+: q) ∧
      (types q).Sublist typeTable ∧ (types q).Nodup ∧
      ∀ u v, (types q).Sublist (types (u ++ q ++ v)) := by
  refine ⟨fun _ => mem_types_iff, types_sublist q, typeTable_nodup.sublist (types_sublist q), ?_⟩
  intro u v
  apply mentioned_sublist_mentioned
  intro row hrow p hp hocc
  obtain ⟨⟨t, as⟩, hmem, rfl⟩ := List.mem_map.1 hrow
  obtain rfl : p = anyPhrase as := List.mem_singleton.1 hp
  obtain ⟨a, ha, m, hspell, hpart⟩ := (occurs_type_iff hmem).1 hocc
  have haround : q <:+: u ++ q ++ v := ⟨u, v, rfl⟩
  exact (occurs_type_iff hmem).2 ⟨a, ha, m, hspell, hpart.trans haround⟩

/-- The short name "ca" is a part of "american". -/
example : types "american subs".toList = [.cruiser, .submarine] := by decide

end

/-! ## Nations and categories -/

section

variable {s : List Char}

theorem occurs_nation_iff {a : String} (ha : a ∈ phrases nationAliases) :
    (wholeWord (word a)).occurs s = true ↔ StandsIn a.toList s := by
  have hwordy : ∀ a ∈ phrases nationAliases, (word a).isWordy = true := by decide
  constructor
  · intro hocc
    obtain ⟨_, _, h, hh, hstands⟩ := exists_standsIn_of_occurs (hwordy a ha) hocc
    rwa [(mem_hits_literal hh).1] at hstands
  · intro hstands
    have hsolid := isSolid_keyword (by simp [keywordLists]) ha
    exact hstands.occurs_wholeWord hsolid fun _ => (takesOnly_word a).takes

/-- A nation is mentioned where one of its names stands as it is written in the table. -/
theorem mem_nations_iff {n : Nation} :
    n ∈ nations s ↔ ∃ as, (n, as) ∈ nationAliases ∧ ∃ a ∈ as, StandsIn a.toList s := by
  rw [nations, nationPatterns, mem_mentioned_rowPatterns]
  apply exists_congr
  intro as
  apply and_congr_right
  intro hrow
  simp only [List.mem_map, exists_exists_and_eq_and]
  apply exists_congr
  intro a
  apply and_congr_right
  intro ha
  exact occurs_nation_iff (mem_phrases hrow ha)

theorem occurs_category_iff {c : Category} {as : List String} (hrow : (c, as) ∈ categoryKeywords) :
    (wholeWord (anyPhrase as)).occurs s = true ↔
      ∃ a ∈ as, ∃ t, Spelling a.toList t ∧ StandsIn t s := by
  have hwordy : ∀ row ∈ categoryKeywords, row.2 ≠ [] ∧ (anyPhrase row.2).isWordy = true := by
    decide
  obtain ⟨hne, hwordy⟩ := hwordy _ hrow
  constructor
  · intro hocc
    obtain ⟨_, _, h, hh, hstands⟩ := exists_standsIn_of_occurs hwordy hocc
    obtain ⟨a, ha, hspell⟩ := mem_hits_anyPhrase hne hh
    exact ⟨a, ha, h.text, hspell, hstands⟩
  · rintro ⟨a, ha, t, hspell, hstands⟩
    have hmem : a ∈ phrases categoryKeywords := mem_phrases hrow ha
    have hsolid := isSolid_keyword (by simp [keywordLists]) hmem
    have htight := isTight_keyword (by simp [keywordLists]) hmem
    exact hstands.occurs_wholeWord (hsolid.of_spelling hspell) fun _ =>
      takes_anyPhrase ha htight hspell

/-- A category is mentioned where one of its phrases stands, with any white space for each of its
spaces. -/
theorem mem_categories_iff {c : Category} :
    c ∈ categories s ↔
      ∃ as, (c, as) ∈ categoryKeywords ∧ ∃ a ∈ as, ∃ t, Spelling a.toList t ∧ StandsIn t s := by
  rw [categories, categoryPatterns, mem_mentioned_rowPatterns]
  apply exists_congr
  intro as
  apply and_congr_right
  intro hrow
  rw [← occurs_category_iff hrow]
  simp

/-- **Nations and categories are found as whole words.** A nation is mentioned exactly if one of its
names stands in the query as it is written in the table, a category exactly if one of its phrases
does, each space of it replaced by white space or by nothing. What stands in a query has no word
character right before or right behind it, so a name of one word stands there exactly if it is one
of the query's words. Both lists are in the order of their tables, with nothing twice. -/
theorem nations_and_categories_by_phrase (q : List Char) :
    (∀ n, n ∈ nations q ↔ ∃ as, (n, as) ∈ nationAliases ∧ ∃ a ∈ as, StandsIn a.toList q) ∧
      (∀ a ∈ phrases nationAliases, a.toList.all isWord = true →
        (StandsIn a.toList q ↔ a.toList ∈ wordRuns q)) ∧
      (∀ c, c ∈ categories q ↔
        ∃ as, (c, as) ∈ categoryKeywords ∧ ∃ a ∈ as, ∃ m, Spelling a.toList m ∧ StandsIn m q) ∧
      (nations q).Sublist nationTable ∧ (nations q).Nodup ∧
      (categories q).Sublist categoryTable ∧ (categories q).Nodup := by
  refine ⟨fun _ => mem_nations_iff, ?_, fun _ => mem_categories_iff, nations_sublist q,
    nationTable_nodup.sublist (nations_sublist q), categories_sublist q,
    categoryTable_nodup.sublist (categories_sublist q)⟩
  intro a ha hword
  have hsolid := isSolid_keyword (by simp [keywordLists]) ha
  exact standsIn_iff_mem_wordRuns hsolid.ne_nil (List.all_eq_true.1 hword)

/-- "usn" is a word of the first query but only a part of one in the second. -/
theorem nations_and_categories_by_phrase_usn :
    "usn" ∈ phrases nationAliases ∧ "usn".toList.all isWord = true ∧
      (StandsIn "usn".toList "usn-jets".toList ↔ "usn".toList ∈ wordRuns "usn-jets".toList) ∧
      (StandsIn "usn".toList "usnavy".toList ↔ "usn".toList ∈ wordRuns "usnavy".toList) := by
  have hmem : "usn" ∈ phrases nationAliases := by decide
  have hword : "usn".toList.all isWord = true := by decide
  exact ⟨hmem, hword, (nations_and_categories_by_phrase _).2.1 "usn" hmem hword,
    (nations_and_categories_by_phrase _).2.1 "usn" hmem hword⟩

end

end FleetSearch.Query
