/-
# FleetSearch.Proofs.Query.Labels -- the labels that a query mentions, as a part of their table

The labels mentioned are a part of the table, in its order (`mentioned_rowPatterns_sublist`), and a
table lists every label once, so none is mentioned twice. Which labels these are is a question about
each row by itself (`mem_mentioned`).
-/

import FleetSearch.Query.Labels
import FleetSearch.Proofs.Pattern.Scan

namespace FleetSearch.Query

open Text Vocabulary

section

variable {α : Type}

theorem mem_mentioned {rows : List (α × List Pattern)} {q : List Char} {l : α} :
    l ∈ mentioned rows q ↔ ∃ ps, (l, ps) ∈ rows ∧ ∃ p ∈ ps, p.occurs q = true := by
  simp only [mentioned, List.mem_map, List.mem_filter, List.any_eq_true]
  constructor
  · rintro ⟨⟨l, ps⟩, ⟨hrow, hany⟩, rfl⟩
    exact ⟨ps, hrow, hany⟩
  · rintro ⟨ps, hrow, hany⟩
    exact ⟨(l, ps), ⟨hrow, hany⟩, rfl⟩

theorem mentioned_sublist (rows : List (α × List Pattern)) (q : List Char) :
    (mentioned rows q).Sublist (rows.map Prod.fst) :=
  List.filter_sublist.map Prod.fst

/-- If every pattern of a table that occurs in one query occurs in another, the labels mentioned in
the first are among those mentioned in the second, in their order. -/
theorem mentioned_sublist_mentioned {rows : List (α × List Pattern)} {q r : List Char}
    (h : ∀ row ∈ rows, ∀ p ∈ row.2, p.occurs q = true → p.occurs r = true) :
    (mentioned rows q).Sublist (mentioned rows r) := by
  have hrows : rows.filter (fun row => row.2.any (·.occurs q)) =
      (rows.filter fun row => row.2.any (·.occurs r)).filter fun row => row.2.any (·.occurs q) := by
    rw [List.filter_filter]
    apply List.filter_congr
    intro row hrow
    rw [Bool.eq_iff_iff, Bool.and_eq_true, iff_self_and]
    intro hany
    obtain ⟨p, hp, hocc⟩ := List.any_eq_true.1 hany
    exact List.any_eq_true.2 ⟨p, hp, h row hrow p hp hocc⟩
  unfold mentioned
  rw [hrows]
  exact List.filter_sublist.map Prod.fst

theorem mem_rowPatterns {table : List (α × List String)} {l : α} {words : List String}
    (h : (l, words) ∈ table) (pattern : List String → List Pattern) :
    (l, pattern words) ∈ rowPatterns table pattern := List.mem_map.2 ⟨_, h, rfl⟩

/-- The label of a row is mentioned if one of the patterns of its words occurs. -/
theorem mem_mentioned_rowPatterns {table : List (α × List String)}
    {pattern : List String → List Pattern} {q : List Char} {l : α} :
    l ∈ mentioned (rowPatterns table pattern) q ↔
      ∃ words, (l, words) ∈ table ∧ ∃ p ∈ pattern words, p.occurs q = true := by
  rw [mem_mentioned]
  constructor
  · rintro ⟨ps, hrow, hocc⟩
    obtain ⟨⟨_, words⟩, hmem, heq⟩ := List.mem_map.1 hrow
    obtain ⟨rfl, rfl⟩ := Prod.mk.inj heq
    exact ⟨words, hmem, hocc⟩
  · rintro ⟨words, hmem, hocc⟩
    exact ⟨pattern words, mem_rowPatterns hmem pattern, hocc⟩

/-- The labels mentioned are a part of their table, in its order, whatever its patterns are. -/
theorem mentioned_rowPatterns_sublist (table : List (α × List String))
    (pattern : List String → List Pattern) (q : List Char) :
    (mentioned (rowPatterns table pattern) q).Sublist (table.map Prod.fst) := by
  have hlabels : (rowPatterns table pattern).map Prod.fst = table.map Prod.fst := by
    unfold rowPatterns
    rw [List.map_map]
    rfl
  rw [← hlabels]
  exact mentioned_sublist _ q

end

/-! ## The three tables -/

/-- The ship types in the order of their table. -/
def typeTable : List ShipType := typeAliases.map Prod.fst

/-- The nations in the order of their table. -/
def nationTable : List Nation := nationAliases.map Prod.fst

/-- The categories in the order of their table. -/
def categoryTable : List Category := categoryKeywords.map Prod.fst

theorem typeTable_nodup : typeTable.Nodup := by decide
theorem nationTable_nodup : nationTable.Nodup := by decide
theorem categoryTable_nodup : categoryTable.Nodup := by decide

theorem types_sublist (q : List Char) : (types q).Sublist typeTable :=
  mentioned_rowPatterns_sublist _ _ q

theorem nations_sublist (q : List Char) : (nations q).Sublist nationTable :=
  mentioned_rowPatterns_sublist _ _ q

theorem categories_sublist (q : List Char) : (categories q).Sublist categoryTable :=
  mentioned_rowPatterns_sublist _ _ q

end FleetSearch.Query
