/-
# FleetSearch.Proofs.Query.Keywords -- queries made of keyword phrases only

A list of keyword phrases with ", " between them is read phrase by phrase: a comma ends a clause,
and a space before a clause is seen by no pattern. So such a query has a classification as soon as
its first phrase has one, and a name is left over only by the phrases that stripping splits, one
word for each of them (`keywords_leave_split_names`).
-/

import FleetSearch.Proofs.Query.ErasedPhrases
import FleetSearch.Proofs.Query.NormalForm
import FleetSearch.Proofs.Query.PlainClauses

namespace FleetSearch.Query

open Text Vocabulary Pattern

/-! ## Clauses in a row -/

/-- What stands between two clauses of a list. -/
def listSeparator : List Char := [',', ' ']

theorem nameWords_nil : nameWords [] = [] := by
  have hnil : eraseKeywords [] = [] := foldl_erase_nil keywordPatterns
  unfold nameWords
  rw [hnil]
  rfl

theorem nameWords_join (ps : List (List Char)) :
    nameWords (join listSeparator ps) = ps.flatMap nameWords := by
  induction ps with
  | nil => exact nameWords_nil
  | cons p ps ih =>
    cases ps with
    | nil => simp
    | cons q ps =>
      have hcut : join listSeparator (p :: q :: ps) =
          p ++ ',' :: (' ' :: join listSeparator (q :: ps)) := join_cons_cons _ _ _ _
      rw [hcut, nameWords_append (.inl rfl), nameWords_cons_space, ih]
      rfl

/-- A list of clauses has a classification if the first of them has. -/
theorem isClassified_join {p : List Char} {ps : List (List Char)}
    (hp : (classify p).isClassified = true) :
    (classify (join listSeparator (p :: ps))).isClassified = true := by
  cases ps with
  | nil => exact hp
  | cons q ps =>
    have hcut : join listSeparator (p :: q :: ps) =
        p ++ ',' :: (' ' :: join listSeparator (q :: ps)) := join_cons_cons _ _ _ _
    rw [hcut, isClassified_append (.inl rfl)]
    exact .inl hp

theorem isSolid_join {sep : List Char} {ps : List (List Char)} (hne : ps ≠ [])
    (hps : ∀ p ∈ ps, IsSolid p) : IsSolid (join sep ps) := by
  induction ps with
  | nil => exact absurd rfl hne
  | cons p ps ih =>
    have hp : IsSolid p := hps p (by simp)
    cases ps with
    | nil => exact hp
    | cons q ps =>
      have hrest : IsSolid (join sep (q :: ps)) := by
        apply ih (List.cons_ne_nil q ps)
        intro r hr
        exact hps r (List.mem_cons_of_mem p hr)
      rw [join_cons_cons]
      exact ⟨isWordAt_head?_append hp.1 _,
        isWordAt_getLast?_append _ (isWordAt_getLast?_append _ hrest.2)⟩

/-- There is nothing to trim where a text begins and ends with a word character. -/
theorem trim_eq_of_isSolid {s : List Char} (hs : IsSolid s) : trim s = s := by
  have hblank : ∀ o : Option Char, isWordAt o = true → ∀ c ∈ o, isBlank c = false := by
    rintro o ho c rfl
    cases hc : isBlank c with
    | false => rfl
    | true => exact absurd (isWord_of_isBlank hc) (by simpa [isWordAt] using ho)
  exact trim_eq_self (hblank _ hs.1) (hblank _ hs.2)

/-! ## Keyword phrases in a row -/

/-- The spellings of the names that stripping splits. -/
def splitSpellings : List (List Char) := splitNames.map String.toList

/-- What is left of a split name. -/
def splitRest : List Char := "pan".toList

set_option maxRecDepth 4000 in
theorem KeywordPhrase.nameWords {s : List Char} (hs : KeywordPhrase s) :
    nameWords s = if s ∈ splitSpellings then [splitRest] else [] := by
  have hsplit : ∀ s ∈ splitSpellings, Query.nameWords s = [splitRest] := by decide
  split
  · next hmem => exact hsplit s hmem
  · next hmem =>
    have hnil := hs.eraseKeywords.resolve_right hmem
    unfold Query.nameWords
    rw [hnil]
    rfl

theorem flatMap_nameWords {ps : List (List Char)} (hps : ∀ p ∈ ps, KeywordPhrase p) :
    ps.flatMap nameWords = List.replicate (ps.countP (· ∈ splitSpellings)) splitRest := by
  induction ps with
  | nil => rfl
  | cons p ps ih =>
    have hrest := ih fun q hq => hps q (List.mem_cons_of_mem p hq)
    -- Each phrase leaves one word or none.
    rw [List.flatMap_cons, (hps p (by simp)).nameWords, hrest, List.countP_cons]
    split
    · next hmem => simp [hmem, List.replicate_succ]
    · next hmem => simp [hmem]

/-- The query that lists the phrases. -/
def listQuery (ps : List (List Char)) : String := String.ofList (join listSeparator ps)

/-- **Keywords leave nothing but split names.** A query that lists keyword phrases has a
classification, and its name has one word for each phrase that stripping splits. So it has no name
exactly if there is no such phrase. -/
theorem keywords_leave_split_names {ps : List (List Char)} (hne : ps ≠ [])
    (hps : ∀ p ∈ ps, KeywordPhrase p) :
    (interpret (listQuery ps)).isClassified = true ∧
      (interpret (listQuery ps)).shipName.toList =
        join [' '] (List.replicate (ps.countP (· ∈ splitSpellings)) splitRest) ∧
      ((interpret (listQuery ps)).shipName = "" ↔ ∀ p ∈ ps, p ∉ splitSpellings) := by
  have hsolid : IsSolid (join listSeparator ps) := by
    apply isSolid_join hne
    intro p hp
    exact (hps p hp).isSolid
  have hsmall : ∀ c ∈ join listSeparator ps, IsSmall c := by
    intro c hc
    rcases mem_join hc with hc | ⟨p, hp, hc⟩
    · exact isSmall_of_all (s := listSeparator) (by decide) c hc
    · exact (hps p hp).isSmall c hc
  -- So the query is read as it was typed.
  have hread : lower (trim (listQuery ps).toList) = join listSeparator ps := by
    rw [listQuery, String.toList_ofList, trim_eq_of_isSolid hsolid, lower_eq_self hsmall]
  have hclass : (interpret (listQuery ps)).isClassified = true := by
    obtain ⟨p, qs, rfl⟩ := List.exists_cons_of_ne_nil hne
    rw [interpret_isClassified, hread]
    exact isClassified_join (hps p (by simp)).isClassified
  have hname : (interpret (listQuery ps)).shipName.toList =
      join [' '] (List.replicate (ps.countP (· ∈ splitSpellings)) splitRest) := by
    rw [interpret_shipName, if_pos hclass, hread, residual_eq_join, nameWords_join,
      flatMap_nameWords hps]
  refine ⟨hclass, hname, ?_⟩
  rw [← String.toList_eq_nil_iff, hname, join_eq_nil_iff, List.replicate_eq_nil_iff,
    List.countP_eq_zero]
  · simp
  · intro w hw
    rw [(List.mem_replicate.1 hw).2]
    decide

theorem keywords_leave_split_names_japanese_t8 :
    ["japanese".toList, "t".toList ++ "8".toList] ≠ [] ∧
      (∀ p ∈ ["japanese".toList, "t".toList ++ "8".toList], KeywordPhrase p) ∧
      (interpret (listQuery ["japanese".toList, "t".toList ++ "8".toList])).isClassified = true ∧
      (interpret (listQuery ["japanese".toList, "t".toList ++ "8".toList])).shipName = "" := by
  have hne : ["japanese".toList, "t".toList ++ "8".toList] ≠ [] := List.cons_ne_nil _ _
  have hnumeral : IsNumeralOf ⟨8, by decide, by decide⟩ "8".toList :=
    ⟨⟨by decide, (List.all_eq_true (p := Char.isDigit)).1 (by decide)⟩, by decide⟩
  have hps : ∀ p ∈ ["japanese".toList, "t".toList ++ "8".toList], KeywordPhrase p := by
    simp only [List.forall_mem_cons, List.not_mem_nil, false_implies, implies_true, and_true]
    exact ⟨.nation (by decide), .short hnumeral⟩
  obtain ⟨hclass, _, hname⟩ := keywords_leave_split_names hne hps
  exact ⟨hne, hps, hclass, hname.2 (by decide)⟩

/-- A name of one nation alone leaves a name: "america" is erased as a name of another nation
before "pan america" is looked for. -/
theorem pan_america_leaves_name :
    KeywordPhrase "pan america".toList ∧
      interpret "pan america" =
        { types := [.cruiser], nations := [.usa, .panAmerica], shipName := "pan" } :=
  ⟨.nation (by decide), by decide⟩

end FleetSearch.Query
