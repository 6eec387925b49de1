/-
# FleetSearch.Proofs.Pattern.Source -- reading the source of an alternation back

The source of an alternation of phrases is read from left to right. A backslash with a special
character behind it stands for that character, `\s*` for a gap, a bar ends an alternative, any other
special character is refused, and every other character stands for itself (`marks?`).

**No phrase is misread**, whatever its characters. A phrase may hold backslashes, stars and bars of
its own, also next to a gap. Each mark is complete before the next one begins, so the marks of a
source are those of its parts one after the other (`marks?_loose`, `marks?_oneOf`). The bars among
them separate the phrases, and the gaps in each of these its pieces between single spaces
(`phrases?_oneOf`).
-/

import FleetSearch.Vocabulary
import Mathlib.Data.List.Basic

namespace FleetSearch

namespace Pattern

/-! ## Marks -/

/-- What a source says at one place. -/
inductive Mark where
  | char (c : Char)
  /-- Any white space. -/
  | gap
  /-- The end of an alternative. -/
  | bar
  deriving DecidableEq

/-- The marks of a source. -/
def marks? : List Char → Option (List Mark)
  | [] => some []
  | '\\' :: 's' :: '*' :: s => (marks? s).map (.gap :: ·)
  | '\\' :: c :: s => if c ∈ metaChars then (marks? s).map (.char c :: ·) else none
  | '|' :: s => (marks? s).map (.bar :: ·)
  | c :: s => if c ∈ metaChars then none else (marks? s).map (.char c :: ·)

/-- The characters among the marks. -/
def Mark.chars (ms : List Mark) : List Char :=
  ms.filterMap fun | .char c => some c | .gap => none | .bar => none

/-- The phrases that a source has between its bars, each as its pieces between gaps. -/
def phrases? (s : List Char) : Option (List (List (List Char))) :=
  (marks? s).map fun ms =>
    (ms.splitOn .bar).map fun alternative => (alternative.splitOn .gap).map Mark.chars

/-! ## The marks of a pattern -/

theorem marks?_gap (s : List Char) : marks? ("\\s*".toList ++ s) = (marks? s).map (.gap :: ·) := by
  show marks? ('\\' :: 's' :: '*' :: s) = _
  rw [marks?]

theorem marks?_bar (s : List Char) : marks? ("|".toList ++ s) = (marks? s).map (.bar :: ·) := by
  show marks? ('|' :: s) = _
  rw [marks?]

theorem marks?_escape (c : Char) (s : List Char) :
    marks? (escape c ++ s) = (marks? s).map (.char c :: ·) := by
  unfold escape
  split
  · next hspecial =>
    show marks? ('\\' :: c :: s) = _
    rw [marks?, if_pos hspecial]
    -- An "s" behind the backslash would begin a gap, but an "s" is not special.
    rintro t rfl -
    exact absurd hspecial (by decide)
  · next hplain =>
    have hbackslash : c ≠ '\\' := by
      rintro rfl
      exact hplain (by decide)
    have hbar : c ≠ '|' := by
      rintro rfl
      exact hplain (by decide)
    show marks? (c :: s) = _
    rw [marks?, if_neg hplain]
    · exact fun _ h _ => hbackslash h
    · exact fun _ _ h _ => hbackslash h
    · exact hbar

/-- The mark of a character in a phrase. -/
def markOf (c : Char) : Mark := if c = ' ' then .gap else .char c

/-- A phrase has one mark for each of its characters. -/
theorem marks?_loose (phrase s : List Char) :
    marks? ((loose phrase).source ++ s) = (marks? s).map (phrase.map markOf ++ ·) := by
  induction phrase with
  | nil => simp [loose, source]
  | cons c phrase ih =>
    have hcut : (loose (c :: phrase)).source ++ s =
        (if c = ' ' then "\\s*".toList else escape c) ++ ((loose phrase).source ++ s) := by
      rw [← List.append_assoc, loose, source]
      split <;> rfl
    have hmark : ∀ t, marks? ((if c = ' ' then "\\s*".toList else escape c) ++ t) =
        (marks? t).map (markOf c :: ·) := by
      intro t
      unfold markOf
      split
      · exact marks?_gap t
      · exact marks?_escape c t
    rw [hcut, hmark, ih, Option.map_map]
    rfl

/-- An alternation has the marks of its phrases with bars between them. -/
theorem marks?_oneOf (phrases : List (List Char)) :
    marks? (oneOf (phrases.map loose)).source =
      some ([Mark.bar].intercalate (phrases.map (·.map markOf))) := by
  induction phrases with
  | nil => rfl
  | cons phrase phrases ih =>
    cases phrases with
    | nil =>
      have hlast := marks?_loose phrase []
      rw [List.append_nil, marks?, Option.map_some, List.append_nil] at hlast
      simpa [oneOf] using hlast
    | cons next phrases =>
      show marks? ((loose phrase).source ++ "|".toList ++
        (oneOf ((next :: phrases).map loose)).source) = _
      rw [List.append_assoc, marks?_loose, marks?_bar, ih]
      simp [List.intercalate]

/-! ## The phrases of an alternation -/

theorem bar_ne_markOf (c : Char) : .bar ≠ markOf c := by
  unfold markOf
  split <;> nofun

/-- The gaps of a phrase stand where its spaces are. -/
theorem splitOn_gap (phrase : List Char) :
    (phrase.map markOf).splitOn .gap = (phrase.splitOn ' ').map (·.map Mark.char) := by
  induction phrase with
  | nil => rfl
  | cons c phrase ih =>
    rw [List.map_cons, List.splitOn_cons_eq_if_modifyHead, List.splitOn_cons_eq_if_modifyHead, ih]
    by_cases hc : c = ' '
    · simp [markOf, hc]
    · rw [markOf, if_neg hc, if_neg (by simp), if_neg (by simpa using hc)]
      cases phrase.splitOn ' ' <;> rfl

theorem chars_map_char (w : List Char) : Mark.chars (w.map .char) = w := by
  rw [Mark.chars, List.filterMap_map]
  exact List.filterMap_some

/-- The phrases are read back from their alternation, cut at each single space. -/
theorem phrases?_oneOf {phrases : List (List Char)} (h : phrases ≠ []) :
    phrases? (oneOf (phrases.map loose)).source = some (phrases.map (·.splitOn ' ')) := by
  have hbars : ([Mark.bar].intercalate (phrases.map (·.map markOf))).splitOn .bar =
      phrases.map (·.map markOf) := by
    apply List.splitOn_intercalate
    · rw [List.forall_mem_map]
      intro phrase _ hbar
      obtain ⟨c, _, hc⟩ := List.mem_map.1 hbar
      exact bar_ne_markOf c hc.symm
    · simpa using h
  have hpieces : ∀ phrase : List Char,
      ((phrase.map markOf).splitOn .gap).map Mark.chars = phrase.splitOn ' ' := by
    intro phrase
    rw [splitOn_gap, List.map_map]
    exact (List.map_congr_left fun w _ => chars_map_char w).trans (List.map_id _)
  rw [phrases?, marks?_oneOf, Option.map_some, hbars, List.map_map]
  exact congrArg some (List.map_congr_left fun phrase _ => hpieces phrase)

end Pattern

namespace Vocabulary

open Pattern

/-- **An alternation says what its phrases say.** Between its brackets the source of any phrases, at
least one, is read without a special character out of place, and what is read is exactly these
phrases, each as its pieces between single spaces. -/
theorem alternation_reads_back {ss : List String} (hss : ss ≠ []) :
    ∃ body, (anyPhrase ss).source = "(?:".toList ++ body ++ ")".toList ∧
      phrases? body = some (ss.map fun s => s.toList.splitOn ' ') := by
  refine ⟨(oneOf (ss.map phrase)).source, rfl, ?_⟩
  have hphrases : ss.map phrase = (ss.map String.toList).map loose := by
    rw [List.map_map]
    rfl
  rw [hphrases, phrases?_oneOf (by simpa using hss), List.map_map]
  rfl

/-- A phrase that imitates a gap and a bar and has two spaces before a star. -/
theorem alternation_reads_back_imitated :
    ["battle ship", "\\s*|  *"] ≠ [] ∧ ∃ body,
      (anyPhrase ["battle ship", "\\s*|  *"]).source = "(?:".toList ++ body ++ ")".toList ∧
        phrases? body =
          some [["battle".toList, "ship".toList], ["\\s*|".toList, [], "*".toList]] :=
  ⟨by decide, alternation_reads_back (by decide)⟩

example : (anyPhrase ["battle ship", "\\s*|  *"]).source =
    "(?:battle\\s*ship|\\\\s\\*\\|\\s*\\s*\\*)".toList := by decide

end Vocabulary

end FleetSearch
