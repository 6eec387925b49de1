/-
# FleetSearch.Proofs.Text.Runs -- maximal runs of characters of one kind

`runs p s` lists the maximal non-empty runs of characters with `p` in a text. The words between
white space are such runs (`words_eq_runs`), and so are the words made of word characters that
patterns with word edges see (`wordRuns`).

Everything about runs follows from two equations: a text without a break is its own run
(`runs_of_all`), and at a break the runs of the two sides come one after the other
(`runs_append_break`). `breakInduction` goes through a text from break to break.
-/

import FleetSearch.Proofs.Text.Blank
import Mathlib.Data.List.Chain

namespace FleetSearch.Text

/-! ## Runs -/

/-- The maximal runs of characters with the property, left to right. -/
def runs (p : Char → Bool) (s : List Char) : List (List Char) :=
  (s.splitOnP fun c => !p c).filter fun w => !w.isEmpty

/-- The maximal runs of word characters. -/
def wordRuns (s : List Char) : List (List Char) := runs isWord s

section Runs

variable {p : Char → Bool}

@[simp] theorem runs_nil : runs p [] = [] := by simp [runs, List.splitOnP_nil]

/-- A text without a break is one run. -/
theorem runs_of_all {w : List Char} (hne : w ≠ []) (hw : ∀ c ∈ w, p c = true) :
    runs p w = [w] := by
  have hsplit : (w.splitOnP fun c => !p c) = [w] := by
    apply List.splitOnP_eq_singleton
    intro c hc
    simp [hw c hc]
  simp [runs, hsplit, hne]

/-- **Runs part at a break.** -/
theorem runs_append_break {c : Char} (hc : p c = false) (s t : List Char) :
    runs p (s ++ c :: t) = runs p s ++ runs p t := by
  unfold runs
  rw [List.splitOnP_append_cons s t (by simp [hc]), List.filter_append]

theorem runs_cons_break {c : Char} (hc : p c = false) (s : List Char) :
    runs p (c :: s) = runs p s := by
  simpa using runs_append_break hc [] s

/-- Runs part where the second part of a text begins with a break. -/
theorem runs_append_of_head? {s t : List Char} (ht : t.head?.any p = false) :
    runs p (s ++ t) = runs p s ++ runs p t := by
  cases t with
  | nil => simp
  | cons c t =>
    have hc : p c = false := by simpa using ht
    rw [runs_append_break hc, runs_cons_break hc]

/-- Runs part where the first part of a text ends with a break. -/
theorem runs_append_of_getLast? {s t : List Char} (hs : s.getLast?.any p = false) :
    runs p (s ++ t) = runs p s ++ runs p t := by
  rcases List.eq_nil_or_concat' s with rfl | ⟨s, c, rfl⟩
  · simp
  · have hc : p c = false := by simpa using hs
    rw [List.append_assoc, List.singleton_append, runs_append_break hc, runs_append_break hc,
      runs_nil, List.append_nil]

/-- A run ends where no character of its kind follows. -/
theorem runs_append_of_all {w : List Char} (hne : w ≠ []) (hw : ∀ c ∈ w, p c = true)
    {s : List Char} (hs : s.head?.any p = false) : runs p (w ++ s) = w :: runs p s := by
  rw [runs_append_of_head? hs, runs_of_all hne hw, List.singleton_append]

/-- The runs of the second part of a text are runs of the whole if it begins with a break. -/
theorem runs_sublist_append {s t : List Char} (ht : t.head?.any p = false) :
    (runs p t).Sublist (runs p (s ++ t)) := by
  rw [runs_append_of_head? ht]
  exact List.sublist_append_right _ _

/-- A text is a run, possibly empty, and what follows it. -/
theorem exists_run_append (p : Char → Bool) (s : List Char) :
    ∃ u v, s = u ++ v ∧ (∀ c ∈ u, p c = true) ∧ v.head?.any p = false := by
  refine ⟨s.takeWhile p, s.dropWhile p, List.takeWhile_append_dropWhile.symm, ?_, ?_⟩
  · intro c hc
    exact List.mem_takeWhile_imp hc
  · have hnot := List.head?_dropWhile_not p s
    cases hd : (s.dropWhile p).head? with
    | none => rfl
    | some d => simpa [hd] using hnot

/-- Induction from break to break. -/
theorem breakInduction {motive : List Char → Prop} (p : Char → Bool)
    (last : ∀ w, (∀ c ∈ w, p c = true) → motive w)
    (next : ∀ w c s, (∀ d ∈ w, p d = true) → p c = false → motive s → motive (w ++ c :: s))
    (s : List Char) : motive s := by
  induction hn : s.length using Nat.strong_induction_on generalizing s with
  | _ n ih =>
    obtain ⟨w, v, rfl, hw, hv⟩ := exists_run_append p s
    cases v with
    | nil =>
      rw [List.append_nil]
      exact last w hw
    | cons c t =>
      have hlen : t.length < n := by
        rw [← hn, List.length_append, List.length_cons]
        omega
      have hc : p c = false := by simpa using hv
      exact next w c t hw hc (ih _ hlen t rfl)

/-- A run is not empty, and all its characters are of its kind. -/
theorem mem_runs {s w : List Char} (h : w ∈ runs p s) : w ≠ [] ∧ ∀ c ∈ w, p c = true := by
  induction s using breakInduction p with
  | last v hv =>
    by_cases hne : v = []
    · simp [hne] at h
    · rw [runs_of_all hne hv, List.mem_singleton] at h
      exact h ▸ ⟨hne, hv⟩
  | next v c s hv hc ih =>
    rw [runs_append_break hc, List.mem_append] at h
    rcases h with h | h
    · by_cases hne : v = []
      · simp [hne] at h
      · rw [runs_of_all hne hv, List.mem_singleton] at h
        exact h ▸ ⟨hne, hv⟩
    · exact ih h

/-- A run stands in the text between breaks or the ends of the text. -/
theorem exists_append_of_mem_runs {s w : List Char} (h : w ∈ runs p s) :
    ∃ u v, s = u ++ (w ++ v) ∧ u.getLast?.any p = false ∧ v.head?.any p = false := by
  induction s using breakInduction p with
  | last v hv =>
    by_cases hne : v = []
    · simp [hne] at h
    · rw [runs_of_all hne hv, List.mem_singleton] at h
      exact ⟨[], [], by simp [h], rfl, rfl⟩
  | next v c s hv hc ih =>
    rw [runs_append_break hc, List.mem_append] at h
    rcases h with h | h
    · by_cases hne : v = []
      · simp [hne] at h
      · rw [runs_of_all hne hv, List.mem_singleton] at h
        exact ⟨[], c :: s, by simp [h], rfl, by simpa using hc⟩
    · obtain ⟨u, t, rfl, hu, ht⟩ := ih h
      refine ⟨v ++ c :: u, t, by simp, ?_, ht⟩
      -- The break itself stands last if the run is the first thing behind it.
      rw [List.getLast?_append, List.getLast?_cons]
      cases hlast : u.getLast? with
      | none => simpa using hc
      | some d => simpa [hlast] using hu

/-- The characters of a run are characters of the text. -/
theorem mem_of_mem_runs {s w : List Char} (h : w ∈ runs p s) : ∀ c ∈ w, c ∈ s := by
  obtain ⟨u, v, rfl, -, -⟩ := exists_append_of_mem_runs h
  intro c hc
  simp [hc]

/-- Replacing breaks by breaks leaves the runs as they are. -/
theorem runs_map {f : Char → Char} (hfix : ∀ c, p c = true → f c = c)
    (hbreak : ∀ c, p c = false → p (f c) = false) (s : List Char) :
    runs p (s.map f) = runs p s := by
  have hmap : ∀ w : List Char, (∀ c ∈ w, p c = true) → w.map f = w := by
    intro w hw
    rw [List.map_congr_left (g := id) fun c hc => hfix c (hw c hc), List.map_id]
  induction s using breakInduction p with
  | last w hw => rw [hmap w hw]
  | next w c s hw hc ih =>
    rw [List.map_append, List.map_cons, hmap w hw, runs_append_break (hbreak c hc),
      runs_append_break hc, ih]

/-- Runs of a narrower kind lie inside those of a wider kind. -/
theorem runs_eq_flatMap {q : Char → Bool} (hqp : ∀ c, p c = false → q c = false) (s : List Char) :
    runs q s = (runs p s).flatMap (runs q) := by
  have hword : ∀ w : List Char, (∀ c ∈ w, p c = true) → runs q w = (runs p w).flatMap (runs q) := by
    intro w hw
    by_cases hne : w = []
    · simp [hne]
    · simp [runs_of_all hne hw]
  induction s using breakInduction p with
  | last w hw => exact hword w hw
  | next w c s hw hc ih =>
    rw [runs_append_break hc, runs_append_break (hqp c hc), List.flatMap_append, ← ih, ← hword w hw]

end Runs

/-! ## Words between white space -/

theorem words_cons_blank {c : Char} (hc : isBlank c = true) (s : List Char) :
    words (c :: s) = words s := if_pos hc

/-- A word ends before white space. -/
theorem words_cons_of_blank {c d : Char} (hc : isBlank c = false) (hd : isBlank d = true)
    (s : List Char) : words (c :: d :: s) = [c] :: words s := by
  show (if isBlank c then words (d :: s) else if isBlank d then [c] :: words (d :: s)
    else extendFirst c (words (d :: s))) = _
  rw [hc, hd, words_cons_blank hd]
  rfl

/-- A character joins the word that begins right behind it. -/
theorem words_cons_of_not_blank {c d : Char} (hc : isBlank c = false) (hd : isBlank d = false)
    (s : List Char) : words (c :: d :: s) = extendFirst c (words (d :: s)) := by
  show (if isBlank c then words (d :: s) else if isBlank d then [c] :: words (d :: s)
    else extendFirst c (words (d :: s))) = _
  rw [hc, hd]
  rfl

theorem words_singleton {c : Char} (hc : isBlank c = false) : words [c] = [[c]] := by
  show (if isBlank c then words [] else [[c]]) = _
  rw [hc]
  rfl

theorem words_of_no_blank {w : List Char} (hw : ∀ c ∈ w, isBlank c = false) :
    words w = if w = [] then [] else [w] := by
  induction w with
  | nil => rfl
  | cons c w ih =>
    have hc : isBlank c = false := hw c (by simp)
    have hrest := ih fun d hd => hw d (by simp [hd])
    cases w with
    | nil => exact words_singleton hc
    | cons d w =>
      have hd : isBlank d = false := hw d (by simp)
      rw [words_cons_of_not_blank hc hd, hrest]
      rfl

theorem words_append_blank {c : Char} (hc : isBlank c = true) {w : List Char}
    (hw : ∀ d ∈ w, isBlank d = false) (s : List Char) :
    words (w ++ c :: s) = words w ++ words s := by
  induction w with
  | nil => exact words_cons_blank hc s
  | cons d w ih =>
    have hd : isBlank d = false := hw d (by simp)
    have hrest := ih fun e he => hw e (by simp [he])
    cases w with
    | nil =>
      rw [List.cons_append, List.nil_append, words_cons_of_blank hd hc, words_singleton hd]
      rfl
    | cons e w =>
      have he : isBlank e = false := hw e (by simp)
      have hword := words_of_no_blank (w := e :: w) fun d hd => hw d (List.mem_cons_of_mem _ hd)
      rw [if_neg (List.cons_ne_nil e w)] at hword
      rw [List.cons_append] at hrest
      rw [List.cons_append, List.cons_append, words_cons_of_not_blank hd he,
        words_cons_of_not_blank hd he, hrest, hword]
      rfl

/-- **Words are runs.** The words of a text are its maximal runs without white space. -/
theorem words_eq_runs (s : List Char) : words s = runs (fun c => !isBlank c) s := by
  have hword : ∀ w : List Char, (∀ c ∈ w, (!isBlank c) = true) →
      words w = runs (fun c => !isBlank c) w := by
    intro w hw
    rw [words_of_no_blank (by simpa using hw)]
    split
    · next hnil => simp [hnil]
    · next hne => rw [runs_of_all hne hw]
  induction s using breakInduction fun c => !isBlank c with
  | last w hw => exact hword w hw
  | next w c s hw hc ih =>
    rw [words_append_blank (by simpa using hc) (by simpa using hw), runs_append_break hc, ih,
      hword w hw]

/-! ## Words joined by single spaces -/

@[simp] theorem join_nil (sep : List Char) : join sep [] = [] := rfl

@[simp] theorem join_singleton (sep w : List Char) : join sep [w] = w := rfl

theorem join_cons_cons (sep w v : List Char) (ws : List (List Char)) :
    join sep (w :: v :: ws) = w ++ (sep ++ join sep (v :: ws)) := by
  show w ++ sep ++ join sep (v :: ws) = _
  rw [List.append_assoc]

theorem join_append {sep : List Char} {ws vs : List (List Char)} (hws : ws ≠ []) (hvs : vs ≠ []) :
    join sep (ws ++ vs) = join sep ws ++ sep ++ join sep vs := by
  induction ws with
  | nil => exact absurd rfl hws
  | cons w ws ih =>
    cases ws with
    | nil =>
      obtain ⟨v, vs, rfl⟩ := List.exists_cons_of_ne_nil hvs
      rw [List.singleton_append, join_cons_cons, join_singleton, List.append_assoc]
    | cons u ws =>
      have hrest := ih (List.cons_ne_nil u ws)
      rw [List.cons_append] at hrest
      rw [List.cons_append, List.cons_append, join_cons_cons, hrest, join_cons_cons]
      simp only [List.append_assoc]

theorem join_eq_nil_iff {sep : List Char} {ws : List (List Char)} (hws : ∀ w ∈ ws, w ≠ []) :
    join sep ws = [] ↔ ws = [] := by
  cases ws with
  | nil => simp
  | cons w ws =>
    have hw : w ≠ [] := hws w (by simp)
    cases ws with
    | nil => simp [hw]
    | cons v ws => simp [join_cons_cons, hw]

theorem mem_join {sep : List Char} {ws : List (List Char)} {c : Char} (hc : c ∈ join sep ws) :
    c ∈ sep ∨ ∃ w ∈ ws, c ∈ w := by
  induction ws with
  | nil => simp at hc
  | cons w ws ih =>
    cases ws with
    | nil => exact .inr ⟨w, by simp, hc⟩
    | cons v ws =>
      rw [join_cons_cons, List.mem_append, List.mem_append] at hc
      rcases hc with hc | hc | hc
      · exact .inr ⟨w, by simp, hc⟩
      · exact .inl hc
      · rcases ih hc with hc | ⟨u, hu, hc⟩
        · exact .inl hc
        · exact .inr ⟨u, List.mem_cons_of_mem w hu, hc⟩

/-- The runs of joined words are those of the words, when the space between them is a break. -/
theorem runs_join_space {p : Char → Bool} (hp : p ' ' = false) (ws : List (List Char)) :
    runs p (join [' '] ws) = ws.flatMap (runs p) := by
  induction ws with
  | nil => simp
  | cons w ws ih =>
    cases ws with
    | nil => simp
    | cons v ws =>
      rw [join_cons_cons, List.singleton_append, runs_append_break hp, ih]
      rfl

/-- Splitting a text at white space and joining its words again keeps all word characters
together that were together. -/
theorem wordRuns_join_words (s : List Char) : wordRuns (join [' '] (words s)) = wordRuns s := by
  have hblank : ∀ c, (!isBlank c) = false → isWord c = false := by
    intro c hc
    exact isWord_of_isBlank (by simpa using hc)
  unfold wordRuns
  rw [runs_join_space (by decide), words_eq_runs, ← runs_eq_flatMap hblank]

/-! ## Single spaces -/

/-- A text whose only white space are single spaces between its words. -/
structure IsSpaced (s : List Char) : Prop where
  first : ∀ c ∈ s.head?, isBlank c = false
  last : ∀ c ∈ s.getLast?, isBlank c = false
  plain : ∀ c ∈ s, isBlank c = true → c = ' '
  single : s.IsChain fun c d => isBlank c = true → isBlank d = false

theorem isSpaced_of_no_blank {w : List Char} (hw : ∀ c ∈ w, isBlank c = false) : IsSpaced w where
  first := fun c hc => hw c (List.mem_of_mem_head? hc)
  last := fun c hc => hw c (List.mem_of_getLast? hc)
  plain := fun c hc hblank => by simp [hw c hc] at hblank
  single := by
    induction w with
    | nil => exact .nil
    | cons c w ih =>
      have hc : isBlank c = false := hw c (by simp)
      exact List.isChain_cons.2 ⟨by simp [hc], ih fun d hd => hw d (List.mem_cons_of_mem c hd)⟩

/-- All white space at one place of such a text is a single space, if there is any. -/
theorem IsSpaced.gap {u w v : List Char} (h : IsSpaced (u ++ (w ++ v)))
    (hw : ∀ c ∈ w, isBlank c = true) : w = [] ∨ w = [' '] := by
  cases w with
  | nil => exact .inl rfl
  | cons c w =>
    have hc : c = ' ' := h.plain c (by simp) (hw c (by simp))
    cases w with
    | nil => exact .inr (by rw [hc])
    | cons d w =>
      have hchain : (c :: d :: (w ++ v)).IsChain fun c d => isBlank c = true → isBlank d = false :=
        (List.isChain_append.1 h.single).2.1
      have hnext := (List.isChain_cons_cons.1 hchain).1 (hw c (by simp))
      rw [hw d (by simp)] at hnext
      cases hnext

/-- A word may be put in front of such a text. -/
theorem IsSpaced.cons_word {w s : List Char} (hne : w ≠ []) (hw : ∀ c ∈ w, isBlank c = false)
    (hs : IsSpaced s) (hsne : s ≠ []) : IsSpaced (w ++ ' ' :: s) where
  first := by
    rw [List.head?_append, List.head?_eq_some_head hne, Option.some_or]
    rintro c ⟨⟩
    exact hw _ (List.head_mem hne)
  last := by
    have hlast : (w ++ ' ' :: s).getLast? = s.getLast? := by
      rw [List.getLast?_append, List.getLast?_cons, List.getLast?_eq_some_getLast hsne]
      rfl
    rw [hlast]
    exact hs.last
  plain := by
    intro c hc hblank
    rcases List.mem_append.1 hc with hc | hc
    · simp [hw c hc] at hblank
    · rcases List.mem_cons.1 hc with hc | hc
      · exact hc
      · exact hs.plain c hc hblank
  single := by
    have hspace : (' ' :: s).IsChain fun c d => isBlank c = true → isBlank d = false :=
      List.isChain_cons.2 ⟨fun d hd _ => hs.first d hd, hs.single⟩
    refine List.isChain_append.2 ⟨(isSpaced_of_no_blank hw).single, hspace, ?_⟩
    -- Where the two meet, the first character is one of the word.
    intro c hc d _ hblank
    simp [hw c (List.mem_of_getLast? hc)] at hblank

theorem isSpaced_join {ws : List (List Char)}
    (hws : ∀ w ∈ ws, w ≠ [] ∧ ∀ c ∈ w, isBlank c = false) : IsSpaced (join [' '] ws) := by
  induction ws with
  | nil => exact isSpaced_of_no_blank (by simp)
  | cons w ws ih =>
    obtain ⟨hne, hw⟩ := hws w (by simp)
    have hrest : ∀ v ∈ ws, v ≠ [] ∧ ∀ c ∈ v, isBlank c = false := by
      intro v hv
      exact hws v (List.mem_cons_of_mem w hv)
    cases ws with
    | nil => exact isSpaced_of_no_blank hw
    | cons v ws =>
      have hjoin : join [' '] (v :: ws) ≠ [] := by
        rw [Ne, join_eq_nil_iff fun u hu => (hrest u hu).1]
        exact List.cons_ne_nil v ws
      rw [join_cons_cons]
      exact .cons_word hne hw (ih hrest) hjoin

end FleetSearch.Text
