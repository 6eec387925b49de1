/-
# FleetSearch.Proofs.Pattern.ErasedWords -- what erasing does to the words of a text

A pattern that takes whole words erases whole words. So the words of what it leaves are some of the
words of the text, in the same order and with the same spelling: no word is cut, and no two are
fused. Moreover no word is left that the pattern would have taken wherever it stands by itself
(`Catches`).

The induction goes along the scan, from one word boundary to the next (`WordScan`): between two
boundaries the scan either takes a find, which ends at a boundary again, or keeps a break, or keeps
a whole word, since no find can begin inside a word (`scan_inside_word`).
-/

import FleetSearch.Proofs.Pattern.Scan
import FleetSearch.Proofs.Text.Runs

namespace FleetSearch.Pattern

open Text

/-- The pattern takes text at the start of the word wherever the word stands by itself. -/
def Catches (p : Pattern) (w : List Char) : Prop :=
  ∀ b s, isWordAt b = false → isWordAt s.head? = false → ∃ h ∈ p.hits b (w ++ s), h.text ≠ []

section TakesWords

variable {p : Pattern} (hp : p.TakesWords)
include hp

/-- No find begins inside a word, so the rest of the word is kept. -/
theorem scan_inside_word {b : Option Char} {u v : List Char} {ps : List Piece}
    (hb : isWordAt b = true) (hu : ∀ c ∈ u, isWord c = true) (hps : Scan p b (u ++ v) ps) :
    ∃ b' qs, ps = u.map .kept ++ qs ∧ Scan p b' v qs := by
  induction u generalizing b ps with
  | nil => exact ⟨b, ps, rfl, hps⟩
  | cons c u ih =>
    have hc : isWord c = true := hu c (by simp)
    have hrest : ∀ d ∈ u, isWord d = true := by
      intro d hd
      exact hu d (List.mem_cons_of_mem c hd)
    cases hps with
    | keep _ hps =>
      obtain ⟨b', qs, rfl, hqs⟩ := ih (by simp [isWordAt, hc]) hrest hps
      exact ⟨b', qs, rfl, hqs⟩
    | find hsome _ =>
      have hbefore := (hp _ _ _ (hit?_eq_some hsome).1).before
      simp [hb] at hbefore

/-- No find begins at a break. -/
theorem scan_cons_break {b : Option Char} {c : Char} {s : List Char} {ps : List Piece}
    (hc : isWord c = false) (hps : Scan p b (c :: s) ps) :
    ∃ qs, ps = .kept c :: qs ∧ Scan p (some c) s qs := by
  cases hps with
  | keep _ hps => exact ⟨_, rfl, hps⟩
  | @find _ _ h _ hsome _ =>
    obtain ⟨hmem, hne⟩ := hit?_eq_some hsome
    obtain ⟨d, t, ht⟩ := List.exists_cons_of_ne_nil hne
    have hcut := text_append_rest hmem
    rw [ht, List.cons_append, List.cons.injEq] at hcut
    have hfirst := (hp _ _ _ hmem).first
    simp [ht, isWordAt, hcut.1, hc] at hfirst

theorem erase_cons_break {c : Char} (hc : isWord c = false) (s : List Char) :
    p.erase (c :: s) = c :: p.erase s := by
  obtain ⟨qs, hps, hqs⟩ := scan_cons_break hp hc (scan_piecesAfter p none (c :: s))
  have hnone : isWordAt (some c) = isWordAt none := by simp [isWordAt, hc]
  rw [erase_eq_of_scan (scan_piecesAfter p none (c :: s)), hps, Piece.keptText_kept,
    erase_eq_of_scan (scan_congr hnone hqs)]

/-- A place between two words or at the edge of one. -/
def AtBoundary (b : Option Char) (s : List Char) : Prop :=
  isWordAt b = false ∨ isWordAt s.head? = false

end TakesWords

/-- A scan from word boundary to word boundary. -/
inductive WordScan (p : Pattern) : List Char → List Piece → Prop
  | done : WordScan p [] []
  | keepBreak {c : Char} {s : List Char} {ps : List Piece} :
      isWord c = false → WordScan p s ps → WordScan p (c :: s) (.kept c :: ps)
  | keepWord {w s : List Char} {ps : List Piece} :
      w ≠ [] → (∀ c ∈ w, isWord c = true) → isWordAt s.head? = false → ¬ p.Catches w →
      WordScan p s ps → WordScan p (w ++ s) (w.map .kept ++ ps)
  | find {h : Hit} {ps : List Piece} :
      isWordAt h.text.head? = true → isWordAt h.rest.head? = false → WordScan p h.rest ps →
      WordScan p (h.text ++ h.rest) (.found h :: ps)

/-- A word that the scan keeps from its first character on is one that the pattern does not
catch. -/
theorem not_catches_of_hit?_eq_none {p : Pattern} {b : Option Char} {w s : List Char}
    (hb : isWordAt b = false) (hs : isWordAt s.head? = false) (hnone : p.hit? b (w ++ s) = none) :
    ¬ p.Catches w := by
  intro hcatch
  obtain ⟨h, hh, hne⟩ := hcatch b s hb hs
  exact hne (hit?_eq_none_iff.1 hnone h hh)

/-- A scan from a word boundary goes from boundary to boundary. -/
theorem wordScan_of_scan {p : Pattern} (hp : p.TakesWords) {b : Option Char} {s : List Char}
    {ps : List Piece} (hb : AtBoundary b s) (hps : Scan p b s ps) : WordScan p s ps := by
  induction hn : s.length using Nat.strong_induction_on generalizing b s ps with
  | _ n ih =>
    cases hps with
    | done => exact .done
    | @find _ _ h qs hsome hqs =>
      obtain ⟨hmem, -⟩ := hit?_eq_some hsome
      have hafter := (hp _ _ _ hmem).after
      have hcut := text_append_rest hmem
      -- Whole words are taken, so a word boundary follows the find.
      have hlen : h.rest.length < n := hn ▸ length_rest_lt hsome
      exact hcut ▸ .find (hp _ _ _ hmem).first hafter (ih _ hlen (.inr hafter) hqs rfl)
    | @keep _ c s qs hnone hqs =>
      by_cases hc : isWord c = true
      · have hbefore : isWordAt b = false := by
          rcases hb with hb | hb
          · exact hb
          · simp [isWordAt, hc] at hb
        -- The scan stands at the first character of a word, and keeps the word to its end.
        obtain ⟨u, v, rfl, hu, hv⟩ := exists_run_append isWord s
        have hin : isWordAt (some c) = true := by simp [isWordAt, hc]
        obtain ⟨b', rs, rfl, hrs⟩ := scan_inside_word hp hin hu hqs
        have hword : ∀ d ∈ c :: u, isWord d = true := by
          intro d hd
          rcases List.mem_cons.1 hd with rfl | hd
          · exact hc
          · exact hu d hd
        have hlen : v.length < n := by
          rw [← hn, List.length_cons, List.length_append]
          omega
        exact .keepWord (List.cons_ne_nil c u) hword hv
          (not_catches_of_hit?_eq_none hbefore hv hnone) (ih _ hlen (.inr hv) hrs rfl)
      · have hc : isWord c = false := by simpa using hc
        have hb' : AtBoundary (some c) s := .inl (by simp [isWordAt, hc])
        exact .keepBreak hc (ih s.length (by simp [← hn]) hb' hqs rfl)

/-- What is kept begins inside a word only if the text does. -/
theorem isWordAt_head?_keptText {p : Pattern} {s : List Char} {ps : List Piece}
    (hps : WordScan p s ps) (hs : isWordAt s.head? = false) :
    isWordAt (Piece.keptText ps).head? = false := by
  cases hps with
  | done => rfl
  | keepBreak hc _ => simpa [isWordAt] using hc
  | keepWord hne hw _ _ _ =>
    obtain ⟨c, w, rfl⟩ := List.exists_cons_of_ne_nil hne
    have hc : isWord c = true := hw c (by simp)
    simp [isWordAt, hc] at hs
  | @find h _ hfirst _ _ =>
    rw [List.head?_append] at hs
    cases ht : h.text.head? with
    | none => simp [ht, isWordAt] at hfirst
    | some c =>
      rw [ht, Option.some_or] at hs
      rw [ht, hs] at hfirst
      cases hfirst

theorem wordRuns_keptText {p : Pattern} {s : List Char} {ps : List Piece} (hps : WordScan p s ps) :
    (wordRuns (Piece.keptText ps)).Sublist (wordRuns s) ∧
      ∀ w ∈ wordRuns (Piece.keptText ps), ¬ p.Catches w := by
  induction hps with
  | done => simp [wordRuns]
  | keepBreak hc _ ih =>
    unfold wordRuns at ih ⊢
    rw [Piece.keptText_kept, runs_cons_break hc, runs_cons_break hc]
    exact ih
  | @keepWord w s ps hne hw hs hcatch hps ih =>
    -- The word that is kept ends in what is kept too: nothing that follows is moved up to it.
    have hkept := isWordAt_head?_keptText hps hs
    rw [Piece.keptText_append, Piece.keptText_map_kept, wordRuns, wordRuns,
      runs_append_of_all hne hw hs, runs_append_of_all hne hw hkept]
    refine ⟨ih.1.cons_cons w, ?_⟩
    intro v hv
    rcases List.mem_cons.1 hv with rfl | hv
    · exact hcatch
    · exact ih.2 v hv
  | find _ hafter _ ih =>
    exact ⟨ih.1.trans (runs_sublist_append hafter), ih.2⟩

/-- **Erasing takes whole words, and every word it can take.** -/
theorem wordRuns_erase {p : Pattern} (hp : p.TakesWords) (s : List Char) :
    (wordRuns (p.erase s)).Sublist (wordRuns s) ∧ ∀ w ∈ wordRuns (p.erase s), ¬ p.Catches w := by
  have hscan := scan_piecesAfter p none s
  rw [erase_eq_of_scan hscan]
  exact wordRuns_keptText (wordScan_of_scan hp (.inl rfl) hscan)

/-- Erasing one pattern after the other takes whole words, and every word that one of the patterns
can take: a later pattern never puts a word together again. -/
theorem wordRuns_foldl_erase {ps : List Pattern} (hps : ∀ p ∈ ps, p.TakesWords) (s : List Char) :
    (wordRuns (ps.foldl (fun s p => p.erase s) s)).Sublist (wordRuns s) ∧
      ∀ w ∈ wordRuns (ps.foldl (fun s p => p.erase s) s), ∀ p ∈ ps, ¬ p.Catches w := by
  induction ps generalizing s with
  | nil => simp
  | cons p ps ih =>
    obtain ⟨hsub, hcaught⟩ := wordRuns_erase (hps p (by simp)) s
    have hrest : ∀ q ∈ ps, q.TakesWords := fun q hq => hps q (List.mem_cons_of_mem p hq)
    obtain ⟨hsub', hcaught'⟩ := ih hrest (p.erase s)
    refine ⟨hsub'.trans hsub, ?_⟩
    intro w hw q hq
    rcases List.mem_cons.1 hq with rfl | hq
    · exact hcaught w (hsub'.subset hw)
    · exact hcaught' w hw q hq

/-- What stands before the first word has no part in any find. -/
theorem foldl_erase_cons_break {ps : List Pattern} (hps : ∀ p ∈ ps, p.TakesWords) {c : Char}
    (hc : isWord c = false) (s : List Char) :
    ps.foldl (fun s p => p.erase s) (c :: s) = c :: ps.foldl (fun s p => p.erase s) s := by
  induction ps generalizing s with
  | nil => rfl
  | cons p ps ih =>
    rw [List.foldl_cons, List.foldl_cons, erase_cons_break (hps p (by simp)) hc]
    apply ih
    intro q hq
    exact hps q (List.mem_cons_of_mem p hq)

end FleetSearch.Pattern
