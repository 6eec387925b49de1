/-
# FleetSearch.Proofs.Text.LowerBlank -- lower-casing leaves white space where it is

White space has no case, and case does not look through it. So no sigma sees beyond white space, and
the texts on either side of it are lowered apart (`lower_append_break`). Nor does any other
character become white space (`isBlank_of_mem_lowerChar`). Hence trimming and lower-casing may come
in either order (`IsTrimmed.lower`), and white space around a text in lower case is trimmed off as
well (`trim_pad_lower`).
-/

import FleetSearch.Proofs.Text.Blank
import FleetSearch.Proofs.Text.LowerCase
import FleetSearch.Proofs.Text.LowerParts

namespace FleetSearch.Text

/-! ## White space -/

theorem isSmall_of_isBlank {c : Char} (hc : isBlank c = true) : IsSmall c :=
  forall_blank (P := IsSmall) (by decide +kernel) hc

/-- White space neither has case nor is looked through. -/
theorem startsCased_of_isBlank {c : Char} (hc : isBlank c = true) (s : List Char) :
    startsCased (c :: s) = false := by
  have hcase : isCaseIgnorable c = false ∧ isCased c = false :=
    forall_blank (P := fun c => isCaseIgnorable c = false ∧ isCased c = false)
      (by decide +kernel) hc
  unfold startsCased
  rw [hcase.1, hcase.2]
  rfl

section Break

variable {c : Char} (hc : isBlank c = true)
include hc

/-- Nothing behind white space is seen. -/
theorem startsCased_append_break (s t : List Char) : startsCased (s ++ c :: t) = startsCased s := by
  induction s with
  | nil => exact startsCased_of_isBlank hc t
  | cons d s ih => rw [List.cons_append, startsCased, startsCased, ih]

/-- **White space parts.** The texts before and behind white space are lowered apart. -/
theorem lower_append_break (s t : List Char) : lower (s ++ c :: t) = lower s ++ c :: lower t := by
  have hfront : KeepsSigmas [] s (c :: t) := by
    intro x y _
    unfold lowerSigma
    rw [startsCased_append_break hc, List.reverse_nil, List.append_nil]
  have hback : KeepsSigmas (s ++ [c]) t [] := by
    intro x y _
    unfold lowerSigma
    rw [List.reverse_append, List.reverse_singleton, List.singleton_append,
      startsCased_append_break hc, List.append_nil]
  -- At the end of the text the form in place is the form that lower-casing goes on with.
  have hrest : lowerAfter (c :: s.reverse) t = lower t := by
    have hend := lowerAfter_append (s ++ [c]).reverse t []
    rw [lowerBetween_eq_lower_iff.2 hback, lowerAfter, List.append_nil, List.append_nil,
      List.reverse_append, List.reverse_singleton, List.singleton_append] at hend
    exact hend
  have hplace : lowerBetween [] s (c :: t) = lower s := lowerBetween_eq_lower_iff.2 hfront
  have hsmall := isSmall_of_isBlank hc
  have hstart := lowerAfter_append [] s (c :: t)
  rw [hplace, List.append_nil, lowerAfter, if_neg hsmall.1, hsmall.2,
    hrest] at hstart
  exact hstart

end Break

/-- A text between white space has the lower-case form that it has alone. -/
theorem lower_append_blank {u v : List Char} (hu : ∀ c ∈ u, isBlank c = true)
    (hv : ∀ c ∈ v, isBlank c = true) (s : List Char) :
    lower (u ++ s ++ v) = u ++ lower s ++ v := by
  have hback : lower (s ++ v) = lower s ++ v := by
    cases v with
    | nil => rw [List.append_nil, List.append_nil]
    | cons c v =>
      have hrest : ∀ d ∈ v, IsSmall d := by
        intro d hd
        exact isSmall_of_isBlank (hv d (List.mem_cons_of_mem c hd))
      rw [lower_append_break (hv c (by simp)), lower_eq_self hrest]
  rw [List.append_assoc, List.append_assoc, ← hback]
  induction u with
  | nil => rfl
  | cons c u ih =>
    rw [List.forall_mem_cons] at hu
    have hfirst := lower_append_break hu.1 [] (u ++ (s ++ v))
    rw [ih hu.2] at hfirst
    exact hfirst

/-! ## All other characters -/

/-- No small form of a run of capitals is white space. -/
theorem caseRuns_miss_blanks :
    (caseRuns.all fun run => blankCodes.all fun n => run.misses n n) = true := by
  decide +kernel

theorem not_isBlank_lowerCode {n : Nat} {run : CaseRun} (hrun : run ∈ caseRuns)
    (hn : run.holds n = true) : isBlank (Char.ofNat (run.target + (n - run.first))) = false := by
  rw [← Bool.not_eq_true]
  intro hblank
  have hcode := mem_blankCodes hblank
  rw [CaseRun.toNat_ofNat_of_isValid (caseRuns_valid run hrun) hn] at hcode
  have hmiss := List.all_eq_true.1 (List.all_eq_true.1 caseRuns_miss_blanks run hrun) _ hcode
  rw [CaseRun.misses_iff] at hmiss
  simp only [CaseRun.holds, Bool.and_eq_true, decide_eq_true_eq] at hn
  omega

/-- The small form of a character is white space only if the character is. -/
theorem isBlank_of_mem_lowerChar {c d : Char} (hd : d ∈ lowerChar c) : isBlank d = isBlank c := by
  by_cases hc : isBlank c = true
  · rw [(isSmall_of_isBlank hc).2, List.mem_singleton] at hd
    rw [hd]
  · have hc : isBlank c = false := by simpa using hc
    rw [hc]
    unfold lowerChar at hd
    split at hd
    · next hlt =>
      have hall : ∀ n < 128, isBlank (Char.ofNat n) = false →
          isBlank (Char.ofNat n).toLower = false := by decide +kernel
      have hlower := hall c.toNat hlt
      rw [Char.ofNat_toNat] at hlower
      rw [List.mem_singleton.1 hd, hlower hc]
    · split at hd
      · rcases List.mem_pair.1 hd with rfl | rfl
        · rfl
        · rfl
      · rw [List.mem_singleton.1 hd, lowerCode]
        split
        · next run hfind =>
          have hholds : run.holds c.toNat = true := by simpa using List.find?_some hfind
          exact not_isBlank_lowerCode (List.mem_of_find?_eq_some hfind) hholds
        · rw [Char.ofNat_toNat, hc]

theorem lowerChar_ne_nil (c : Char) : lowerChar c ≠ [] := by
  unfold lowerChar
  split
  · exact List.cons_ne_nil _ _
  · split
    · exact List.cons_ne_nil _ _
    · exact List.cons_ne_nil _ _

/-- The small form of a character in its place: at least one character, each of them white space
exactly if the character is. -/
theorem lowered_cases (c : Char) (before after : List Char) :
    ∃ d s, (if c = '\u03A3' then [lowerSigma before after] else lowerChar c) = d :: s ∧
      ∀ e ∈ d :: s, isBlank e = isBlank c := by
  split
  · next hc =>
    refine ⟨_, [], rfl, ?_⟩
    intro e he
    rw [List.mem_singleton.1 he, hc, lowerSigma]
    split
    · decide
    · decide
  · obtain ⟨d, s, hds⟩ := List.exists_cons_of_ne_nil (lowerChar_ne_nil c)
    refine ⟨d, s, hds, ?_⟩
    intro e he
    exact isBlank_of_mem_lowerChar (hds ▸ he)

/-! ## The ends of a text -/

/-- A text in lower case begins with white space exactly if the text does. -/
theorem isBlank_head?_lower (s : List Char) :
    (lower s).head?.any isBlank = s.head?.any isBlank := by
  cases s with
  | nil => rfl
  | cons c s =>
    obtain ⟨d, t, hdt, hblank⟩ := lowered_cases c [] s
    unfold lower
    rw [lowerAfter, hdt]
    exact hblank d (by simp)

/-- A text in lower case ends with white space exactly if the text does. -/
theorem isBlank_getLast?_lower (s : List Char) :
    (lower s).getLast?.any isBlank = s.getLast?.any isBlank := by
  rcases List.eq_nil_or_concat s with rfl | ⟨s, c, rfl⟩
  · rfl
  · obtain ⟨d, t, hdt, hblank⟩ := lowered_cases c (s.reverse ++ []) []
    unfold lower
    rw [List.concat_eq_append, lowerAfter_append, lowerAfter, hdt, lowerAfter, List.append_nil,
      List.getLast?_append, List.getLast?_eq_some_getLast (List.cons_ne_nil d t),
      List.getLast?_append, List.getLast?_singleton]
    exact hblank _ (List.getLast_mem _)

/-! ## Trimming -/

theorem not_any_isBlank_iff {o : Option Char} :
    (∀ c ∈ o, isBlank c = false) ↔ o.any isBlank = false := by
  cases o with
  | none => simp
  | some c => simp

/-- **Trimming and lower-casing** may come in either order. -/
theorem IsTrimmed.lower {s t : List Char} (h : IsTrimmed s t) :
    IsTrimmed (Text.lower s) (Text.lower t) where
  cut := by
    obtain ⟨u, v, rfl, hu, hv⟩ := h.cut
    exact ⟨u, v, lower_append_blank hu hv t, hu, hv⟩
  first := by
    rw [not_any_isBlank_iff, isBlank_head?_lower, ← not_any_isBlank_iff]
    exact h.first
  last := by
    rw [not_any_isBlank_iff, isBlank_getLast?_lower, ← not_any_isBlank_iff]
    exact h.last

/-- A text is trimmed to a part that is a part in lower case, too. -/
theorem lower_trim_infix (s : List Char) : lower (trim s) <:+: lower s := by
  obtain ⟨u, v, hs, -, -⟩ := (isTrimmed_trim s).lower.cut
  rw [hs]
  exact List.infix_append u _ v

/-- Of a text in lower case between white space the trimmed text in lower case is left. -/
theorem trim_pad_lower {u v : List Char} (hu : ∀ c ∈ u, isBlank c = true)
    (hv : ∀ c ∈ v, isBlank c = true) (s : List Char) :
    trim (u ++ lower s ++ v) = lower (trim s) :=
  ((isTrimmed_trim s).lower.pad hu hv).trim_eq

end FleetSearch.Text
