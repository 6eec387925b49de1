/-
# FleetSearch.Proofs.Text.LowerCase -- what lower-casing leaves

A **small** character is no capital sigma and its own small form. Lower-casing a text yields small
characters only (`isSmall_of_mem_lower`), and a text of small characters is its own lower-case form,
wherever it was cut out (`lower_eq_self`). That lower-casing twice is lower-casing once is one
consequence.

The table of capitals is checked run by run and not capital by capital: the small forms of a run
miss another run, or fall between its members (`CaseRun.avoids`). Runs that are far away are missed
block by block (`Block.isAvoidedBy`).
-/

import FleetSearch.Text.LowerCase

namespace FleetSearch.Text

/-! ## Runs of capitals -/

namespace CaseRun

/-- Whether the small forms of the run lie before or behind the code points from `first` to
`last`. -/
def misses (run : CaseRun) (first last : Nat) : Bool :=
  Nat.blt (run.target + (run.last - run.first)) first || Nat.blt last run.target

/-- Whether no small form of the first run is a capital of the second: the small forms miss the
capitals, or both runs take every other code point and do not meet. -/
def avoids (run other : CaseRun) : Bool :=
  run.misses other.first other.last ||
    ((Nat.beq run.first run.last || Nat.beq run.step 2) && Nat.beq other.step 2 &&
      Nat.beq ((run.target + other.first) % 2) 1)

theorem misses_iff {run : CaseRun} {first last : Nat} :
    run.misses first last = true ↔
      run.target + (run.last - run.first) < first ∨ last < run.target := by
  unfold misses
  rw [Bool.or_eq_true, Nat.blt_eq, Nat.blt_eq]

theorem holds_eq_false_of_avoids {run other : CaseRun} {n : Nat} (h : run.avoids other = true)
    (hn : run.holds n = true) : other.holds (run.target + (n - run.first)) = false := by
  simp only [holds, Bool.and_eq_true, decide_eq_true_eq, beq_iff_eq] at hn
  obtain ⟨⟨hfirst, hlast⟩, hstep⟩ := hn
  simp only [avoids, Bool.or_eq_true, Bool.and_eq_true, misses_iff, Nat.beq_eq] at h
  rcases h with h | ⟨⟨hrun, hother⟩, hodd⟩
  · simp only [holds, Bool.and_eq_false_iff, decide_eq_false_iff_not]
    omega
  -- Both take every other code point, so a small form and a capital differ in parity.
  · have heven : (n - run.first) % 2 = 0 := by
      rcases hrun with hrun | hrun
      · omega
      · rwa [hrun] at hstep
    simp only [holds, hother, Bool.and_eq_false_iff, decide_eq_false_iff_not, beq_eq_false_iff_ne]
    omega

/-- Whether all small forms of the run are characters. -/
def isValid (run : CaseRun) : Bool :=
  run.target + (run.last - run.first) < 0xD800 ||
    (0xDFFF < run.target && run.target + (run.last - run.first) < 0x110000)

/-- The small forms of a valid run keep their code points as characters. -/
theorem toNat_ofNat_of_isValid {run : CaseRun} {n : Nat} (h : run.isValid = true)
    (hn : run.holds n = true) :
    (Char.ofNat (run.target + (n - run.first))).toNat = run.target + (n - run.first) := by
  have hvalid : (run.target + (n - run.first)).isValidChar := by
    simp only [holds, Bool.and_eq_true, decide_eq_true_eq] at hn
    simp only [isValid, Bool.or_eq_true, Bool.and_eq_true, decide_eq_true_eq] at h
    simp only [Nat.isValidChar]
    omega
  unfold Char.ofNat
  rw [dif_pos hvalid]
  rfl

end CaseRun

/-- All runs of characters that lower-casing changes: the ASCII capitals, the dotted capital I, and
those of the table. -/
def changedRuns : List CaseRun := ⟨0x41, 0x5A, 1, 0x61⟩ :: ⟨0x130, 0x130, 1, 0x69⟩ :: caseRuns

/-- Some runs and the code points between which all of them lie. -/
structure Block where
  first : Nat
  last : Nat
  runs : List CaseRun

namespace Block

/-- Sixteen of the runs of changed characters. -/
def ofIndex (i : Nat) : Block :=
  let runs := (changedRuns.drop (16 * i)).take 16
  ⟨(runs.head?.map CaseRun.first).getD 0, (runs.getLast?.map CaseRun.last).getD 0, runs⟩

/-- Whether all runs lie within the block. -/
def isClosed (b : Block) : Bool :=
  b.runs.all fun run => Nat.ble b.first run.first && Nat.ble run.last b.last

/-- Whether no small form of the run is a capital of the block. Only where the small forms fall
into the block are its runs looked at one by one. -/
def isAvoidedBy (b : Block) (run : CaseRun) : Bool :=
  run.misses b.first b.last || b.runs.all run.avoids

theorem avoids_of_isAvoidedBy {b : Block} {run other : CaseRun} (hb : b.isClosed = true)
    (h : b.isAvoidedBy run = true) (hother : other ∈ b.runs) : run.avoids other = true := by
  unfold isAvoidedBy at h
  rcases Bool.or_eq_true_iff.1 h with hmiss | hall
  · have hin := List.all_eq_true.1 hb other hother
    rw [Bool.and_eq_true, Nat.ble_eq, Nat.ble_eq] at hin
    have hother : run.misses other.first other.last = true := by
      rw [CaseRun.misses_iff] at hmiss ⊢
      omega
    unfold CaseRun.avoids
    rw [hother, Bool.true_or]
  · exact List.all_eq_true.1 hall other hother

end Block

/-- The runs of changed characters, cut into blocks. -/
def blocks : List Block := (List.range 12).map Block.ofIndex

/-- What is checked of the table: it fits into the blocks, no small form is a capital, all small
forms are characters, and the capital sigma is in it. -/
theorem caseRuns_checked : changedRuns.length ≤ 192 ∧
    (blocks.all fun b => b.isClosed && caseRuns.all b.isAvoidedBy) = true ∧
    caseRuns.all CaseRun.isValid = true ∧ caseRuns.any (·.holds 0x3A3) = true := by
  decide +kernel

theorem mem_blocks {run : CaseRun} (h : run ∈ changedRuns) : ∃ b ∈ blocks, run ∈ b.runs := by
  have hlength := caseRuns_checked.1
  obtain ⟨i, hi, rfl⟩ := List.mem_iff_getElem.1 h
  have hblock : i / 16 < 12 := by omega
  refine ⟨Block.ofIndex (i / 16), List.mem_map_of_mem (List.mem_range.2 hblock), ?_⟩
  show changedRuns[i] ∈ (changedRuns.drop (16 * (i / 16))).take 16
  rw [List.mem_iff_getElem]
  refine ⟨i % 16, ?_, ?_⟩
  · rw [List.length_take, List.length_drop]
    omega
  · rw [List.getElem_take, List.getElem_drop]
    congr 1
    omega

theorem caseRuns_avoid : ∀ run ∈ caseRuns, ∀ other ∈ changedRuns, run.avoids other = true := by
  intro run hrun other hother
  obtain ⟨b, hb, hother⟩ := mem_blocks hother
  have hblock := List.all_eq_true.1 caseRuns_checked.2.1 b hb
  rw [Bool.and_eq_true] at hblock
  exact Block.avoids_of_isAvoidedBy hblock.1 (List.all_eq_true.1 hblock.2 run hrun) hother

theorem caseRuns_valid : ∀ run ∈ caseRuns, run.isValid = true :=
  List.all_eq_true.1 caseRuns_checked.2.2.1

/-! ## Small characters -/

/-- A character that lower-casing keeps, wherever it stands. -/
def IsSmall (c : Char) : Prop := c ≠ '\u03A3' ∧ lowerChar c = [c]

instance : DecidablePred IsSmall := fun c =>
  inferInstanceAs (Decidable (c ≠ '\u03A3' ∧ lowerChar c = [c]))

/-- A code point outside all runs of capitals is its own small form. -/
theorem lowerCode_eq_self {n : Nat} (h : ∀ run ∈ caseRuns, run.holds n = false) :
    lowerCode n = n := by
  have hnone : caseRuns.find? (·.holds n) = none := by
    rw [List.find?_eq_none]
    intro run hrun
    simp [h run hrun]
  unfold lowerCode
  rw [hnone]

/-- A character outside all runs of changed characters is small. -/
theorem isSmall_of_unchanged {c : Char} (h : ∀ run ∈ changedRuns, run.holds c.toNat = false) :
    IsSmall c := by
  have htable : ∀ run ∈ caseRuns, run.holds c.toNat = false := by
    intro run hrun
    apply h
    exact List.mem_cons_of_mem _ (List.mem_cons_of_mem _ hrun)
  have hascii := h ⟨0x41, 0x5A, 1, 0x61⟩ (by simp [changedRuns])
  have hdotted := h ⟨0x130, 0x130, 1, 0x69⟩ (by simp [changedRuns])
  constructor
  · rintro rfl
    obtain ⟨run, hrun, hholds⟩ := List.any_eq_true.1 caseRuns_checked.2.2.2
    exact absurd hholds (by simpa using htable run hrun)
  · have hne : c ≠ '\u0130' := by
      rintro rfl
      exact absurd hdotted (by decide)
    rw [lowerChar, if_neg hne, lowerCode_eq_self htable, Char.ofNat_toNat]
    split
    · next hlt =>
      have hsmall : ∀ n < 128, ¬ (0x41 ≤ n ∧ n ≤ 0x5A) → (Char.ofNat n).toLower = Char.ofNat n := by
        decide
      have hrange : ¬ (0x41 ≤ c.toNat ∧ c.toNat ≤ 0x5A) := by
        simpa [CaseRun.holds, Nat.mod_one] using hascii
      have hlower := hsmall c.toNat hlt hrange
      rw [Char.ofNat_toNat] at hlower
      rw [hlower]
    · rfl

/-- The characters of a text are checked one by one. -/
theorem isSmall_of_all {s : List Char} (h : (s.all fun c => decide (IsSmall c)) = true) :
    ∀ c ∈ s, IsSmall c := by
  intro c hc
  exact of_decide_eq_true (List.all_eq_true.1 h c hc)

/-- The characters that the two exceptions write are small. -/
theorem isSmall_exceptions : ∀ c ∈ ['i', '\u0307', '\u03C2', '\u03C3'], IsSmall c :=
  isSmall_of_all (by decide +kernel)

/-- The small form of a character is small. -/
theorem isSmall_of_mem_lowerChar {c d : Char} (hd : d ∈ lowerChar c) (hc : c ≠ '\u03A3') :
    IsSmall d := by
  unfold lowerChar at hd
  split at hd
  · next hlt =>
    have hall : ∀ n < 128, IsSmall (Char.ofNat n).toLower := by decide
    have hsmall := hall c.toNat hlt
    rw [Char.ofNat_toNat] at hsmall
    rwa [List.mem_singleton.1 hd]
  · next hlt =>
    split at hd
    · refine isSmall_exceptions d ?_
      rcases List.mem_cons.1 hd with rfl | hd
      · simp
      · rw [List.mem_singleton.1 hd]
        simp
    · next hne =>
      rw [List.mem_singleton.1 hd, lowerCode]
      split
      · next run hfind =>
        have hrun := List.mem_of_find?_eq_some hfind
        have hholds : run.holds c.toNat = true := by simpa using List.find?_some hfind
        -- The small form belongs to no other run either, so nothing would change it again.
        apply isSmall_of_unchanged
        intro other hother
        rw [CaseRun.toNat_ofNat_of_isValid (caseRuns_valid run hrun) hholds]
        exact CaseRun.holds_eq_false_of_avoids (caseRuns_avoid run hrun other hother) hholds
      · next hnone =>
        rw [List.find?_eq_none] at hnone
        have htable : lowerCode c.toNat = c.toNat := by
          apply lowerCode_eq_self
          intro run hrun
          simpa using hnone run hrun
        rw [Char.ofNat_toNat]
        exact ⟨hc, by rw [lowerChar, if_neg hlt, if_neg hne, htable, Char.ofNat_toNat]⟩

/-! ## Whole texts -/

/-- **Lower-casing leaves small characters only.** -/
theorem isSmall_of_mem_lower {s : List Char} {d : Char} (hd : d ∈ lower s) : IsSmall d := by
  -- What a sigma becomes depends on the text before it, so the induction is over all of them.
  have hafter : ∀ before, d ∈ lowerAfter before s → IsSmall d := by
    clear hd
    induction s with
    | nil =>
      intro before hd
      cases hd
    | cons c s ih =>
      intro before hd
      rw [lowerAfter, List.mem_append] at hd
      rcases hd with hd | hd
      · split at hd
        · refine isSmall_exceptions d ?_
          rw [List.mem_singleton.1 hd, lowerSigma]
          split <;> simp
        · next hc => exact isSmall_of_mem_lowerChar hd hc
      · exact ih _ hd
  exact hafter [] hd

/-- A text of small characters is its own lower-case form, whatever it follows. -/
theorem lowerAfter_eq_self {s : List Char} (hs : ∀ c ∈ s, IsSmall c) (before : List Char) :
    lowerAfter before s = s := by
  induction s generalizing before with
  | nil => rfl
  | cons c s ih =>
    have hc : IsSmall c := hs c (by simp)
    rw [lowerAfter, if_neg hc.1, hc.2, ih fun d hd => hs d (List.mem_cons_of_mem c hd)]
    rfl

theorem lower_eq_self {s : List Char} (hs : ∀ c ∈ s, IsSmall c) : lower s = s :=
  lowerAfter_eq_self hs []

/-- Lower-casing twice is lower-casing once. -/
theorem lower_lower (s : List Char) : lower (lower s) = lower s :=
  lower_eq_self fun _ => isSmall_of_mem_lower

end FleetSearch.Text
