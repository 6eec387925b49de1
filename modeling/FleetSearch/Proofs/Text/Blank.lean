/-
# FleetSearch.Proofs.Text.Blank -- white space and trimming

There are 25 white space characters, so a fact about all of them is checked one by one
(`forall_blank`). Trimming is the one way to take white space off both ends of a text
(`isTrimmed_trim`).
-/

import FleetSearch.Text.Blank
import FleetSearch.Text.WordChar
import Mathlib.Data.List.DropRight

namespace FleetSearch.Text

/-! ## The white space characters -/

/-- The code points of white space. -/
def blankCodes : List Nat := [9, 10, 11, 12, 13, 0x20, 0x85, 0xA0, 0x1680, 0x2000, 0x2001, 0x2002,
  0x2003, 0x2004, 0x2005, 0x2006, 0x2007, 0x2008, 0x2009, 0x200A, 0x2028, 0x2029, 0x202F, 0x205F,
  0x3000]

theorem mem_blankCodes {c : Char} (hc : isBlank c = true) : c.toNat ∈ blankCodes := by
  simp only [isBlank, Bool.or_eq_true, Bool.and_eq_true, decide_eq_true_eq, beq_iff_eq] at hc
  simp only [blankCodes, List.mem_cons, List.not_mem_nil, or_false]
  omega

/-- What holds of each of the 25 white space characters holds of white space. -/
theorem forall_blank {P : Char → Prop} (h : ∀ n ∈ blankCodes, P (Char.ofNat n)) {c : Char}
    (hc : isBlank c = true) : P c := by
  have hcode := h c.toNat (mem_blankCodes hc)
  rwa [Char.ofNat_toNat] at hcode

set_option maxRecDepth 4000 in
/-- White space belongs to no word. -/
theorem isWord_of_isBlank {c : Char} (hc : isBlank c = true) : isWord c = false :=
  forall_blank (P := fun c => isWord c = false) (by decide) hc

theorem isDigit_of_isBlank {c : Char} (hc : isBlank c = true) : c.isDigit = false :=
  forall_blank (P := fun c => c.isDigit = false) (by decide) hc

/-! ## Trimming -/

/-- A text is another one trimmed: what is missing at either end is white space, and neither end
is. -/
structure IsTrimmed (s t : List Char) : Prop where
  cut : ∃ u v, s = u ++ t ++ v ∧ (∀ c ∈ u, isBlank c = true) ∧ ∀ c ∈ v, isBlank c = true
  first : ∀ c ∈ t.head?, isBlank c = false
  last : ∀ c ∈ t.getLast?, isBlank c = false

theorem trimEnd_eq_rdropWhile (s : List Char) : trimEnd s = s.rdropWhile isBlank := rfl

/-- Trimming takes the white space off both ends and nothing else. -/
theorem isTrimmed_trim (s : List Char) : IsTrimmed s (trim s) where
  cut := by
    refine ⟨s.takeWhile isBlank, (trimStart s).rtakeWhile isBlank, ?_, ?_, ?_⟩
    · rw [trim, trimEnd_eq_rdropWhile, List.append_assoc, List.rdropWhile_append_rtakeWhile,
        trimStart, List.takeWhile_append_dropWhile]
    · intro c hc
      exact List.mem_takeWhile_imp hc
    · intro c hc
      exact List.mem_rtakeWhile_imp hc
  first := by
    intro c hc
    -- Trimming the end leaves the first character where it is, or nothing at all.
    obtain ⟨t, ht⟩ : trimEnd (trimStart s) <+: trimStart s := List.rdropWhile_prefix isBlank _
    have hhead : c ∈ (s.dropWhile isBlank).head? := by
      rw [trim] at hc
      rw [← trimStart, ← ht, List.head?_append]
      simp only [Option.mem_def] at hc ⊢
      simp [hc]
    have hnot := List.head?_dropWhile_not isBlank s
    simp only [Option.mem_def] at hhead
    simpa [hhead] using hnot
  last := by
    intro c hc
    rw [trim, trimEnd_eq_rdropWhile] at hc
    have hne : (trimStart s).rdropWhile isBlank ≠ [] := by
      rintro hnil
      simp [hnil] at hc
    have hnot := List.rdropWhile_last_not isBlank (trimStart s) hne
    rw [List.getLast?_eq_some_getLast hne, Option.mem_def, Option.some.injEq] at hc
    simpa [hc] using hnot

/-- Nothing is left of a trimmed text exactly when it is all white space. -/
theorem trim_eq_nil_iff {s : List Char} : trim s = [] ↔ ∀ c ∈ s, isBlank c = true := by
  constructor
  · intro hnil
    obtain ⟨u, v, hs, hu, hv⟩ := (isTrimmed_trim s).cut
    rw [hnil, List.append_nil] at hs
    intro c hc
    rcases List.mem_append.1 (hs ▸ hc) with hc | hc
    · exact hu c hc
    · exact hv c hc
  · intro hall
    have hstart : trimStart s = [] := List.dropWhile_eq_nil_iff.2 hall
    unfold trim
    rw [hstart]
    rfl

theorem trimEnd_append_blank {s v : List Char} (hlast : ∀ c ∈ s.getLast?, isBlank c = false)
    (hv : ∀ c ∈ v, isBlank c = true) : trimEnd (s ++ v) = s := by
  have hfront : s.reverse.dropWhile isBlank = s.reverse := by
    rw [List.getLast?_eq_head?_reverse] at hlast
    cases hs : s.reverse with
    | nil => rfl
    | cons c r =>
      rw [hs] at hlast
      exact List.dropWhile_cons_of_neg (by simp [hlast c rfl])
  unfold trimEnd
  rw [List.reverse_append, List.dropWhile_append_of_pos (by simpa using hv), hfront,
    List.reverse_reverse]

/-- **Only one text is another one trimmed.** -/
theorem IsTrimmed.trim_eq {s t : List Char} (h : IsTrimmed s t) : trim s = t := by
  obtain ⟨u, v, rfl, hu, hv⟩ := h.cut
  cases t with
  | nil =>
    rw [trim_eq_nil_iff, List.append_nil, List.forall_mem_append]
    exact ⟨hu, hv⟩
  | cons c t =>
    have hc : isBlank c = false := h.first c rfl
    have hstart : trimStart (u ++ c :: t ++ v) = c :: t ++ v := by
      rw [trimStart, List.append_assoc, List.dropWhile_append_of_pos hu, List.cons_append,
        List.dropWhile_cons_of_neg (by simp [hc])]
    unfold trim
    rw [hstart, trimEnd_append_blank h.last hv]

/-- White space around a text is trimmed off with what the text has itself. -/
theorem IsTrimmed.pad {s t : List Char} (h : IsTrimmed s t) {u v : List Char}
    (hu : ∀ c ∈ u, isBlank c = true) (hv : ∀ c ∈ v, isBlank c = true) :
    IsTrimmed (u ++ s ++ v) t where
  cut := by
    obtain ⟨x, y, rfl, hx, hy⟩ := h.cut
    refine ⟨u ++ x, y ++ v, ?_, ?_, ?_⟩
    · simp only [List.append_assoc]
    · rw [List.forall_mem_append]
      exact ⟨hu, hx⟩
    · rw [List.forall_mem_append]
      exact ⟨hy, hv⟩
  first := h.first
  last := h.last

/-- A text that neither begins nor ends with white space is left as it is. -/
theorem trim_eq_self {s : List Char} (hfirst : ∀ c ∈ s.head?, isBlank c = false)
    (hlast : ∀ c ∈ s.getLast?, isBlank c = false) : trim s = s := by
  apply IsTrimmed.trim_eq
  exact ⟨⟨[], [], by simp, by simp, by simp⟩, hfirst, hlast⟩

end FleetSearch.Text
