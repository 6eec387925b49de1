/-
# FleetSearch.Proofs.Text.LowerParts -- lower-casing a part of a text

Each character of a text is lowered by itself, save a capital sigma: its small form depends on the
text around it. So the lower-case form of a text is that of its parts where they stand
(`lower_append_append`), and a part that is cut out has the form it had in place exactly if each of
its sigmas keeps its form (`lowerBetween_eq_lower_iff`).
-/

import FleetSearch.Text.LowerCase
import Mathlib.Data.List.Infix

namespace FleetSearch.Text

/-- The lower-case form that a text has between the characters `before`, nearest first, and the text
`after`. -/
def lowerBetween (before : List Char) : List Char → List Char → List Char
  | [], _ => []
  | c :: s, after =>
    (if c = '\u03A3' then [lowerSigma before (s ++ after)] else lowerChar c) ++
      lowerBetween (c :: before) s after

theorem lowerAfter_append (before s t : List Char) :
    lowerAfter before (s ++ t) = lowerBetween before s t ++ lowerAfter (s.reverse ++ before) t := by
  induction s generalizing before with
  | nil => rfl
  | cons c s ih =>
    rw [List.cons_append, lowerAfter, ih (c :: before), lowerBetween, List.append_assoc,
      List.reverse_cons, List.append_assoc, List.singleton_append]

/-- The lower-case form of a text is that of its parts where they stand. -/
theorem lower_append_append (u s v : List Char) :
    lower (u ++ s ++ v) = lowerBetween [] u (s ++ v) ++ lowerBetween u.reverse s v ++
      lowerAfter (s.reverse ++ u.reverse) v := by
  unfold lower
  rw [List.append_assoc, lowerAfter_append, lowerAfter_append, List.append_nil, List.append_assoc]

/-- Every part of a text leaves the lower-case form that it has in place. -/
theorem lowerBetween_infix_lower (u s v : List Char) :
    lowerBetween u.reverse s v <:+: lower (u ++ s ++ v) := by
  rw [lower_append_append]
  exact List.infix_append _ _ _

/-- Each capital sigma of the part `s` has the same small form in `s` as between `u` and `v`. -/
def KeepsSigmas (u s v : List Char) : Prop :=
  ∀ x y, s = x ++ '\u03A3' :: y →
    lowerSigma (x.reverse ++ u.reverse) (y ++ v) = lowerSigma x.reverse y

theorem keepsSigmas_of_not_mem {u s v : List Char} (h : '\u03A3' ∉ s) : KeepsSigmas u s v := by
  rintro x y rfl
  exact absurd (List.mem_append_right x List.mem_cons_self) h

/-- What holds of every cut at a character `d` holds of the cut at the front and of those behind. -/
theorem forall_cut_cons {c d : Char} {s : List Char} {p : List Char → List Char → Prop} :
    (∀ x y, c :: s = x ++ d :: y → p x y) ↔
      (c = d → p [] s) ∧ ∀ x y, s = x ++ d :: y → p (c :: x) y := by
  constructor
  · intro h
    refine ⟨?_, ?_⟩
    · rintro rfl
      exact h [] s rfl
    · rintro x y rfl
      exact h (c :: x) y rfl
  · rintro ⟨hfront, hbehind⟩ x y hs
    cases x with
    | nil =>
      obtain ⟨rfl, rfl⟩ := List.cons.inj hs
      exact hfront rfl
    | cons e x =>
      obtain ⟨rfl, rfl⟩ := List.cons.inj hs
      exact hbehind x y rfl

/-- Two small forms of one character differ only if it is a sigma. -/
theorem lowered_eq_iff {c : Char} {s t : List Char} {a b : Char} :
    (if c = '\u03A3' then [a] else lowerChar c) ++ s =
        (if c = '\u03A3' then [b] else lowerChar c) ++ t ↔
      (c = '\u03A3' → a = b) ∧ s = t := by
  split
  · next hc => simp only [hc, List.singleton_append, List.cons.injEq, forall_const]
  · next hc => simp only [hc, List.append_cancel_left_eq, false_implies, true_and]

/-- The text before a part and the text after it matter to the small forms of its sigmas alone. The
induction moves the start of the part to the characters `seen`. -/
theorem lowerBetween_eq_lowerAfter_iff (before seen s after : List Char) :
    lowerBetween (seen ++ before) s after = lowerAfter seen s ↔
      ∀ x y, s = x ++ '\u03A3' :: y →
        lowerSigma (x.reverse ++ (seen ++ before)) (y ++ after) =
          lowerSigma (x.reverse ++ seen) y := by
  induction s generalizing seen with
  | nil => simp [lowerBetween, lowerAfter]
  | cons c s ih =>
    rw [lowerBetween, lowerAfter, lowered_eq_iff, forall_cut_cons, ← List.cons_append,
      ih (c :: seen)]
    simp only [List.reverse_nil, List.nil_append, List.reverse_cons, List.append_assoc,
      List.cons_append]

/-- **A part cut out of a text** has the lower-case form that it had there exactly if its sigmas
keep theirs. -/
theorem lowerBetween_eq_lower_iff {u s v : List Char} :
    lowerBetween u.reverse s v = lower s ↔ KeepsSigmas u s v := by
  have h := lowerBetween_eq_lowerAfter_iff u.reverse [] s v
  simp only [List.nil_append, List.append_nil] at h
  exact h

/-- A part whose sigmas keep their small forms is found again in lower case. -/
theorem KeepsSigmas.lower_part {u s v : List Char} (h : KeepsSigmas u s v) :
    lower s <:+: lower (u ++ s ++ v) := by
  rw [← lowerBetween_eq_lower_iff.2 h]
  exact lowerBetween_infix_lower u s v

end FleetSearch.Text
