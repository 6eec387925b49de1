/-
# FleetSearch.Proofs.Pattern.Mentions -- what a text mentions, told without a pattern

A kind of mention is a relation `M`: `M u x s` says that the text `u`, where `s` stands behind it,
is a mention of `x`. A text has two lists of mentions, both left to right. In one of them each
mention begins behind the one before (`MentionsInTurn`); in the other there is one for every place
where a mention begins (`MentionsEverywhere`), so they may share characters. The two are the same
if a mention begins with a character that comes in it only once (`MentionsInTurn.everywhere`).

A pattern **reads** a kind of mention if its hits are mentions and it has a hit wherever a mention
begins (`Reads`). What it finds in a text are then the mentions in turn (`Reads.exists_inTurn`).
-/

import FleetSearch.Proofs.Pattern.Following
import Mathlib.Data.List.Forall2

namespace FleetSearch

open Pattern

section

variable {α : Type} {M : List Char → α → List Char → Prop}

/-! ## Mentions -/

/-- A mention begins at the start of the text. -/
def BeginsMention (M : List Char → α → List Char → Prop) (s : List Char) : Prop :=
  ∃ u x t, s = u ++ t ∧ M u x t

/-- The mentions in a text, left to right, each behind the one before. -/
inductive MentionsInTurn (M : List Char → α → List Char → Prop) : List Char → List α → Prop
  | done : MentionsInTurn M [] []
  | pass {c : Char} {s : List Char} {xs : List α} :
      ¬ BeginsMention M (c :: s) → MentionsInTurn M s xs → MentionsInTurn M (c :: s) xs
  | take {u s t : List Char} {x : α} {xs : List α} :
      s = u ++ t → M u x t → MentionsInTurn M t xs → MentionsInTurn M s (x :: xs)

/-- The mentions in a text, left to right, one for each place where one begins. -/
inductive MentionsEverywhere (M : List Char → α → List Char → Prop) : List Char → List α → Prop
  | done : MentionsEverywhere M [] []
  | pass {c : Char} {s : List Char} {xs : List α} :
      ¬ BeginsMention M (c :: s) → MentionsEverywhere M s xs → MentionsEverywhere M (c :: s) xs
  | take {c : Char} {u s t : List Char} {x : α} {xs : List α} :
      c :: s = u ++ t → M u x t → MentionsEverywhere M s xs →
      MentionsEverywhere M (c :: s) (x :: xs)

/-- A mention takes some text, and at one place it takes one text and mentions one thing. -/
structure IsDefinite (M : List Char → α → List Char → Prop) : Prop where
  ne_nil {u s : List Char} {x : α} : M u x s → u ≠ []
  unique {u v s t : List Char} {x y : α} : M u x s → M v y t → u ++ s = v ++ t → u = v ∧ x = y

theorem MentionsInTurn.unique (hM : IsDefinite M) {s : List Char} {xs ys : List α}
    (hxs : MentionsInTurn M s xs) (hys : MentionsInTurn M s ys) : xs = ys := by
  induction hxs generalizing ys with
  | done =>
    cases hys with
    | done => rfl
    | take hcut hm _ => exact absurd (List.append_eq_nil_iff.1 hcut.symm).1 (hM.ne_nil hm)
  | pass hnone _ ih =>
    cases hys with
    | pass _ hys => exact ih hys
    | take hcut hm _ => exact absurd ⟨_, _, _, hcut, hm⟩ hnone
  | take hcut hm _ ih =>
    cases hys with
    | done => exact absurd (List.append_eq_nil_iff.1 hcut.symm).1 (hM.ne_nil hm)
    | pass hnone _ => exact absurd ⟨_, _, _, hcut, hm⟩ hnone
    | take hcut' hm' hys =>
      have hsame := hcut.symm.trans hcut'
      obtain ⟨rfl, rfl⟩ := hM.unique hm hm' hsame
      obtain rfl := List.append_cancel_left hsame
      rw [ih hys]

/-- Only one list tells the mentions in turn. -/
theorem MentionsInTurn.iff_eq (hM : IsDefinite M) {s : List Char} {xs : List α}
    (hxs : MentionsInTurn M s xs) (ys : List α) : MentionsInTurn M s ys ↔ ys = xs := by
  constructor
  · intro hys
    exact hys.unique hM hxs
  · rintro rfl
    exact hxs

theorem MentionsEverywhere.unique (hM : IsDefinite M) {s : List Char} {xs ys : List α}
    (hxs : MentionsEverywhere M s xs) (hys : MentionsEverywhere M s ys) : xs = ys := by
  induction hxs generalizing ys with
  | done =>
    cases hys
    rfl
  | pass hnone _ ih =>
    cases hys with
    | pass _ hys => exact ih hys
    | take hcut hm _ => exact absurd ⟨_, _, _, hcut, hm⟩ hnone
  | take hcut hm _ ih =>
    cases hys with
    | pass hnone _ => exact absurd ⟨_, _, _, hcut, hm⟩ hnone
    | take hcut' hm' hys =>
      obtain ⟨-, rfl⟩ := hM.unique hm hm' (hcut.symm.trans hcut')
      rw [ih hys]

/-- Only one list tells the mentions everywhere. -/
theorem MentionsEverywhere.iff_eq (hM : IsDefinite M) {s : List Char} {xs : List α}
    (hxs : MentionsEverywhere M s xs) (ys : List α) : MentionsEverywhere M s ys ↔ ys = xs := by
  constructor
  · intro hys
    exact hys.unique hM hxs
  · rintro rfl
    exact hxs

/-! ## Mentions that share no characters -/

/-- A mention begins with the character and has it nowhere else. -/
def OpensWith (c : Char) (M : List Char → α → List Char → Prop) : Prop :=
  ∀ {u x s}, M u x s → ∃ a, u = c :: a ∧ c ∉ a

theorem OpensWith.not_begins {c d : Char} (hM : OpensWith c M) (hd : d ≠ c) (s : List Char) :
    ¬ BeginsMention M (d :: s) := by
  rintro ⟨u, x, t, hcut, hm⟩
  obtain ⟨a, rfl, -⟩ := hM hm
  exact hd (List.cons.inj hcut).1

/-- A text without the character that opens all mentions adds none. -/
theorem MentionsEverywhere.append {c : Char} (hM : OpensWith c M) {u s : List Char} {xs : List α}
    (hu : c ∉ u) (hs : MentionsEverywhere M s xs) : MentionsEverywhere M (u ++ s) xs := by
  induction u with
  | nil => exact hs
  | cons d u ih =>
    rw [List.mem_cons, not_or] at hu
    exact .pass (hM.not_begins (Ne.symm hu.1) _) (ih hu.2)

/-- **Nothing is skipped.** If no mention can begin inside another one, the mentions in turn are
those everywhere. -/
theorem MentionsInTurn.everywhere {c : Char} (hM : OpensWith c M) {s : List Char} {xs : List α}
    (h : MentionsInTurn M s xs) : MentionsEverywhere M s xs := by
  induction h with
  | done => exact .done
  | pass hnone _ ih => exact .pass hnone ih
  | take hcut hm _ ih =>
    obtain ⟨a, rfl, ha⟩ := hM hm
    rw [hcut]
    exact .take rfl hm (ih.append hM ha)

/-! ## Patterns that read mentions -/

/-- The hits of the pattern are mentions, of things that `Q` holds of, and wherever a mention
begins the pattern takes it. -/
structure Pattern.Reads (p : Pattern) (M : List Char → α → List Char → Prop)
    (Q : Hit → α → Prop) : Prop where
  mention {b : Option Char} {s : List Char} {h : Hit} :
    h ∈ p.hits b s → ∃ x, M h.text x h.rest ∧ Q h x
  takes {u s : List Char} {x : α} : M u x s → ∃ g, p.Takes u g s

namespace Pattern.Reads

variable {p : Pattern} {Q : Hit → α → Prop}

/-- What a pattern finds are the mentions in turn, one for one. -/
theorem exists_inTurn (hp : p.Reads M Q) (hM : IsDefinite M) (s : List Char) :
    ∃ xs, MentionsInTurn M s xs ∧ List.Forall₂ Q (p.finds s) xs := by
  have hscan : ∀ b ps, Scan p b s ps →
      ∃ xs, MentionsInTurn M s xs ∧ List.Forall₂ Q (Piece.foundHits ps) xs := by
    intro b ps hps
    induction hps with
    | done => exact ⟨[], .done, .nil⟩
    | @keep b c s ps hnone _ ih =>
      obtain ⟨xs, hxs, hall⟩ := ih
      refine ⟨xs, .pass ?_ hxs, hall⟩
      -- A mention would be a hit that takes some text.
      rintro ⟨u, x, t, hcut, hm⟩
      obtain ⟨g, hg⟩ := hp.takes hm
      rw [hcut, hit?_eq_none_iff] at hnone
      exact hM.ne_nil hm (hnone _ (hg b))
    | find hsome _ ih =>
      obtain ⟨xs, hxs, hall⟩ := ih
      have hmem := (hit?_eq_some hsome).1
      obtain ⟨x, hm, hx⟩ := hp.mention hmem
      exact ⟨x :: xs, .take (text_append_rest hmem).symm hm hxs, .cons hx hall⟩
  have hs := scan_piecesAfter p none s
  rw [finds_eq_of_scan hs]
  exact hscan none _ hs

end Pattern.Reads

end

end FleetSearch
