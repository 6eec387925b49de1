/-
# FleetSearch.Proofs.Sorting -- what sorting does

A stable sort has the items of the list (`stableSort_perm`), in order (`stableSort_pairwise`), and
any items that are tied stand as they stood before (`filter_stableSort`). There is only one such
list: two lists in order are equal once they agree on every class of tied items
(`eq_of_pairwise_of_filter_eq`). So it does not matter whether items are dropped before a sort or
between two (`stableSort_filter_stableSort`).

Texts are ordered by their code points, as lists of numbers are (`textBefore_iff`).

A strictly ascending list is known by its values (`eq_of_pairwise_of_mem_iff`). The distinct values
of a list ascend strictly and are what is in it (`distinct_pairwise`, `mem_distinct`), and
the entries by key are the last ones with each key (`mem_lastByKey`).
-/

import FleetSearch.Sorting
import Mathlib.Data.List.Induction
import Mathlib.Data.List.Lex
import Mathlib.Data.List.Perm.Basic

namespace FleetSearch

/-! ## Stable sorting -/

section

variable {α : Type} {le : α → α → Bool}

/-- An order that items can be sorted by: any two items are in order one way round, and orders
chain. Items may be in order both ways. -/
structure IsSortOrder (le : α → α → Bool) : Prop where
  total : ∀ a b, le a b = true ∨ le b a = true
  trans : ∀ a b c, le a b = true → le b c = true → le a c = true

/-- Whether neither of two items has to come first. -/
def tied (le : α → α → Bool) (a b : α) : Bool := le a b && le b a

theorem insertBefore_perm (a : α) (as : List α) : (insertBefore le a as).Perm (a :: as) := by
  induction as with
  | nil => exact .refl _
  | cons b as ih =>
    unfold insertBefore
    split
    · exact .refl _
    · exact (ih.cons b).trans (.swap a b as)

/-- **Sorting** keeps the items. -/
theorem stableSort_perm (as : List α) : (stableSort le as).Perm as := by
  induction as with
  | nil => exact .refl _
  | cons a as ih => exact (insertBefore_perm a _).trans (ih.cons a)

theorem insertBefore_pairwise (hle : IsSortOrder le) (a : α) {as : List α}
    (has : as.Pairwise fun a b => le a b = true) :
    (insertBefore le a as).Pairwise fun a b => le a b = true := by
  induction as with
  | nil => exact List.pairwise_singleton _ _
  | cons b as ih =>
    rw [List.pairwise_cons] at has
    unfold insertBefore
    split
    · next hab =>
      rw [List.pairwise_cons, List.pairwise_cons]
      refine ⟨?_, has⟩
      intro c hc
      rcases List.mem_cons.1 hc with rfl | hc
      · exact hab
      · exact hle.trans a b c hab (has.1 c hc)
    · next hab =>
      have hba : le b a = true := (hle.total a b).resolve_left hab
      rw [List.pairwise_cons]
      refine ⟨?_, ih has.2⟩
      intro c hc
      rcases List.mem_cons.1 ((insertBefore_perm a as).mem_iff.1 hc) with rfl | hc
      · exact hba
      · exact has.1 c hc

/-- Sorting puts the items in order. -/
theorem stableSort_pairwise (hle : IsSortOrder le) (as : List α) :
    (stableSort le as).Pairwise fun a b => le a b = true := by
  induction as with
  | nil => exact .nil
  | cons a as ih => exact insertBefore_pairwise hle a ih

/-- An item is inserted in front of all items that are tied with it. -/
theorem filter_insertBefore {p : α → Bool}
    (hp : ∀ a b, p a = true → p b = true → le a b = true) (a : α) (as : List α) :
    (insertBefore le a as).filter p = (a :: as).filter p := by
  induction as with
  | nil => rfl
  | cons b as ih =>
    unfold insertBefore
    split
    · rfl
    · next hab =>
      rw [List.filter_cons, ih, List.filter_cons, List.filter_cons, List.filter_cons]
      -- The item goes behind another one only if the two are not of one class.
      by_cases ha : p a = true
      · have hb : ¬ p b = true := fun hb => hab (hp a b ha hb)
        rw [if_neg hb, if_neg hb]
      · rw [if_neg ha, if_neg ha]

/-- Sorting leaves the items of a class of tied items as they stood. -/
theorem filter_stableSort {p : α → Bool}
    (hp : ∀ a b, p a = true → p b = true → le a b = true) (as : List α) :
    (stableSort le as).filter p = as.filter p := by
  induction as with
  | nil => rfl
  | cons a as ih =>
    show (insertBefore le a (stableSort le as)).filter p = (a :: as).filter p
    rw [filter_insertBefore hp, List.filter_cons, ih, ← List.filter_cons]

theorem tied_self (hle : IsSortOrder le) (a : α) : tied le a a = true := by
  have ha : le a a = true := (hle.total a a).elim id id
  unfold tied
  rw [ha, Bool.and_self]

/-- Lists that agree on every class of tied items have the same items. -/
theorem mem_iff_of_filter_eq (hle : IsSortOrder le) {as bs : List α}
    (h : ∀ a, as.filter (tied le a) = bs.filter (tied le a)) (a : α) : a ∈ as ↔ a ∈ bs := by
  have ha : a ∈ as.filter (tied le a) ↔ a ∈ bs.filter (tied le a) := by rw [h a]
  simpa only [List.mem_filter, tied_self hle a, and_true] using ha

/-- **Only one list is sorted stably.** Two lists in order are equal if they agree on every class of
tied items. -/
theorem eq_of_pairwise_of_filter_eq (hle : IsSortOrder le) {as bs : List α}
    (has : as.Pairwise fun a b => le a b = true) (hbs : bs.Pairwise fun a b => le a b = true)
    (h : ∀ a, as.filter (tied le a) = bs.filter (tied le a)) : as = bs := by
  induction as generalizing bs with
  | nil =>
    cases bs with
    | nil => rfl
    | cons b bs => exact absurd ((mem_iff_of_filter_eq hle h b).2 (by simp)) (by simp)
  | cons a as ih =>
    cases bs with
    | nil => exact absurd ((mem_iff_of_filter_eq hle h a).1 (by simp)) (by simp)
    | cons b bs =>
      rw [List.pairwise_cons] at has hbs
      -- Each of the two first items comes before the other, so they are of one class.
      have hab : tied le a b = true := by
        rcases List.mem_cons.1 ((mem_iff_of_filter_eq hle h b).2 (by simp)) with rfl | hb
        · exact tied_self hle b
        rcases List.mem_cons.1 ((mem_iff_of_filter_eq hle h a).1 (by simp)) with rfl | ha
        · exact tied_self hle a
        unfold tied
        rw [has.1 b hb, hbs.1 a ha, Bool.and_self]
      have hclass := h a
      rw [List.filter_cons_of_pos (tied_self hle a), List.filter_cons_of_pos hab,
        List.cons.injEq] at hclass
      obtain ⟨rfl, -⟩ := hclass
      have hrest : ∀ c, as.filter (tied le c) = bs.filter (tied le c) := by
        intro c
        have hc := h c
        rw [List.filter_cons, List.filter_cons] at hc
        split at hc
        · exact (List.cons.inj hc).2
        · exact hc
      rw [ih has.2 hbs.2 hrest]

/-- What is left of a sorted list is sorted to the same list as what is left of the list itself. -/
theorem stableSort_filter_stableSort (hle : IsSortOrder le) (p : α → Bool) (as : List α) :
    stableSort le ((stableSort le as).filter p) = stableSort le (as.filter p) := by
  apply eq_of_pairwise_of_filter_eq hle (stableSort_pairwise hle _) (stableSort_pairwise hle _)
  intro a
  have hclass : ∀ b c, tied le a b = true → tied le a c = true → le b c = true := by
    intro b c hb hc
    unfold tied at hb hc
    rw [Bool.and_eq_true] at hb hc
    exact hle.trans b a c hb.2 hc.1
  -- Within a class of tied items neither sorting changes anything.
  calc (stableSort le ((stableSort le as).filter p)).filter (tied le a)
      = ((stableSort le as).filter p).filter (tied le a) := filter_stableSort hclass _
    _ = ((stableSort le as).filter (tied le a)).filter p := List.filter_comm _ _ _
    _ = (as.filter (tied le a)).filter p := by rw [filter_stableSort hclass]
    _ = (as.filter p).filter (tied le a) := List.filter_comm _ _ _
    _ = (stableSort le (as.filter p)).filter (tied le a) := (filter_stableSort hclass _).symm

end

/-! ## The order of texts -/

/-- The code points of a text. -/
def codes (s : String) : List Nat := s.toList.map Char.toNat

theorem codes_injective {s t : String} (h : codes s = codes t) : s = t := by
  have hchars : s.toList = t.toList := List.map_injective_iff.2 (fun c d => Char.toNat_inj.1) h
  exact String.toList_inj.1 hchars

/-- A text comes before another if its code points do. -/
theorem textBefore_iff {s t : String} : textBefore s t = true ↔ codes s < codes t := by
  have hlists : ∀ a b : List Char, a < b ↔ a.map Char.toNat < b.map Char.toNat := by
    intro a
    induction a with
    | nil =>
      intro b
      cases b <;> simp
    | cons c a ih =>
      intro b
      cases b with
      | nil => simp
      | cons d b =>
        rw [List.map_cons, List.map_cons, List.cons_lt_cons_iff, List.cons_lt_cons_iff, ih b,
          Char.toNat_inj]
        rfl
  unfold textBefore codes
  rw [decide_eq_true_eq, String.lt_iff]
  exact hlists _ _

/-! ## Distinct values -/

/-- An order of which exactly one way round holds for any two distinct values. -/
structure IsStrictOrder {α : Type} (lt : α → α → Bool) : Prop where
  irrefl : ∀ a, ¬ lt a a = true
  trans : ∀ a b c, lt a b = true → lt b c = true → lt a c = true
  eq_of_not : ∀ a b, ¬ lt a b = true → ¬ lt b a = true → a = b

theorem IsStrictOrder.ne_of_lt {α : Type} {lt : α → α → Bool} (hlt : IsStrictOrder lt) {a b : α}
    (hab : lt a b = true) : a ≠ b := by
  rintro rfl
  exact hlt.irrefl a hab

theorem textBefore_isStrictOrder : IsStrictOrder textBefore where
  irrefl s := by
    rw [textBefore_iff]
    exact lt_irrefl _
  trans s t u hst htu := by
    rw [textBefore_iff] at hst htu ⊢
    exact lt_trans hst htu
  eq_of_not s t hst hts := by
    rw [textBefore_iff, not_lt] at hst hts
    exact codes_injective (le_antisymm hts hst)

theorem byte_isStrictOrder : IsStrictOrder fun a b : UInt8 => decide (a < b) where
  irrefl a := by
    rw [decide_eq_true_eq]
    exact UInt8.lt_irrefl a
  trans a b c hab hbc := by
    rw [decide_eq_true_eq] at hab hbc ⊢
    exact UInt8.lt_trans hab hbc
  eq_of_not a b hab hba := by
    rw [decide_eq_true_eq, UInt8.not_lt] at hab hba
    exact UInt8.le_antisymm hba hab

/-- Only one strictly ascending list has given items. -/
theorem eq_of_pairwise_of_mem_iff {α : Type} {r : α → α → Prop} (hirrefl : ∀ a, ¬ r a a)
    (htrans : ∀ a b c, r a b → r b c → r a c) {as bs : List α} (has : as.Pairwise r)
    (hbs : bs.Pairwise r) (h : ∀ a, a ∈ as ↔ a ∈ bs) : as = bs := by
  have hnodup : ∀ {cs : List α}, cs.Pairwise r → cs.Nodup := by
    intro cs hcs
    refine hcs.imp ?_
    rintro a _ hab rfl
    exact hirrefl a hab
  refine List.Perm.eq_of_pairwise ?_ has hbs
    ((List.perm_ext_iff_of_nodup (hnodup has) (hnodup hbs)).2 h)
  intro a b _ _ hab hba
  exact absurd (htrans a b a hab hba) (hirrefl a)

section

variable {α β : Type} {lt : α → α → Bool} (hlt : IsStrictOrder lt)
include hlt

theorem mem_insertDistinct {a b : α} {as : List α} :
    b ∈ insertDistinct lt a as ↔ b = a ∨ b ∈ as := by
  induction as with
  | nil => simp [insertDistinct]
  | cons c as ih =>
    unfold insertDistinct
    split
    · rw [List.mem_cons]
    · next hac =>
      split
      · rw [List.mem_cons, ih, List.mem_cons, or_left_comm]
      · next hca =>
        rw [hlt.eq_of_not a c hac hca, List.mem_cons, or_self_left]

theorem insertDistinct_pairwise (a : α) {as : List α} (has : as.Pairwise fun a b => lt a b = true) :
    (insertDistinct lt a as).Pairwise fun a b => lt a b = true := by
  induction as with
  | nil => exact List.pairwise_singleton _ _
  | cons c as ih =>
    rw [List.pairwise_cons] at has
    unfold insertDistinct
    split
    · next hac =>
      rw [List.pairwise_cons, List.pairwise_cons]
      refine ⟨?_, has⟩
      intro b hb
      rcases List.mem_cons.1 hb with rfl | hb
      · exact hac
      · exact hlt.trans a c b hac (has.1 b hb)
    · split
      · next hca =>
        rw [List.pairwise_cons]
        refine ⟨?_, ih has.2⟩
        intro b hb
        rcases (mem_insertDistinct hlt).1 hb with rfl | hb
        · exact hca
        · exact has.1 b hb
      · rw [List.pairwise_cons]
        exact has

theorem mem_distinct {a : α} {as : List α} : a ∈ distinct lt as ↔ a ∈ as := by
  induction as with
  | nil => rfl
  | cons b as ih => rw [distinct, mem_insertDistinct hlt, ih, List.mem_cons]

/-- **The distinct values** of a list ascend strictly. -/
theorem distinct_pairwise (as : List α) :
    (distinct lt as).Pairwise fun a b => lt a b = true := by
  induction as with
  | nil => exact .nil
  | cons a as ih => exact insertDistinct_pairwise hlt a ih

/-! ## Distinct keys -/

theorem map_fst_putKey (key : α) (value : β) (sorted : List (α × β)) :
    (putKey lt key value sorted).map Prod.fst = insertDistinct lt key (sorted.map Prod.fst) := by
  induction sorted with
  | nil => rfl
  | cons e sorted ih =>
    unfold putKey
    rw [List.map_cons, insertDistinct]
    split
    · rfl
    · next hbefore =>
      split
      · rw [List.map_cons, ih]
      · next hafter =>
        rw [List.map_cons, hlt.eq_of_not key e.1 hbefore hafter]

/-- Under the key stands the value, and under the other keys what stood there. -/
theorem mem_putKey {key : α} {value : β} {sorted : List (α × β)}
    (hsorted : (sorted.map Prod.fst).Pairwise fun a b => lt a b = true) (e : α × β) :
    e ∈ putKey lt key value sorted ↔ e = (key, value) ∨ e.1 ≠ key ∧ e ∈ sorted := by
  induction sorted with
  | nil => simp [putKey]
  | cons d sorted ih =>
    rw [List.map_cons, List.pairwise_cons] at hsorted
    have hlater : ∀ f ∈ sorted, lt d.1 f.1 = true := by
      intro f hf
      exact hsorted.1 f.1 (List.mem_map_of_mem hf)
    unfold putKey
    split
    · next hbefore =>
      -- The key comes before all others.
      have hothers : ∀ f ∈ d :: sorted, f.1 ≠ key := by
        intro f hf
        rcases List.mem_cons.1 hf with rfl | hf
        · exact (hlt.ne_of_lt hbefore).symm
        · exact (hlt.ne_of_lt (hlt.trans _ _ _ hbefore (hlater f hf))).symm
      rw [List.mem_cons]
      exact or_congr_right ⟨fun he => ⟨hothers e he, he⟩, And.right⟩
    · next hbefore =>
      split
      · next hafter =>
        have hrest : e ∈ putKey lt key value sorted ↔ e = (key, value) ∨ e.1 ≠ key ∧ e ∈ sorted :=
          ih hsorted.2
        rw [List.mem_cons, hrest, List.mem_cons]
        constructor
        · rintro (rfl | rfl | ⟨hkey, he⟩)
          · exact .inr ⟨hlt.ne_of_lt hafter, .inl rfl⟩
          · exact .inl rfl
          · exact .inr ⟨hkey, .inr he⟩
        · rintro (rfl | ⟨hkey, rfl | he⟩)
          · exact .inr (.inl rfl)
          · exact .inl rfl
          · exact .inr (.inr ⟨hkey, he⟩)
      · next hafter =>
        -- The entry that stood under the key goes.
        have hkey := hlt.eq_of_not key d.1 hbefore hafter
        rw [List.mem_cons, List.mem_cons]
        constructor
        · rintro (rfl | he)
          · exact .inl rfl
          · exact .inr ⟨hkey ▸ (hlt.ne_of_lt (hlater e he)).symm, .inr he⟩
        · rintro (rfl | ⟨hother, rfl | he⟩)
          · exact .inl rfl
          · exact absurd hkey.symm hother
          · exact .inr he

end

/-- The entry is the last one with its key. -/
def IsLast {α β : Type} (entries : List (α × β)) (e : α × β) : Prop :=
  ∃ before after, entries = before ++ e :: after ∧ ∀ d ∈ after, d.1 ≠ e.1

theorem isLast_concat_iff {α β : Type} {entries : List (α × β)} {d e : α × β} :
    IsLast (entries ++ [d]) e ↔ e = d ∨ e.1 ≠ d.1 ∧ IsLast entries e := by
  unfold IsLast
  constructor
  · rintro ⟨before, after, hcut, hlast⟩
    rcases List.eq_nil_or_concat after with rfl | ⟨after, f, rfl⟩
    · obtain ⟨-, hd⟩ := List.append_inj' hcut rfl
      exact .inl (List.singleton_inj.1 hd).symm
    · rw [List.concat_eq_append, ← List.cons_append, ← List.append_assoc] at hcut
      obtain ⟨rfl, hd⟩ := List.append_inj' hcut rfl
      rw [List.singleton_inj.1 hd]
      refine .inr ⟨(hlast f (by simp)).symm, before, after, rfl, ?_⟩
      intro c hc
      exact hlast c (by simp [hc])
  · rintro (rfl | ⟨hkey, before, after, rfl, hlast⟩)
    · exact ⟨entries, [], rfl, by simp⟩
    · refine ⟨before, after ++ [d], by simp, ?_⟩
      intro c hc
      rcases List.mem_append.1 hc with hc | hc
      · exact hlast c hc
      · rw [List.mem_singleton.1 hc]
        exact hkey.symm

theorem lastByKey_concat {α β : Type} (lt : α → α → Bool) (entries : List (α × β)) (e : α × β) :
    lastByKey lt (entries ++ [e]) = putKey lt e.1 e.2 (lastByKey lt entries) :=
  List.foldl_concat _ _ _ _

section

variable {α β : Type} {lt : α → α → Bool} (hlt : IsStrictOrder lt)
include hlt

theorem map_fst_lastByKey_pairwise (entries : List (α × β)) :
    ((lastByKey lt entries).map Prod.fst).Pairwise fun a b => lt a b = true := by
  induction entries using List.reverseRecOn with
  | nil => exact .nil
  | append_singleton entries e ih =>
    rw [lastByKey_concat, map_fst_putKey hlt]
    exact insertDistinct_pairwise hlt e.1 ih

/-- **By ascending key** stands the last entry with each key. -/
theorem mem_lastByKey {entries : List (α × β)} {e : α × β} :
    e ∈ lastByKey lt entries ↔ IsLast entries e := by
  induction entries using List.reverseRecOn with
  | nil => simp [lastByKey, IsLast]
  | append_singleton entries d ih =>
    rw [lastByKey_concat, mem_putKey hlt (map_fst_lastByKey_pairwise hlt entries), ih,
      isLast_concat_iff]

end

end FleetSearch
