/-
# FleetSearch.Proofs.Catalog.Narrow -- the listing of the ships that match

A **listing** has the ships of a catalog that match, each as often as the catalog has it, by tier
and then by the code points of the name; ships alike in both stand as they do in the catalog
(`Catalog.IsListing`). There is one such list for a catalog and filters, and narrowing gives it
(`Catalog.isListing_iff`). It depends on the filters only through the values that they list and the
lower-case form of their name (`Catalog.narrow_eq_of_alike`).
-/

import FleetSearch.Catalog.Basic
import FleetSearch.Proofs.Ship
import FleetSearch.Proofs.Sorting
import Mathlib.Data.List.Lex

namespace FleetSearch.Catalog

/-! ## The order of a listing -/

theorem inOrder_iff {a b : Ship} :
    inOrder a b = true ↔ a.tier < b.tier ∨ a.tier = b.tier ∧ codes a.name ≤ codes b.name := by
  have hname : (!textBefore b.name a.name) = true ↔ codes a.name ≤ codes b.name := by
    rw [Bool.not_eq_true', ← Bool.not_eq_true, textBefore_iff, not_lt]
  unfold inOrder
  split
  · next hlt => simp only [hlt, true_or]
  · next hlt =>
    split
    · next hgt =>
      have hne : a.tier ≠ b.tier := (UInt8.ne_of_lt hgt).symm
      simp only [Bool.false_eq_true, hlt, hne, false_and, or_self]
    · next hgt =>
      have heq : a.tier = b.tier := UInt8.le_antisymm (UInt8.not_lt.1 hgt) (UInt8.not_lt.1 hlt)
      simp only [hname, heq, UInt8.lt_irrefl, false_or, true_and]

theorem inOrder_isSortOrder : IsSortOrder inOrder where
  total a b := by
    rw [inOrder_iff, inOrder_iff]
    rcases Std.lt_trichotomy a.tier b.tier with hlt | heq | hgt
    · exact .inl (.inl hlt)
    · rcases le_total (codes a.name) (codes b.name) with hle | hle
      · exact .inl (.inr ⟨heq, hle⟩)
      · exact .inr (.inr ⟨heq.symm, hle⟩)
    · exact .inr (.inl hgt)
  trans a b c hab hbc := by
    rw [inOrder_iff] at hab hbc ⊢
    rcases hab with hab | ⟨hab, hnames⟩
    · rcases hbc with hbc | ⟨hbc, -⟩
      · exact .inl (UInt8.lt_trans hab hbc)
      · exact .inl (hbc ▸ hab)
    · rw [hab]
      exact hbc.imp_right fun ⟨heq, hle⟩ => ⟨heq, le_trans hnames hle⟩

/-- Neither of two ships has to stand first exactly if they have the same tier and name. -/
theorem tied_inOrder {a b : Ship} :
    tied inOrder a b = decide (b.tier = a.tier ∧ b.name = a.name) := by
  unfold tied
  rw [Bool.eq_iff_iff, Bool.and_eq_true, inOrder_iff, inOrder_iff, decide_eq_true_eq]
  constructor
  · rintro ⟨hab, hba⟩
    have heq : b.tier = a.tier := by
      rcases hab with hab | ⟨heq, -⟩
      · rcases hba with hba | ⟨heq, -⟩
        · exact absurd hba (UInt8.lt_asymm hab)
        · exact heq
      · exact heq.symm
    simp only [heq, UInt8.lt_irrefl, false_or, true_and] at hab hba
    exact ⟨heq, codes_injective (le_antisymm hba hab)⟩
  · rintro ⟨htier, hname⟩
    rw [htier, hname]
    exact ⟨.inr ⟨rfl, le_refl _⟩, .inr ⟨rfl, le_refl _⟩⟩

/-! ## Listings -/

/-- The ships of the catalog that match, as they stand there. -/
def matching (c : Catalog) (f : Filters) : List Ship :=
  c.ships.filter fun ship => decide (ship.Matches f)

/-- The list is that of the ships that match: it has the same ships equally often, by tier and then
by the code points of the name, and ships alike in both as they stand in the catalog. -/
structure IsListing (c : Catalog) (f : Filters) (ships : List Ship) : Prop where
  perm : ships.Perm (c.matching f)
  ordered : ships.Pairwise fun a b =>
    a.tier < b.tier ∨ a.tier = b.tier ∧ codes a.name ≤ codes b.name
  stable : ∀ tier name, ships.filter (fun ship => decide (ship.tier = tier ∧ ship.name = name)) =
    (c.matching f).filter fun ship => decide (ship.tier = tier ∧ ship.name = name)

theorem narrow_eq (c : Catalog) (f : Filters) :
    c.narrow f = stableSort inOrder (c.matching f) := by
  have htest : (fun ship : Ship => ship.satisfies f (Text.lower f.shipName.toList)) =
      fun ship => decide (ship.Matches f) := by
    funext ship
    rw [Bool.eq_iff_iff, Ship.satisfies_iff, decide_eq_true_eq]
  show stableSort inOrder (c.ships.filter fun ship =>
    ship.satisfies f (Text.lower f.shipName.toList)) = _
  rw [htest]
  rfl

theorem isListing_narrow (c : Catalog) (f : Filters) : c.IsListing f (c.narrow f) where
  perm := by
    rw [narrow_eq]
    exact stableSort_perm _
  ordered := by
    rw [narrow_eq]
    exact (stableSort_pairwise inOrder_isSortOrder _).imp inOrder_iff.1
  stable tier name := by
    rw [narrow_eq]
    apply filter_stableSort
    intro a b ha hb
    simp only [decide_eq_true_eq] at ha hb
    rw [inOrder_iff, ha.1, ha.2, hb.1, hb.2]
    exact .inr ⟨rfl, le_refl _⟩

/-- **Only one list is a listing** for a catalog and filters, and narrowing gives it. -/
theorem isListing_iff {c : Catalog} {f : Filters} {ships : List Ship} :
    c.IsListing f ships ↔ ships = c.narrow f := by
  constructor
  · intro h
    have hnarrow := isListing_narrow c f
    have horder : ∀ {as : List Ship}, c.IsListing f as →
        as.Pairwise fun a b => inOrder a b = true :=
      fun has => has.ordered.imp inOrder_iff.2
    apply eq_of_pairwise_of_filter_eq inOrder_isSortOrder (horder h) (horder hnarrow)
    intro ship
    have hclass : tied inOrder ship =
        fun other => decide (other.tier = ship.tier ∧ other.name = ship.name) := by
      funext other
      exact tied_inOrder
    rw [hclass, h.stable, hnarrow.stable]
  · rintro rfl
    exact isListing_narrow c f

/-- The ships of a listing are those that match. -/
theorem mem_narrow {c : Catalog} {f : Filters} {ship : Ship} :
    ship ∈ c.narrow f ↔ ship ∈ c.ships ∧ ship.Matches f := by
  rw [(isListing_narrow c f).perm.mem_iff, matching, List.mem_filter, decide_eq_true_eq]

/-- Filters that ask for the same leave the same ships. -/
theorem narrow_eq_of_alike (c : Catalog) {f g : Filters} (h : f.Alike g) :
    c.narrow f = c.narrow g := by
  have hmatching : c.matching f = c.matching g := by
    unfold matching
    simp only [h.matches_iff]
  rw [narrow_eq, narrow_eq, hmatching]

/-- **Narrowing** gives the one listing of the ships that match, where the test for matching accepts
a ship exactly if it matches, and filters that ask for the same give the same listing. -/
theorem narrow_lists_matches (c : Catalog) (f : Filters) :
    (∀ ships, c.IsListing f ships ↔ ships = c.narrow f) ∧
      (∀ ship : Ship, ship.satisfies f (Text.lower f.shipName.toList) = true ↔ ship.Matches f) ∧
      ∀ g, f.Alike g → c.narrow f = c.narrow g := by
  refine ⟨?listing, ?test, ?alike⟩
  case listing =>
    intro ships
    exact isListing_iff
  case test =>
    intro ship
    exact Ship.satisfies_iff
  case alike =>
    intro g h
    exact c.narrow_eq_of_alike h

/-- Nations in another order and with a repeat, and a name in capitals, ask for the same. -/
theorem narrow_lists_matches_kaga :
    Filters.Alike { nations := [.usa, .japan, .usa], shipName := "KAGA" }
        { nations := [.japan, .usa], shipName := "kaga" } ∧
      (Catalog.mk [⟨1, "Kaga", 8, "AirCarrier", "japan", true, false⟩]).narrow
          { nations := [.usa, .japan, .usa], shipName := "KAGA" } =
        (Catalog.mk [⟨1, "Kaga", 8, "AirCarrier", "japan", true, false⟩]).narrow
          { nations := [.japan, .usa], shipName := "kaga" } := by
  have halike : Filters.Alike { nations := [.usa, .japan, .usa], shipName := "KAGA" }
      { nations := [.japan, .usa], shipName := "kaga" } := {
    tiers _ := .rfl
    types _ := .rfl
    nations nation := by cases nation <;> decide
    categories _ := .rfl
    name := by decide }
  exact ⟨halike, (narrow_lists_matches _ _).2.2 _ halike⟩

end FleetSearch.Catalog
