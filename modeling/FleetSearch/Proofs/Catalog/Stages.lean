/-
# FleetSearch.Proofs.Catalog.Stages -- narrowing a catalog step by step

The ships that a search lists are a catalog again, and searching this one lists the ships that match
both searches, in the order of one listing (`Catalog.narrow_narrow`). So filters of which no
dimension is asked for twice may be applied one after the other, in either order, or together
(`Catalog.narrow_in_stages`).
-/

import FleetSearch.Proofs.Catalog.Narrow

namespace FleetSearch

/-! ## Filters together -/

/-- The first list if anything is asked for in it, and else the second. -/
def firstAsked {α : Type} (as bs : List α) : List α := if as.isEmpty then bs else as

namespace Filters

/-- No dimension is asked for in both. -/
structure Apart (f g : Filters) : Prop where
  tiers : f.tiers = [] ∨ g.tiers = []
  types : f.types = [] ∨ g.types = []
  nations : f.nations = [] ∨ g.nations = []
  categories : f.categories = [] ∨ g.categories = []
  name : f.shipName = "" ∨ g.shipName = ""

/-- Each dimension from the filters that ask for something in it. -/
def together (f g : Filters) : Filters where
  tiers := firstAsked f.tiers g.tiers
  types := firstAsked f.types g.types
  nations := firstAsked f.nations g.nations
  categories := firstAsked f.categories g.categories
  shipName := if f.shipName.isEmpty then g.shipName else f.shipName

end Filters

/-- What is asked for in one list at most is met if it is met for either list. -/
theorem asks_firstAsked_iff {α : Type} {as bs : List α} (h : as = [] ∨ bs = []) (p : α → Prop) :
    (firstAsked as bs = [] ∨ ∃ a ∈ firstAsked as bs, p a) ↔
      (as = [] ∨ ∃ a ∈ as, p a) ∧ (bs = [] ∨ ∃ b ∈ bs, p b) := by
  unfold firstAsked
  cases as with
  | nil => simp
  | cons a as =>
    have hbs : bs = [] := h.resolve_left (List.cons_ne_nil a as)
    simp [hbs]

/-- A ship matches filters together if it matches each. -/
theorem Filters.Apart.matches_together_iff {f g : Filters} (h : f.Apart g) (ship : Ship) :
    ship.Matches (f.together g) ↔ ship.Matches f ∧ ship.Matches g := by
  have htier := asks_firstAsked_iff h.tiers fun tier => tier.value = ship.tier.toNat
  have htype := asks_firstAsked_iff h.types fun type => type.label = ship.type
  have hnation := asks_firstAsked_iff h.nations fun nation => nation.label = ship.nation
  have hcategory := asks_firstAsked_iff h.categories ship.InCategory
  have hname : ((f.together g).shipName = "" ∨
      Text.lower (f.together g).shipName.toList <:+: Text.lower ship.name.toList) ↔
        (f.shipName = "" ∨ Text.lower f.shipName.toList <:+: Text.lower ship.name.toList) ∧
          (g.shipName = "" ∨ Text.lower g.shipName.toList <:+: Text.lower ship.name.toList) := by
    unfold together
    by_cases hf : f.shipName = ""
    · simp [hf]
    · have hg : g.shipName = "" := h.name.resolve_left hf
      simp [hf, hg]
  constructor
  · intro ht
    obtain ⟨htierf, htierg⟩ := htier.1 ht.tier
    obtain ⟨htypef, htypeg⟩ := htype.1 ht.type
    obtain ⟨hnationf, hnationg⟩ := hnation.1 ht.nation
    obtain ⟨hcategoryf, hcategoryg⟩ := hcategory.1 ht.category
    obtain ⟨hnamef, hnameg⟩ := hname.1 ht.name
    exact ⟨⟨htierf, htypef, hnationf, hcategoryf, hnamef⟩,
      ⟨htierg, htypeg, hnationg, hcategoryg, hnameg⟩⟩
  · rintro ⟨hf, hg⟩
    exact ⟨htier.2 ⟨hf.tier, hg.tier⟩, htype.2 ⟨hf.type, hg.type⟩,
      hnation.2 ⟨hf.nation, hg.nation⟩, hcategory.2 ⟨hf.category, hg.category⟩,
      hname.2 ⟨hf.name, hg.name⟩⟩

/-! ## Stages -/

namespace Catalog

/-- A search of what another search lists gives the ships that match both, as one listing. -/
theorem narrow_narrow (c : Catalog) (f g : Filters) :
    (Catalog.mk (c.narrow f)).narrow g =
      stableSort inOrder
        (c.ships.filter fun ship => decide (ship.Matches f ∧ ship.Matches g)) := by
  rw [narrow_eq, narrow_eq]
  unfold matching
  rw [stableSort_filter_stableSort inOrder_isSortOrder, List.filter_filter]
  congr 1
  apply List.filter_congr
  intro ship _
  rw [Bool.decide_and, Bool.and_comm]

/-- Filters of which no dimension is asked for twice may be applied one after the other. -/
theorem narrow_together (c : Catalog) {f g : Filters} (h : f.Apart g) :
    c.narrow (f.together g) = (Catalog.mk (c.narrow f)).narrow g := by
  rw [narrow_narrow, narrow_eq]
  unfold matching
  simp only [h.matches_together_iff]

/-- The order of two searches does not matter. -/
theorem narrow_narrow_comm (c : Catalog) (f g : Filters) :
    (Catalog.mk (c.narrow f)).narrow g = (Catalog.mk (c.narrow g)).narrow f := by
  rw [narrow_narrow, narrow_narrow]
  simp only [and_comm]

/-- **Narrowing in stages.** Filters of which no dimension is asked for twice list the same ships in
the same order together as one after the other, whichever comes first. A second search by the same
filters changes nothing. -/
theorem narrow_in_stages (c : Catalog) (f : Filters) :
    (∀ g, f.Apart g →
      c.narrow (f.together g) = (Catalog.mk (c.narrow f)).narrow g ∧
        c.narrow (f.together g) = (Catalog.mk (c.narrow g)).narrow f) ∧
      (Catalog.mk (c.narrow f)).narrow f = c.narrow f := by
  refine ⟨?stages, ?twice⟩
  case stages =>
    intro g h
    have hfirst := c.narrow_together h
    refine ⟨hfirst, ?_⟩
    rw [hfirst, narrow_narrow_comm]
  case twice =>
    rw [narrow_narrow, narrow_eq]
    unfold matching
    simp only [and_self]

/-- Two ships alike in tier and name and one that is of another nation, by nation and by name. -/
theorem narrow_in_stages_kaga :
    Filters.Apart { nations := [.japan] } { shipName := "KAGA" } ∧
      (Catalog.mk [⟨3, "Kaga", 8, "Cruiser", "japan", false, false⟩,
          ⟨2, "Kaga B", 7, "AirCarrier", "usa", false, false⟩,
          ⟨1, "Kaga", 8, "AirCarrier", "japan", true, false⟩]).narrow
          (Filters.together { nations := [.japan] } { shipName := "KAGA" }) =
        (Catalog.mk ((Catalog.mk [⟨3, "Kaga", 8, "Cruiser", "japan", false, false⟩,
          ⟨2, "Kaga B", 7, "AirCarrier", "usa", false, false⟩,
          ⟨1, "Kaga", 8, "AirCarrier", "japan", true, false⟩]).narrow
          { shipName := "KAGA" })).narrow { nations := [.japan] } := by
  have hapart : Filters.Apart { nations := [.japan] } { shipName := "KAGA" } :=
    ⟨.inl rfl, .inl rfl, .inr rfl, .inl rfl, .inl rfl⟩
  exact ⟨hapart, ((narrow_in_stages _ _).1 _ hapart).2⟩

end Catalog

end FleetSearch
