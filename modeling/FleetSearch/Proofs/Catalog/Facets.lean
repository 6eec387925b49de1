/-
# FleetSearch.Proofs.Catalog.Facets -- the facets are the values worth filtering by

The **facets** of a catalog are the nations, tiers and types that occur in its ships, each once and
in strictly ascending order (`Catalog.HasFacets`). Only one record of facets is that of a given
catalog, so they depend on which ships there are, not on their order or repeats
(`Catalog.facets_congr`). Facets are the texts and numbers of the ships, and filters hold labels;
the two meet here: a label is a facet exactly if filtering by it alone leaves a ship
(`Catalog.facets_worth_filtering`).
-/

import FleetSearch.Catalog.Facets
import FleetSearch.Proofs.Catalog.Narrow
import FleetSearch.Proofs.Tier

namespace FleetSearch.Catalog

variable {c d : Catalog}

/-! ## The facets of a catalog -/

/-- The facets are those of the catalog: the values that occur in its ships and no others, texts
strictly ascending by code points and tiers by number. -/
structure HasFacets (c : Catalog) (f : Facets) : Prop where
  nations_ascending : f.nations.Pairwise fun a b => codes a < codes b
  tiers_ascending : f.tiers.Pairwise fun a b => a < b
  types_ascending : f.types.Pairwise fun a b => codes a < codes b
  mem_nations : ∀ nation, nation ∈ f.nations ↔ ∃ ship ∈ c.ships, ship.nation = nation
  mem_tiers : ∀ tier, tier ∈ f.tiers ↔ ∃ ship ∈ c.ships, ship.tier = tier
  mem_types : ∀ type, type ∈ f.types ↔ ∃ ship ∈ c.ships, ship.type = type

theorem hasFacets_facets (c : Catalog) : c.HasFacets c.facets where
  nations_ascending := (distinct_pairwise textBefore_isStrictOrder _).imp textBefore_iff.1
  tiers_ascending := (distinct_pairwise byte_isStrictOrder _).imp of_decide_eq_true
  types_ascending := (distinct_pairwise textBefore_isStrictOrder _).imp textBefore_iff.1
  mem_nations _ := (mem_distinct textBefore_isStrictOrder).trans List.mem_map
  mem_tiers _ := (mem_distinct byte_isStrictOrder).trans List.mem_map
  mem_types _ := (mem_distinct textBefore_isStrictOrder).trans List.mem_map

/-- Only one list of texts ascends strictly and has given texts. -/
theorem texts_ext {as bs : List String} (has : as.Pairwise fun a b => codes a < codes b)
    (hbs : bs.Pairwise fun a b => codes a < codes b) (h : ∀ a, a ∈ as ↔ a ∈ bs) : as = bs :=
  eq_of_pairwise_of_mem_iff (r := fun a b => codes a < codes b) (fun _ => lt_irrefl _)
    (fun _ _ _ => lt_trans) has hbs h

/-- Catalogs with the same ships have the same facets. -/
theorem HasFacets.unique {f g : Facets} (h : ∀ ship, ship ∈ c.ships ↔ ship ∈ d.ships)
    (hf : c.HasFacets f) (hg : d.HasFacets g) : f = g := by
  have hnations : f.nations = g.nations := by
    apply texts_ext hf.nations_ascending hg.nations_ascending
    intro nation
    simp only [hf.mem_nations, hg.mem_nations, h]
  have htiers : f.tiers = g.tiers := by
    apply eq_of_pairwise_of_mem_iff (fun _ => UInt8.lt_irrefl _) (fun _ _ _ => UInt8.lt_trans)
      hf.tiers_ascending hg.tiers_ascending
    intro tier
    simp only [hf.mem_tiers, hg.mem_tiers, h]
  have htypes : f.types = g.types := by
    apply texts_ext hf.types_ascending hg.types_ascending
    intro type
    simp only [hf.mem_types, hg.mem_types, h]
  cases f
  cases g
  exact Facets.mk.injEq .. ▸ ⟨hnations, htiers, htypes⟩

theorem facets_congr (h : ∀ ship, ship ∈ c.ships ↔ ship ∈ d.ships) : c.facets = d.facets :=
  (hasFacets_facets c).unique h (hasFacets_facets d)

/-- **Only one record of facets** is that of a catalog. -/
theorem hasFacets_iff {f : Facets} : c.HasFacets f ↔ f = c.facets := by
  constructor
  · intro h
    exact h.unique (fun _ => .rfl) (hasFacets_facets c)
  · rintro rfl
    exact hasFacets_facets c

/-! ## Filtering by one value -/

theorem narrow_ne_nil_iff {f : Filters} : c.narrow f ≠ [] ↔ ∃ ship ∈ c.ships, ship.Matches f := by
  simp only [ne_eq, List.eq_nil_iff_forall_not_mem, mem_narrow, not_forall, not_not]

/-- A value is worth filtering by if it is that of some ship, and the filter lets just these ships
pass. -/
theorem mem_iff_narrow_ne_nil {α : Type} {value : Ship → α} {a : α} {values : List α} {f : Filters}
    (hvalues : a ∈ values ↔ ∃ ship ∈ c.ships, value ship = a)
    (hpass : ∀ ship, value ship = a ↔ ship.Matches f) : a ∈ values ↔ c.narrow f ≠ [] := by
  rw [narrow_ne_nil_iff, hvalues]
  simp only [hpass]

theorem nation_mem_facets_iff (nation : Nation) :
    nation.label ∈ c.facets.nations ↔ c.narrow { nations := [nation] } ≠ [] := by
  refine mem_iff_narrow_ne_nil ((hasFacets_facets c).mem_nations _) fun ship => ?_
  constructor
  · intro h
    exact ⟨.inl rfl, .inl rfl, .inr ⟨nation, List.mem_singleton_self _, h.symm⟩, .inl rfl, .inl rfl⟩
  · intro h
    simpa [eq_comm] using h.nation

theorem type_mem_facets_iff (type : ShipType) :
    type.label ∈ c.facets.types ↔ c.narrow { types := [type] } ≠ [] := by
  refine mem_iff_narrow_ne_nil ((hasFacets_facets c).mem_types _) fun ship => ?_
  constructor
  · intro h
    exact ⟨.inl rfl, .inr ⟨type, List.mem_singleton_self _, h.symm⟩, .inl rfl, .inl rfl, .inl rfl⟩
  · intro h
    simpa [eq_comm] using h.type

theorem tier_mem_facets_iff (tier : Tier) :
    .ofNat tier.value ∈ c.facets.tiers ↔ c.narrow { tiers := [tier] } ≠ [] := by
  refine mem_iff_narrow_ne_nil ((hasFacets_facets c).mem_tiers _) fun ship => ?_
  rw [← UInt8.toNat_inj, tier.toNat_ofNat_value]
  constructor
  · intro h
    exact ⟨.inr ⟨tier, List.mem_singleton_self _, h.symm⟩, .inl rfl, .inl rfl, .inl rfl, .inl rfl⟩
  · intro h
    simpa [eq_comm] using h.tier

/-! ## The values worth filtering by -/

/-- **Facets are the values worth filtering by.** They are the nations, tiers and types of the
ships, strictly ascending. So a nation, type or tier is among them exactly if filtering by it alone
leaves a ship. The order of the ships and repeats do not change them. -/
theorem facets_worth_filtering (c : Catalog) :
    (∀ f, c.HasFacets f ↔ f = c.facets) ∧
      (∀ nation : Nation, nation.label ∈ c.facets.nations ↔ c.narrow { nations := [nation] } ≠ []) ∧
      (∀ type : ShipType, type.label ∈ c.facets.types ↔ c.narrow { types := [type] } ≠ []) ∧
      (∀ tier : Tier, .ofNat tier.value ∈ c.facets.tiers ↔ c.narrow { tiers := [tier] } ≠ []) ∧
      ∀ d : Catalog, (∀ ship, ship ∈ d.ships ↔ ship ∈ c.ships) → d.facets = c.facets := by
  refine ⟨fun _ => hasFacets_iff, ?nation, ?type, ?tier, ?order⟩
  case nation => exact nation_mem_facets_iff
  case type => exact type_mem_facets_iff
  case tier => exact tier_mem_facets_iff
  case order => exact fun d hd => facets_congr hd

/-- One of two ships twice, in the other order. -/
theorem facets_worth_filtering_kaga_hood :
    (Catalog.mk [⟨2, "Hood", 7, "A", "uk", false, false⟩, ⟨1, "Kaga", 8, "B", "usa", false, false⟩,
        ⟨2, "Hood", 7, "A", "uk", false, false⟩]).facets =
      (Catalog.mk [⟨1, "Kaga", 8, "B", "usa", false, false⟩,
        ⟨2, "Hood", 7, "A", "uk", false, false⟩]).facets := by
  apply (facets_worth_filtering _).2.2.2.2
  intro ship
  simp only [List.mem_cons, List.not_mem_nil, or_false]
  tauto

end FleetSearch.Catalog
