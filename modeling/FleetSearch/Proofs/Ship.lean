/-
# FleetSearch.Proofs.Ship -- which ships match filters

What it means that a ship matches filters is said here without the test that decides it
(`Ship.Matches`), and the test decides just that (`Ship.satisfies_iff`). Only the values asked for
count, not their order or repeats, and of the name only its lower-case form (`Filters.Alike`).
-/

import FleetSearch.Ship
import Mathlib.Data.List.Infix

namespace FleetSearch

/-- The search for a part of a text finds contiguous parts and nothing else. -/
theorem Text.isWithin_iff {part s : List Char} : isWithin part s = true ↔ part <:+: s := by
  induction s with
  | nil =>
    unfold isWithin
    rw [List.isEmpty_iff, List.infix_nil]
  | cons c s ih =>
    unfold isWithin
    rw [Bool.or_eq_true, ih, List.isPrefixOf_iff_prefix, List.infix_cons_iff]

namespace Ship

/-! ## Categories -/

/-- How a ship is acquired, by what a catalog says of it. -/
inductive InCategory (ship : Ship) : Category → Prop
  | premium : ship.isPremium = true → InCategory ship .premium
  | special : ship.isPremium = false → ship.isSpecial = true → InCategory ship .special
  | techTree : ship.isPremium = false → ship.isSpecial = false → InCategory ship .techTree

/-- Every ship is in one category, and the others are not its own. -/
theorem inCategory_iff {ship : Ship} {c : Category} : ship.InCategory c ↔ c = ship.category := by
  unfold category
  constructor
  · intro h
    cases h with
    | premium hp => rw [if_pos hp]
    | special hp hs => rw [hp, hs]; rfl
    | techTree hp hs => rw [hp, hs]; rfl
  · rintro rfl
    cases hp : ship.isPremium with
    | true => exact .premium hp
    | false =>
      cases hs : ship.isSpecial with
      | true => exact .special hp hs
      | false => exact .techTree hp hs

/-! ## Matching -/

/-- The ship meets each classification of which anything is asked for, and the lower-case form of
its name has that of the name asked for as a contiguous part. -/
structure Matches (ship : Ship) (f : Filters) : Prop where
  tier : f.tiers = [] ∨ ∃ tier ∈ f.tiers, tier.value = ship.tier.toNat
  type : f.types = [] ∨ ∃ type ∈ f.types, type.label = ship.type
  nation : f.nations = [] ∨ ∃ nation ∈ f.nations, nation.label = ship.nation
  category : f.categories = [] ∨ ∃ category ∈ f.categories, ship.InCategory category
  name : f.shipName = "" ∨ Text.lower f.shipName.toList <:+: Text.lower ship.name.toList

theorem meets_iff {α : Type} {asked : List α} {test : α → Bool} :
    meets asked test = true ↔ asked = [] ∨ ∃ a ∈ asked, test a = true := by
  unfold meets
  rw [Bool.or_eq_true, List.isEmpty_iff, List.any_eq_true]

/-- An empty name is found in every name, so that it is asked for apart changes nothing. -/
theorem name_found_iff {ship : Ship} {shipName : String} :
    ((Text.lower shipName.toList).isEmpty ||
        Text.isWithin (Text.lower shipName.toList) (Text.lower ship.name.toList)) = true ↔
      shipName = "" ∨ Text.lower shipName.toList <:+: Text.lower ship.name.toList := by
  rw [Bool.or_eq_true, Text.isWithin_iff, List.isEmpty_iff]
  constructor
  · rintro (hempty | hpart)
    · rw [hempty]
      exact .inr List.nil_infix
    · exact .inr hpart
  · rintro (rfl | hpart)
    · exact .inl rfl
    · exact .inr hpart

/-- **The test decides matching.** -/
theorem satisfies_iff {ship : Ship} {f : Filters} :
    ship.satisfies f (Text.lower f.shipName.toList) = true ↔ ship.Matches f := by
  unfold satisfies
  simp only [Bool.and_eq_true, meets_iff, name_found_iff, beq_iff_eq, ← inCategory_iff]
  constructor
  · rintro ⟨⟨⟨⟨htier, htype⟩, hnation⟩, hcategory⟩, hname⟩
    exact ⟨htier, htype, hnation, hcategory, hname⟩
  · rintro ⟨htier, htype, hnation, hcategory, hname⟩
    exact ⟨⟨⟨⟨htier, htype⟩, hnation⟩, hcategory⟩, hname⟩

instance (ship : Ship) (f : Filters) : Decidable (ship.Matches f) :=
  decidable_of_iff _ satisfies_iff

end Ship

/-! ## Filters that ask for the same -/

/-- Filters that list the same values, in any order and with any repeats, and whose names are
alike in lower case. -/
structure Filters.Alike (f g : Filters) : Prop where
  tiers : ∀ tier, tier ∈ f.tiers ↔ tier ∈ g.tiers
  types : ∀ type, type ∈ f.types ↔ type ∈ g.types
  nations : ∀ nation, nation ∈ f.nations ↔ nation ∈ g.nations
  categories : ∀ category, category ∈ f.categories ↔ category ∈ g.categories
  name : Text.lower f.shipName.toList = Text.lower g.shipName.toList

/-- What is asked for is met through its values alone. -/
theorem asks_iff {α : Type} {as bs : List α} (p : α → Prop) (h : ∀ a, a ∈ as ↔ a ∈ bs) :
    (as = [] ∨ ∃ a ∈ as, p a) ↔ (bs = [] ∨ ∃ a ∈ bs, p a) := by
  simp only [List.eq_nil_iff_forall_not_mem, h]

/-- Filters that ask for the same are matched by the same ships. -/
theorem Filters.Alike.matches_iff {f g : Filters} (h : f.Alike g) (ship : Ship) :
    ship.Matches f ↔ ship.Matches g := by
  have hname : (f.shipName = "" ∨ Text.lower f.shipName.toList <:+: Text.lower ship.name.toList) ↔
      (g.shipName = "" ∨ Text.lower g.shipName.toList <:+: Text.lower ship.name.toList) := by
    rw [← Ship.name_found_iff, ← Ship.name_found_iff, h.name]
  constructor
  · intro hf
    exact ⟨(asks_iff _ h.tiers).1 hf.tier, (asks_iff _ h.types).1 hf.type,
      (asks_iff _ h.nations).1 hf.nation, (asks_iff _ h.categories).1 hf.category,
      hname.1 hf.name⟩
  · intro hg
    exact ⟨(asks_iff _ h.tiers).2 hg.tier, (asks_iff _ h.types).2 hg.type,
      (asks_iff _ h.nations).2 hg.nation, (asks_iff _ h.categories).2 hg.category,
      hname.2 hg.name⟩

end FleetSearch
