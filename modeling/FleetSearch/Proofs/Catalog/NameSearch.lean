/-
# FleetSearch.Proofs.Catalog.NameSearch -- searching a ship by a part of its name

A part cut out of a ship's name finds the ship if each capital sigma of the part has the small form
that it has in the name (`Catalog.name_part_found`). So every part without a capital sigma does, in
whatever case the name is written. A part that is cut out behind a sigma within a word may miss: at
its end the sigma is lowered as a final one (`Catalog.cut_word_not_found`).
-/

import FleetSearch.Proofs.Catalog.Narrow
import FleetSearch.Proofs.Text.LowerParts

namespace FleetSearch.Catalog

open FleetSearch.Text

/-- Filters that ask for a name alone are matched by the ships whose name has it, both in lower
case. -/
theorem mem_narrow_name {c : Catalog} {ship : Ship} {s : List Char} :
    ship ∈ c.narrow { shipName := String.ofList s } ↔
      ship ∈ c.ships ∧ lower s <:+: lower ship.name.toList := by
  rw [mem_narrow]
  refine and_congr_right fun _ => ?_
  constructor
  · intro h
    rcases h.name with hempty | hpart
    · have hs : s = [] := by simpa using congrArg String.toList hempty
      rw [hs]
      exact List.nil_infix
    · rwa [String.toList_ofList] at hpart
  · intro h
    refine ⟨.inl rfl, .inl rfl, .inl rfl, .inl rfl, .inr ?_⟩
    rwa [String.toList_ofList]

/-- **Search by a part of a name.** The part of a ship's name between `u` and `v` finds the ship
exactly if its lower-case form is a part of the name's. That is so if its capital sigmas have the
small forms that they have in the name, and so if it has none. -/
theorem name_part_found {c : Catalog} {ship : Ship} {u s v : List Char} (hship : ship ∈ c.ships)
    (hname : ship.name.toList = u ++ s ++ v) :
    (ship ∈ c.narrow { shipName := String.ofList s } ↔ lower s <:+: lower (u ++ s ++ v)) ∧
      (KeepsSigmas u s v → ship ∈ c.narrow { shipName := String.ofList s }) ∧
      ('\u03A3' ∉ s → ship ∈ c.narrow { shipName := String.ofList s }) := by
  have hfound : ship ∈ c.narrow { shipName := String.ofList s } ↔
      lower s <:+: lower (u ++ s ++ v) := by
    rw [mem_narrow_name, hname]
    exact and_iff_right hship
  refine ⟨hfound, ?_, ?_⟩
  · intro hsigmas
    exact hfound.2 hsigmas.lower_part
  · intro hnone
    exact hfound.2 (keepsSigmas_of_not_mem hnone).lower_part

/-- A ship whose name has a capital sigma twice within the word and once at its end. -/
def odysseus : Ship := ⟨1, "ΟΔΥΣΣΕΥΣ", 8, "Cruiser", "europe", false, false⟩

/-- The sigmas of "ΥΣΣΕ" stand within the word in the part and in the name. -/
theorem name_part_found_odysseus :
    odysseus ∈ (Catalog.mk [odysseus]).ships ∧
      odysseus.name.toList = "ΟΔ".toList ++ "ΥΣΣΕ".toList ++ "ΥΣ".toList ∧
      KeepsSigmas "ΟΔ".toList "ΥΣΣΕ".toList "ΥΣ".toList ∧
      odysseus ∈ (Catalog.mk [odysseus]).narrow
        { shipName := String.ofList "ΥΣΣΕ".toList } := by
  have hship : odysseus ∈ (Catalog.mk [odysseus]).ships := List.mem_singleton_self _
  have hname : odysseus.name.toList = "ΟΔ".toList ++ "ΥΣΣΕ".toList ++ "ΥΣ".toList := by decide
  have hsigmas : KeepsSigmas "ΟΔ".toList "ΥΣΣΕ".toList "ΥΣ".toList :=
    lowerBetween_eq_lower_iff.1 (by decide +kernel)
  exact ⟨hship, hname, hsigmas, (name_part_found hship hname).2.1 hsigmas⟩

/-- "ΟΔΥΣ" ends in a final sigma, and "ΟΔΥΣΣΕΥΣ" has another one there. -/
theorem cut_word_not_found :
    odysseus ∈ (Catalog.mk [odysseus]).ships ∧
      odysseus.name.toList = [] ++ "ΟΔΥΣ".toList ++ "ΣΕΥΣ".toList ∧
      odysseus ∉ (Catalog.mk [odysseus]).narrow
        { shipName := String.ofList "ΟΔΥΣ".toList } := by
  refine ⟨List.mem_singleton_self _, by decide, ?_⟩
  rw [mem_narrow_name, ← isWithin_iff]
  decide +kernel

end FleetSearch.Catalog
