/-
# FleetSearch.Proofs.Catalog.Written -- catalogs of the ships that are written

A ship is read back from the object that it is written as (`Ship.readsBack`), and in a catalog file
the object gives the ship (`Ship.givenBy_toTree`). So a list of written ships is a catalog file with
these ships and no others (`Catalog.ofText_written`). No file has more ships than bytes
(`Catalog.size_le_of_ofText`).
-/

import FleetSearch.Proofs.Catalog.Json
import FleetSearch.Proofs.Json.Tree

namespace FleetSearch

open Json

/-! ## Ships -/

namespace Ship

theorem readsBack_id (id : UInt64) : ReadsBack readId (.natural id.toNat) id := by
  have hread := (readsBack_nat "u64" id.toNat_lt_size (le_refl wordLimit)).map UInt64.ofNat
  rwa [UInt64.ofNat_toNat] at hread

theorem readsBack_tier (tier : UInt8) : ReadsBack readTier (.natural tier.toNat) tier := by
  have hread := (readsBack_nat "u8" tier.toNat_lt_size (by decide)).map UInt8.ofNat
  rwa [UInt8.ofNat_toNat] at hread

/-- The members of a ship fill a draft with all seven fields. -/
theorem fills_toTree (ship : Ship) :
    Fills record.fields record.blank [
        ("ship_id", .natural ship.shipId.toNat),
        ("name", .string ship.name),
        ("tier", .natural ship.tier.toNat),
        ("type", .string ship.type),
        ("nation", .string ship.nation),
        ("is_premium", .boolean ship.isPremium),
        ("is_special", .boolean ship.isSpecial)]
      ⟨some ship.shipId, some ship.name, some ship.tier, some ship.type, some ship.nation,
        some ship.isPremium, some ship.isSpecial⟩ := by
  have hid := readsBack_id ship.shipId
  have hname := readsBack_text "a string" ship.name
  have htier := readsBack_tier ship.tier
  have htype := readsBack_text "a string" ship.type
  have hnation := readsBack_text "a string" ship.nation
  have hpremium := readsBack_bool ship.isPremium
  have hspecial := readsBack_bool ship.isSpecial
  exact .cons rfl rfl (hid.field _ _ _ _) <| .cons rfl rfl (hname.field _ _ _ _) <|
    .cons rfl rfl (htier.field _ _ _ _) <| .cons rfl rfl (htype.field _ _ _ _) <|
    .cons rfl rfl (hnation.field _ _ _ _) <| .cons rfl rfl (hpremium.field _ _ _ _) <|
    .cons rfl rfl (hspecial.field _ _ _ _) (.nil _)

/-- A ship is read back from the object that it is written as. -/
theorem readsBack (ship : Ship) : ReadsBack record.read ship.toTree ship :=
  Record.readsBack ship.fills_toTree rfl

/-- The object that a ship is written as gives the ship. -/
theorem givenBy_toTree (ship : Ship) : ship.GivenBy ship.toTree := by
  refine .object ?fields ?marks
  case fields =>
    simp only [fields, List.forall_mem_cons, List.not_mem_nil, false_implies, implies_true,
      and_true]
    exact ⟨rfl, rfl, rfl, rfl, rfl⟩
  case marks =>
    simp only [marks, List.forall_mem_cons, List.not_mem_nil, false_implies, implies_true,
      and_true]
    exact ⟨.inl rfl, .inl rfl⟩

theorem isSimple_toTree (ship : Ship) (depth : Nat) : ship.toTree.IsSimple (depth + 1) := by
  have hid : ship.shipId.toNat < wordLimit := ship.shipId.toNat_lt_size
  have htier : ship.tier.toNat < wordLimit := ship.tier.toNat_lt_size.trans (by decide)
  refine .object ?_
  simp only [List.forall_mem_cons, List.not_mem_nil, false_implies, implies_true, and_true]
  exact ⟨.natural hid, .string _, .natural htier, .string _, .string _, .boolean _, .boolean _⟩

end Ship

/-! ## Catalogs -/

namespace Catalog

/-- Ships as a list. -/
def shipsTree (ships : List Ship) : Tree := .list (ships.map Ship.toTree)

theorem readsBack_shipsTree (ships : List Ship) :
    ReadsBack (readListOf Ship.record.read) (shipsTree ships) ships := by
  apply readsBack_list
  rw [List.forall₂_map_left_iff, List.forall₂_same]
  exact fun ship _ => ship.readsBack

theorem isSimple_shipsTree (ships : List Ship) (depth : Nat) :
    (shipsTree ships).IsSimple (depth + 2) := by
  refine .list ?_
  rw [List.forall_mem_map]
  exact fun ship _ => ship.isSimple_toTree depth

theorem ofTree?_shipsTree (ships : List Ship) : ofTree? (shipsTree ships) = some ⟨ships⟩ := by
  have hentries : List.Forall₂ IsEntry (ships.map Ship.toTree) (ships.map some) := by
    rw [List.forall₂_map_left_iff, List.forall₂_map_right_iff, List.forall₂_same]
    exact fun ship _ => .ship ship.givenBy_toTree
  have hholds := Holds.list hentries
  rw [List.filterMap_map, Function.id_comp, List.filterMap_some] at hholds
  exact ofTree?_eq_some_iff.2 hholds

/-- **A list of written ships** is a catalog file with these ships. -/
theorem ofText_written (ships : List Ship) : ofText (shipsTree ships).pretty = .ok ⟨ships⟩ := by
  have hread := (isSimple_shipsTree ships 125).readsBack.readWhole_pretty
  exact ofText_eq_ok_iff.2 ⟨_, hread, ofTree?_shipsTree ships⟩

/-! ## Sizes -/

/-- A tree holds no more ships than it has items or members. -/
theorem Holds.length_le_width {t : Tree} {ships : List Ship} (h : Holds t ships) :
    ships.length ≤ t.width := by
  cases h with
  | @list items entries hentries =>
    have hlength : items.length = entries.length := hentries.length_eq
    show (entries.filterMap id).length ≤ items.length
    rw [hlength]
    exact List.length_filterMap_le id entries
  | @object members entries sorted hentries hsorted =>
    have hlength : members.length = entries.length := hentries.length_eq
    have hnodup : sorted.Nodup := hsorted.ascending.imp fun hlt heq => (heq ▸ hlt).false
    have hsubset : sorted ⊆ entries := by
      intro e he
      obtain ⟨before, after, rfl, -⟩ := (hsorted.mem_iff e).1 he
      exact List.mem_append_right before List.mem_cons_self
    show (sorted.filterMap Prod.snd).length ≤ members.length
    calc (sorted.filterMap Prod.snd).length
        ≤ sorted.length := List.length_filterMap_le Prod.snd sorted
      _ ≤ entries.length := (List.subperm_of_subset hnodup hsubset).length_le
      _ = members.length := hlength.symm

/-- A text has no more characters than bytes. -/
theorem length_le_utf8ByteSize (text : String) : text.toList.length ≤ text.utf8ByteSize := by
  rw [← String.utf8Len_toList]
  induction text.toList with
  | nil => exact Nat.zero_le _
  | cons c s ih =>
    rw [String.utf8Len_cons, List.length_cons]
    exact Nat.add_le_add ih c.utf8Size_pos

/-- **A catalog file has no more ships than bytes.** -/
theorem size_le_of_ofText {text : String} {c : Catalog} (h : ofText text = .ok c) :
    c.size ≤ text.utf8ByteSize := by
  obtain ⟨t, hread, htree⟩ := ofText_eq_ok_iff.1 h
  obtain ⟨rest, hread, -⟩ := readWhole_eq_ok_iff.1 hread
  calc c.size
      ≤ t.width := (ofTree?_eq_some_iff.1 htree).length_le_width
    _ ≤ text.toList.length := Tree.width_le_of_read hread
    _ ≤ text.utf8ByteSize := length_le_utf8ByteSize text

end Catalog

end FleetSearch
