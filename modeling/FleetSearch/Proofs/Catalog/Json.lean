/-
# FleetSearch.Proofs.Catalog.Json -- which files are catalogs

A catalog file is in one of two layouts, with every entry null or a ship (`Catalog.HasLayout`).
Which ships it holds is said here without reading it (`Catalog.Holds`): those of a list in order,
and those of an object by ascending key, of several members with one key the last. A text that reads
as a tree is a catalog exactly if the tree is in a layout, and the catalog has the ships that the
tree holds (`Catalog.loads_iff_hasLayout`). So one bad entry anywhere rejects the file, even one
that a later member would have replaced.
-/

import FleetSearch.Catalog.Json
import FleetSearch.Proofs.Ship.Json
import FleetSearch.Proofs.Sorting
import Mathlib

namespace FleetSearch

open Json

/-- All items are related to something if each of them is. -/
theorem exists_forall₂_iff {α β : Type} {r : α → β → Prop} {as : List α} :
    (∃ bs, List.Forall₂ r as bs) ↔ ∀ a ∈ as, ∃ b, r a b := by
  induction as with
  | nil => simp
  | cons a as ih =>
    rw [List.forall_mem_cons, ← ih]
    constructor
    · rintro ⟨_, h⟩
      cases h with
      | cons hfirst hrest => exact ⟨⟨_, hfirst⟩, _, hrest⟩
    · rintro ⟨⟨b, hfirst⟩, bs, hrest⟩
      exact ⟨b :: bs, .cons hfirst hrest⟩

/-! ## Whole texts -/

/-- A whole text is read if a value is read off its start and nothing but blanks follows. -/
theorem Json.readWhole_eq_ok_iff {α : Type} {reader : Reader α} {text : String} {a : α} :
    readWhole reader text = .ok a ↔
      ∃ rest, reader text.toList = .ok (a, rest) ∧ skipSpace rest = [] := by
  unfold readWhole
  constructor
  · intro h
    simp only at h
    split at h
    · cases h
    · next hread =>
      split at h
      · next hskip =>
        cases h
        exact ⟨_, hread, hskip⟩
      · cases h
  · rintro ⟨rest, hread, hskip⟩
    simp only [hread, hskip]

namespace Catalog

theorem read_eq_ok_iff {s rest : List Char} {c : Catalog} :
    read s = .ok (c, rest) ↔ ∃ t, Tree.read s = .ok (t, rest) ∧ ofTree? t = some c := by
  unfold read
  constructor
  · intro h
    cases hread : Tree.read s with
    | error halt =>
      rw [hread] at h
      cases h
    | ok result =>
      rw [hread] at h
      simp only [bind, Except.bind] at h
      split at h
      · next ht =>
        cases h
        exact ⟨_, rfl, ht⟩
      · cases h
  · rintro ⟨t, hread, ht⟩
    rw [hread]
    simp only [bind, Except.bind, ht]

/-- A catalog is loaded from its tree. -/
theorem ofText_eq_ok_iff {text : String} {c : Catalog} :
    ofText text = .ok c ↔ ∃ t, Tree.ofText text = .ok t ∧ ofTree? t = some c := by
  simp only [ofText, Tree.ofText, readWhole_eq_ok_iff, read_eq_ok_iff]
  constructor
  · rintro ⟨rest, ⟨t, hread, ht⟩, hskip⟩
    exact ⟨t, ⟨rest, hread, hskip⟩, ht⟩
  · rintro ⟨t, ⟨rest, hread, hskip⟩, ht⟩
    exact ⟨rest, ⟨t, hread, ht⟩, hskip⟩

/-! ## Entries -/

/-- An entry: null for no ship, or a tree that gives a ship. -/
inductive IsEntry : Tree → Option Ship → Prop
  | null : IsEntry .null none
  | ship {t : Tree} {ship : Ship} : ship.GivenBy t → IsEntry t (some ship)

/-- An entry under its key. -/
structure IsMember (member : String × Tree) (entry : String × Option Ship) : Prop where
  key : member.1 = entry.1
  entry : IsEntry member.2 entry.2

theorem entry?_eq_some_iff {t : Tree} {entry : Option Ship} :
    entry? t = some entry ↔ IsEntry t entry := by
  constructor
  · intro h
    unfold entry? at h
    split at h
    · cases h
      exact .null
    · obtain ⟨ship, hship, rfl⟩ := Option.map_eq_some_iff.1 h
      exact .ship (Ship.ofTree?_eq_some_iff.1 hship)
  · intro h
    cases h with
    | null => rfl
    | @ship t ship hship =>
      have hread := Ship.ofTree?_eq_some_iff.2 hship
      unfold entry?
      split
      · cases hread
      · rw [hread]
        rfl

theorem entries?_eq_some_iff {ts : List Tree} {entries : List (Option Ship)} :
    entries? ts = some entries ↔ List.Forall₂ IsEntry ts entries := by
  induction ts generalizing entries with
  | nil => simp [entries?, eq_comm]
  | cons t ts ih =>
    simp only [entries?, Option.bind_eq_bind, Option.bind_eq_some_iff, entry?_eq_some_iff, ih,
      Option.some.injEq, List.forall₂_cons_left_iff]
    constructor
    · rintro ⟨entry, hentry, rest, hrest, rfl⟩
      exact ⟨entry, rest, hentry, hrest, rfl⟩
    · rintro ⟨entry, rest, hentry, hrest, rfl⟩
      exact ⟨entry, hentry, rest, hrest, rfl⟩

theorem keyedEntries?_eq_some_iff {members : List (String × Tree)}
    {entries : List (String × Option Ship)} :
    keyedEntries? members = some entries ↔ List.Forall₂ IsMember members entries := by
  induction members generalizing entries with
  | nil => simp [keyedEntries?, eq_comm]
  | cons member members ih =>
    simp only [keyedEntries?, Option.bind_eq_bind, Option.bind_eq_some_iff, entry?_eq_some_iff, ih,
      Option.some.injEq, List.forall₂_cons_left_iff]
    constructor
    · rintro ⟨entry, hentry, rest, hrest, rfl⟩
      exact ⟨(member.1, entry), rest, ⟨rfl, hentry⟩, hrest, rfl⟩
    · rintro ⟨⟨key, entry⟩, rest, ⟨rfl, hentry⟩, hrest, rfl⟩
      exact ⟨entry, hentry, rest, hrest, rfl⟩

/-! ## Layouts -/

/-- The tree is a list of entries or an object of entries. -/
inductive HasLayout : Tree → Prop
  | list {items : List Tree} :
      (∀ item ∈ items, ∃ entry, IsEntry item entry) → HasLayout (.list items)
  | object {members : List (String × Tree)} :
      (∀ member ∈ members, ∃ entry, IsEntry member.2 entry) → HasLayout (.object members)

/-- The last entry with each key, by ascending key. -/
structure IsByKey (entries sorted : List (String × Option Ship)) : Prop where
  ascending : sorted.Pairwise fun d e => codes d.1 < codes e.1
  mem_iff : ∀ e, e ∈ sorted ↔ IsLast entries e

/-- The ships of a tree in a layout: those of a list in order, and those of an object by key. -/
inductive Holds : Tree → List Ship → Prop
  | list {items : List Tree} {entries : List (Option Ship)} :
      List.Forall₂ IsEntry items entries → Holds (.list items) (entries.filterMap id)
  | object {members : List (String × Tree)} {entries sorted : List (String × Option Ship)} :
      List.Forall₂ IsMember members entries → IsByKey entries sorted →
      Holds (.object members) (sorted.filterMap Prod.snd)

/-- There is one such list for the entries, and keeping the last entry by key gives it. -/
theorem isByKey_iff {entries sorted : List (String × Option Ship)} :
    IsByKey entries sorted ↔ sorted = lastByKey textBefore entries := by
  have hlast : IsByKey entries (lastByKey textBefore entries) := {
    ascending := by
      have hkeys := map_fst_lastByKey_pairwise textBefore_isStrictOrder entries
      rw [List.pairwise_map] at hkeys
      exact hkeys.imp textBefore_iff.1
    mem_iff e := mem_lastByKey textBefore_isStrictOrder }
  constructor
  · intro h
    apply eq_of_pairwise_of_mem_iff (r := fun d e => codes d.1 < codes e.1)
      (fun d => lt_irrefl (codes d.1)) (fun d e f => lt_trans) h.ascending hlast.ascending
    intro e
    rw [h.mem_iff, hlast.mem_iff]
  · rintro rfl
    exact hlast

theorem ofTree?_eq_some_iff {t : Tree} {c : Catalog} : ofTree? t = some c ↔ Holds t c.ships := by
  constructor
  · intro h
    unfold ofTree? at h
    split at h
    · obtain ⟨entries, hentries, hc⟩ := Option.bind_eq_some_iff.1 h
      cases hc
      exact .list (entries?_eq_some_iff.1 hentries)
    · obtain ⟨entries, hentries, hc⟩ := Option.bind_eq_some_iff.1 h
      cases hc
      exact .object (keyedEntries?_eq_some_iff.1 hentries) (isByKey_iff.2 rfl)
    · cases h
  · intro h
    obtain ⟨ships⟩ := c
    cases h with
    | list hentries =>
      simp only [ofTree?, entries?_eq_some_iff.2 hentries]
      rfl
    | object hentries hsorted =>
      simp only [ofTree?, keyedEntries?_eq_some_iff.2 hentries, isByKey_iff.1 hsorted]
      rfl

/-- A tree holds ships if it is in a layout. -/
theorem exists_holds_iff {t : Tree} : (∃ ships, Holds t ships) ↔ HasLayout t := by
  constructor
  · rintro ⟨_, h⟩
    cases h with
    | list hentries => exact .list (exists_forall₂_iff.1 ⟨_, hentries⟩)
    | object hentries _ =>
      refine .object ?_
      intro member hmember
      obtain ⟨entry, hentry⟩ := exists_forall₂_iff.1 ⟨_, hentries⟩ member hmember
      exact ⟨entry.2, hentry.entry⟩
  · intro h
    cases h with
    | list hitems =>
      obtain ⟨entries, hentries⟩ := exists_forall₂_iff.2 hitems
      exact ⟨_, .list hentries⟩
    | @object members hmembers =>
      have hkeyed : ∀ member ∈ members, ∃ entry, IsMember member entry := by
        intro member hmember
        obtain ⟨entry, hentry⟩ := hmembers member hmember
        exact ⟨(member.1, entry), rfl, hentry⟩
      obtain ⟨entries, hentries⟩ := exists_forall₂_iff.2 hkeyed
      exact ⟨_, .object hentries (isByKey_iff.2 rfl)⟩

theorem ofText_iff_holds {text : String} {t : Tree} (htree : Tree.ofText text = .ok t)
    {c : Catalog} : ofText text = .ok c ↔ Holds t c.ships := by
  rw [ofText_eq_ok_iff, ← ofTree?_eq_some_iff]
  constructor
  · rintro ⟨u, hu, hc⟩
    rw [htree] at hu
    cases hu
    exact hc
  · intro hc
    exact ⟨t, htree, hc⟩

/-- **A text is a catalog** exactly if its tree is in a layout, and the catalog has just the ships
that the tree holds. -/
theorem loads_iff_hasLayout {text : String} {t : Tree} (htree : Tree.ofText text = .ok t) :
    ((∃ c, ofText text = .ok c) ↔ HasLayout t) ∧
      ∀ c : Catalog, ofText text = .ok c ↔ Holds t c.ships := by
  refine ⟨?_, fun c => ofText_iff_holds htree⟩
  rw [← exists_holds_iff]
  constructor
  · rintro ⟨c, hc⟩
    exact ⟨c.ships, (ofText_iff_holds htree).1 hc⟩
  · rintro ⟨ships, hships⟩
    exact ⟨⟨ships⟩, (ofText_iff_holds htree).2 hships⟩

/-- Of two ships under one key the last is held, and a null is passed over. -/
theorem loads_iff_hasLayout_repeated_key :
    Tree.ofText
        "\x7b\"b\":[2,\"Hood\",7,\"A\",\"uk\"],\"a\":null,\"b\":[1,\"Kaga\",8,\"B\",\"usa\"]\x7d" =
      .ok (.object [
        ("b", .list [.natural 2, .string "Hood", .natural 7, .string "A", .string "uk"]),
        ("a", .null),
        ("b", .list [.natural 1, .string "Kaga", .natural 8, .string "B", .string "usa"])]) ∧
      Holds (.object [
        ("b", .list [.natural 2, .string "Hood", .natural 7, .string "A", .string "uk"]),
        ("a", .null),
        ("b", .list [.natural 1, .string "Kaga", .natural 8, .string "B", .string "usa"])])
        [⟨1, "Kaga", 8, "B", "usa", false, false⟩] := by
  have htree : Tree.ofText
        "\x7b\"b\":[2,\"Hood\",7,\"A\",\"uk\"],\"a\":null,\"b\":[1,\"Kaga\",8,\"B\",\"usa\"]\x7d" =
      .ok (.object [
        ("b", .list [.natural 2, .string "Hood", .natural 7, .string "A", .string "uk"]),
        ("a", .null),
        ("b", .list [.natural 1, .string "Kaga", .natural 8, .string "B", .string "usa"])]) := by
    cbv
  have hload := (loads_iff_hasLayout htree).2 ⟨[⟨1, "Kaga", 8, "B", "usa", false, false⟩]⟩
  refine ⟨htree, hload.1 ?_⟩
  rw [ofText_eq_ok_iff]
  exact ⟨_, htree, by decide +kernel⟩

end Catalog

end FleetSearch
