/-
# FleetSearch.Proofs.Catalog.Layouts -- searching does not see how a catalog was laid out

Catalogs with the same ships in any order have the same facets and list the same ships, by the same
tiers and names one after another; only ships alike in both may change places
(`Catalog.narrow_perm`, `Catalog.map_listingKey_narrow`). A file that lists ships and a file that
keeps them under keys give such catalogs, whatever the order of the entries and however many nulls
there are among them (`Catalog.search_ignores_layout`).
-/

import FleetSearch.Proofs.Catalog.Facets
import FleetSearch.Proofs.Catalog.Json
import Mathlib.Data.List.Nodup

namespace FleetSearch.Catalog

open Json

/-! ## Catalogs with the same ships -/

/-- What a listing goes by. -/
def listingKey (ship : Ship) : UInt8 × String := (ship.tier, ship.name)

/-- Ships that may stand either way round are alike in what a listing goes by. -/
theorem listingKey_eq {a b : Ship} (hab : inOrder a b = true) (hba : inOrder b a = true) :
    listingKey a = listingKey b := by
  have htied : tied inOrder b a = true := by
    unfold tied
    rw [hab, hba, Bool.and_self]
  rw [tied_inOrder, decide_eq_true_eq] at htied
  unfold listingKey
  rw [htied.1, htied.2]

theorem narrow_pairwise (c : Catalog) (f : Filters) :
    (c.narrow f).Pairwise fun a b => inOrder a b = true :=
  (isListing_narrow c f).ordered.imp inOrder_iff.2

section

variable {c d : Catalog} (h : c.ships.Perm d.ships)
include h

/-- The same ships are listed. -/
theorem narrow_perm (f : Filters) : (c.narrow f).Perm (d.narrow f) :=
  ((isListing_narrow c f).perm.trans (h.filter _)).trans (isListing_narrow d f).perm.symm

/-- The tiers and names come in the same order. -/
theorem map_listingKey_narrow (f : Filters) :
    (c.narrow f).map listingKey = (d.narrow f).map listingKey := by
  have hordered : ∀ e : Catalog, ((e.narrow f).map listingKey).Pairwise fun x y =>
      x.1 < y.1 ∨ x.1 = y.1 ∧ codes x.2 ≤ codes y.2 := by
    intro e
    rw [List.pairwise_map]
    exact (isListing_narrow e f).ordered
  refine List.Perm.eq_of_pairwise ?_ (hordered c) (hordered d) ((narrow_perm h f).map listingKey)
  intro x y hx hy hxy hyx
  obtain ⟨a, -, rfl⟩ := List.mem_map.1 hx
  obtain ⟨b, -, rfl⟩ := List.mem_map.1 hy
  exact listingKey_eq (inOrder_iff.2 hxy) (inOrder_iff.2 hyx)

/-- If no two ships are alike in tier and name, the listings are equal. -/
theorem narrow_eq_of_nodup (hkeys : (c.ships.map listingKey).Nodup) (f : Filters) :
    c.narrow f = d.narrow f := by
  refine List.Perm.eq_of_pairwise ?_ (narrow_pairwise c f) (narrow_pairwise d f) (narrow_perm h f)
  intro a b ha hb hab hba
  have hc := (mem_narrow.1 ha).1
  have hd := h.mem_iff.2 (mem_narrow.1 hb).1
  exact List.inj_on_of_nodup_map hkeys hc hd (listingKey_eq hab hba)

end

/-! ## The layouts of given ships -/

/-- The tree lists the ships in some order, with any number of nulls in any places. -/
inductive Lists (ships : List Ship) : Tree → Prop
  | list {items nulls listed : List Tree} :
      List.Forall₂ Ship.GivenBy ships listed → (∀ item ∈ nulls, item = .null) →
      items.Perm (nulls ++ listed) → Lists ships (.list items)

/-- The member gives the ship under the key. -/
structure GivesUnder (e : String × Ship) (member : String × Tree) : Prop where
  key : member.1 = e.1
  ship : e.2.GivenBy member.2

/-- The tree keeps the ships under their keys, the members in some order, with any number of nulls
under other keys. -/
inductive Keeps (keyed : List (String × Ship)) : Tree → Prop
  | object {members nulls kept : List (String × Tree)} :
      List.Forall₂ GivesUnder keyed kept →
      (∀ member ∈ nulls, member.2 = .null ∧ member.1 ∉ keyed.map Prod.fst) →
      members.Perm (nulls ++ kept) → Keeps keyed (.object members)

/-- A tree that lists ships holds them. -/
theorem Lists.holds {ships : List Ship} {t : Tree} (h : Lists ships t) :
    ∃ held, Holds t held ∧ held.Perm ships := by
  cases h with
  | @list items nulls listed hlisted hnulls hitems =>
    have hparts : List.Forall₂ IsEntry (nulls ++ listed)
        (nulls.map (fun _ => none) ++ ships.map some) := by
      apply List.rel_append
      · rw [List.forall₂_map_right_iff, List.forall₂_same]
        intro item hitem
        rw [hnulls item hitem]
        exact .null
      · rw [List.forall₂_map_right_iff]
        exact hlisted.flip.imp fun t ship => .ship
    -- The entries of the items are the same in another order.
    obtain ⟨entries, hentries, hperm⟩ := List.perm_comp_forall₂ hitems hparts
    refine ⟨_, .list hentries, ?_⟩
    have hheld := hperm.filterMap id
    simpa [List.filterMap_map] using hheld

/-- The entry of a ship under its key. -/
def keyedEntry (e : String × Ship) : String × Option Ship := (e.1, some e.2)

/-- The ship of an entry, with its key. -/
def keyedShip? (e : String × Option Ship) : Option (String × Ship) := e.2.map (Prod.mk e.1)

theorem keyedShip?_eq_some_iff {d : String × Option Ship} {e : String × Ship} :
    keyedShip? d = some e ↔ d = keyedEntry e := by
  obtain ⟨key, ship⟩ := d
  unfold keyedShip? keyedEntry
  rw [Option.map_eq_some_iff]
  constructor
  · rintro ⟨_, rfl, rfl⟩
    rfl
  · intro h
    cases h
    exact ⟨_, rfl, rfl⟩

/-- A key that has a ship has no other entry. -/
def OnceKeyed (entries : List (String × Option Ship)) : Prop :=
  entries.Pairwise fun d e => d.1 = e.1 → d.2 = none ∧ e.2 = none

theorem OnceKeyed.isLast_iff {entries : List (String × Option Ship)} (h : OnceKeyed entries)
    {e : String × Ship} : IsLast entries (keyedEntry e) ↔ keyedEntry e ∈ entries := by
  constructor
  · rintro ⟨before, after, rfl, -⟩
    exact List.mem_append_right before List.mem_cons_self
  · intro he
    obtain ⟨before, after, rfl⟩ := List.append_of_mem he
    refine ⟨before, after, rfl, ?_⟩
    intro d hd hkey
    unfold OnceKeyed at h
    rw [List.pairwise_append, List.pairwise_cons] at h
    have hnone := (h.2.1.1 d hd hkey.symm).1
    cases hnone

/-- If a key that has a ship has no other entry, then keeping the last entry by key keeps all
ships. -/
theorem IsByKey.ships_perm {entries sorted : List (String × Option Ship)}
    (h : IsByKey entries sorted) (honce : OnceKeyed entries) :
    (sorted.filterMap keyedShip?).Perm (entries.filterMap keyedShip?) := by
  refine (List.perm_ext_iff_of_nodup ?sorted ?entries).2 ?mem
  case sorted =>
    refine List.pairwise_filterMap.2 (h.ascending.imp ?_)
    rintro d d' hlt e he _ he' rfl
    rw [keyedShip?_eq_some_iff] at he he'
    rw [he, he'] at hlt
    exact lt_irrefl _ hlt
  case entries =>
    refine List.pairwise_filterMap.2 (honce.imp ?_)
    rintro d d' hnone e he _ he' rfl
    rw [keyedShip?_eq_some_iff] at he he'
    rw [he, he'] at hnone
    cases (hnone rfl).1
  case mem =>
    intro e
    simp only [List.mem_filterMap, keyedShip?_eq_some_iff, exists_eq_right, h.mem_iff,
      honce.isLast_iff]

theorem OnceKeyed.of_perm {entries entries' : List (String × Option Ship)} (h : OnceKeyed entries')
    (hperm : entries.Perm entries') : OnceKeyed entries := by
  refine (hperm.pairwise_iff ?_).2 h
  intro d e hnone heq
  exact (hnone heq.symm).symm

/-- Nulls under keys, and ships under keys. -/
def entriesOf (nullKeys : List String) (keyed : List (String × Ship)) :
    List (String × Option Ship) :=
  nullKeys.map (fun key => (key, none)) ++ keyed.map keyedEntry

theorem onceKeyed_entriesOf {nullKeys : List String} {keyed : List (String × Ship)}
    (hkeys : (keyed.map Prod.fst).Nodup) (hnulls : ∀ key ∈ nullKeys, key ∉ keyed.map Prod.fst) :
    OnceKeyed (entriesOf nullKeys keyed) := by
  unfold OnceKeyed entriesOf
  rw [List.pairwise_append, List.pairwise_map, List.pairwise_map]
  refine ⟨List.pairwise_of_forall fun _ _ _ => ⟨rfl, rfl⟩, ?_, ?_⟩
  · rw [List.Nodup, List.pairwise_map] at hkeys
    exact hkeys.imp fun hne heq => absurd heq hne
  · intro d hd e he heq
    obtain ⟨key, hkey, rfl⟩ := List.mem_map.1 hd
    obtain ⟨f, hf, rfl⟩ := List.mem_map.1 he
    have hmem : key ∈ keyed.map Prod.fst := List.mem_map.2 ⟨f, hf, heq.symm⟩
    exact absurd hmem (hnulls key hkey)

theorem filterMap_entriesOf (nullKeys : List String) (keyed : List (String × Ship)) :
    (entriesOf nullKeys keyed).filterMap keyedShip? = keyed := by
  have hnull : keyedShip? ∘ (fun key => (key, none)) = fun _ => none := rfl
  have hship : keyedShip? ∘ keyedEntry = some := rfl
  unfold entriesOf
  rw [List.filterMap_append, List.filterMap_map, List.filterMap_map, hnull, hship,
    List.filterMap_some, List.filterMap_eq_nil_iff.2 fun _ _ => rfl, List.nil_append]

/-- The ships of entries are those of the entries with their keys. -/
theorem filterMap_snd (entries : List (String × Option Ship)) :
    entries.filterMap Prod.snd = (entries.filterMap keyedShip?).map Prod.snd := by
  rw [List.map_filterMap]
  apply List.filterMap_congr
  rintro ⟨key, ship⟩ _
  cases ship with
  | none => rfl
  | some ship => rfl

/-- A tree that keeps ships holds them. -/
theorem Keeps.holds {keyed : List (String × Ship)} {t : Tree} (h : Keeps keyed t)
    (hkeys : (keyed.map Prod.fst).Nodup) :
    ∃ held, Holds t held ∧ held.Perm (keyed.map Prod.snd) := by
  cases h with
  | @object members nulls kept hkept hnulls hmembers =>
    have hparts : List.Forall₂ IsMember (nulls ++ kept) (entriesOf (nulls.map Prod.fst) keyed) := by
      apply List.rel_append
      · rw [List.forall₂_map_right_iff, List.forall₂_map_right_iff, List.forall₂_same]
        intro member hmember
        refine ⟨rfl, ?_⟩
        rw [(hnulls member hmember).1]
        exact .null
      · rw [List.forall₂_map_right_iff]
        exact hkept.flip.imp fun member e hgives => ⟨hgives.key, .ship hgives.ship⟩
    have honce : OnceKeyed (entriesOf (nulls.map Prod.fst) keyed) := by
      refine onceKeyed_entriesOf hkeys ?_
      rw [List.forall_mem_map]
      exact fun member hmember => (hnulls member hmember).2
    -- The entries of the members are the same in another order.
    obtain ⟨entries, hentries, hperm⟩ := List.perm_comp_forall₂ hmembers hparts
    have hsorted : IsByKey entries (lastByKey textBefore entries) := isByKey_iff.2 rfl
    have hships := (hsorted.ships_perm (honce.of_perm hperm)).trans (hperm.filterMap keyedShip?)
    rw [filterMap_entriesOf] at hships
    refine ⟨_, .object hentries hsorted, ?_⟩
    rw [filterMap_snd]
    exact hships.map Prod.snd

/-! ## Both layouts -/

/-- **Searching ignores the layout.** A file that lists ships and a file that keeps them under
distinct keys are catalogs of these ships with equal facets. Any filters list the same ships from
both, by the same tiers and names one after another, and in the same order if no two ships are alike
in both. -/
theorem search_ignores_layout {keyed : List (String × Ship)} (hkeys : (keyed.map Prod.fst).Nodup)
    {listText objectText : String} {list object : Tree}
    (hlist : Tree.ofText listText = .ok list) (hobject : Tree.ofText objectText = .ok object)
    (hlists : Lists (keyed.map Prod.snd) list) (hkeeps : Keeps keyed object) :
    ∃ c d, ofText listText = .ok c ∧ ofText objectText = .ok d ∧
      c.ships.Perm (keyed.map Prod.snd) ∧ c.facets = d.facets ∧
      ∀ f, (c.narrow f).Perm (d.narrow f) ∧
        (c.narrow f).map listingKey = (d.narrow f).map listingKey ∧
        (((keyed.map Prod.snd).map listingKey).Nodup → c.narrow f = d.narrow f) := by
  obtain ⟨listed, hlisted, hfirst⟩ := hlists.holds
  obtain ⟨kept, hkept, hsecond⟩ := hkeeps.holds hkeys
  have hc : ofText listText = .ok ⟨listed⟩ := (ofText_iff_holds hlist).2 hlisted
  have hd : ofText objectText = .ok ⟨kept⟩ := (ofText_iff_holds hobject).2 hkept
  have hsame : (Catalog.mk listed).ships.Perm (Catalog.mk kept).ships := hfirst.trans hsecond.symm
  refine ⟨⟨listed⟩, ⟨kept⟩, hc, hd, hfirst, facets_congr fun _ => hsame.mem_iff, ?_⟩
  intro f
  refine ⟨narrow_perm hsame f, map_listingKey_narrow hsame f, ?_⟩
  intro hdistinct
  exact narrow_eq_of_nodup hsame ((hfirst.map listingKey).nodup_iff.2 hdistinct) f

set_option maxRecDepth 2000 in
/-- Two ships after a null in a list, and in the other order after a null under their keys. -/
theorem search_ignores_layout_kaga_hood :
    ∃ c d,
      ofText "[null,[2,\"Hood\",7,\"A\",\"uk\"],[1,\"Kaga\",8,\"B\",\"usa\"]]" = .ok c ∧
        ofText
          "\x7b\"x\":null,\"a\":[1,\"Kaga\",8,\"B\",\"usa\"],\"b\":[2,\"Hood\",7,\"A\",\"uk\"]\x7d"
          = .ok d ∧
        c.facets = d.facets ∧ ∀ f, c.narrow f = d.narrow f := by
  have hlist :
      Tree.ofText "[null,[2,\"Hood\",7,\"A\",\"uk\"],[1,\"Kaga\",8,\"B\",\"usa\"]]" =
        .ok (.list [.null,
          .list [.natural 2, .string "Hood", .natural 7, .string "A", .string "uk"],
          .list [.natural 1, .string "Kaga", .natural 8, .string "B", .string "usa"]]) := by
    cbv
  have hobject : Tree.ofText
        "\x7b\"x\":null,\"a\":[1,\"Kaga\",8,\"B\",\"usa\"],\"b\":[2,\"Hood\",7,\"A\",\"uk\"]\x7d" =
        .ok (.object [("x", .null),
          ("a", .list [.natural 1, .string "Kaga", .natural 8, .string "B", .string "usa"]),
          ("b", .list [.natural 2, .string "Hood", .natural 7, .string "A", .string "uk"])]) := by
    cbv
  have hkaga : Ship.GivenBy ⟨1, "Kaga", 8, "B", "usa", false, false⟩
      (.list [.natural 1, .string "Kaga", .natural 8, .string "B", .string "usa"]) :=
    Ship.ofTree?_eq_some_iff.1 (by decide +kernel)
  have hhood : Ship.GivenBy ⟨2, "Hood", 7, "A", "uk", false, false⟩
      (.list [.natural 2, .string "Hood", .natural 7, .string "A", .string "uk"]) :=
    Ship.ofTree?_eq_some_iff.1 (by decide +kernel)
  have hlists := Lists.list (.cons hkaga (.cons hhood .nil)) (List.forall_mem_singleton.2 rfl)
    ((List.Perm.swap _ _ _).cons Tree.null)
  have hkept : List.Forall₂ GivesUnder
      [("a", ⟨1, "Kaga", 8, "B", "usa", false, false⟩),
        ("b", ⟨2, "Hood", 7, "A", "uk", false, false⟩)]
      [("a", .list [.natural 1, .string "Kaga", .natural 8, .string "B", .string "usa"]),
        ("b", .list [.natural 2, .string "Hood", .natural 7, .string "A", .string "uk"])] :=
    .cons ⟨rfl, hkaga⟩ (.cons ⟨rfl, hhood⟩ .nil)
  have hkeeps := Keeps.object hkept
    (List.forall_mem_singleton.2 ⟨rfl, by decide⟩ : ∀ member ∈ [("x", Tree.null)], _) (.refl _)
  have hkeys : (List.map Prod.fst [("a", (⟨1, "Kaga", 8, "B", "usa", false, false⟩ : Ship)),
      ("b", ⟨2, "Hood", 7, "A", "uk", false, false⟩)]).Nodup := by decide
  obtain ⟨c, d, hc, hd, -, hfacets, hnarrow⟩ :=
    search_ignores_layout hkeys hlist hobject hlists hkeeps
  exact ⟨c, d, hc, hd, hfacets, fun f => (hnarrow f).2.2 (by decide)⟩

end FleetSearch.Catalog
