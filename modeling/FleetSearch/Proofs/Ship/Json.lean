/-
# FleetSearch.Proofs.Ship.Json -- which trees are ships

What it means that a tree gives a ship is said here without reading it (`Ship.GivenBy`): an object
has every field once, save that a mark which is false may be left out, and a list has the fields in
order, save that marks which are false may be left out at the end. Reading a tree finds the ship
that it gives, and none if it gives none (`Ship.ofTree?_eq_some_iff`).
-/

import FleetSearch.Ship.Json
import Mathlib.Data.List.Basic

namespace FleetSearch.Ship

open FleetSearch.Json

/-! ## What a tree gives -/

/-- The fields that have to be given, in order. -/
def fields (ship : Ship) : List (String × Tree) := [
  ("ship_id", .natural ship.shipId.toNat),
  ("name", .string ship.name),
  ("tier", .natural ship.tier.toNat),
  ("type", .string ship.type),
  ("nation", .string ship.nation)]

/-- The marks, in order. -/
def marks (ship : Ship) : List (String × Bool) := [
  ("is_premium", ship.isPremium),
  ("is_special", ship.isSpecial)]

/-- The tree stands under the key, and nothing else does. -/
def IsOnly (members : List (String × Tree)) (key : String) (t : Tree) : Prop :=
  (members.filter fun member => member.1 == key) = [(key, t)]

/-- Nothing stands under the key. -/
def IsMissing (members : List (String × Tree)) (key : String) : Prop :=
  ∀ member ∈ members, member.1 ≠ key

/-- The tree gives the ship. -/
inductive GivenBy (ship : Ship) : Tree → Prop
  | object {members : List (String × Tree)} :
      (∀ field ∈ ship.fields, IsOnly members field.1 field.2) →
      (∀ mark ∈ ship.marks, IsOnly members mark.1 (.boolean mark.2) ∨
        IsMissing members mark.1 ∧ mark.2 = false) →
      GivenBy ship (.object members)
  | list (n : Nat) :
      (∀ mark ∈ ship.marks.drop n, mark.2 = false) →
      GivenBy ship
        (.list (ship.fields.map Prod.snd ++ (ship.marks.take n).map fun mark => .boolean mark.2))

/-! ## The values of fields -/

/-- A number below a limit, of a type that holds just these numbers, is read as itself. -/
theorem bounded_eq_some_iff {α : Type} {size : Nat} {toNat : α → Nat} {ofNat : Nat → α}
    (hlt : ∀ a, toNat a < size) (hof : ∀ a, ofNat (toNat a) = a)
    (hto : ∀ n < size, toNat (ofNat n) = n) {t : Tree} {a : α} :
    (match t with
      | .number (.natural n) => if n < size then some (ofNat n) else none
      | _ => none) = some a ↔ t = .natural (toNat a) := by
  unfold Tree.natural
  constructor
  · intro h
    split at h
    · split at h
      · next hn =>
        rw [← Option.some.inj h, hto _ hn]
      · cases h
    · cases h
  · rintro rfl
    simp only [if_pos (hlt a), hof]

theorem id?_eq_some_iff {t : Tree} {id : UInt64} : id? t = some id ↔ t = .natural id.toNat :=
  bounded_eq_some_iff UInt64.toNat_lt_size (fun _ => UInt64.ofNat_toNat)
    fun _ => UInt64.toNat_ofNat_of_lt'

theorem tier?_eq_some_iff {t : Tree} {tier : UInt8} :
    tier? t = some tier ↔ t = .natural tier.toNat :=
  bounded_eq_some_iff UInt8.toNat_lt_size (fun _ => UInt8.ofNat_toNat)
    fun _ => UInt8.toNat_ofNat_of_lt'

theorem text?_eq_some_iff {t : Tree} {s : String} : text? t = some s ↔ t = .string s := by
  unfold text?
  constructor
  · intro h
    split at h
    · rw [Option.some.inj h]
    · cases h
  · rintro rfl
    rfl

theorem mark?_eq_some_iff {o : Option Tree} {b : Bool} :
    mark? o = some b ↔ o = some (.boolean b) ∨ o = none ∧ b = false := by
  unfold mark?
  constructor
  · intro h
    split at h
    · exact .inr ⟨rfl, (Option.some.inj h).symm⟩
    · exact .inl (by rw [Option.some.inj h])
    · cases h
  · rintro (rfl | ⟨rfl, rfl⟩)
    · rfl
    · rfl

theorem ofFields?_eq_some_iff {shipId name tier type nation : Tree}
    {isPremium isSpecial : Option Tree} {ship : Ship} :
    ofFields? shipId name tier type nation isPremium isSpecial = some ship ↔
      [shipId, name, tier, type, nation] = ship.fields.map Prod.snd ∧
        mark? isPremium = some ship.isPremium ∧ mark? isSpecial = some ship.isSpecial := by
  unfold ofFields? fields
  simp only [Option.bind_eq_bind, Option.bind_eq_some_iff, id?_eq_some_iff, tier?_eq_some_iff,
    text?_eq_some_iff, List.map_cons, List.map_nil, List.cons.injEq, and_true, Option.some.injEq]
  constructor
  · rintro ⟨_, hid, _, hname, _, htier, _, htype, _, hnation, _, hpremium, _, hspecial, rfl⟩
    exact ⟨⟨hid, hname, htier, htype, hnation⟩, hpremium, hspecial⟩
  · rintro ⟨⟨hid, hname, htier, htype, hnation⟩, hpremium, hspecial⟩
    exact ⟨_, hid, _, hname, _, htier, _, htype, _, hnation, _, hpremium, _, hspecial, rfl⟩

/-! ## Objects -/

theorem once?_eq_some_some_iff {key : String} {members : List (String × Tree)} {t : Tree} :
    once? key members = some (some t) ↔ IsOnly members key t := by
  unfold once? IsOnly
  constructor
  · intro h
    split at h
    · cases h
    · next k u hfilter =>
      have hkey : (k, u) ∈ members.filter fun member => member.1 == key := by simp [hfilter]
      rw [List.mem_filter, beq_iff_eq] at hkey
      rw [hfilter, Option.some.inj (Option.some.inj h), ← hkey.2]
    · cases h
  · intro h
    rw [h]

theorem once?_eq_some_none_iff {key : String} {members : List (String × Tree)} :
    once? key members = some none ↔ IsMissing members key := by
  have hnil : IsMissing members key ↔ (members.filter fun member => member.1 == key) = [] := by
    rw [List.filter_eq_nil_iff]
    simp only [IsMissing, beq_iff_eq, ne_eq]
  rw [hnil]
  unfold once?
  constructor
  · intro h
    split at h
    · next hfilter => exact hfilter
    · cases h
    · cases h
  · intro h
    rw [h]

/-- A mark is read if it is given, or left out and false. -/
theorem mark_iff {key : String} {members : List (String × Tree)} {b : Bool} :
    (∃ o, once? key members = some o ∧ mark? o = some b) ↔
      IsOnly members key (.boolean b) ∨ IsMissing members key ∧ b = false := by
  rw [← once?_eq_some_some_iff, ← once?_eq_some_none_iff]
  constructor
  · rintro ⟨o, ho, hb⟩
    rcases mark?_eq_some_iff.1 hb with rfl | ⟨rfl, rfl⟩
    · exact .inl ho
    · exact .inr ⟨ho, rfl⟩
  · rintro (ho | ⟨ho, rfl⟩)
    · exact ⟨_, ho, rfl⟩
    · exact ⟨_, ho, rfl⟩

/-- A field is read if it is given. -/
theorem field_iff {key : String} {members : List (String × Tree)} {read : Tree → Option Ship}
    {ship : Ship} :
    ((once? key members).bind fun o => o.bind read) = some ship ↔
      ∃ t, IsOnly members key t ∧ read t = some ship := by
  simp only [Option.bind_eq_some_iff, ← once?_eq_some_some_iff]
  constructor
  · rintro ⟨_, ho, t, rfl, ht⟩
    exact ⟨t, ho, ht⟩
  · rintro ⟨t, ho, ht⟩
    exact ⟨_, ho, t, rfl, ht⟩

theorem ofMembers?_eq_some_iff {members : List (String × Tree)} {ship : Ship} :
    ofMembers? members = some ship ↔
      (∀ field ∈ ship.fields, IsOnly members field.1 field.2) ∧
        ∀ mark ∈ ship.marks, IsOnly members mark.1 (.boolean mark.2) ∨
          IsMissing members mark.1 ∧ mark.2 = false := by
  unfold ofMembers? fields marks
  simp only [Option.bind_eq_bind, field_iff]
  simp only [Option.bind_eq_some_iff, ofFields?_eq_some_iff, List.forall_mem_cons,
    List.not_mem_nil, false_implies, implies_true, and_true, ← mark_iff]
  constructor
  · rintro ⟨_, hid, _, hname, _, htier, _, htype, _, hnation, _, hpremium, _, hspecial, hfields,
      hpremiumIs, hspecialIs⟩
    cases hfields
    exact ⟨⟨hid, hname, htier, htype, hnation⟩, ⟨_, hpremium, hpremiumIs⟩, _, hspecial, hspecialIs⟩
  · rintro ⟨⟨hid, hname, htier, htype, hnation⟩, ⟨_, hpremium, hpremiumIs⟩, _, hspecial, hspecialIs⟩
    exact ⟨_, hid, _, hname, _, htier, _, htype, _, hnation, _, hpremium, _, hspecial, rfl,
      hpremiumIs, hspecialIs⟩

/-! ## Lists -/

theorem mark?_none_iff {b : Bool} : mark? none = some b ↔ b = false := by
  simp [mark?_eq_some_iff]

theorem mark?_some_iff {t : Tree} {b : Bool} : mark? (some t) = some b ↔ t = .boolean b := by
  simp [mark?_eq_some_iff]

theorem ofItems?_eq_some_iff {items : List Tree} {ship : Ship} :
    ofTree? (.list items) = some ship ↔
      ∃ n, (∀ mark ∈ ship.marks.drop n, mark.2 = false) ∧
        items =
          ship.fields.map Prod.snd ++ (ship.marks.take n).map fun mark => .boolean mark.2 := by
  constructor
  · intro h
    unfold ofTree? at h
    -- As many marks are given as there are items behind the fifth.
    split at h
    · next heq => cases heq
    · next heq =>
      obtain ⟨hfields, hpremium, hspecial⟩ := ofFields?_eq_some_iff.1 h
      rw [mark?_none_iff] at hpremium hspecial
      refine ⟨0, by simp [marks, hpremium, hspecial], ?_⟩
      rw [← hfields, Tree.list.inj heq]
      rfl
    · next heq =>
      obtain ⟨hfields, hpremium, hspecial⟩ := ofFields?_eq_some_iff.1 h
      rw [mark?_some_iff] at hpremium
      rw [mark?_none_iff] at hspecial
      refine ⟨1, by simp [marks, hspecial], ?_⟩
      rw [← hfields, Tree.list.inj heq, hpremium]
      rfl
    · next heq =>
      obtain ⟨hfields, hpremium, hspecial⟩ := ofFields?_eq_some_iff.1 h
      rw [mark?_some_iff] at hpremium hspecial
      refine ⟨2, by simp [marks], ?_⟩
      rw [← hfields, Tree.list.inj heq, hpremium, hspecial]
      rfl
    · cases h
  · rintro ⟨n, hleft, rfl⟩
    match n with
    | 0 =>
      have hpremium : ship.isPremium = false := hleft ("is_premium", _) (by simp [marks])
      have hspecial : ship.isSpecial = false := hleft ("is_special", _) (by simp [marks])
      exact ofFields?_eq_some_iff.2 ⟨rfl, mark?_none_iff.2 hpremium, mark?_none_iff.2 hspecial⟩
    | 1 =>
      have hspecial : ship.isSpecial = false := hleft ("is_special", _) (by simp [marks])
      exact ofFields?_eq_some_iff.2 ⟨rfl, mark?_some_iff.2 rfl, mark?_none_iff.2 hspecial⟩
    | n + 2 =>
      rw [List.take_of_length_le (by simp [marks])]
      exact ofFields?_eq_some_iff.2 ⟨rfl, mark?_some_iff.2 rfl, mark?_some_iff.2 rfl⟩

/-- **Reading a tree** finds the ship that it gives. -/
theorem ofTree?_eq_some_iff {t : Tree} {ship : Ship} : ofTree? t = some ship ↔ ship.GivenBy t := by
  constructor
  · intro h
    cases t with
    | object members =>
      obtain ⟨hfields, hmarks⟩ := ofMembers?_eq_some_iff.1 h
      exact .object hfields hmarks
    | list items =>
      obtain ⟨n, hleft, rfl⟩ := ofItems?_eq_some_iff.1 h
      exact .list n hleft
    | null => cases h
    | boolean b => cases h
    | number n => cases h
    | string s => cases h
  · intro h
    cases h with
    | object hfields hmarks => exact ofMembers?_eq_some_iff.2 ⟨hfields, hmarks⟩
    | list n hleft => exact ofItems?_eq_some_iff.2 ⟨n, hleft, rfl⟩

end FleetSearch.Ship
