/-
# FleetSearch.Proofs.Label -- values and their labels

A value is known by its label: no two ship types have the same one, and neither have two nations,
two categories or two tiers. Labels are letters, digits and underscores (`IsLabel`), so no mark of
punctuation and no control character is in any of them.
-/

import FleetSearch.Label
import FleetSearch.Proofs.Tier

namespace FleetSearch

/-! ## Values by their labels -/

/-- If a list of all values has no label twice, then a value is known by its label. -/
theorem injective_of_nodup {α : Type} (all : List α) {label : α → String} (hall : ∀ a, a ∈ all)
    (hnodup : (all.map label).Nodup) : Function.Injective label := by
  intro a b h
  exact List.inj_on_of_nodup_map hnodup (hall a) (hall b) h

theorem ShipType.label_injective : Function.Injective label :=
  injective_of_nodup all (by rintro ⟨⟩ <;> decide) (by decide)

theorem Nation.label_injective : Function.Injective label :=
  injective_of_nodup all (by rintro ⟨⟩ <;> decide) (by decide)

theorem Category.label_injective : Function.Injective label :=
  injective_of_nodup all (by rintro ⟨⟩ <;> decide) (by decide)

theorem Tier.label_injective : Function.Injective label := by
  intro t t' h
  have hvalue : t.value = t'.value := Text.numeral_injective h
  have hnumber : ofNat? t'.value = some t := ofNat?_eq_some.2 hvalue
  exact Option.some.inj (hnumber.symm.trans (ofNat?_eq_some.2 rfl))

/-! ## The characters of labels -/

/-- Whether a label may hold the character. -/
def isLabelChar (c : Char) : Bool := c.isAlphanum || c == '_'

/-- Letters, digits and underscores, at least one. -/
structure IsLabel (s : String) : Prop where
  ne_nil : s.toList ≠ []
  all : s.toList.all isLabelChar = true

theorem IsLabel.isLabelChar_of_mem {s : String} (h : IsLabel s) {c : Char} (hc : c ∈ s.toList) :
    isLabelChar c = true :=
  List.all_eq_true.1 h.all c hc

theorem IsLabel.not_mem {s : String} (h : IsLabel s) {c : Char} (hc : isLabelChar c = false) :
    c ∉ s.toList := by
  intro hmem
  rw [h.isLabelChar_of_mem hmem] at hc
  exact Bool.false_ne_true hc.symm

theorem takeWhile_label {s : String} {u : List Char} (hs : IsLabel s)
    (hu : u.head?.any isLabelChar = false) : (s.toList ++ u).takeWhile isLabelChar = s.toList := by
  rw [List.takeWhile_append_of_pos fun c hc => hs.isLabelChar_of_mem hc]
  cases u with
  | nil => simp
  | cons c u =>
    have hc : ¬ isLabelChar c = true := by simpa using hu
    rw [List.takeWhile_cons_of_neg hc, List.append_nil]

/-- A label ends where the text goes on with another character. -/
theorem IsLabel.cut {s t : String} {u v : List Char} (hs : IsLabel s) (ht : IsLabel t)
    (hu : u.head?.any isLabelChar = false) (hv : v.head?.any isLabelChar = false)
    (h : s.toList ++ u = t.toList ++ v) : s = t ∧ u = v := by
  have hst : s.toList = t.toList := by
    rw [← takeWhile_label hs hu, h, takeWhile_label ht hv]
  rw [hst] at h
  exact ⟨String.toList_inj.1 hst, List.append_cancel_left h⟩

theorem isLabel_numeral (n : Nat) : IsLabel (Text.numeral n) where
  ne_nil := (Text.decimal?_eq_some.1 (Text.decimal?_numeral n)).1
  all := by
    rw [List.all_eq_true]
    intro c hc
    have hdigit := Text.isDigit_of_mem_numeral hc
    simp [isLabelChar, Char.isAlphanum, hdigit]

theorem Tier.isLabel (t : Tier) : IsLabel t.label := isLabel_numeral t.value

theorem ShipType.isLabel (type : ShipType) : IsLabel type.label := by
  cases type <;> exact ⟨by decide, by decide⟩

theorem Nation.isLabel (nation : Nation) : IsLabel nation.label := by
  cases nation <;> exact ⟨by decide, by decide⟩

theorem Category.isLabel (category : Category) : IsLabel category.label := by
  cases category <;> exact ⟨by decide, by decide⟩

end FleetSearch
