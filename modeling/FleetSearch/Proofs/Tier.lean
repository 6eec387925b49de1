/-
# FleetSearch.Proofs.Tier -- tiers by number and by numeral

A tier is known by its number (`ofNat?_eq_some`), and it is read from the numerals of its number and
from nothing else (`reads_exact_numerals`). A numeral may be of any length: it is read in bytes, but
without any loss for the numbers that a byte holds, and these include those of all tiers
(`ofDigits?_eq_some`).
-/

import FleetSearch.Tier
import FleetSearch.Proofs.Text.Decimal
import Mathlib.Data.List.Nodup

namespace FleetSearch

/-! ## Tiers by number -/

namespace Tier

theorem ofNat?_eq_some {n : Nat} {t : Tier} : ofNat? n = some t ↔ t.value = n := by
  unfold ofNat?
  constructor
  · intro h
    split at h
    · cases h
      rfl
    · cases h
  · rintro rfl
    rw [dif_pos ⟨t.min_le, t.le_max⟩]

theorem mem_between {first last : Nat} {t : Tier} :
    t ∈ between first last ↔ first ≤ t.value ∧ t.value ≤ last := by
  simp only [between, List.mem_filterMap, ofNat?_eq_some, List.mem_range'_1]
  constructor
  · rintro ⟨n, hn, rfl⟩
    omega
  · rintro ⟨hfirst, hlast⟩
    exact ⟨t.value, by omega, rfl⟩

theorem between_nodup (first last : Nat) : (between first last).Nodup := by
  refine List.Nodup.filterMap ?_ List.nodup_range'
  intro m n t hm hn
  -- A tier remembers its number, so two numbers do not become the same tier.
  rw [Option.mem_def, ofNat?_eq_some] at hm hn
  rw [← hm, hn]

/-- What holds from the lowest tier to the highest holds of every tier. -/
theorem forall_tier {P : Tier → Prop} (h : ∀ t ∈ between minTier maxTier, P t) (t : Tier) : P t :=
  h t (mem_between.2 ⟨t.min_le, t.le_max⟩)

/-- The tiers between two tiers have all the numbers between theirs. -/
theorem between_values {first last : Nat} (hfirst : minTier ≤ first) (hlast : last ≤ maxTier) :
    (between first last).map value = List.range' first (last + 1 - first) := by
  have hall : ∀ n ∈ List.range' first (last + 1 - first), (ofNat? n).map value = some n := by
    intro n hn
    rw [List.mem_range'_1] at hn
    unfold ofNat?
    rw [dif_pos (by omega)]
    rfl
  rw [between, List.map_filterMap, List.filterMap_congr hall, List.filterMap_some]

/-! ## Tiers by numeral -/

/-- A byte holds the number of every tier. -/
theorem toNat_ofNat_value (t : Tier) : (UInt8.ofNat t.value).toNat = t.value :=
  UInt8.toNat_ofNat_of_lt' (t.le_max.trans_lt (by decide))

theorem ofDigits?_eq_some {s : List Char} {t : Tier} :
    ofDigits? s = some t ↔ Text.unsigned? s = some t.value := by
  rw [ofDigits?, Option.bind_eq_some_iff]
  constructor
  · rintro ⟨m, hm, ht⟩
    rw [Text.byte?_eq_some] at hm
    rw [hm, ofNat?_eq_some.1 ht]
  · intro h
    refine ⟨UInt8.ofNat t.value, ?_, ?_⟩
    · rw [Text.byte?_eq_some, toNat_ofNat_value, h]
    · rw [toNat_ofNat_value, ofNat?_eq_some]

/-- A numeral is read as the tier of its number. -/
theorem ofDigits?_of_decimal? {s : List Char} {n : Nat} (h : Text.decimal? s = some n) :
    ofDigits? s = ofNat? n := by
  apply Option.ext
  intro t
  rw [ofDigits?_eq_some, Text.unsigned?_of_decimal? h, ofNat?_eq_some, Option.some.injEq, eq_comm]

/-- **A tier is read exactly if a numeral of its number is given**, however long, with or without a
plus and leading zeros. So any text is read exactly if it is a numeral of one of the numbers 1 to
11, and no greater number wraps around to one of them. -/
theorem reads_exact_numerals (s : List Char) :
    (∀ t : Tier, ofDigits? s = some t ↔ Text.IsNumeral s t.value) ∧
      ((ofDigits? s).isSome = true ↔ ∃ n, Text.IsNumeral s n ∧ 1 ≤ n ∧ n ≤ 11) ∧
      ∀ n, Text.IsNumeral s n → 256 ≤ n → ofDigits? s = none := by
  have hread : ∀ t : Tier, ofDigits? s = some t ↔ Text.IsNumeral s t.value := fun t =>
    ofDigits?_eq_some.trans Text.unsigned?_eq_some
  refine ⟨hread, ?_, ?_⟩
  · rw [Option.isSome_iff_exists]
    constructor
    · rintro ⟨t, ht⟩
      exact ⟨t.value, (hread t).1 ht, t.min_le, t.le_max⟩
    · rintro ⟨n, hn, hmin, hmax⟩
      exact ⟨⟨n, hmin, hmax⟩, (hread _).2 hn⟩
  · intro n hn hlarge
    rw [Option.eq_none_iff_forall_ne_some]
    intro t ht
    -- A text is a numeral of one number only.
    have hvalue : n = t.value := Option.some.inj
      ((Text.unsigned?_eq_some.2 hn).symm.trans (ofDigits?_eq_some.1 ht))
    have hmax : t.value ≤ 11 := t.le_max
    omega

/-- A plus and leading zeros, and a number that is 8 but for a multiple of 256. -/
theorem reads_exact_numerals_eight :
    ofDigits? "+0008".toList = some ⟨8, by decide, by decide⟩ ∧ 256 ≤ 264 ∧
      ofDigits? "264".toList = none := by
  have height : Text.IsNumeral "+0008".toList 8 :=
    ⟨['+'], "0008".toList, rfl, .inr rfl, by decide, List.all_eq_true.1 (by decide), by decide⟩
  have hlarge : Text.IsNumeral "264".toList 264 :=
    ⟨[], "264".toList, rfl, .inl rfl, by decide, List.all_eq_true.1 (by decide), by decide⟩
  exact ⟨((reads_exact_numerals _).1 _).2 height, by decide,
    (reads_exact_numerals _).2.2 264 hlarge (by decide)⟩

end Tier

end FleetSearch
