/-
# FleetSearch.Proofs.Text.Decimal -- decimal numerals and their values

A row of digits has the value of positional notation (`decimalAfter_eq`), so a numeral is known by
its spelling (`unsigned?_eq_some`). The numeral that is written for a number is read as that number
again (`decimal?_numeral`).

**Nothing wraps around in bytes.** A row of digits never stands for less than a number that it
continues (`le_decimalAfter`). If the number at the end fits a byte, then so do all on the way, and
reading in bytes gives the exact value or nothing (`byte?_eq_some`).
-/

import FleetSearch.Text.Decimal
import Mathlib.Data.Nat.Digits.Defs

namespace FleetSearch.Text

/-! ## Values -/

/-- A numeral consists of digits, at least one, and stands for their value. -/
theorem decimal?_eq_some {s : List Char} {n : Nat} : decimal? s = some n ↔
    s ≠ [] ∧ (∀ c ∈ s, c.isDigit = true) ∧ decimalAfter 0 s = n := by
  unfold decimal?
  split
  · next h =>
    rw [Bool.and_eq_true, Bool.not_eq_true', List.isEmpty_eq_false_iff, List.all_eq_true] at h
    simp only [Option.some.injEq]
    exact ⟨fun hn => ⟨h.1, h.2, hn⟩, fun hn => hn.2.2⟩
  · next h =>
    simp only [reduceCtorEq, false_iff]
    rintro ⟨hne, hall, -⟩
    apply h
    rw [Bool.and_eq_true, Bool.not_eq_true', List.isEmpty_eq_false_iff, List.all_eq_true]
    exact ⟨hne, hall⟩

/-- A numeral needs no sign. -/
theorem unsigned?_of_decimal? {s : List Char} {n : Nat} (h : decimal? s = some n) :
    unsigned? s = some n := by
  unfold unsigned?
  split
  · next s =>
    -- A plus is no digit, so no numeral begins with it.
    have hplus := (decimal?_eq_some.1 h).2.1 '+' (by simp)
    exact absurd hplus (by decide)
  · exact h

theorem decimalAfter_nil (n : Nat) : decimalAfter n [] = n := by
  rw [decimalAfter.eq_def]

theorem decimalAfter_cons (n : Nat) (c : Char) (s : List Char) :
    decimalAfter n (c :: s) = decimalAfter (10 * n + digitValue c) s := by
  rw [decimalAfter.eq_def]

/-- A number grows tenfold with each digit that continues it. -/
theorem le_decimalAfter (n : Nat) (s : List Char) : n * 10 ^ s.length ≤ decimalAfter n s := by
  induction s generalizing n with
  | nil =>
    apply Nat.le_of_eq
    rw [decimalAfter_nil, List.length_nil, Nat.pow_zero, Nat.mul_one]
  | cons c s ih =>
    calc n * 10 ^ (c :: s).length
        = 10 * n * 10 ^ s.length := by
          rw [List.length_cons, Nat.pow_succ, Nat.mul_comm 10 n, Nat.mul_assoc, Nat.mul_comm 10]
      _ ≤ (10 * n + digitValue c) * 10 ^ s.length := Nat.mul_le_mul_right _ (Nat.le_add_right _ _)
      _ ≤ decimalAfter (10 * n + digitValue c) s := ih _
      _ = decimalAfter n (c :: s) := (decimalAfter_cons n c s).symm

theorem le_decimalAfter_self (n : Nat) (s : List Char) : n ≤ decimalAfter n s :=
  Nat.le_trans (Nat.le_mul_of_pos_right n (Nat.pow_pos (by decide))) (le_decimalAfter n s)

/-! ## Numerals by their spelling -/

/-- A row of digits moves the number that it continues to the left and adds its own value. -/
theorem decimalAfter_eq (n : Nat) (s : List Char) :
    decimalAfter n s = n * 10 ^ s.length + Nat.ofDigits 10 (s.reverse.map digitValue) := by
  induction s generalizing n with
  | nil => rw [decimalAfter_nil]; simp
  | cons c s ih =>
    rw [decimalAfter_cons, ih, List.reverse_cons, List.map_append, Nat.ofDigits_append,
      List.length_map, List.length_reverse, List.map_singleton, Nat.ofDigits_singleton,
      List.length_cons, Nat.pow_succ]
    ring

/-- A numeral by its spelling: digits, at least one, perhaps behind a plus, and the number that the
digits stand for. -/
def IsNumeral (s : List Char) (n : Nat) : Prop :=
  ∃ sign digits, s = sign ++ digits ∧ (sign = [] ∨ sign = ['+']) ∧ digits ≠ [] ∧
    (∀ c ∈ digits, c.isDigit = true) ∧ Nat.ofDigits 10 (digits.reverse.map digitValue) = n

theorem unsigned?_eq_some {s : List Char} {n : Nat} : unsigned? s = some n ↔ IsNumeral s n := by
  have hplain : ∀ {ds : List Char}, decimal? ds = some n ↔ ds ≠ [] ∧
      (∀ c ∈ ds, c.isDigit = true) ∧ Nat.ofDigits 10 (ds.reverse.map digitValue) = n := by
    intro ds
    rw [decimal?_eq_some, decimalAfter_eq, Nat.zero_mul, Nat.zero_add]
  constructor
  · unfold unsigned?
    split
    · intro h
      exact ⟨['+'], _, rfl, .inr rfl, hplain.1 h⟩
    · intro h
      exact ⟨[], s, rfl, .inl rfl, hplain.1 h⟩
  · rintro ⟨sign, digits, rfl, rfl | rfl, hdigits⟩
    · exact unsigned?_of_decimal? (hplain.2 hdigits)
    · exact hplain.2 hdigits

/-! ## Numerals that are written -/

theorem decimalAfter_eq_ofDigitChars (n : Nat) (s : List Char) :
    decimalAfter n s = Nat.ofDigitChars 10 s n := by
  induction s generalizing n with
  | nil => rfl
  | cons c s ih =>
    rw [decimalAfter_cons, ih, Nat.ofDigitChars_cons]
    rfl

/-- The digits of a number stand for the number. -/
theorem decimalAfter_toDigits (n : Nat) : decimalAfter 0 (Nat.toDigits 10 n) = n := by
  rw [decimalAfter_eq_ofDigitChars, Nat.ofDigitChars_ten_toDigits]

theorem isDigit_of_mem_numeral {n : Nat} {c : Char} (hc : c ∈ (numeral n).toList) :
    c.isDigit = true := by
  rw [numeral, Nat.toList_repr] at hc
  exact Nat.isDigit_of_mem_toDigits (by decide) (by decide) hc

/-- A number is read back from its numeral. -/
theorem decimal?_numeral (n : Nat) : decimal? (numeral n).toList = some n := by
  rw [decimal?_eq_some]
  refine ⟨?_, fun c hc => isDigit_of_mem_numeral hc, ?_⟩
  · rw [numeral, Nat.toList_repr]
    exact Nat.toDigits_ne_nil
  · rw [numeral, Nat.toList_repr, decimalAfter_toDigits]

theorem numeral_injective {m n : Nat} (h : numeral m = numeral n) : m = n := by
  have hm := decimal?_numeral m
  rw [h, decimal?_numeral] at hm
  exact (Option.some.inj hm).symm

/-! ## Numerals in bytes -/

/-- A digit is taken exactly if a byte holds the number with it. -/
theorem pushDigit?_eq_some {n m : UInt8} {c : Char} :
    pushDigit? n c = some m ↔ 10 * n.toNat + digitValue c = m.toNat := by
  unfold pushDigit?
  split
  · next hfits =>
    have hvalue : (10 * n + (digitValue c).toUInt8).toNat = 10 * n.toNat + digitValue c := by
      rw [UInt8.toNat_add, UInt8.toNat_mul, Nat.toUInt8_eq, UInt8.toNat_ofNat', ← Nat.add_mod]
      exact Nat.mod_eq_of_lt hfits
    rw [Option.some.injEq, ← UInt8.toNat_inj, hvalue]
  · next hfits =>
    have hm := m.toNat_lt_size
    simp only [reduceCtorEq, false_iff]
    omega

/-- The bytes on the way are no greater than the number at the end, so only that has to fit. -/
theorem byteAfter?_eq_some {n m : UInt8} {s : List Char} : byteAfter? n s = some m ↔
    (∀ c ∈ s, c.isDigit = true) ∧ decimalAfter n.toNat s = m.toNat := by
  induction s generalizing n with
  | nil => simp [byteAfter?, decimalAfter_nil, UInt8.toNat_inj]
  | cons c s ih =>
    rw [List.forall_mem_cons, decimalAfter_cons, byteAfter?]
    split
    · next hc =>
      simp only [Option.bind_eq_some_iff, pushDigit?_eq_some, ih, hc, true_and]
      constructor
      · rintro ⟨k, hk, hdigits, hvalue⟩
        exact ⟨hdigits, hk ▸ hvalue⟩
      · rintro ⟨hdigits, hvalue⟩
        have hle : 10 * n.toNat + digitValue c ≤ m.toNat := hvalue ▸ le_decimalAfter_self _ s
        have hbyte : (UInt8.ofNat (10 * n.toNat + digitValue c)).toNat =
            10 * n.toNat + digitValue c :=
          UInt8.toNat_ofNat_of_lt' (hle.trans_lt m.toNat_lt_size)
        exact ⟨_, hbyte.symm, hdigits, by rw [hbyte, hvalue]⟩
    · next hc => simp [hc]

theorem plainByte?_eq_some {s : List Char} {m : UInt8} :
    plainByte? s = some m ↔ decimal? s = some m.toNat := by
  rw [decimal?_eq_some, plainByte?]
  split
  · next hempty => simp [List.isEmpty_iff.1 hempty]
  · next hempty =>
    have hne : s ≠ [] := fun h => hempty (List.isEmpty_iff.2 h)
    rw [byteAfter?_eq_some, UInt8.toNat_zero]
    exact (and_iff_right hne).symm

/-- Reading in bytes gives the exact value whenever a byte holds it, and nothing otherwise. -/
theorem byte?_eq_some {s : List Char} {m : UInt8} :
    byte? s = some m ↔ unsigned? s = some m.toNat := by
  unfold byte? unsigned?
  split
  · exact plainByte?_eq_some
  · exact plainByte?_eq_some

end FleetSearch.Text
