/-
# FleetSearch.Proofs.Json.Numeral -- reading the numbers that are written

A natural number is written in decimal digits, and only zero starts with a zero. As long as the
number fits in 64 bits, reading takes all its digits and none of the text after it
(`readNumber_written`), so the number is read back, also where a smaller limit is set
(`readsBack_nat`).
-/

import FleetSearch.Proofs.Json.ReadBack
import FleetSearch.Proofs.Text.Decimal

namespace FleetSearch

/-! ## Digits -/

namespace Text

/-- Only zero starts with a zero. -/
theorem head?_toDigits_ne_zero {n : Nat} (hn : n ≠ 0) :
    (Nat.toDigits 10 n).head? ≠ some '0' := by
  have hdigit : ∀ d < 10, d ≠ 0 → Nat.digitChar d ≠ '0' := by decide
  induction n using Nat.strongRecOn with
  | ind n ih =>
    rw [Nat.toDigits_eq_if (by decide)]
    split
    · next hlt =>
      intro h
      exact hdigit n hlt hn (Option.some.inj h)
    · next hge =>
      rw [List.head?_append_of_ne_nil _ Nat.toDigits_ne_nil]
      exact ih (n / 10) (by omega) (by omega)

end Text

namespace Json

open Text

/-! ## Numerals -/

theorem EndsValue.startsDigit {rest : List Char} (h : EndsValue rest) :
    startsDigit rest = false := by
  rcases h with rfl | ⟨t, rfl⟩ | ⟨t, rfl⟩
  · rfl
  · rfl
  · rfl

/-- Digits are taken into a number as long as their value stays below the limit. -/
theorem takeDigits_append {limit n : Nat} {s rest : List Char} (hs : ∀ c ∈ s, c.isDigit = true)
    (hlimit : decimalAfter n s < limit) (hrest : startsDigit rest = false) :
    takeDigits limit n (s ++ rest) = (decimalAfter n s, rest) := by
  induction s generalizing n with
  | nil =>
    cases rest with
    | nil => rfl
    | cons c t =>
      have hc : c.isDigit = false := hrest
      rw [List.nil_append, takeDigits, hc]
      rfl
  | cons c s ih =>
    rw [List.forall_mem_cons] at hs
    rw [decimalAfter_cons] at hlimit ⊢
    have hfits : 10 * n + digitValue c < limit :=
      Nat.lt_of_le_of_lt (le_decimalAfter_self _ s) hlimit
    rw [List.cons_append, takeDigits, hs.1, decide_eq_true hfits, Bool.and_self, if_pos rfl]
    exact ih hs.2 hlimit

theorem readTail_of_endsValue {rest : List Char} (h : EndsValue rest) (n : Nat) :
    readTail false n rest = .ok (.natural n, rest) := by
  rcases h with rfl | ⟨t, rfl⟩ | ⟨t, rfl⟩
  · rfl
  · rfl
  · rfl

/-- **A natural number is read back** from its digits if it fits in 64 bits and nothing behind it
goes on with a number. -/
theorem readNumber_digits {n : Nat} (hn : n < wordLimit) {rest : List Char}
    (hrest : Json.startsDigit rest = false)
    (htail : readTail false n rest = .ok (.natural n, rest)) :
    readNumber false (Nat.toDigits 10 n ++ rest) = .ok (.natural n, rest) := by
  have hdigits : ∀ c ∈ Nat.toDigits 10 n, c.isDigit = true :=
    fun c hc => Nat.isDigit_of_mem_toDigits (by decide) (by decide) hc
  have hvalue := decimalAfter_toDigits n
  rcases Nat.eq_zero_or_pos n with rfl | hpos
  · show readNumber false ('0' :: rest) = _
    rw [readNumber, hrest]
    exact htail
  · have hhead := head?_toDigits_ne_zero (Nat.ne_of_gt hpos)
    cases hwritten : Nat.toDigits 10 n with
    | nil => exact absurd hwritten Nat.toDigits_ne_nil
    | cons c s =>
      rw [hwritten] at hdigits hvalue hhead
      rw [List.forall_mem_cons] at hdigits
      rw [decimalAfter_cons, Nat.mul_zero, Nat.zero_add] at hvalue
      have hzero : c ≠ '0' := fun h => hhead (congrArg some h)
      have htaken : takeDigits wordLimit (digitValue c) (s ++ rest) = (n, rest) := by
        rw [takeDigits_append hdigits.2 (by rwa [hvalue]) hrest, hvalue]
      rw [List.cons_append, readNumber, hdigits.1]
      · simp only [htaken, hrest]
        exact htail
      · exact hzero

theorem readNumber_written {n : Nat} (hn : n < wordLimit) {rest : List Char}
    (hrest : EndsValue rest) :
    readNumber false (Nat.toDigits 10 n ++ rest) = .ok (.natural n, rest) :=
  readNumber_digits hn hrest.startsDigit (readTail_of_endsValue hrest n)

/-- A natural number starts with a digit. -/
theorem natural_print (n depth : Nat) :
    ∃ c s, (Tree.natural n).print depth = c :: s ∧ c.isDigit = true := by
  show ∃ c s, Nat.toDigits 10 n = c :: s ∧ c.isDigit = true
  cases hwritten : Nat.toDigits 10 n with
  | nil => exact absurd hwritten Nat.toDigits_ne_nil
  | cons c s =>
    refine ⟨c, s, rfl, Nat.isDigit_of_mem_toDigits (b := 10) (n := n) (by decide) (by decide) ?_⟩
    rw [hwritten]
    exact List.mem_cons_self

theorem ne_of_isDigit {c d : Char} (hc : c.isDigit = true) (hd : d.isDigit = false) : c ≠ d := by
  rintro rfl
  rw [hc] at hd
  cases hd

theorem natural_starts (n depth : Nat) :
    ∃ c s, (Tree.natural n).print depth = c :: s ∧ isSpace c = false ∧ c ≠ ']' := by
  obtain ⟨c, s, hprint, hc⟩ := natural_print n depth
  refine ⟨c, s, hprint, ?_, ne_of_isDigit hc (by decide)⟩
  unfold isSpace
  simp only [Bool.or_eq_false_iff, beq_eq_false_iff_ne]
  exact ⟨⟨⟨ne_of_isDigit hc (by decide), ne_of_isDigit hc (by decide)⟩,
    ne_of_isDigit hc (by decide)⟩, ne_of_isDigit hc (by decide)⟩

/-- Behind blanks the digits of a natural number are found and read. -/
theorem readNumber_behind {n depth : Nat} (hn : n < wordLimit) {s rest : List Char}
    (hrest : EndsValue rest) (hs : skipSpace s = (Tree.natural n).print depth ++ rest) :
    ∃ c t, skipSpace s = c :: t ∧ c.isDigit = true ∧
      readNumber false (c :: t) = .ok (.natural n, rest) := by
  have hread : readNumber false (skipSpace s) = .ok (.natural n, rest) := by
    rw [hs]
    exact readNumber_written hn hrest
  obtain ⟨c, t, hprint, hc⟩ := natural_print n depth
  rw [hprint, List.cons_append] at hs
  rw [hs] at hread
  exact ⟨c, t ++ rest, hs, hc, hread⟩

/-- A natural number below the limit is read back, if the limit is at most 2 ^ 64. -/
theorem readsBack_nat (expected : String) {limit n : Nat} (hn : n < limit)
    (hlimit : limit ≤ wordLimit) : ReadsBack (readNat expected limit) (.natural n) n where
  starts := natural_starts n
  reads depth s rest hrest hs := by
    obtain ⟨c, t, hskip, hc, hread⟩ := readNumber_behind (Nat.lt_of_lt_of_le hn hlimit) hrest hs
    have hminus := ne_of_isDigit hc (by decide : '-'.isDigit = false)
    have hstarts : startsDigit (c :: t) = true := hc
    unfold readNat
    simp [hskip, hminus, hstarts, hread, boundedNat, hn]

/-- A truth value is read back. -/
theorem readsBack_bool (b : Bool) : ReadsBack readBool (.boolean b) b where
  starts depth := by
    cases b with
    | false => exact ⟨'f', _, by rw [Tree.print_boolean]; rfl, by decide, by decide⟩
    | true => exact ⟨'t', _, by rw [Tree.print_boolean]; rfl, by decide, by decide⟩
  reads depth s rest _ hs := by
    unfold readBool
    rw [hs, Tree.print_boolean]
    cases b with
    | false => rfl
    | true => rfl

end Json

end FleetSearch
