/-
# FleetSearch.Tier -- the tiers of the progression

Ships stand on tiers 1 to 11; tier 11 is that of the superships. A tier's label is its number in
decimal digits.
-/

import FleetSearch.Text.Decimal

namespace FleetSearch

/-- The lowest tier. -/
def minTier : Nat := 1

/-- The highest tier, which only superships reach. -/
def maxTier : Nat := 11

/-- A tier of the progression. -/
structure Tier where
  value : Nat
  min_le : minTier ≤ value := by decide
  le_max : value ≤ maxTier := by decide
  deriving DecidableEq

namespace Tier

/-- The tier with this number, if there is one. -/
def ofNat? (n : Nat) : Option Tier :=
  if h : minTier ≤ n ∧ n ≤ maxTier then some ⟨n, h.1, h.2⟩ else none

/-- The tier that a numeral stands for. -/
def ofDigits? (s : List Char) : Option Tier := (Text.byte? s).bind fun n => ofNat? n.toNat

/-- The tiers with the numbers from `first` up to `last`. -/
def between (first last : Nat) : List Tier :=
  (List.range' first (last + 1 - first)).filterMap ofNat?

/-- The tiers from one to another, both included; none if the ends are reversed. -/
def span (start stop : Tier) : List Tier := between start.value stop.value

/-- The number in decimal digits. -/
def label (t : Tier) : String := Text.numeral t.value

end Tier

end FleetSearch
