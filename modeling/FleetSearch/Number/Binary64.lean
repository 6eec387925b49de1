/-
# FleetSearch.Number.Binary64 -- exact arithmetic on double precision numbers

A finite double precision number is a whole multiple of the smallest positive one, 2 ^ -1074,
so its magnitude is kept as a natural number of such units. Products and quotients are computed
exactly and then rounded to 53 significant bits, a tie going to the even neighbour.
-/

namespace FleetSearch

/-- The magnitude of a double precision number, in units of 2 ^ -1074. -/
structure Binary64 where
  units : Nat
  deriving DecidableEq

namespace Binary64

/-- The number of units in one. -/
def one : Nat := Nat.pow 2 1074

/-- The first magnitude, in units, that is too large for a finite number. -/
def limit : Nat := one * Nat.pow 2 1024

/-- The quotient rounded to a whole number, a tie going to the even neighbour. -/
def nearest (num den : Nat) : Nat :=
  let quotient := num / den
  let remainder := num % den
  if 2 * remainder < den || (2 * remainder == den && quotient % 2 == 0) then quotient
  else quotient + 1

/-- The spacing, in units, of the numbers around a magnitude of `n` units. -/
def spacing (n : Nat) : Nat := Nat.pow 2 (n.log2 - 52)

/-- The number nearest to `num / den` units. -/
def ofRatio (num den : Nat) : Binary64 :=
  let gap := spacing (num / den)
  ⟨nearest num (den * gap) * gap⟩

/-- The number nearest to a natural number. -/
def ofNat (n : Nat) : Binary64 := ofRatio (n * one) 1

/-- The product, rounded. -/
def mul (a b : Binary64) : Binary64 := ofRatio (a.units * b.units) one

/-- The quotient, rounded. -/
def div (a b : Binary64) : Binary64 := ofRatio (a.units * one) b.units

/-- The power of ten, rounded. -/
def tenTo (n : Nat) : Binary64 := ofNat (Nat.pow 10 n)

/-- The largest exponent of a power of ten that is a finite number. -/
def maxTen : Nat := 308

/-- The number for `significand * 10 ^ exponent`: the significand is rounded, and then multiplied
or divided by a rounded power of ten, the largest there is as often as needed. None if the
result is not finite. A significand below 2 ^ 64 vanishes after two divisions by the largest
power. -/
def ofDecimal? (significand : Nat) (exponent : Int) : Option Binary64 :=
  let start := ofNat significand
  let shift := exponent.natAbs
  if 0 ≤ exponent then
    if shift ≤ maxTen then
      let product := start.mul (tenTo shift)
      if product.units < limit then some product else none
    else if significand = 0 then some ⟨0⟩
    else none
  else if shift ≤ maxTen then some (start.div (tenTo shift))
  else if shift ≤ 2 * maxTen then
    some ((start.div (tenTo maxTen)).div (tenTo (shift - maxTen)))
  else some ⟨0⟩

end Binary64

end FleetSearch
