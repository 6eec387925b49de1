/-
# FleetSearch.Json.Number -- the numbers of a JSON text

A number without fraction and exponent is an integer as long as it fits in 64 bits, unsigned or
negative signed. Every other number, minus zero among them, is a double precision number.
-/

import FleetSearch.Number.Shortest

namespace FleetSearch.Json

/-- A number of a JSON text. -/
inductive Number where
  /-- A natural number below 2 ^ 64. -/
  | natural (n : Nat)
  /-- The negative of a number from 1 up to 2 ^ 63. -/
  | negative (n : Nat)
  /-- A double precision number by its sign and magnitude. -/
  | floating (isNegative : Bool) (magnitude : Binary64)
  deriving DecidableEq

namespace Number

/-- The number in decimal digits. -/
def text : Number → List Char
  | .natural n => Nat.toDigits 10 n
  | .negative n => '-' :: Nat.toDigits 10 n
  | .floating isNegative magnitude => (if isNegative then ['-'] else []) ++ magnitude.text

/-- The number that a minus sign and a row of digits below 2 ^ 64 stand for. -/
def ofNegated (n : Nat) : Number :=
  if n = 0 || Nat.pow 2 63 < n then .floating true (.ofNat n) else .negative n

end Number

end FleetSearch.Json
