/-
# FleetSearch.Number.Shortest -- the fewest digits that read back

A double precision number is the nearest one to every real in an interval around it. The digits
shown are the fewest that name a point of that interval, and of those the nearest to the number.
For a count of digits only the two neighbours of the number on that decimal grid need a look: if
any point of the grid is in the interval, one of them is.
-/

import FleetSearch.Number.Binary64

namespace FleetSearch.Binary64

/-- A decimal `digits * 10 ^ exponent`. -/
structure Decimal where
  digits : Nat
  exponent : Int
  deriving DecidableEq

/-- Whether `10 ^ exponent` is at most the number. -/
def reachesTen (a : Binary64) (exponent : Int) : Bool :=
  one * Nat.pow 10 exponent.toNat ≤ a.units * Nat.pow 10 (-exponent).toNat

/-- The exponent of the first digit of a positive number. -/
def leading (a : Binary64) : Int :=
  (((List.range 633).map fun (i : Nat) => (308 : Int) - i).find? a.reachesTen).getD (-324)

/-- The spacing to the next number below. -/
def spacingBelow (a : Binary64) : Nat :=
  let gap := spacing a.units
  if 1 < gap && a.units == Nat.pow 2 52 * gap then gap / 2 else gap

/-- The decimal with this many digits that reads back, if there is one. -/
def decimalWith? (a : Binary64) (count : Nat) : Option Decimal :=
  let exponent := a.leading - count + 1
  let scale := Nat.pow 10 (-exponent).toNat
  let value := a.units * scale
  let grid := one * Nat.pow 10 exponent.toNat
  let low := value / grid
  let below := 2 * (value - low * grid)
  let above := 2 * ((low + 1) * grid - value)
  let isEven := a.units / spacing a.units % 2 == 0
  let inside (distance gap : Nat) : Bool :=
    distance < gap * scale || (isEven && distance == gap * scale)
  let lowIn := inside below a.spacingBelow
  let highIn := inside above (spacing a.units)
  let takeLow := below < above || (below == above && low % 2 == 0)
  if lowIn && (takeLow || !highIn) then some ⟨low, exponent⟩
  else if highIn then some ⟨low + 1, exponent⟩
  else none

/-- A decimal without zeros at its end; the count bounds how many are dropped. -/
def Decimal.trimZeros : Nat → Decimal → Decimal
  | 0, d => d
  | n + 1, d => if d.digits % 10 == 0 then trimZeros n ⟨d.digits / 10, d.exponent + 1⟩ else d

/-- The shortest decimal that reads back as the positive number. -/
def shortest (a : Binary64) : Decimal :=
  match ((List.range 17).map (· + 1)).findSome? a.decimalWith? with
  | some d => d.trimZeros 17
  | none => ⟨0, 0⟩

/-! ## Written form -/

/-- An exponent, always with its sign. -/
def exponentText (e : Int) : List Char :=
  (if e < 0 then '-' else '+') :: Nat.toDigits 10 e.natAbs

/-- A decimal in positional notation between 10 ^ -5 and 10 ^ 16, always with a fraction, and in
scientific notation elsewhere. -/
def Decimal.text (d : Decimal) : List Char :=
  let digits := Nat.toDigits 10 d.digits
  let point := digits.length + d.exponent
  if 0 ≤ d.exponent && point ≤ 16 then
    digits ++ List.replicate d.exponent.toNat '0' ++ ['.', '0']
  else if 0 < point && point ≤ 16 then
    digits.take point.toNat ++ '.' :: digits.drop point.toNat
  else if -5 < point && point ≤ 0 then
    '0' :: '.' :: List.replicate (-point).toNat '0' ++ digits
  else
    let fraction := digits.drop 1
    digits.take 1 ++ (if fraction.isEmpty then [] else '.' :: fraction) ++
      'e' :: exponentText (point - 1)

/-- The number in decimal digits. -/
def text (a : Binary64) : List Char :=
  if a.units = 0 then ['0', '.', '0'] else a.shortest.text

end FleetSearch.Binary64
