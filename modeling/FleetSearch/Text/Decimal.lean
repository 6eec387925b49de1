/-
# FleetSearch.Text.Decimal -- decimal numerals

A numeral is one or more ASCII digits and may have leading zeros; its value is exact however long
it is. Where a sign is allowed it is a single plus. A numeral for a byte is read in bytes: each digit
is checked before it is taken, so nothing wraps around.
-/

namespace FleetSearch.Text

/-- The value of a digit. -/
def digitValue (c : Char) : Nat := c.toNat - '0'.toNat

/-- The value of a row of digits that continues the number `n`. -/
def decimalAfter (n : Nat) : List Char → Nat
  | [] => n
  | c :: s => decimalAfter (10 * n + digitValue c) s

/-- The value of a numeral. -/
def decimal? (s : List Char) : Option Nat :=
  if !s.isEmpty && s.all Char.isDigit then some (decimalAfter 0 s) else none

/-- The value of a numeral that may start with a plus. -/
def unsigned? : List Char → Option Nat
  | '+' :: s => decimal? s
  | s => decimal? s

/-- The byte with a digit behind its last one, if a byte still holds it. -/
def pushDigit? (n : UInt8) (c : Char) : Option UInt8 :=
  if 10 * n.toNat + digitValue c < UInt8.size then some (10 * n + (digitValue c).toUInt8) else none

/-- The value of a row of digits that continues the byte `n`, if no digit leads beyond a byte. -/
def byteAfter? (n : UInt8) : List Char → Option UInt8
  | [] => some n
  | c :: s => if c.isDigit then (pushDigit? n c).bind fun m => byteAfter? m s else none

/-- The value of a numeral, if a byte holds it. -/
def plainByte? (s : List Char) : Option UInt8 := if s.isEmpty then none else byteAfter? 0 s

/-- The value of a numeral that may start with a plus, if a byte holds it. -/
def byte? : List Char → Option UInt8
  | '+' :: s => plainByte? s
  | s => plainByte? s

/-- The numeral of a number, without leading zeros. -/
def numeral (n : Nat) : String := n.repr

end FleetSearch.Text
