/-
# FleetSearch.Json.Numeral -- the numerals of a JSON text

A numeral is a whole part without needless zeros, and may go on with a fraction and an exponent.
Its significand takes digits as long as it stays below 2 ^ 64. Digits after that do not change
the significand: in the whole part each adds one to the exponent, in the fraction they are
passed over.
-/

import FleetSearch.Json.Reader
import FleetSearch.Text.Decimal

namespace FleetSearch.Json

open Text (digitValue)

/-- Whether a digit comes next. -/
def startsDigit (s : List Char) : Bool := s.head?.any Char.isDigit

/-- Take digits into a number as long as it stays below the limit. -/
def takeDigits (limit : Nat) (n : Nat) : List Char → Nat × List Char
  | [] => (n, [])
  | c :: s =>
    if c.isDigit && 10 * n + digitValue c < limit then
      takeDigits limit (10 * n + digitValue c) s
    else (n, c :: s)

/-- The text without the digits at its start. -/
def skipDigits (s : List Char) : List Char := s.dropWhile Char.isDigit

/-- The numbers that fit in 64 bits are below this limit. -/
def wordLimit : Nat := UInt64.size

/-- Exponents from this limit on are not computed. -/
def exponentLimit : Nat := Nat.pow 2 31

/-! ## Reading -/

/-- The double precision number of a significand and an exponent, before the text `s`. -/
def scaled (isNegative : Bool) (n : Nat) (exponent : Int) (s : List Char) : Reading Number :=
  match Binary64.ofDecimal? n exponent with
  | some magnitude => .ok (.floating isNegative magnitude, s)
  | none => .error (here .numberOutOfRange s)

/-- The sign of an exponent and the text after it. -/
def exponentSign : List Char → Bool × List Char
  | '+' :: s => (false, s)
  | '-' :: s => (true, s)
  | s => (false, s)

/-- Read an exponent past its letter, for a significand with a given exponent of its own. -/
def readExponent (isNegative : Bool) (n : Nat) (exponent : Int) (s : List Char) :
    Reading Number :=
  let (isDown, s) := exponentSign s
  match s with
  | [] => .error (atEnd .endInValue)
  | c :: t =>
    if !c.isDigit then .error (past .invalidNumber (c :: t))
    else
      let (e, rest) := takeDigits exponentLimit (digitValue c) t
      if startsDigit rest then
        if n ≠ 0 && !isDown then .error (past .numberOutOfRange rest)
        else .ok (.floating isNegative ⟨0⟩, skipDigits rest)
      else scaled isNegative n (if isDown then exponent - e else exponent + e) rest

/-- Read an exponent if there is one. -/
def readScale (isNegative : Bool) (n : Nat) (exponent : Int) : Reader Number
  | 'e' :: s => readExponent isNegative n exponent s
  | 'E' :: s => readExponent isNegative n exponent s
  | s => scaled isNegative n exponent s

/-- Read a fraction past its point, for a whole part with a given exponent. -/
def readFraction (isNegative : Bool) (n : Nat) (exponent : Int) (s : List Char) :
    Reading Number :=
  let (m, rest) := takeDigits wordLimit n s
  let taken := s.length - rest.length
  if startsDigit s then readScale isNegative m (exponent - taken) (skipDigits rest)
  else if s.isEmpty then .error (atEnd .endInValue)
  else .error (past .invalidNumber s)

/-- Read what follows a whole part that fits in 64 bits. -/
def readTail (isNegative : Bool) (n : Nat) : Reader Number
  | '.' :: s => readFraction isNegative n 0 s
  | 'e' :: s => readExponent isNegative n 0 s
  | 'E' :: s => readExponent isNegative n 0 s
  | s => .ok (if isNegative then .ofNegated n else .natural n, s)

/-- Read what follows the digits of a whole part that does not fit. -/
def readLongTail (isNegative : Bool) (n : Nat) (exponent : Int) : Reader Number
  | '.' :: s => readFraction isNegative n exponent s
  | s => readScale isNegative n exponent s

/-- Read a number past its sign. -/
def readNumber (isNegative : Bool) : Reader Number
  | [] => .error (atEnd .endInValue)
  | '0' :: s =>
    if startsDigit s then .error (past .invalidNumber s) else readTail isNegative 0 s
  | c :: s =>
    if !c.isDigit then .error (past .invalidNumber (c :: s))
    else
      let (n, rest) := takeDigits wordLimit (digitValue c) s
      if startsDigit rest then
        let after := skipDigits rest
        readLongTail isNegative n (rest.length - after.length) after
      else readTail isNegative n rest

/-! ## Skipping -/

/-- Skip an exponent past its letter. -/
def skipExponent (s : List Char) : Except Halt (List Char) :=
  let (_, s) := exponentSign s
  if startsDigit s then .ok (skipDigits s) else .error (past .invalidNumber s)

/-- Skip an exponent if there is one. -/
def skipScale : List Char → Except Halt (List Char)
  | 'e' :: s => skipExponent s
  | 'E' :: s => skipExponent s
  | s => .ok s

/-- Skip a fraction and an exponent if there are any. -/
def skipTail : List Char → Except Halt (List Char)
  | '.' :: s => if startsDigit s then skipScale (skipDigits s) else .error (past .invalidNumber s)
  | s => skipScale s

/-- Skip a number that nobody asked for, past its sign; its size does not matter. -/
def skipNumber : List Char → Except Halt (List Char)
  | '0' :: s => if startsDigit s then .error (past .invalidNumber s) else skipTail s
  | s => if startsDigit s then skipTail (skipDigits s) else .error (past .invalidNumber s)

end FleetSearch.Json
