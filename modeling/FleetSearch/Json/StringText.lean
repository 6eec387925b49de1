/-
# FleetSearch.Json.StringText -- the characters of a JSON string

Between its quotes a JSON string holds characters as they are, escapes of one letter, and escapes
of four hexadecimal digits. Two of the latter make one character if the first is a leading and
the second a trailing surrogate; a surrogate by itself is refused. Control characters have to be
escaped.
-/

import FleetSearch.Json.Reader

namespace FleetSearch.Json

/-! ## Escapes -/

/-- The character that a letter stands for after a backslash. -/
def escaped? (c : Char) : Option Char :=
  if c = '"' || c = '\\' || c = '/' then some c
  else if c = 'b' then some '\x08'
  else if c = 'f' then some '\x0c'
  else if c = 'n' then some '\n'
  else if c = 'r' then some '\r'
  else if c = 't' then some '\t'
  else none

/-- The value of a hexadecimal digit. -/
def hexDigit? (c : Char) : Option Nat :=
  if '0' ≤ c && c ≤ '9' then some (c.toNat - '0'.toNat)
  else if 'a' ≤ c && c ≤ 'f' then some (c.toNat - 'a'.toNat + 10)
  else if 'A' ≤ c && c ≤ 'F' then some (c.toNat - 'A'.toNat + 10)
  else none

/-- The value of four hexadecimal digits. -/
def hexUnit? (a b c d : Char) : Option Nat := do
  let a ← hexDigit? a
  let b ← hexDigit? b
  let c ← hexDigit? c
  let d ← hexDigit? d
  some (((a * 16 + b) * 16 + c) * 16 + d)

/-- Whether the unit can only come first of two. -/
def isLeading (n : Nat) : Bool := 0xD800 ≤ n && n ≤ 0xDBFF

/-- Whether the unit can only come second of two. -/
def isTrailing (n : Nat) : Bool := 0xDC00 ≤ n && n ≤ 0xDFFF

/-- The character of a leading and a trailing surrogate. -/
def pairChar (n m : Nat) : Char := Char.ofNat ((n - 0xD800) * 0x400 + (m - 0xDC00) + 0x10000)

/-- The halt at text that does not start with four hexadecimal digits. -/
def hexHalt (s : List Char) : Halt :=
  let bytes := Text.byteSize s
  if bytes < 4 then atEnd .endInString else .placed .invalidEscape (bytes - 4)

/-- The halt at text that does not continue a leading surrogate. -/
def pairHalt : List Char → Halt
  | [] => atEnd .endInString
  | ['\\'] => atEnd .endInString
  | '\\' :: 'u' :: s => hexHalt s
  | '\\' :: s => past .unfinishedPair s
  | s => past .unfinishedPair s

/-! ## Reading and skipping -/

/-- Put a character before the text that was read. -/
def prepend (c : Char) : Reading (List Char) → Reading (List Char)
  | .ok (cs, rest) => .ok (c :: cs, rest)
  | .error halt => .error halt

/-- Read characters up to the closing quote. -/
def readChars : List Char → Reading (List Char)
  | [] => .error (atEnd .endInString)
  | c :: s =>
    if c = '"' then .ok ([], s)
    else if c = '\\' then
      match s with
      | [] => .error (atEnd .endInString)
      | e :: t =>
        match escaped? e with
        | some d => prepend d (readChars t)
        | none =>
          if e ≠ 'u' then .error (past .invalidEscape (e :: t))
          else
            match t with
            | h₁ :: h₂ :: h₃ :: h₄ :: u =>
              match hexUnit? h₁ h₂ h₃ h₄ with
              | none => .error (hexHalt t)
              | some n =>
                if isTrailing n then .error (here .loneSurrogate u)
                else if isLeading n then
                  match u with
                  | '\\' :: 'u' :: k₁ :: k₂ :: k₃ :: k₄ :: v =>
                    match hexUnit? k₁ k₂ k₃ k₄ with
                    | none => .error (pairHalt u)
                    | some m =>
                      if isTrailing m then prepend (pairChar n m) (readChars v)
                      else .error (here .loneSurrogate v)
                  | _ => .error (pairHalt u)
                else prepend (Char.ofNat n) (readChars u)
            | _ => .error (hexHalt t)
    else if c.toNat < 0x20 then .error (here .controlCharacter s)
    else prepend c (readChars s)

/-- Read the rest of a string, past its opening quote. -/
def readString (s : List Char) : Reading String :=
  match readChars s with
  | .ok (cs, rest) => .ok (String.ofList cs, rest)
  | .error halt => .error halt

/-- Skip the rest of a string that nobody asked for: escapes have to be complete, but surrogates
need not pair up. -/
def skipString : List Char → Except Halt (List Char)
  | [] => .error (atEnd .endInString)
  | c :: s =>
    if c = '"' then .ok s
    else if c = '\\' then
      match s with
      | [] => .error (atEnd .endInString)
      | e :: t =>
        if (escaped? e).isSome then skipString t
        else if e ≠ 'u' then .error (past .invalidEscape (e :: t))
        else
          match t with
          | h₁ :: h₂ :: h₃ :: h₄ :: u =>
            if (hexUnit? h₁ h₂ h₃ h₄).isSome then skipString u else .error (hexHalt t)
          | _ => .error (hexHalt t)
    else if c.toNat < 0x20 then .error (here .controlCharacter (c :: s))
    else skipString s

end FleetSearch.Json
