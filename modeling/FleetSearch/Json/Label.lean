/-
# FleetSearch.Json.Label -- values with labels

A value out of a closed list is written by its label: as a string, or as an object that has the
label as its one key and null as the value.
-/

import FleetSearch.Json.Plain

namespace FleetSearch.Json

/-- The value with this label. -/
def ofLabel {α : Type} (values : List α) (label : α → String) (text : String) :
    Except Cause α :=
  match values.find? fun a => label a == text with
  | some a => .ok a
  | none => .error (.unknownVariant text (values.map label))

/-- Read a label past its opening quote. -/
def readLabelText {α : Type} (values : List α) (label : α → String) (s : List Char) :
    Except Halt (α × List Char) := do
  let (text, rest) ← readString s
  match ofLabel values label text with
  | .ok a => .ok (a, rest)
  | .error cause => .error (here cause rest)

/-- Read a null. -/
def readNull (s : List Char) : Except Halt (Unit × List Char) :=
  match skipSpace s with
  | [] => .error (atEnd .endInValue)
  | 'n' :: t => do let rest ← readWord "ull".toList t; .ok ((), rest)
  | t => .error (wrongType "unit" t)

/-- Read the label that is the one key of an object, past the opening brace. -/
def readLabelKey {α : Type} (values : List α) (label : α → String) (s : List Char) :
    Except Halt (α × List Char) :=
  match skipSpace s with
  | [] => .error (atEnd .endInObject)
  | '"' :: t => readLabelText values label t
  | '\x7d' :: t => .error (past .expectedValue ('\x7d' :: t))
  | t => .error (past .keyNotString t)

/-- Read a value by its label. -/
def readLabel {α : Type} (values : List α) (label : α → String) (s : List Char) :
    Except Halt (α × List Char) :=
  match skipSpace s with
  | [] => .error (atEnd .endInValue)
  | '"' :: t => readLabelText values label t
  | '\x7b' :: t => do
    let (a, s) ← readLabelKey values label t
    let s ← readColon s
    let ((), s) ← readNull s
    match skipSpace s with
    | '\x7d' :: rest => .ok (a, rest)
    | [] => .error (atEnd .endInObject)
    | s => .error (here .expectedValue s)
  | t => .error (past .expectedValue t)

end FleetSearch.Json
