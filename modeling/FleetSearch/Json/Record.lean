/-
# FleetSearch.Json.Record -- values with named fields

A record is written as an object with its fields in any order, or as a list of its fields in
their own order. Of an object, unknown keys are skipped and a known key may come only once. Of a
list, fields may be missing at the end if they have a default.

While a record is read its fields gather in a draft. What is missing is judged at the end.
-/

import FleetSearch.Json.Label
import FleetSearch.Json.Skip

namespace FleetSearch.Json

/-- A field of a record: its name, whether a draft has it, and how it is read into a draft. -/
structure Field (δ : Type) where
  name : String
  isGiven : δ → Bool
  read : δ → Reader δ

/-- The field with this name, read by the given reader and kept in a part of the draft. -/
def Field.of {δ α : Type} (name : String) (get : δ → Option α) (set : δ → α → δ)
    (value : Reader α) : Field δ where
  name := name
  isGiven draft := (get draft).isSome
  read draft s :=
    match value s with
    | .ok (a, rest) => .ok (set draft a, rest)
    | .error halt => .error halt

/-- The value of a field that has to be given, or else its name. -/
def required {α : Type} (name : String) : Option α → Except String α
  | some a => .ok a
  | none => .error name

/-- A record type: what it is called, its fields in order, the draft without any field, and the
record of a draft, or else the name of a field that is missing. -/
structure Record (δ α : Type) where
  title : String
  fields : List (Field δ)
  blank : δ
  build : δ → Except String α

namespace Record

variable {δ α : Type}

/-- Read fields in order until the list ends. -/
def readItems : List (Field δ) → Bool → δ → Reader δ
  | [], _, draft, s => .ok (draft, s)
  | field :: fields, isFirst, draft, s => do
    let (more, s) ← nextItem isFirst s
    if more then
      let (draft, s) ← field.read draft s
      readItems fields false draft s
    else .ok (draft, s)

/-- Read a value into the field with this key; skip it if there is none. -/
def readMember (fields : List (Field δ)) (key : String) (draft : δ) (s : List Char) :
    Except Halt (δ × List Char) :=
  match fields.find? fun field => field.name == key with
  | some field =>
    if field.isGiven draft then .error (.pending (.duplicateField key) s)
    else readColon s >>= field.read draft
  | none => do
    let s ← readColon s
    let s ← skipValue s
    .ok (draft, s)

/-- Read members up to the closing brace. The number bounds how many there are. -/
def readMembers (fields : List (Field δ)) : Nat → Bool → δ → Reader δ
  | 0, _, _, s => .error (past .expectedObjectCommaOrEnd s)
  | n + 1, isFirst, draft, s => do
    let (more, s) ← nextKey isFirst s
    if more then
      let (key, s) ← readString s
      let (draft, s) ← readMember fields key draft s
      readMembers fields n false draft s
    else .ok (draft, s)

/-- Turn the draft that was read into the record. -/
def finish (build : δ → Except Cause α) : Reading δ → Reading α
  | .ok (draft, s) =>
    match build draft with
    | .ok a => .ok (a, s)
    | .error cause => .error (.pending cause s)
  | .error halt => .error halt

/-- The record of a draft that was read from an object. -/
def ofMembers (r : Record δ α) (draft : δ) : Except Cause α :=
  (r.build draft).mapError .missingField

/-- The record of a draft that was read from a list. -/
def ofItems (r : Record δ α) (draft : δ) : Except Cause α :=
  (r.build draft).mapError fun name =>
    .wrongLength (r.fields.findIdx fun field => field.name == name) r.title r.fields.length

/-- Read a record. -/
def read (r : Record δ α) (s : List Char) : Reading α :=
  match skipSpace s with
  | [] => .error (atEnd .endInValue)
  | '[' :: t => enclose closeList (finish r.ofItems (readItems r.fields true r.blank t))
  | '\x7b' :: t =>
    enclose closeObject
      (finish r.ofMembers (readMembers r.fields (t.length + 1) true r.blank t))
  | t => .error (wrongType r.title t)

/-- The record of a JSON text. -/
def ofText (r : Record δ α) (text : String) : Except Fault α := readWhole r.read text

end Record

end FleetSearch.Json
