/-
# FleetSearch.Json.Fault -- why a JSON text is refused, and where

A text is refused because it ends too early, because it is malformed, or because it is well
formed and has the wrong shape. A fault names the cause and, as a rule, the place that reading had
got to.
-/

import FleetSearch.Json.Number
import FleetSearch.Json.Position
import FleetSearch.Text.Quoted

namespace FleetSearch.Json

/-! ## Causes -/

/-- What stands where something else is expected. -/
inductive Found where
  | null
  | boolean (b : Bool)
  | number (n : Number)
  | string (s : String)
  | sequence
  | map
  deriving DecidableEq

/-- Why a text is refused. -/
inductive Cause where
  | endInList
  | endInObject
  | endInString
  | endInValue
  | expectedColon
  | expectedListCommaOrEnd
  | expectedObjectCommaOrEnd
  | expectedWord
  | expectedValue
  | invalidEscape
  | invalidNumber
  | numberOutOfRange
  | controlCharacter
  | keyNotString
  | loneSurrogate
  | unfinishedPair
  | trailingComma
  | trailingCharacters
  | tooDeep
  /-- A value of another type than expected. -/
  | wrongType (found : Found) (expected : String)
  /-- A value of the right type that is out of range. -/
  | wrongValue (found : Found) (expected : String)
  | missingField (name : String)
  | duplicateField (name : String)
  | unknownVariant (label : String) (known : List String)
  /-- A record written as a list that is too short. -/
  | wrongLength (length : Nat) (record : String) (fields : Nat)
  /-- A value that its type refuses with words of its own. -/
  | refused (message : String)
  deriving DecidableEq

/-- The three kinds of causes. -/
inductive Kind where
  /-- The text ends too early. -/
  | ended
  /-- The text is malformed. -/
  | malformed
  /-- The text is well formed and has the wrong shape. -/
  | shape
  deriving DecidableEq

/-- The kind of a cause. -/
def Cause.kind : Cause → Kind
  | .endInList | .endInObject | .endInString | .endInValue => .ended
  | .wrongType .. | .wrongValue .. | .missingField _ | .duplicateField _ | .unknownVariant ..
  | .wrongLength .. | .refused _ => .shape
  | _ => .malformed

/-! ## Wording -/

/-- A word between backticks. -/
def ticked (s : String) : String := "`" ++ s ++ "`"

/-- The name of what was found. -/
def Found.text : Found → String
  | .null => "null"
  | .boolean b => "boolean " ++ ticked (if b then "true" else "false")
  | .number (.floating neg m) =>
    "floating point " ++ ticked (String.ofList (Number.floating neg m).text)
  | .number n => "integer " ++ ticked (String.ofList n.text)
  | .string s => "string " ++ Text.quoted s
  | .sequence => "sequence"
  | .map => "map"

/-- A cause in words. -/
def Cause.text : Cause → String
  | .endInList => "EOF while parsing a list"
  | .endInObject => "EOF while parsing an object"
  | .endInString => "EOF while parsing a string"
  | .endInValue => "EOF while parsing a value"
  | .expectedColon => "expected `:`"
  | .expectedListCommaOrEnd => "expected `,` or `]`"
  | .expectedObjectCommaOrEnd => "expected `,` or `\x7d`"
  | .expectedWord => "expected ident"
  | .expectedValue => "expected value"
  | .invalidEscape => "invalid escape"
  | .invalidNumber => "invalid number"
  | .numberOutOfRange => "number out of range"
  | .controlCharacter => "control character (\\u0000-\\u001F) found while parsing a string"
  | .keyNotString => "key must be a string"
  | .loneSurrogate => "lone leading surrogate in hex escape"
  | .unfinishedPair => "unexpected end of hex escape"
  | .trailingComma => "trailing comma"
  | .trailingCharacters => "trailing characters"
  | .tooDeep => "recursion limit exceeded"
  | .wrongType found expected => "invalid type: " ++ found.text ++ ", expected " ++ expected
  | .wrongValue found expected => "invalid value: " ++ found.text ++ ", expected " ++ expected
  | .missingField name => "missing field " ++ ticked name
  | .duplicateField name => "duplicate field " ++ ticked name
  | .unknownVariant label known =>
    "unknown variant " ++ ticked label ++ ", expected one of " ++
      ", ".intercalate (known.map ticked)
  | .wrongLength length record fields =>
    "invalid length " ++ length.repr ++ ", expected " ++ record ++ " with " ++ fields.repr ++
      " elements"
  | .refused message => message

/-! ## Faults -/

/-- Why a text is refused and where. -/
structure Fault where
  cause : Cause
  position : Option Position
  deriving DecidableEq

/-- The kind of a fault's cause. -/
def Fault.kind (f : Fault) : Kind := f.cause.kind

/-- A fault in words. -/
def Fault.message (f : Fault) : String :=
  match f.position with
  | some p => f.cause.text ++ p.text
  | none => f.cause.text

end FleetSearch.Json
