/-
# FleetSearch.Json.Reader -- reading a JSON text from left to right

A reader takes the text that is left and gives a value and the text after it, or halts. Reading
stops at the first fault, so a value of the wrong shape is reported even if the text after it is
malformed.

**Places.** A fault in the text itself is placed where it is met: `here`, or `past` the next byte
when that byte is at fault. A value that is refused for its shape does not know its place; the
list, object or plain value around it settles that, once it has tried to close. Only a refusal in
the words of the value's type may bring a place along.
-/

import FleetSearch.Json.Fault
import FleetSearch.Text.ByteSize

namespace FleetSearch.Json

/-! ## Halting -/

/-- Why and where reading stops short. -/
inductive Halt where
  /-- The place is known: so many bytes were left. -/
  | placed (cause : Cause) (left : Nat)
  /-- The place is for the enclosing value to settle; `rest` is the text left so far. -/
  | pending (cause : Cause) (rest : List Char)
  /-- The place came with the words of a refusal. -/
  | stated (cause : Cause) (position : Position)
  deriving DecidableEq

/-- A value and the text after it, or a halt. -/
abbrev Reading (α : Type) := Except Halt (α × List Char)

/-- A function that reads a value off the start of a text. -/
abbrev Reader (α : Type) := List Char → Except Halt (α × List Char)

/-- A halt before the text that is left. -/
def here (cause : Cause) (s : List Char) : Halt := .placed cause (Text.byteSize s)

/-- A halt past the next byte of the text that is left, if it has one. -/
def past (cause : Cause) (s : List Char) : Halt := .placed cause (Text.byteSize s - 1)

/-- A halt at the end of the text. -/
def atEnd (cause : Cause) : Halt := .placed cause 0

/-- The fault of a halt in the whole text `s`. -/
def Halt.fault (s : List Char) : Halt → Fault
  | .placed cause left => ⟨cause, some (.after (Text.byteSize s - left) s)⟩
  | .pending cause _ => ⟨cause, none⟩
  | .stated cause position => ⟨cause, some position⟩

/-- The halt at a value that its type refuses with words of its own. A place at the end of the
words is taken for that of the fault, unless its line is 0, which no text has; then it is
dropped. -/
def refusal (message : String) (rest : List Char) : Halt :=
  match Position.ofMessage? message.toList with
  | none => .pending (.refused message) rest
  | some (words, position) =>
    let cause := .refused (String.ofList words)
    if position.line = 0 then .pending cause rest else .stated cause position

/-! ## Blanks, words and punctuation -/

/-- Whether JSON skips the character between values. -/
def isSpace (c : Char) : Bool := c == ' ' || c == '\n' || c == '\t' || c == '\r'

/-- The text without the blanks at its start. -/
def skipSpace (s : List Char) : List Char := s.dropWhile isSpace

/-- Read the rest of a word such as "true". -/
def readWord : List Char → List Char → Except Halt (List Char)
  | [], s => .ok s
  | _ :: _, [] => .error (atEnd .endInValue)
  | w :: ws, c :: s => if c = w then readWord ws s else .error (past .expectedWord (c :: s))

/-- Read the colon after a key. -/
def readColon (s : List Char) : Except Halt (List Char) :=
  match skipSpace s with
  | ':' :: t => .ok t
  | [] => .error (atEnd .endInObject)
  | t => .error (past .expectedColon t)

/-- Read the whole of a text: one value with nothing but blanks around it. -/
def readWhole {α : Type} (reader : Reader α) (text : String) : Except Fault α :=
  let s := text.toList
  match reader s with
  | .error halt => .error (halt.fault s)
  | .ok (a, rest) =>
    match skipSpace rest with
    | [] => .ok a
    | t => .error ((past .trailingCharacters t).fault s)

/-! ## Lists -/

/-- Go to the next item of a list: true if there is one, false before the closing bracket. -/
def nextItem (isFirst : Bool) (s : List Char) : Reading Bool :=
  match skipSpace s with
  | [] => .error (atEnd .endInList)
  | ']' :: t => .ok (false, ']' :: t)
  | c :: t =>
    if isFirst then .ok (true, c :: t)
    else if c = ',' then
      match skipSpace t with
      | [] => .error (atEnd .endInValue)
      | ']' :: u => .error (past .trailingComma (']' :: u))
      | u => .ok (true, u)
    else .error (past .expectedListCommaOrEnd (c :: t))

/-- Read the items of a list up to its closing bracket. The number bounds how many there are. -/
def readItems {α : Type} (item : Reader α) : Nat → Bool → Reader (List α)
  | 0, _, s => .error (past .expectedListCommaOrEnd s)
  | n + 1, isFirst, s => do
    let (more, s) ← nextItem isFirst s
    if more then
      let (a, s) ← item s
      let (as, s) ← readItems item n false s
      .ok (a :: as, s)
    else .ok ([], s)

/-- Close a list: whether that works, and the text that is left in either case. -/
def closeList (s : List Char) : Except Halt Unit × List Char :=
  match skipSpace s with
  | [] => (.error (atEnd .endInList), [])
  | ']' :: t => (.ok (), t)
  | ',' :: t =>
    match skipSpace t with
    | ']' :: u => (.error (past .trailingComma (']' :: u)), ']' :: u)
    | u => (.error (past .trailingCharacters u), u)
  | t => (.error (past .trailingCharacters t), t)

/-! ## Objects -/

/-- Go to the next key of an object: true past its opening quote, false before the closing
brace. -/
def nextKey (isFirst : Bool) (s : List Char) : Reading Bool :=
  match skipSpace s with
  | [] => .error (atEnd .endInObject)
  | '\x7d' :: t => .ok (false, '\x7d' :: t)
  | c :: t =>
    if isFirst then
      if c = '"' then .ok (true, t) else .error (past .keyNotString (c :: t))
    else if c = ',' then
      match skipSpace t with
      | [] => .error (atEnd .endInValue)
      | '"' :: u => .ok (true, u)
      | '\x7d' :: u => .error (past .trailingComma ('\x7d' :: u))
      | u => .error (past .keyNotString u)
    else .error (past .expectedObjectCommaOrEnd (c :: t))

/-- Close an object: whether that works, and the text that is left in either case. -/
def closeObject (s : List Char) : Except Halt Unit × List Char :=
  match skipSpace s with
  | [] => (.error (atEnd .endInObject), [])
  | '\x7d' :: t => (.ok (), t)
  | ',' :: t => (.error (past .trailingComma (',' :: t)), ',' :: t)
  | t => (.error (past .trailingCharacters t), t)

/-- Close what was read inside a list or object. If reading it halted without a place, the place
is where closing gets to. -/
def enclose {α : Type} (close : List Char → Except Halt Unit × List Char) :
    Reading α → Reading α
  | .error (.pending cause rest) => .error (here cause (close rest).2)
  | .error halt => .error halt
  | .ok (a, s) =>
    match close s with
    | (.ok (), rest) => .ok (a, rest)
    | (.error halt, _) => .error halt

end FleetSearch.Json
