/-
# FleetSearch.Display.Styled -- text with styles for a terminal

A styled text is a row of pieces: plain text, the start of a style, and the return to the
default. Without colors only the text is shown. With colors a style starts with a return to the
default, so styles never add up.
-/

namespace FleetSearch.Display

/-- A style of text on a terminal. -/
inductive Style where
  | bold
  | dimmed
  | green
  | yellow
  | magenta
  | cyan
  deriving DecidableEq

/-- A piece of a styled text. -/
inductive Span where
  | text (s : List Char)
  | start (style : Style)
  | reset
  deriving DecidableEq

/-- A row of pieces. -/
abbrev Styled := List Span

/-- The number that stands for a style in an escape sequence. -/
def Style.code : Style → List Char
  | .bold => ['1']
  | .dimmed => ['2']
  | .green => ['3', '2']
  | .yellow => ['3', '3']
  | .magenta => ['3', '5']
  | .cyan => ['3', '6']

/-- An escape sequence that sets a style by its number. -/
def escapeSequence (code : List Char) : List Char := '\x1b' :: '[' :: code ++ ['m']

/-- The escape sequence that returns to the default. -/
def resetSequence : List Char := escapeSequence ['0']

/-- A piece with its escape sequences. -/
def Span.colored : Span → List Char
  | .text s => s
  | .start style => resetSequence ++ escapeSequence style.code
  | .reset => resetSequence

/-- A piece without escape sequences. -/
def Span.plain : Span → List Char
  | .text s => s
  | .start _ => []
  | .reset => []

/-- The text with its escape sequences. -/
def colored (spans : Styled) : List Char := spans.flatMap Span.colored

/-- The text without escape sequences. -/
def plain (spans : Styled) : List Char := spans.flatMap Span.plain

/-- The text, with escape sequences or without. -/
def render (useColor : Bool) (spans : Styled) : String :=
  String.ofList (if useColor then colored spans else plain spans)

/-- Text in a style, and then the default again. -/
def within (style : Style) (s : List Char) : Styled := [.start style, .text s, .reset]

end FleetSearch.Display
