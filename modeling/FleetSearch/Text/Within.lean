/-
# FleetSearch.Text.Within -- one text inside another

A text is within another if it is a contiguous part of it; the empty text is within every text.
-/

namespace FleetSearch.Text

/-- Whether the first text is a contiguous part of the second. -/
def isWithin (part : List Char) : List Char → Bool
  | [] => part.isEmpty
  | c :: s => part.isPrefixOf (c :: s) || isWithin part s

end FleetSearch.Text
