/-
# FleetSearch.Query.Labels -- the types, nations and categories that a query mentions

Types are found anywhere, also inside longer words. Nations and categories have to stand as
whole words. The spaces of a nation's name are plain spaces; those of the others stand for any
run of white space. Each result is in the order of its table.
-/

import FleetSearch.Pattern.Scan
import FleetSearch.Vocabulary

namespace FleetSearch.Query

open Vocabulary

/-- The patterns of a table, built from the words of each row. -/
def rowPatterns {α : Type} (table : List (α × List String))
    (pattern : List String → List Pattern) : List (α × List Pattern) :=
  table.map fun (label, words) => (label, pattern words)

/-- The labels of the rows of which some pattern occurs in the query. -/
def mentioned {α : Type} (rows : List (α × List Pattern)) (q : List Char) : List α :=
  (rows.filter fun row => row.2.any (·.occurs q)).map Prod.fst

/-- The pattern of each ship type. -/
def typePatterns : List (ShipType × List Pattern) :=
  rowPatterns typeAliases fun words => [anyPhrase words]

/-- The patterns of each nation, one for each of its names. -/
def nationPatterns : List (Nation × List Pattern) :=
  rowPatterns nationAliases fun words => words.map fun w => .wholeWord (word w)

/-- The pattern of each category. -/
def categoryPatterns : List (Category × List Pattern) :=
  rowPatterns categoryKeywords fun words => [.wholeWord (anyPhrase words)]

/-- The ship types that the query mentions. -/
def types (q : List Char) : List ShipType := mentioned typePatterns q

/-- The nations that the query mentions. -/
def nations (q : List Char) : List Nation := mentioned nationPatterns q

/-- The categories that the query mentions. -/
def categories (q : List Char) : List Category := mentioned categoryPatterns q

end FleetSearch.Query
