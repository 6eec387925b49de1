/-
# FleetSearch.Text.CodeSet -- sets of code points given by ranges

A character class of the Unicode standard is a few hundred ranges of code points. Here such a
class is a search tree over its ranges, so that one question costs about ten comparisons. The
tables themselves stay plain lists of inclusive ranges in ascending order.
-/

namespace FleetSearch.Text

/-- A set of code points: a search tree whose nodes hold disjoint inclusive ranges. -/
inductive CodeSet where
  | empty
  | node (below : CodeSet) (first last : Nat) (above : CodeSet)

namespace CodeSet

/-- Whether the code point lies in one of the ranges. -/
def contains : CodeSet → Nat → Bool
  | .empty, _ => false
  | .node below first last above, n =>
    if n < first then below.contains n
    else if n ≤ last then true
    else above.contains n

/-- A balanced tree of the given depth over the first ranges of the list, and the ranges left
over. A depth of `d` takes at most `2 ^ d - 1` ranges. -/
def build : Nat → List (Nat × Nat) → CodeSet × List (Nat × Nat)
  | 0, ranges => (.empty, ranges)
  | depth + 1, ranges =>
    match build depth ranges with
    | (below, []) => (below, [])
    | (below, (first, last) :: more) =>
      let (above, left) := build depth more
      (.node below first last above, left)

/-- The set with the given ranges, which ascend and do not overlap. -/
def ofRanges (ranges : List (Nat × Nat)) : CodeSet :=
  (build (ranges.length.log2 + 1) ranges).1

end CodeSet

end FleetSearch.Text
