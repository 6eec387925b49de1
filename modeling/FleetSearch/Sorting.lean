/-
# FleetSearch.Sorting -- lists in order

Sorting is stable: items of which neither has to come first keep the order they had. A list of
distinct values or keys is kept strictly ascending by inserting one at a time.
-/

namespace FleetSearch

variable {α β : Type}

/-! ## Stable sorting -/

/-- Insert an item before the first one that it may stand in front of. -/
def insertBefore (le : α → α → Bool) (a : α) : List α → List α
  | [] => [a]
  | b :: bs => if le a b then a :: b :: bs else b :: insertBefore le a bs

/-- The items in order, ties as they were. -/
def stableSort (le : α → α → Bool) : List α → List α
  | [] => []
  | a :: as => insertBefore le a (stableSort le as)

/-! ## Distinct values and keys -/

/-- Insert a value into a strictly ascending list, unless it is there. -/
def insertDistinct (lt : α → α → Bool) (a : α) : List α → List α
  | [] => [a]
  | b :: bs =>
    if lt a b then a :: b :: bs
    else if lt b a then b :: insertDistinct lt a bs
    else b :: bs

/-- The distinct values of a list, ascending. -/
def distinct (lt : α → α → Bool) : List α → List α
  | [] => []
  | a :: as => insertDistinct lt a (distinct lt as)

/-- Put a value under a key into a list with strictly ascending keys, in place of the value that
was there. -/
def putKey (lt : α → α → Bool) (key : α) (value : β) : List (α × β) → List (α × β)
  | [] => [(key, value)]
  | (k, v) :: rest =>
    if lt key k then (key, value) :: (k, v) :: rest
    else if lt k key then (k, v) :: putKey lt key value rest
    else (key, value) :: rest

/-- The entries by ascending key; of several with one key the last counts. -/
def lastByKey (lt : α → α → Bool) (entries : List (α × β)) : List (α × β) :=
  entries.foldl (fun sorted entry => putKey lt entry.1 entry.2 sorted) []

/-! ## The order of texts -/

/-- Whether one text comes before another, compared by code points. -/
def textBefore (s t : String) : Bool := decide (s < t)

end FleetSearch
