/-
# FleetSearch.Folder -- reading files by path below one directory

A folder holds files by their names, which may lie in directories below it. A path is looked up
step by step from the folder: empty and single-dot steps stay, double-dot steps go up, and every
other step has to be there. What lies outside the folder is not seen.
-/

import FleetSearch.Failure
import FleetSearch.Text.ByteSize

namespace FleetSearch

/-- Files by name. -/
structure Folder where
  files : List (String × ByteArray) := []

namespace Folder

/-- The steps of a path between slashes. -/
def steps : List Char → List (List Char)
  | [] => [[]]
  | c :: s =>
    match steps s with
    | [] => [[c]]
    | step :: more => if c = '/' then [] :: step :: more else (c :: step) :: more

/-- Whether a step stays where it is. -/
def isIdle (step : List Char) : Bool := step.isEmpty || step == ['.']

/-- The steps by which a file of the folder is reached. -/
def place (name : String) : List (List Char) :=
  (steps name.toList).filter fun step => !isIdle step

/-- The longest name that a step may have, in bytes. -/
def maxStep : Nat := 255

/-- The length from which on a path is too long, in bytes. -/
def pathLimit : Nat := 4096

/-- Look up a path from a directory outside the folder, of which nothing but the directories above
it is known. -/
def lookOutside : List (List Char) → Except FileFault ByteArray
  | [] => .error .isDirectory
  | step :: path =>
    if isIdle step || step == ['.', '.'] then lookOutside path
    else if maxStep < Text.byteSize step then .error .nameTooLong
    else .error .missing

/-- Look up a path from the directory `dir` of the folder, given by its steps. -/
def lookFrom (f : Folder) (dir : List (List Char)) :
    List (List Char) → Except FileFault ByteArray
  | [] => .error .isDirectory
  | step :: path =>
    if isIdle step then f.lookFrom dir path
    else if step = ['.', '.'] then
      if dir.isEmpty then lookOutside path else f.lookFrom dir.dropLast path
    else if maxStep < Text.byteSize step then .error .nameTooLong
    else
      let target := dir ++ [step]
      match f.files.find? fun file => place file.1 == target with
      | some (_, bytes) => if path.isEmpty then .ok bytes else .error .notDirectory
      | none =>
        if f.files.any fun file => target.isPrefixOf (place file.1) then f.lookFrom target path
        else .error .missing

/-- The bytes of the file at a path. -/
def read (f : Folder) (path : String) : Except FileFault ByteArray :=
  let s := path.toList
  if '\x00' ∈ s then .error .nulInName
  else if s.isEmpty then .error .missing
  else if pathLimit ≤ Text.byteSize s then .error .nameTooLong
  else if s.head? = some '/' then lookOutside (steps s)
  else f.lookFrom [] (steps s)

end Folder

end FleetSearch
