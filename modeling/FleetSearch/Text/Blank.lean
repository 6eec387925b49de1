/-
# FleetSearch.Text.Blank -- white space, trimming and words between white space

White space is the Unicode property White_Space, 25 characters in all. Here a word is a maximal
run of characters that are not white space; trimming removes white space at both ends.
-/

namespace FleetSearch.Text

/-- Whether the character is white space. -/
def isBlank (c : Char) : Bool :=
  let n := c.toNat
  (9 ≤ n && n ≤ 13) || n == 0x20 || n == 0x85 || n == 0xA0 || n == 0x1680 ||
    (0x2000 ≤ n && n ≤ 0x200A) || n == 0x2028 || n == 0x2029 || n == 0x202F || n == 0x205F ||
    n == 0x3000

/-- The text without the white space at its start. -/
def trimStart (s : List Char) : List Char := s.dropWhile isBlank

/-- The text without the white space at its end. -/
def trimEnd (s : List Char) : List Char := (s.reverse.dropWhile isBlank).reverse

/-- The text without the white space at either end. -/
def trim (s : List Char) : List Char := trimEnd (trimStart s)

/-- Put a character in front of the first word. -/
def extendFirst (c : Char) : List (List Char) → List (List Char)
  | [] => [[c]]
  | w :: ws => (c :: w) :: ws

/-- The words of a text, left to right. -/
def words : List Char → List (List Char)
  | [] => []
  | c :: s =>
    if isBlank c then words s
    else
      match s with
      | [] => [[c]]
      | d :: _ => if isBlank d then [c] :: words s else extendFirst c (words s)

/-- Words put one after the other with the separator between neighbours. -/
def join (separator : List Char) : List (List Char) → List Char
  | [] => []
  | [w] => w
  | w :: ws => w ++ separator ++ join separator ws

end FleetSearch.Text
