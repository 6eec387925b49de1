/-
# FleetSearch.Text.ByteSize -- the size of a text in bytes

Texts are stored in UTF-8, so a character takes one to four bytes.
-/

namespace FleetSearch.Text

/-- The number of bytes of a text. -/
def byteSize : List Char → Nat
  | [] => 0
  | c :: s => c.utf8Size + byteSize s

end FleetSearch.Text
