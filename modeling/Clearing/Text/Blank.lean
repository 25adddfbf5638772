/-!
# Blank characters

A character is blank when it has the Unicode property White_Space. Lines and names made of blanks
count as empty, and fields are trimmed of the blanks around them.
-/

namespace Clearing.Text

/-- The characters with the property White_Space. -/
def isBlank (c : Char) : Bool :=
  let n := c.toNat
  (9 ≤ n && n ≤ 13) || n == 0x20 || n == 0x85 || n == 0xA0 || n == 0x1680
    || (0x2000 ≤ n && n ≤ 0x200A) || n == 0x2028 || n == 0x2029 || n == 0x202F || n == 0x205F
    || n == 0x3000

/-- A text is blank when every character of it is, as the empty text is. -/
def blank (s : String) : Bool := s.toList.all isBlank

/-- Drop the blanks in front. -/
def trimLeft (cs : List Char) : List Char := cs.dropWhile isBlank

/-- Drop the blanks on both sides. -/
def trim (cs : List Char) : List Char := (trimLeft (trimLeft cs).reverse).reverse

end Clearing.Text
