import Argand.Text.Range

/-!
# Blanks

The characters with the Unicode property White_Space, and texts without the blanks at their ends.
-/

namespace Argand

/-- The ranges of the property White_Space. -/
def blankRanges : RangeTable :=
  #[(0x9, 0xD), (0x20, 0x20), (0x85, 0x85), (0xA0, 0xA0), (0x1680, 0x1680), (0x2000, 0x200A),
    (0x2028, 0x2029), (0x202F, 0x202F), (0x205F, 0x205F), (0x3000, 0x3000)]

/-- Whether a character has the property White_Space. -/
def isBlank (c : Char) : Bool :=
  blankRanges.contains c

/-- A text without the blanks at its start and at its end. -/
def trimBlanks (cs : List Char) : List Char :=
  ((cs.dropWhile isBlank).reverse.dropWhile isBlank).reverse

end Argand
