/-
White space: the 25 characters of the White_Space property, and trimming.

A text given as a number may also be surrounded by byte order marks; `isNumberBlank` adds those.
-/

namespace Vector128.Text

/-- the ranges of the White_Space property -/
def blankRanges : List (Nat × Nat) :=
  [(0x09, 0x0D), (0x20, 0x20), (0x85, 0x85), (0xA0, 0xA0), (0x1680, 0x1680), (0x2000, 0x200A), (0x2028, 0x2029),
    (0x202F, 0x202F), (0x205F, 0x205F), (0x3000, 0x3000)]

def isBlank (c : Char) : Bool := blankRanges.any fun (low, high) => low ≤ c.toNat && c.toNat ≤ high

/-- what may stand around a text that is converted to a Number -/
def isNumberBlank (c : Char) : Bool := isBlank c || c.toNat == 0xFEFF

/-- the text without the characters of a class at its two ends -/
def trim (skip : Char → Bool) (text : List Char) : List Char :=
  ((text.dropWhile skip).reverse.dropWhile skip).reverse

end Vector128.Text
