/-!
# Blank text

The white space of Unicode: twenty-five code points. Zero-width characters and the byte-order mark
are not among them.

## Main definitions

* `Text.isSpace`: whether a character is white space.
* `Text.isBlank`: whether a text holds nothing else.
-/

namespace NodeFeatureOperator

namespace Text

/-- The ranges of white space. -/
def spaceRanges : List (Nat × Nat) :=
  [(0x9, 0xd), (0x20, 0x20), (0x85, 0x85), (0xa0, 0xa0), (0x1680, 0x1680), (0x2000, 0x200a),
   (0x2028, 0x2029), (0x202f, 0x202f), (0x205f, 0x205f), (0x3000, 0x3000)]

/-- Whether a character is white space. -/
def isSpace (c : Char) : Bool := spaceRanges.any fun r => r.1 ≤ c.toNat ∧ c.toNat ≤ r.2

/-- Whether a text holds nothing but white space. -/
def isBlank (s : String) : Bool := s.toList.all isSpace

/-- The characters from the first one that is not white space. -/
def skipSpaces (s : List Char) : List Char := s.dropWhile isSpace

end Text

end NodeFeatureOperator
