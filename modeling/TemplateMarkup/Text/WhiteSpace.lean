/-!
Contract: the Unicode property White_Space.

Owns: the table of code ranges with the property and the test `isWhiteSpace`.

Does not own: any rule on what white space separates.
-/

set_option autoImplicit false

namespace TemplateMarkup.Text

/-- The code ranges of the property White_Space, ends included, in ascending order. -/
def whiteSpaceRanges : List (Nat × Nat) :=
  [(0x0009, 0x000D),
   (0x0020, 0x0020),
   (0x0085, 0x0085),
   (0x00A0, 0x00A0),
   (0x1680, 0x1680),
   (0x2000, 0x200A),
   (0x2028, 0x2029),
   (0x202F, 0x202F),
   (0x205F, 0x205F),
   (0x3000, 0x3000)]

/-- Whether a character has the Unicode property White_Space. -/
def isWhiteSpace (character : Char) : Bool :=
  whiteSpaceRanges.any fun range =>
    range.1 ≤ character.toNat && character.toNat ≤ range.2

/-- The table lists twenty-five characters. -/
example :
    (whiteSpaceRanges.map fun range => range.2 + 1 - range.1).sum = 25 := by
  decide

/-- Ranges are in ascending order and do not touch, so no code is listed twice. -/
example : whiteSpaceRanges.Pairwise fun left right => left.2 + 1 < right.1 := by
  decide

end TemplateMarkup.Text
