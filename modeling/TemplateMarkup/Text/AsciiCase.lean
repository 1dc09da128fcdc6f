/-!
Contract: comparison of texts up to the case of ASCII letters.

Owns:
- `foldCase` and `sameIgnoringCase`, character by character;
- `storedBytes`, the stored form of a text, and `sameBytesIgnoringCase`, byte by byte.

Does not own: case rules beyond `A` to `Z`. A letter outside ASCII is equal only to
itself.
-/

set_option autoImplicit false

namespace TemplateMarkup.Text

/-- The characters of a text with `A` to `Z` in lower case and all others kept. -/
def foldCase (text : String) : List Char :=
  text.toList.map Char.toLower

/-- Whether two texts differ at most in the case of ASCII letters. -/
def sameIgnoringCase (left right : String) : Bool :=
  foldCase left = foldCase right

theorem sameIgnoringCase_iff (left right : String) :
    sameIgnoringCase left right = true ↔ foldCase left = foldCase right := by
  simp [sameIgnoringCase]

/-! ## As they are stored -/

/-- The bytes of a text as it is stored. -/
def storedBytes (text : String) : List UInt8 :=
  text.toUTF8.data.toList

/-- A byte of a letter from `A` to `Z` in lower case, and any other byte as it is. -/
def lowerByte (byte : UInt8) : UInt8 :=
  if 65 ≤ byte ∧ byte ≤ 90 then byte + 32 else byte

/-- Whether two texts, as they are stored, differ at most in the case of letters. -/
def sameBytesIgnoringCase (left right : String) : Bool :=
  (storedBytes left).length = (storedBytes right).length &&
    ((storedBytes left).zip (storedBytes right)).all fun pair =>
      lowerByte pair.1 = lowerByte pair.2

end TemplateMarkup.Text
