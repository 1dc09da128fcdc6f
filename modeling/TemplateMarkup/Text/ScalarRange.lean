/-!
Contract: the characters whose codes lie in a range.

Owns: `scalarValue?`, which reads a code as a character, and `scalarRange`, the
characters between two codes.

Does not own: a limit on the codes asked for. Surrogate codes and codes past the last
one stand for no character and are left out.
-/

set_option autoImplicit false

namespace TemplateMarkup.Text

/-- The largest code that stands for a character. -/
def lastCode : Nat := 0x10FFFF

/-- The character with the given code, if the code stands for one: a code that stands
for none is not the code of the character it would be read as. -/
def scalarValue? (code : Nat) : Option Char :=
  if (Char.ofNat code).toNat = code then some (Char.ofNat code) else none

/-- The characters with codes from `first` to `last`, both included, in ascending
order. -/
def scalarRange (first last : Nat) : List Char :=
  (List.range' first (last + 1 - first)).filterMap scalarValue?

end TemplateMarkup.Text
