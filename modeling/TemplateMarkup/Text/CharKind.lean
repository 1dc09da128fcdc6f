import TemplateMarkup.Text.WhiteSpace

/-!
Contract: the kinds of characters that markup tells apart.

Owns: `CharKind`, the classification `CharKind.of`, and when two characters are of one
kind.

Does not own: what a character of some kind does at a place in the markup.
-/

set_option autoImplicit false

namespace TemplateMarkup.Text

/-- The kinds of characters that markup tells apart: white space, seven delimiters, and
all other characters together. -/
inductive CharKind where
  | space
  | lessThan
  | greaterThan
  | solidus
  | equals
  | quote
  | openBrace
  | closeBrace
  | plain
deriving DecidableEq, Repr

namespace CharKind

/-- The kind of a character. -/
def of (character : Char) : CharKind :=
  if character = '<' then .lessThan
  else if character = '>' then .greaterThan
  else if character = '/' then .solidus
  else if character = '=' then .equals
  else if character = '"' then .quote
  else if character = '\x7b' then .openBrace
  else if character = '\x7d' then .closeBrace
  else if isWhiteSpace character then .space
  else .plain

/-- The one character of a delimiter kind; white space and plain text have many. -/
def delimiter? : CharKind → Option Char
  | .space => none
  | .lessThan => some '<'
  | .greaterThan => some '>'
  | .solidus => some '/'
  | .equals => some '='
  | .quote => some '"'
  | .openBrace => some '\x7b'
  | .closeBrace => some '\x7d'
  | .plain => none

/-- A character is of a delimiter kind exactly if it is that delimiter. -/
theorem of_eq_iff_of_delimiter?
    {kind : CharKind}
    {delimiter : Char}
    (single : kind.delimiter? = some delimiter)
    (character : Char) :
    of character = kind ↔ character = delimiter := by
  constructor
  · intro sameKind
    subst sameKind
    unfold of at single
    repeat' split at single
    all_goals
      simp only [delimiter?, Option.some.injEq, reduceCtorEq] at single
    all_goals
      subst single
      assumption
  · rintro rfl
    cases kind <;> simp only [delimiter?, Option.some.injEq, reduceCtorEq] at single <;>
      subst single <;> decide

/-- No delimiter is white space. -/
theorem isWhiteSpace_of_delimiter?
    {kind : CharKind}
    {delimiter : Char}
    (single : kind.delimiter? = some delimiter) :
    isWhiteSpace delimiter = false := by
  cases kind <;> simp only [delimiter?, Option.some.injEq, reduceCtorEq] at single <;>
    subst single <;> rfl

/-- White space is exactly the kind `space`. -/
theorem of_eq_space_iff (character : Char) :
    of character = .space ↔ isWhiteSpace character = true := by
  constructor
  · intro sameKind
    unfold of at sameKind
    repeat' split at sameKind
    all_goals simp_all
  · intro blank
    have apart :
        ∀ kind delimiter, delimiter? kind = some delimiter → character ≠ delimiter := by
      intro kind delimiter single same
      have notBlank := isWhiteSpace_of_delimiter? single
      rw [← same, blank] at notBlank
      cases notBlank
    simp [of, blank, apart .lessThan _ rfl, apart .greaterThan _ rfl, apart .solidus _ rfl,
      apart .equals _ rfl, apart .quote _ rfl, apart .openBrace _ rfl,
      apart .closeBrace _ rfl]

end CharKind

end TemplateMarkup.Text
