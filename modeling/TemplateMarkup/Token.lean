import TemplateMarkup.Position.Level

/-!
Contract: cutting a template where nothing is open.

Owns:
- `TokenEnding` and `IsToken`, the texts that are complete at their last character and
  not before;
- `IsUnfinished`, the texts that are never complete;
- `Segmentation` and `segment`, the cutting of a text into tokens and an unfinished
  rest.

Does not own: the shapes of the tokens.
-/

set_option autoImplicit false

namespace TemplateMarkup

/-- Walking the text from the start reaches the document level at the last character,
at the given place, and at no character before. -/
def TokenEnding (text : List Char) (ending : Position) : Prop :=
  ∃ inner,
    Position.initial.walk text = inner ++ [ending] ∧
      (∀ position ∈ inner, position.atDocumentLevel = false) ∧
      ending.atDocumentLevel = true

/-- A text that is complete at its last character and not before. -/
def IsToken (text : List Char) : Prop :=
  ∃ ending, TokenEnding text ending

/-- A text that is complete at no character. -/
def IsUnfinished (text : List Char) : Prop :=
  ∀ position ∈ Position.initial.walk text, position.atDocumentLevel = false

/-- A text in pieces: those that are complete, and what follows the last of them. -/
structure Segmentation where
  tokens : List (List Char)
  rest : List Char
deriving DecidableEq, Repr

namespace Segmentation

/-- The text that was cut. -/
def text (segmentation : Segmentation) : List Char :=
  segmentation.tokens.flatten ++ segmentation.rest

/-- Every piece but the rest is a token, and the rest is unfinished. -/
def Valid (segmentation : Segmentation) : Prop :=
  (∀ token ∈ segmentation.tokens, IsToken token) ∧ IsUnfinished segmentation.rest

/-- Put a character before the first piece. -/
def extend (character : Char) : Segmentation → Segmentation
  | ⟨[], rest⟩ => ⟨[], character :: rest⟩
  | ⟨token :: tokens, rest⟩ => ⟨(character :: token) :: tokens, rest⟩

/-- Put a piece of one character before all others. -/
def cut (character : Char) (segmentation : Segmentation) : Segmentation :=
  ⟨[character] :: segmentation.tokens, segmentation.rest⟩

@[simp] theorem text_extend (character : Char) (segmentation : Segmentation) :
    (segmentation.extend character).text = character :: segmentation.text := by
  obtain ⟨tokens, rest⟩ := segmentation
  cases tokens <;> simp [extend, text]

@[simp] theorem text_cut (character : Char) (segmentation : Segmentation) :
    (segmentation.cut character).text = character :: segmentation.text := by
  simp [cut, text]

end Segmentation

/-- Cut a text after each character at the document level. The first piece goes on from
`position`. -/
def segmentFrom (position : Position) : List Char → Segmentation
  | [] => ⟨[], []⟩
  | character :: rest =>
      if (position.next character).atDocumentLevel then
        (segmentFrom (position.next character) rest).cut character
      else
        (segmentFrom (position.next character) rest).extend character

/-- Cut a text into tokens and an unfinished rest. -/
def segment (text : List Char) : Segmentation :=
  segmentFrom .initial text

/-- Cutting loses and adds nothing. -/
@[simp] theorem text_segmentFrom (position : Position) (characters : List Char) :
    (segmentFrom position characters).text = characters := by
  induction characters generalizing position with
  | nil => rfl
  | cons character rest inductionHypothesis =>
      rw [segmentFrom]
      split <;> simp [inductionHypothesis]

end TemplateMarkup
