import TemplateMarkup.Position.Transition

/-!
Contract: the regions that the places in a template fall into.

Owns:
- the document level, at which one tag, injection or character of text is complete;
- the insides of tags and of injections;
- raw text, which the transition table neither enters nor leaves;
- the facts about single steps that every statement about regions rests on.

Does not own: statements about whole texts.
-/

set_option autoImplicit false

namespace TemplateMarkup.Position

open TemplateMarkup.Text

/-- Places at which nothing is open: the start, text, and the end of a tag or of an
injection. -/
def atDocumentLevel : Position → Bool
  | .initial | .text | .elementClosed | .emptyElementClosed | .tailElementClosed
  | .fragment | .fragmentClosed | .injectionConfirmed => true
  | _ => false

/-- Places inside a tag that is not complete. -/
def inTag : Position → Bool
  | .element | .tag | .elementSpace | .attr | .attrSetter | .attrQuote | .attrValue
  | .attrQuoteClosed | .attrValueUnquoted | .emptyElement | .tailElementSolidus | .tailTag
  | .tailElementSpace => true
  | _ => false

/-- Places inside an injection that is not complete. -/
def inInjection : Position → Bool
  | .attrMapInjection | .descendantInjection | .injectionSpace => true
  | _ => false

/-- Places inside raw text. -/
def isRaw : Position → Bool
  | .altText | .altTextCloseSequence | .commentText => true
  | _ => false

/-- At the document level every place is left in the same way, so what was read before
does not matter. -/
theorem next_of_atDocumentLevel
    {position : Position}
    (level : position.atDocumentLevel = true)
    (character : Char) :
    position.next character = initial.next character := by
  cases position <;> simp_all [atDocumentLevel, next, onKind]

/-- Walks from the document level are walks from the start. -/
theorem walk_of_atDocumentLevel
    {position : Position}
    (level : position.atDocumentLevel = true)
    (characters : List Char) :
    position.walk characters = initial.walk characters := by
  cases characters with
  | nil => rfl
  | cons character rest => simp [next_of_atDocumentLevel level]

/-- One step neither enters nor leaves raw text. -/
@[simp] theorem isRaw_next (position : Position) (character : Char) :
    (position.next character).isRaw = position.isRaw := by
  unfold next
  cases position <;> cases CharKind.of character <;> rfl

/-- The start of the template is never returned to. -/
theorem next_ne_initial (position : Position) (character : Char) :
    position.next character ≠ .initial := by
  unfold next
  cases position <;> cases CharKind.of character <;> decide

/-- What a step can lead to, in a list of the four places that a step outside raw text
cannot. -/
theorem notMem_initial_and_raw_iff (position : Position) :
    position ∉ [initial, altText, altTextCloseSequence, commentText] ↔
      position.isRaw = false ∧ position ≠ .initial := by
  cases position <;> decide

end TemplateMarkup.Position
