import TemplateMarkup.Position.Basic
import TemplateMarkup.Text.CharKind
import TemplateMarkup.Trace

/-!
Contract: how the place in a template moves with each character.

Owns:
- `Position.onKind`, the transition table over kinds of characters;
- `Position.next`, the place of a character given the place before it;
- `Position.walk`, the places of all characters of a text.

Does not own: the end of raw text, which is a property of several characters together.
The table never leaves raw text by itself.
-/

set_option autoImplicit false

namespace TemplateMarkup.Position

open TemplateMarkup.Text

/-- Between tags, a less-than sign starts a tag, an opening brace starts an injection,
and all else is text. -/
def onKindBetweenTags : CharKind → Position
  | .lessThan => .element
  | .openBrace => .descendantInjection
  | _ => .text

/-- An injection lasts until the first closing brace. -/
def onKindInInjection : CharKind → Position
  | .closeBrace => .injectionConfirmed
  | _ => .injectionSpace

/-- A quoted value lasts until the next quote. -/
def onKindInQuotes : CharKind → Position
  | .quote => .attrQuoteClosed
  | _ => .attrValue

/-- The place of a character of the given kind, given the place before it.

The rows follow an opening tag from its start through its attributes to its end, then
closing tags, injections, raw text, and last the places between tags. -/
def onKind : Position → CharKind → Position
  | .element, .space => .element
  | .element, .greaterThan => .fragment
  | .element, .solidus => .tailElementSolidus
  | .element, _ => .tag
  | .tag, .space => .elementSpace
  | .tag, .greaterThan => .elementClosed
  | .tag, .solidus => .emptyElement
  | .tag, _ => .tag
  | .elementSpace, .space => .elementSpace
  | .elementSpace, .greaterThan => .elementClosed
  | .elementSpace, .solidus => .emptyElement
  | .elementSpace, .openBrace => .attrMapInjection
  | .elementSpace, _ => .attr
  | .attr, .space => .elementSpace
  | .attr, .equals => .attrSetter
  | .attr, .greaterThan => .elementClosed
  | .attr, .solidus => .emptyElement
  | .attr, .openBrace => .attrMapInjection
  | .attr, _ => .attr
  | .attrSetter, .space => .attrSetter
  | .attrSetter, .quote => .attrQuote
  | .attrSetter, _ => .attrValueUnquoted
  | .attrQuote, kind => onKindInQuotes kind
  | .attrValue, kind => onKindInQuotes kind
  | .attrQuoteClosed, .greaterThan => .elementClosed
  | .attrQuoteClosed, .solidus => .emptyElement
  | .attrQuoteClosed, _ => .elementSpace
  | .attrValueUnquoted, .space => .elementSpace
  | .attrValueUnquoted, .greaterThan => .elementClosed
  | .attrValueUnquoted, _ => .attrValueUnquoted
  | .emptyElement, .greaterThan => .emptyElementClosed
  | .emptyElement, _ => .emptyElement
  | .tailElementSolidus, .space => .tailElementSolidus
  | .tailElementSolidus, .greaterThan => .fragmentClosed
  | .tailElementSolidus, _ => .tailTag
  | .tailTag, .space => .tailElementSpace
  | .tailTag, .greaterThan => .tailElementClosed
  | .tailTag, _ => .tailTag
  | .tailElementSpace, .greaterThan => .tailElementClosed
  | .tailElementSpace, _ => .tailElementSpace
  | .attrMapInjection, kind => onKindInInjection kind
  | .descendantInjection, kind => onKindInInjection kind
  | .injectionSpace, kind => onKindInInjection kind
  | .altText, _ => .altText
  | .altTextCloseSequence, _ => .altText
  | .commentText, _ => .commentText
  | .initial, kind => onKindBetweenTags kind
  | .text, kind => onKindBetweenTags kind
  | .elementClosed, kind => onKindBetweenTags kind
  | .emptyElementClosed, kind => onKindBetweenTags kind
  | .tailElementClosed, kind => onKindBetweenTags kind
  | .fragment, kind => onKindBetweenTags kind
  | .fragmentClosed, kind => onKindBetweenTags kind
  | .injectionConfirmed, kind => onKindBetweenTags kind

/-- The place of a character, given the place before it. -/
def next (position : Position) (character : Char) : Position :=
  position.onKind (CharKind.of character)

/-- The place of each character of a text that starts after `position`. -/
def walk (position : Position) (characters : List Char) : List Position :=
  trace next position characters

/-- The place of the last character of a text, or `position` if there is none. -/
def after (position : Position) (characters : List Char) : Position :=
  final next position characters

/-- The place depends on a character through its kind alone. -/
theorem next_congr
    (position : Position)
    {left right : Char}
    (sameKind : CharKind.of left = CharKind.of right) :
    position.next left = position.next right := by
  simp [next, sameKind]

@[simp] theorem walk_nil (position : Position) : position.walk [] = [] := rfl

@[simp] theorem walk_cons (position : Position) (character : Char) (rest : List Char) :
    position.walk (character :: rest) =
      position.next character :: (position.next character).walk rest := rfl

@[simp] theorem after_nil (position : Position) : position.after [] = position := rfl

@[simp] theorem after_cons (position : Position) (character : Char) (rest : List Char) :
    position.after (character :: rest) = (position.next character).after rest := rfl

@[simp] theorem length_walk (position : Position) (characters : List Char) :
    (position.walk characters).length = characters.length :=
  length_trace next position characters

theorem walk_append (position : Position) (front back : List Char) :
    position.walk (front ++ back) =
      position.walk front ++ (position.after front).walk back :=
  trace_append next position front back

theorem after_append (position : Position) (front back : List Char) :
    position.after (front ++ back) = (position.after front).after back :=
  final_append next position front back

end TemplateMarkup.Position
