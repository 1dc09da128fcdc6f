import TemplateMarkup.Position.Level

/-!
Contract: the rows of the transition table, in characters.

Owns:
- for each place inside a tag or an injection, and for the places between tags, the place
  of the next character as a chain of tests on that character;
- the same table read backwards for the ends of tags and injections.

Does not own: raw text, which has no test.

The table itself is over kinds. Here the first test of a row that holds decides.
-/

set_option autoImplicit false

namespace TemplateMarkup.Position

open TemplateMarkup.Text

/-- The tests of the rows, as questions about the kind of the character. -/
theorem test_iff_kind (character : Char) :
    (isWhiteSpace character = true ↔ CharKind.of character = .space) ∧
    (character = '<' ↔ CharKind.of character = .lessThan) ∧
    (character = '>' ↔ CharKind.of character = .greaterThan) ∧
    (character = '/' ↔ CharKind.of character = .solidus) ∧
    (character = '=' ↔ CharKind.of character = .equals) ∧
    (character = '"' ↔ CharKind.of character = .quote) ∧
    (character = '\x7b' ↔ CharKind.of character = .openBrace) ∧
    (character = '\x7d' ↔ CharKind.of character = .closeBrace) :=
  ⟨(CharKind.of_eq_space_iff character).symm,
    (CharKind.of_eq_iff_of_delimiter? rfl character).symm,
    (CharKind.of_eq_iff_of_delimiter? rfl character).symm,
    (CharKind.of_eq_iff_of_delimiter? rfl character).symm,
    (CharKind.of_eq_iff_of_delimiter? rfl character).symm,
    (CharKind.of_eq_iff_of_delimiter? rfl character).symm,
    (CharKind.of_eq_iff_of_delimiter? rfl character).symm,
    (CharKind.of_eq_iff_of_delimiter? rfl character).symm⟩

variable (character : Char)

/-! ## Opening tags -/

theorem next_element :
    element.next character =
      if isWhiteSpace character = true then .element
      else if character = '>' then .fragment
      else if character = '/' then .tailElementSolidus
      else .tag := by
  simp only [test_iff_kind, next]
  cases CharKind.of character <;> rfl

theorem next_tag :
    tag.next character =
      if isWhiteSpace character = true then .elementSpace
      else if character = '>' then .elementClosed
      else if character = '/' then .emptyElement
      else .tag := by
  simp only [test_iff_kind, next]
  cases CharKind.of character <;> rfl

theorem next_elementSpace :
    elementSpace.next character =
      if isWhiteSpace character = true then .elementSpace
      else if character = '>' then .elementClosed
      else if character = '/' then .emptyElement
      else if character = '\x7b' then .attrMapInjection
      else .attr := by
  simp only [test_iff_kind, next]
  cases CharKind.of character <;> rfl

theorem next_attr :
    attr.next character =
      if isWhiteSpace character = true then .elementSpace
      else if character = '=' then .attrSetter
      else if character = '>' then .elementClosed
      else if character = '/' then .emptyElement
      else if character = '\x7b' then .attrMapInjection
      else .attr := by
  simp only [test_iff_kind, next]
  cases CharKind.of character <;> rfl

theorem next_attrSetter :
    attrSetter.next character =
      if isWhiteSpace character = true then .attrSetter
      else if character = '"' then .attrQuote
      else .attrValueUnquoted := by
  simp only [test_iff_kind, next]
  cases CharKind.of character <;> rfl

/-- A quoted value is read alike at its first character and later. -/
theorem next_of_quoted
    {position : Position}
    (quoted : position = .attrQuote ∨ position = .attrValue) :
    position.next character =
      if character = '"' then .attrQuoteClosed else .attrValue := by
  simp only [test_iff_kind, next]
  rcases quoted with rfl | rfl <;>
    cases CharKind.of character <;> rfl

theorem next_attrQuoteClosed :
    attrQuoteClosed.next character =
      if character = '>' then .elementClosed
      else if character = '/' then .emptyElement
      else .elementSpace := by
  simp only [test_iff_kind, next]
  cases CharKind.of character <;> rfl

theorem next_attrValueUnquoted :
    attrValueUnquoted.next character =
      if isWhiteSpace character = true then .elementSpace
      else if character = '>' then .elementClosed
      else .attrValueUnquoted := by
  simp only [test_iff_kind, next]
  cases CharKind.of character <;> rfl

theorem next_emptyElement :
    emptyElement.next character =
      if character = '>' then .emptyElementClosed else .emptyElement := by
  simp only [test_iff_kind, next]
  cases CharKind.of character <;> rfl

/-! ## Closing tags -/

theorem next_tailElementSolidus :
    tailElementSolidus.next character =
      if isWhiteSpace character = true then .tailElementSolidus
      else if character = '>' then .fragmentClosed
      else .tailTag := by
  simp only [test_iff_kind, next]
  cases CharKind.of character <;> rfl

theorem next_tailTag :
    tailTag.next character =
      if isWhiteSpace character = true then .tailElementSpace
      else if character = '>' then .tailElementClosed
      else .tailTag := by
  simp only [test_iff_kind, next]
  cases CharKind.of character <;> rfl

theorem next_tailElementSpace :
    tailElementSpace.next character =
      if character = '>' then .tailElementClosed else .tailElementSpace := by
  simp only [test_iff_kind, next]
  cases CharKind.of character <;> rfl

/-! ## Injections and the places between tags -/

/-- An injection is read alike wherever it stands. -/
theorem next_of_injected
    {position : Position}
    (injected :
      position = .attrMapInjection ∨ position = .descendantInjection ∨
        position = .injectionSpace) :
    position.next character =
      if character = '\x7d' then .injectionConfirmed else .injectionSpace := by
  simp only [test_iff_kind, next]
  rcases injected with rfl | rfl | rfl <;>
    cases CharKind.of character <;> rfl

theorem next_initial :
    initial.next character =
      if character = '<' then .element
      else if character = '\x7b' then .descendantInjection
      else .text := by
  simp only [test_iff_kind, next]
  cases CharKind.of character <;> rfl

/-! ## Ends -/

/-- The kind of the character that ends a tag or an injection, for the places at which
there is just one. -/
def closedBy? : Position → Option CharKind
  | .elementClosed | .emptyElementClosed | .tailElementClosed | .fragment
  | .fragmentClosed => some .greaterThan
  | .injectionConfirmed => some .closeBrace
  | _ => none

/-- The places from which a tag or an injection is ended. -/
def closedFrom : Position → List Position
  | .elementClosed => [.tag, .elementSpace, .attr, .attrQuoteClosed, .attrValueUnquoted]
  | .emptyElementClosed => [.emptyElement]
  | .tailElementClosed => [.tailTag, .tailElementSpace]
  | .fragment => [.element]
  | .fragmentClosed => [.tailElementSolidus]
  | .injectionConfirmed => [.attrMapInjection, .descendantInjection, .injectionSpace]
  | _ => []

theorem atDocumentLevel_of_closedBy?
    {ending : Position}
    {kind : CharKind}
    (closes : ending.closedBy? = some kind) :
    ending.atDocumentLevel = true := by
  cases ending <;> simp_all [closedBy?, atDocumentLevel]

theorem onKind_eq_iff_of_closedBy?
    {ending : Position}
    {kind : CharKind}
    (closes : ending.closedBy? = some kind)
    (before : Position)
    (other : CharKind) :
    before.onKind other = ending ↔ other = kind ∧ before ∈ ending.closedFrom := by
  cases ending <;> cases closes <;> cases before <;> cases other <;> decide

end TemplateMarkup.Position
