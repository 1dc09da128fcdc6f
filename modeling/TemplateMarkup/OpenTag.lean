import TemplateMarkup.Position.Transition

/-!
Contract: opening tags as data, their written form, and the places that the written form
is meant to go through.

Owns:
- `OpenTag`, `Attribute` and `AttributeValue`;
- `OpenTag.WellFormed`, the names and values that can be written as they are;
- `OpenTag.render` and `OpenTag.positions`.

Does not own: the walk through the written form.

Nothing is escaped. A name or value that could not be written as it is has no written
form at all, which is what `OpenTag.WellFormed` excludes.
-/

set_option autoImplicit false

namespace TemplateMarkup

open TemplateMarkup.Text

/-- The value of an attribute, as it is written. -/
inductive AttributeValue where
  | absent
  | quoted (characters : List Char)
  | unquoted (characters : List Char)
deriving DecidableEq, Repr

/-- An attribute of an opening tag. -/
structure Attribute where
  name : List Char
  value : AttributeValue
deriving DecidableEq, Repr

/-- An opening tag. -/
structure OpenTag where
  name : List Char
  attributes : List Attribute
deriving DecidableEq, Repr

namespace AttributeValue

/-- A quoted value holds no quote. An unquoted one is not empty, does not start with a
quote, and holds neither white space nor a greater-than sign. -/
def WellFormed : AttributeValue → Prop
  | .absent => True
  | .quoted characters => '"' ∉ characters
  | .unquoted characters =>
      characters ≠ [] ∧ characters.head? ≠ some '"' ∧
        ∀ character ∈ characters, isWhiteSpace character = false ∧ character ≠ '>'

/-- The written form, with the equals sign. -/
def render : AttributeValue → List Char
  | .absent => []
  | .quoted characters => '=' :: '"' :: characters ++ ['"']
  | .unquoted characters => '=' :: characters

/-- The place of each character of the written form. -/
def positions : AttributeValue → List Position
  | .absent => []
  | .quoted characters =>
      .attrSetter :: .attrQuote :: List.replicate characters.length .attrValue ++
        [.attrQuoteClosed]
  | .unquoted characters =>
      .attrSetter :: List.replicate characters.length .attrValueUnquoted

/-- Whether a solidus after the value still belongs to it. -/
def isUnquoted : AttributeValue → Bool
  | .unquoted _ => true
  | .absent | .quoted _ => false

end AttributeValue

namespace Attribute

/-- A name is not empty and holds neither white space nor a character that ends it. -/
def WellFormed (item : Attribute) : Prop :=
  item.name ≠ [] ∧
    (∀ character ∈ item.name,
      isWhiteSpace character = false ∧ character ∉ ['=', '>', '/', '\x7b']) ∧
    item.value.WellFormed

/-- The written form, with the space before it. -/
def render (item : Attribute) : List Char :=
  ' ' :: item.name ++ item.value.render

/-- The place of each character of the written form. -/
def positions (item : Attribute) : List Position :=
  .elementSpace :: List.replicate item.name.length .attr ++
    item.value.positions

end Attribute

namespace OpenTag

/-- A name is not empty and holds neither white space nor a character that ends it. -/
def WellFormed (openTag : OpenTag) : Prop :=
  openTag.name ≠ [] ∧
    (∀ character ∈ openTag.name,
      isWhiteSpace character = false ∧ character ∉ ['>', '/']) ∧
    ∀ item ∈ openTag.attributes, item.WellFormed

/-- The written form up to the end of the last attribute. -/
def renderHead (openTag : OpenTag) : List Char :=
  '<' :: openTag.name ++ openTag.attributes.flatMap Attribute.render

/-- The written form of a tag with content. -/
def render (openTag : OpenTag) : List Char :=
  openTag.renderHead ++ ['>']

/-- The written form of a tag that is to close itself. -/
def renderClosed (openTag : OpenTag) : List Char :=
  openTag.renderHead ++ ['/', '>']

/-- The place of each character up to the end of the last attribute. -/
def headPositions (openTag : OpenTag) : List Position :=
  .element :: List.replicate openTag.name.length .tag ++
    openTag.attributes.flatMap Attribute.positions

/-- Whether the last attribute has a value without quotes. -/
def endsUnquoted (openTag : OpenTag) : Bool :=
  openTag.attributes.getLast?.any fun item => item.value.isUnquoted

/-- The place of each character of the written form of a tag with content. -/
def positions (openTag : OpenTag) : List Position :=
  openTag.headPositions ++ [.elementClosed]

/-- The place of each character of the written form of a tag that is to close itself. A
solidus right after an unquoted value belongs to the value, so such a tag has content
after all. -/
def closedPositions (openTag : OpenTag) : List Position :=
  openTag.headPositions ++
    if openTag.endsUnquoted then
      [.attrValueUnquoted, .elementClosed]
    else
      [.emptyElement, .emptyElementClosed]

end OpenTag

end TemplateMarkup
