import TemplateMarkup.Proofs.Position.Rows
import TemplateMarkup.Proofs.Token.Language
import TemplateMarkup.Proofs.Token.Segmentation

/-!
Contract: the grammar of what is read while a tag or an injection is open.

Owns:
- the parts of an opening tag as languages: its name, the names and values of its
  attributes, and what may stand between them;
- `upTo`, for each place the texts that lead to it from the start and complete nothing;
- the proof that these are all such texts.

Does not own: how a tag or an injection ends.

The grammar is built from the left, so its last part tells which characters can be last
and what stood before them. That is one step of a walk, read backwards.
-/

set_option autoImplicit false

namespace TemplateMarkup.Grammar

open scoped Computability
open TemplateMarkup.Text

/-! ## Characters -/

/-- One character of white space. -/
def blank : Language Char := oneOf fun character => isWhiteSpace character = true

/-- The given character. -/
def only (delimiter : Char) : Language Char := oneOf fun character => character = delimiter

/-- One character other than the given ones. -/
def outside (delimiters : List Char) : Language Char :=
  oneOf fun character => character ∉ delimiters

/-- One character other than white space and the given ones. -/
def solid (delimiters : List Char) : Language Char :=
  oneOf fun character => isWhiteSpace character = false ∧ character ∉ delimiters

/-! ## Parts of an opening tag -/

/-- The name of an element. -/
def elementName : Language Char :=
  solid ['>', '/'] * (solid ['>', '/'])∗

/-- The name of an attribute. An equals sign can only be its first character. -/
def attributeName : Language Char :=
  solid ['>', '/', '\x7b'] * (solid ['=', '>', '/', '\x7b'])∗

/-- A value in quotes, with the equals sign before it. -/
def quotedValue : Language Char :=
  only '=' * blank∗ * only '"' * (outside ['"'])∗ * only '"'

/-- A value without quotes, with the equals sign before it. Its first character can be a
greater-than sign. -/
def unquotedValue : Language Char :=
  only '=' * blank∗ * solid ['"'] * (solid ['>'])∗

/-- What can stand after the white space that follows the name of an element. A value is
followed by one more character: any that does not end the tag after a quote, white space
after a value without quotes. -/
def item : Language Char :=
  blank + attributeName * blank + attributeName * quotedValue * outside ['>', '/'] +
    attributeName * unquotedValue * blank

/-- An opening tag up to the end of its name. -/
def tagHead : Language Char := only '<' * blank∗ * elementName

/-- An opening tag up to a place where an attribute can start. -/
def tagSpaced : Language Char := tagHead * blank * item∗

/-! ## Texts that lead to a place -/

/-- The texts that lead from the start to a place and complete nothing. -/
def upTo : Position → Language Char
  | .initial => 1
  | .element => only '<' * blank∗
  | .tag => tagHead
  | .elementSpace => tagSpaced
  | .attr => tagSpaced * attributeName
  | .attrSetter => tagSpaced * attributeName * only '=' * blank∗
  | .attrQuote => tagSpaced * attributeName * only '=' * blank∗ * only '"'
  | .attrValue =>
      tagSpaced * attributeName * only '=' * blank∗ * only '"' *
        outside ['"'] * (outside ['"'])∗
  | .attrQuoteClosed => tagSpaced * attributeName * quotedValue
  | .attrValueUnquoted => tagSpaced * attributeName * unquotedValue
  | .emptyElement =>
      (tagHead + tagSpaced + tagSpaced * attributeName +
        tagSpaced * attributeName * quotedValue) * only '/' * (outside ['>'])∗
  | .tailElementSolidus => only '<' * blank∗ * only '/' * blank∗
  | .tailTag => only '<' * blank∗ * only '/' * blank∗ * solid ['>'] * (solid ['>'])∗
  | .tailElementSpace =>
      only '<' * blank∗ * only '/' * blank∗ * solid ['>'] * (solid ['>'])∗ * blank *
        (outside ['>'])∗
  | .attrMapInjection => (tagSpaced + tagSpaced * attributeName) * only '\x7b'
  | .descendantInjection => only '\x7b'
  | .injectionSpace =>
      ((tagSpaced + tagSpaced * attributeName) * only '\x7b' + only '\x7b') *
        outside ['\x7d'] * (outside ['\x7d'])∗
  | .text | .elementClosed | .emptyElementClosed | .tailElementClosed | .fragment
  | .fragmentClosed | .injectionConfirmed | .altText | .altTextCloseSequence
  | .commentText => 0

variable {front : List Char} {character : Char} {position : Position}

/-! ## The last character -/

/-- Where an attribute can start, the last character is the white space after the name of
the element or the last one of an item. -/
theorem tagSpaced_eq :
    tagSpaced =
      tagHead * blank + tagSpaced * blank + tagSpaced * attributeName * blank +
        tagSpaced * attributeName * quotedValue * outside ['>', '/'] +
        tagSpaced * attributeName * unquotedValue * blank := by
  calc
    tagSpaced = tagHead * blank + tagSpaced * item := mul_kstar_eq _ _
    _ = _ := by
      simp only [item, mul_add, ← mul_assoc, ← add_assoc]

@[simp] theorem snoc_mem_upTo_element :
    front ++ [character] ∈ upTo .element ↔
      (front ∈ upTo .initial ∧ character = '<') ∨
      (front ∈ upTo .element ∧ isWhiteSpace character = true) := by
  simp only [upTo, blank, only, snoc_mem_mul_kstar_oneOf, snoc_mem_oneOf]

@[simp] theorem snoc_mem_upTo_tag :
    front ++ [character] ∈ upTo .tag ↔
      (front ∈ upTo .element ∧ isWhiteSpace character = false ∧ character ∉ ['>', '/']) ∨
      (front ∈ upTo .tag ∧ isWhiteSpace character = false ∧ character ∉ ['>', '/']) := by
  simp only [upTo, tagHead, elementName, solid, ← mul_assoc, snoc_mem_mul_kstar_oneOf,
    snoc_mem_mul_oneOf]

@[simp] theorem snoc_mem_upTo_elementSpace :
    front ++ [character] ∈ upTo .elementSpace ↔
      (front ∈ upTo .tag ∧ isWhiteSpace character = true) ∨
      (front ∈ upTo .elementSpace ∧ isWhiteSpace character = true) ∨
      (front ∈ upTo .attr ∧ isWhiteSpace character = true) ∨
      (front ∈ upTo .attrQuoteClosed ∧ character ∉ ['>', '/']) ∨
      (front ∈ upTo .attrValueUnquoted ∧ isWhiteSpace character = true) := by
  refine (Language.ext_iff.mp tagSpaced_eq (front ++ [character])).trans ?_
  simp only [upTo, Language.mem_add, blank, outside, snoc_mem_mul_oneOf, or_assoc]

@[simp] theorem snoc_mem_upTo_attr :
    front ++ [character] ∈ upTo .attr ↔
      (front ∈ upTo .elementSpace ∧
        isWhiteSpace character = false ∧ character ∉ ['>', '/', '\x7b']) ∨
      (front ∈ upTo .attr ∧
        isWhiteSpace character = false ∧ character ∉ ['=', '>', '/', '\x7b']) := by
  simp only [upTo, attributeName, solid, ← mul_assoc, snoc_mem_mul_kstar_oneOf,
    snoc_mem_mul_oneOf]

@[simp] theorem snoc_mem_upTo_attrSetter :
    front ++ [character] ∈ upTo .attrSetter ↔
      (front ∈ upTo .attr ∧ character = '=') ∨
      (front ∈ upTo .attrSetter ∧ isWhiteSpace character = true) := by
  simp only [upTo, only, blank, snoc_mem_mul_kstar_oneOf, snoc_mem_mul_oneOf]

@[simp] theorem snoc_mem_upTo_attrQuote :
    front ++ [character] ∈ upTo .attrQuote ↔ front ∈ upTo .attrSetter ∧ character = '"' := by
  simp only [upTo, only, snoc_mem_mul_oneOf]

@[simp] theorem snoc_mem_upTo_attrValue :
    front ++ [character] ∈ upTo .attrValue ↔
      (front ∈ upTo .attrQuote ∧ character ∉ ['"']) ∨
      (front ∈ upTo .attrValue ∧ character ∉ ['"']) := by
  simp only [upTo, outside, snoc_mem_mul_kstar_oneOf, snoc_mem_mul_oneOf]

@[simp] theorem snoc_mem_upTo_attrQuoteClosed :
    front ++ [character] ∈ upTo .attrQuoteClosed ↔
      (front ∈ upTo .attrQuote ∨ front ∈ upTo .attrValue) ∧ character = '"' := by
  have lastQuote :
      upTo .attrQuoteClosed = upTo .attrQuote * (outside ['"'])∗ * only '"' := by
    simp only [upTo, quotedValue, ← mul_assoc]
  rw [lastQuote, only, snoc_mem_mul_oneOf, mem_mul_kstar_iff]
  rfl

@[simp] theorem snoc_mem_upTo_attrValueUnquoted :
    front ++ [character] ∈ upTo .attrValueUnquoted ↔
      (front ∈ upTo .attrSetter ∧ isWhiteSpace character = false ∧ character ∉ ['"']) ∨
      (front ∈ upTo .attrValueUnquoted ∧
        isWhiteSpace character = false ∧ character ∉ ['>']) := by
  simp only [upTo, unquotedValue, solid, ← mul_assoc, snoc_mem_mul_kstar_oneOf,
    snoc_mem_mul_oneOf]

@[simp] theorem snoc_mem_upTo_emptyElement :
    front ++ [character] ∈ upTo .emptyElement ↔
      ((front ∈ upTo .tag ∨ front ∈ upTo .elementSpace ∨ front ∈ upTo .attr ∨
          front ∈ upTo .attrQuoteClosed) ∧ character = '/') ∨
      (front ∈ upTo .emptyElement ∧ character ∉ ['>']) := by
  simp only [upTo, only, outside, snoc_mem_mul_kstar_oneOf, snoc_mem_mul_oneOf,
    Language.mem_add, or_assoc]

@[simp] theorem snoc_mem_upTo_tailElementSolidus :
    front ++ [character] ∈ upTo .tailElementSolidus ↔
      (front ∈ upTo .element ∧ character = '/') ∨
      (front ∈ upTo .tailElementSolidus ∧ isWhiteSpace character = true) := by
  simp only [upTo, only, blank, snoc_mem_mul_kstar_oneOf, snoc_mem_mul_oneOf]

@[simp] theorem snoc_mem_upTo_tailTag :
    front ++ [character] ∈ upTo .tailTag ↔
      (front ∈ upTo .tailElementSolidus ∧
        isWhiteSpace character = false ∧ character ∉ ['>']) ∨
      (front ∈ upTo .tailTag ∧ isWhiteSpace character = false ∧ character ∉ ['>']) := by
  simp only [upTo, solid, snoc_mem_mul_kstar_oneOf, snoc_mem_mul_oneOf]

@[simp] theorem snoc_mem_upTo_tailElementSpace :
    front ++ [character] ∈ upTo .tailElementSpace ↔
      (front ∈ upTo .tailTag ∧ isWhiteSpace character = true) ∨
      (front ∈ upTo .tailElementSpace ∧ character ∉ ['>']) := by
  simp only [upTo, blank, outside, snoc_mem_mul_kstar_oneOf, snoc_mem_mul_oneOf]

@[simp] theorem snoc_mem_upTo_attrMapInjection :
    front ++ [character] ∈ upTo .attrMapInjection ↔
      (front ∈ upTo .elementSpace ∨ front ∈ upTo .attr) ∧ character = '\x7b' := by
  simp only [upTo, only, snoc_mem_mul_oneOf, Language.mem_add]

@[simp] theorem snoc_mem_upTo_descendantInjection :
    front ++ [character] ∈ upTo .descendantInjection ↔
      front ∈ upTo .initial ∧ character = '\x7b' := by
  simp only [upTo, only, snoc_mem_oneOf]

@[simp] theorem snoc_mem_upTo_injectionSpace :
    front ++ [character] ∈ upTo .injectionSpace ↔
      ((front ∈ upTo .attrMapInjection ∨ front ∈ upTo .descendantInjection) ∧
        character ∉ ['\x7d']) ∨
      (front ∈ upTo .injectionSpace ∧ character ∉ ['\x7d']) := by
  simp only [upTo, outside, snoc_mem_mul_kstar_oneOf, snoc_mem_mul_oneOf, Language.mem_add]

/-! ## Steps -/

/-- A step that completes nothing leads from the texts of one place to those of the
next. -/
theorem snoc_mem_upTo_next
    (member : front ∈ upTo position)
    (stillOpen : (position.next character).atDocumentLevel = false) :
    front ++ [character] ∈ upTo (position.next character) := by
  cases position
  case text | elementClosed | emptyElementClosed | tailElementClosed | fragment |
      fragmentClosed | injectionConfirmed | altText | altTextCloseSequence | commentText =>
    exact absurd member (Language.notMem_zero front)
  -- For every other place, each test of its row is one line of the equations above.
  all_goals
    simp only [Position.next_initial, Position.next_element, Position.next_tag,
      Position.next_elementSpace, Position.next_attr, Position.next_attrSetter,
      Position.next_of_quoted, Position.next_attrQuoteClosed, Position.next_attrValueUnquoted,
      Position.next_emptyElement, Position.next_tailElementSolidus, Position.next_tailTag,
      Position.next_tailElementSpace, Position.next_of_injected, true_or, or_true]
      at stillOpen ⊢
    split_ifs at stillOpen ⊢ <;> simp_all [Position.atDocumentLevel]

/-- The texts of a place have no others as their beginnings than those of a place one
step before. -/
theorem exists_next_of_snoc_mem_upTo (member : front ++ [character] ∈ upTo position) :
    ∃ before, front ∈ upTo before ∧ before.next character = position := by
  cases position with
  | initial => simp [upTo] at member
  | element =>
      rcases snoc_mem_upTo_element.mp member with ⟨before, rfl⟩ | ⟨before, space⟩
      · exact ⟨_, before, rfl⟩
      · exact ⟨_, before, by simp [Position.next_element, space]⟩
  | tag =>
      rcases snoc_mem_upTo_tag.mp member with ⟨before, other⟩ | ⟨before, other⟩
      · exact ⟨_, before, by simp_all [Position.next_element]⟩
      · exact ⟨_, before, by simp_all [Position.next_tag]⟩
  | elementSpace =>
      rcases snoc_mem_upTo_elementSpace.mp member with
        ⟨before, space⟩ | ⟨before, space⟩ | ⟨before, space⟩ | ⟨before, other⟩ | ⟨before, space⟩
      · exact ⟨_, before, by simp [Position.next_tag, space]⟩
      · exact ⟨_, before, by simp [Position.next_elementSpace, space]⟩
      · exact ⟨_, before, by simp [Position.next_attr, space]⟩
      · exact ⟨_, before, by simp_all [Position.next_attrQuoteClosed]⟩
      · exact ⟨_, before, by simp [Position.next_attrValueUnquoted, space]⟩
  | attr =>
      rcases snoc_mem_upTo_attr.mp member with ⟨before, other⟩ | ⟨before, other⟩
      · exact ⟨_, before, by simp_all [Position.next_elementSpace]⟩
      · exact ⟨_, before, by simp_all [Position.next_attr]⟩
  | attrSetter =>
      rcases snoc_mem_upTo_attrSetter.mp member with ⟨before, rfl⟩ | ⟨before, space⟩
      · exact ⟨_, before, rfl⟩
      · exact ⟨_, before, by simp [Position.next_attrSetter, space]⟩
  | attrQuote =>
      obtain ⟨before, rfl⟩ := snoc_mem_upTo_attrQuote.mp member
      exact ⟨_, before, rfl⟩
  | attrValue =>
      rcases snoc_mem_upTo_attrValue.mp member with ⟨before, other⟩ | ⟨before, other⟩
      · exact ⟨_, before, by simp_all [Position.next_of_quoted]⟩
      · exact ⟨_, before, by simp_all [Position.next_of_quoted]⟩
  | attrQuoteClosed =>
      obtain ⟨before | before, rfl⟩ := snoc_mem_upTo_attrQuoteClosed.mp member
      · exact ⟨_, before, rfl⟩
      · exact ⟨_, before, rfl⟩
  | attrValueUnquoted =>
      rcases snoc_mem_upTo_attrValueUnquoted.mp member with ⟨before, other⟩ | ⟨before, other⟩
      · exact ⟨_, before, by simp_all [Position.next_attrSetter]⟩
      · exact ⟨_, before, by simp_all [Position.next_attrValueUnquoted]⟩
  | emptyElement =>
      rcases snoc_mem_upTo_emptyElement.mp member with
        ⟨before | before | before | before, rfl⟩ | ⟨before, other⟩
      · exact ⟨_, before, rfl⟩
      · exact ⟨_, before, rfl⟩
      · exact ⟨_, before, rfl⟩
      · exact ⟨_, before, rfl⟩
      · exact ⟨_, before, by simp_all [Position.next_emptyElement]⟩
  | tailElementSolidus =>
      rcases snoc_mem_upTo_tailElementSolidus.mp member with ⟨before, rfl⟩ | ⟨before, space⟩
      · exact ⟨_, before, rfl⟩
      · exact ⟨_, before, by simp [Position.next_tailElementSolidus, space]⟩
  | tailTag =>
      rcases snoc_mem_upTo_tailTag.mp member with ⟨before, other⟩ | ⟨before, other⟩
      · exact ⟨_, before, by simp_all [Position.next_tailElementSolidus]⟩
      · exact ⟨_, before, by simp_all [Position.next_tailTag]⟩
  | tailElementSpace =>
      rcases snoc_mem_upTo_tailElementSpace.mp member with ⟨before, space⟩ | ⟨before, other⟩
      · exact ⟨_, before, by simp [Position.next_tailTag, space]⟩
      · exact ⟨_, before, by simp_all [Position.next_tailElementSpace]⟩
  | attrMapInjection =>
      obtain ⟨before | before, rfl⟩ := snoc_mem_upTo_attrMapInjection.mp member
      · exact ⟨_, before, rfl⟩
      · exact ⟨_, before, rfl⟩
  | descendantInjection =>
      obtain ⟨before, rfl⟩ := snoc_mem_upTo_descendantInjection.mp member
      exact ⟨_, before, rfl⟩
  | injectionSpace =>
      rcases snoc_mem_upTo_injectionSpace.mp member with
        ⟨before | before, other⟩ | ⟨before, other⟩
      · exact ⟨_, before, by simp_all [Position.next_of_injected]⟩
      · exact ⟨_, before, by simp_all [Position.next_of_injected]⟩
      · exact ⟨_, before, by simp_all [Position.next_of_injected]⟩
  | text | elementClosed | emptyElementClosed | tailElementClosed | fragment
  | fragmentClosed | injectionConfirmed | altText | altTextCloseSequence | commentText =>
      exact absurd member (Language.notMem_zero _)

/-- No text with a character leads to the document level and completes nothing. -/
theorem not_atDocumentLevel_of_snoc_mem_upTo
    (member : front ++ [character] ∈ upTo position) :
    position.atDocumentLevel = false := by
  cases position with
  | initial => simp [upTo] at member
  | text | elementClosed | emptyElementClosed | tailElementClosed | fragment
  | fragmentClosed | injectionConfirmed => exact absurd member (Language.notMem_zero _)
  | _ => rfl

/-- Only the start is reached by no character. -/
theorem nil_mem_upTo : [] ∈ upTo position ↔ position = .initial := by
  have notTagHead : [] ∉ tagHead := by
    simp [tagHead, only, nil_mem_mul]
  have notTagSpaced : [] ∉ tagSpaced := by
    simp [tagSpaced, nil_mem_mul, notTagHead]
  cases position <;>
    simp [upTo, only, outside, solid, blank, nil_mem_mul, notTagHead,
      notTagSpaced]

/-! ## Walks -/

/-- The grammar gives for each place exactly the texts that lead to it from the start and
complete nothing. -/
theorem mem_upTo_iff (text : List Char) (position : Position) :
    text ∈ upTo position ↔
      Position.initial.after text = position ∧ StaysOpen .initial text := by
  induction text using List.reverseRecOn generalizing position with
  | nil => simp [nil_mem_upTo, eq_comm]
  | append_singleton front character inductionHypothesis =>
      rw [Position.after_append, staysOpen_append]
      constructor
      · intro member
        obtain ⟨before, beforeMember, rfl⟩ := exists_next_of_snoc_mem_upTo member
        obtain ⟨rfl, frontOpen⟩ := (inductionHypothesis before).mp beforeMember
        have stillOpen := not_atDocumentLevel_of_snoc_mem_upTo member
        exact ⟨rfl, frontOpen, (staysOpen_cons ..).mpr ⟨stillOpen, staysOpen_nil _⟩⟩
      · intro parts
        obtain ⟨rfl, frontOpen, lastOpen⟩ := parts
        have frontMember := (inductionHypothesis _).mpr ⟨rfl, frontOpen⟩
        exact snoc_mem_upTo_next frontMember ((staysOpen_cons ..).mp lastOpen).1

end TemplateMarkup.Grammar
