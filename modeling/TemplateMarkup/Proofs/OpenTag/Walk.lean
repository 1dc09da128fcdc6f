import TemplateMarkup.OpenTag
import TemplateMarkup.Position.Level
import TemplateMarkup.Proofs.Position.Rows

/-!
Contract: the walk through a written opening tag goes through the places that are meant for
its parts.

Owns:
- `Position.Reads`, a stretch of text with its places and the place it leads to, and how
  stretches are put together;
- the stretches of names, values and attributes;
- the two ends of a tag.

Does not own: tags whose parts could not be written as they are.

Each part of a tag is one stretch. The stretches fit together because every attribute, from
whatever kind of value it follows, starts at a space.
-/

set_option autoImplicit false

namespace TemplateMarkup

open TemplateMarkup.Text

/-! ## Stretches -/

namespace Position

/-- From `before`, the characters of the text are read at the given places, and the last of
them is `ending`. -/
structure Reads
    (before : Position)
    (text : List Char)
    (places : List Position)
    (ending : Position) : Prop where
  walk_eq : before.walk text = places
  after_eq : before.after text = ending

namespace Reads

variable {before middle ending place : Position} {front back : List Char}
variable {frontPlaces backPlaces : List Position}

theorem nil (place : Position) : Reads place [] [] place := ⟨rfl, rfl⟩

theorem append
    (first : Reads before front frontPlaces middle)
    (second : Reads middle back backPlaces ending) :
    Reads before (front ++ back) (frontPlaces ++ backPlaces) ending where
  walk_eq := by rw [walk_append, first.walk_eq, first.after_eq, second.walk_eq]
  after_eq := by rw [after_append, first.after_eq, second.after_eq]

theorem cons
    {character : Char}
    (step : before.next character = place)
    (second : Reads place back backPlaces ending) :
    Reads before (character :: back) (place :: backPlaces) ending where
  walk_eq := by rw [walk_cons, step, second.walk_eq]
  after_eq := by rw [after_cons, step, second.after_eq]

/-- A stretch that is entered with its first character and kept up by the others. -/
theorem enter
    (notEmpty : front ≠ [])
    (enters : ∀ character, front.head? = some character → before.next character = place)
    (stays : ∀ character ∈ front, place.next character = place) :
    Reads before front (List.replicate front.length place) place := by
  cases front with
  | nil => exact absurd rfl notEmpty
  | cons character rest =>
      have staysLater := (List.forall_mem_cons.mp stays).2
      exact cons (enters character rfl) ⟨trace_eq_replicate staysLater, final_eq_self staysLater⟩

end Reads

end Position

open Position (Reads)

/-! ## Values -/

namespace AttributeValue

/-- The place of the last character of an attribute with the given value. -/
def ending : AttributeValue → Position
  | .absent => .attr
  | .quoted _ => .attrQuoteClosed
  | .unquoted _ => .attrValueUnquoted

theorem reads_quoted
    {position : Position}
    {characters : List Char}
    (quoted : position = .attrQuote ∨ position = .attrValue)
    (noQuote : '"' ∉ characters) :
    Reads position (characters ++ ['"'])
      (List.replicate characters.length .attrValue ++ [.attrQuoteClosed]) .attrQuoteClosed := by
  induction characters generalizing position with
  | nil =>
      apply Reads.cons _ (Reads.nil _)
      rw [Position.next_of_quoted _ quoted, if_pos rfl]
  | cons character rest inductionHypothesis =>
      rw [List.mem_cons, not_or] at noQuote
      apply Reads.cons _ (inductionHypothesis (Or.inr rfl) noQuote.2)
      rw [Position.next_of_quoted _ quoted, if_neg (Ne.symm noQuote.1)]

theorem reads_render {value : AttributeValue} (wellFormed : value.WellFormed) :
    Reads .attr value.render value.positions value.ending := by
  have setter : Position.attr.next '=' = .attrSetter := rfl
  cases value with
  | absent => exact Reads.nil _
  | quoted characters =>
      have opened : Position.attrSetter.next '"' = .attrQuote := rfl
      exact Reads.cons setter (Reads.cons opened (reads_quoted (Or.inl rfl) wellFormed))
  | unquoted characters =>
      obtain ⟨notEmpty, noQuoteFirst, solid⟩ := wellFormed
      apply Reads.cons setter
      apply Reads.enter notEmpty
      · intro character isFirst
        have notQuote : character ≠ '"' := by
          rintro rfl
          exact noQuoteFirst isFirst
        have first := solid character (List.mem_of_mem_head? isFirst)
        simp [Position.next_attrSetter, first.1, notQuote]
      · intro character member
        have later := solid character member
        simp [Position.next_attrValueUnquoted, later.1, later.2]

/-- After every kind of value a space ends the attribute, and so does the end of the tag. -/
theorem next_ending (value : AttributeValue) :
    value.ending.next ' ' = .elementSpace ∧ value.ending.next '>' = .elementClosed := by
  cases value <;> exact ⟨rfl, rfl⟩

end AttributeValue

/-! ## Attributes -/

namespace Attribute

theorem reads_name
    {name : List Char}
    (notEmpty : name ≠ [])
    (solid : ∀ character ∈ name,
      isWhiteSpace character = false ∧ character ∉ ['=', '>', '/', '\x7b']) :
    Reads .elementSpace name (List.replicate name.length .attr) .attr := by
  apply Reads.enter notEmpty
  · intro character isFirst
    have first := solid character (List.mem_of_mem_head? isFirst)
    simp only [List.mem_cons, List.not_mem_nil, or_false, not_or] at first
    simp [Position.next_elementSpace, first]
  · intro character member
    have later := solid character member
    simp only [List.mem_cons, List.not_mem_nil, or_false, not_or] at later
    simp [Position.next_attr, later]

theorem reads_render
    {before : Position}
    {item : Attribute}
    (spaced : before.next ' ' = .elementSpace)
    (wellFormed : item.WellFormed) :
    Reads before item.render item.positions item.value.ending := by
  obtain ⟨notEmpty, solid, valueWellFormed⟩ := wellFormed
  have named := reads_name notEmpty solid
  exact Reads.cons spaced (named.append (AttributeValue.reads_render valueWellFormed))

/-- The place to which a list of attributes leads from `before`. -/
def endingOf (before : Position) (attributes : List Attribute) : Position :=
  match attributes.getLast? with
  | none => before
  | some item => item.value.ending

theorem endingOf_cons (before : Position) (item : Attribute) (rest : List Attribute) :
    endingOf before (item :: rest) = endingOf item.value.ending rest := by
  unfold endingOf
  rw [List.getLast?_cons]
  cases rest.getLast? <;> rfl

theorem reads_renderAll
    {before : Position}
    {attributes : List Attribute}
    (spaced : before.next ' ' = .elementSpace)
    (wellFormed : ∀ item ∈ attributes, item.WellFormed) :
    Reads before (attributes.flatMap render) (attributes.flatMap positions)
      (endingOf before attributes) := by
  -- The place before is kept general, since the rest follows the value of the first attribute.
  induction attributes generalizing before with
  | nil => exact Reads.nil before
  | cons item rest inductionHypothesis =>
      rw [List.forall_mem_cons] at wellFormed
      rw [List.flatMap_cons, List.flatMap_cons, endingOf_cons]
      apply (reads_render spaced wellFormed.1).append
      exact inductionHypothesis item.value.next_ending.1 wellFormed.2

end Attribute

/-! ## Tags -/

namespace OpenTag

variable {openTag : OpenTag} {start : Position}

/-- The place of the last character before the end of a tag. -/
def headEnd (openTag : OpenTag) : Position :=
  Attribute.endingOf .tag openTag.attributes

theorem reads_name
    {name : List Char}
    (notEmpty : name ≠ [])
    (solid : ∀ character ∈ name, isWhiteSpace character = false ∧ character ∉ ['>', '/']) :
    Reads .element name (List.replicate name.length .tag) .tag := by
  apply Reads.enter notEmpty
  · intro character isFirst
    have first := solid character (List.mem_of_mem_head? isFirst)
    simp only [List.mem_cons, List.not_mem_nil, or_false, not_or] at first
    simp [Position.next_element, first]
  · intro character member
    have later := solid character member
    simp only [List.mem_cons, List.not_mem_nil, or_false, not_or] at later
    simp [Position.next_tag, later]

theorem reads_renderHead
    (wellFormed : openTag.WellFormed)
    (level : start.atDocumentLevel = true) :
    Reads start openTag.renderHead openTag.headPositions openTag.headEnd := by
  obtain ⟨notEmpty, solid, attributesWellFormed⟩ := wellFormed
  have opened : start.next '<' = .element := Position.next_of_atDocumentLevel level '<'
  have named := reads_name notEmpty solid
  exact Reads.cons opened (named.append (Attribute.reads_renderAll rfl attributesWellFormed))

theorem next_headEnd_greaterThan (openTag : OpenTag) :
    openTag.headEnd.next '>' = .elementClosed := by
  unfold headEnd Attribute.endingOf
  cases openTag.attributes.getLast? with
  | none => rfl
  | some item => exact item.value.next_ending.2

/-- A solidus closes the tag, unless an unquoted value takes it in. -/
theorem reads_solidus_greaterThan (openTag : OpenTag) :
    openTag.headEnd.walk ['/', '>'] =
      if openTag.endsUnquoted then [.attrValueUnquoted, .elementClosed]
      else [.emptyElement, .emptyElementClosed] := by
  unfold headEnd Attribute.endingOf endsUnquoted
  cases openTag.attributes.getLast? with
  | none => rfl
  | some item =>
      show item.value.ending.walk _ = if item.value.isUnquoted then _ else _
      cases item.value <;> rfl

/-- Where nothing is open, a written opening tag is read at the places that are meant for its
parts: name, attribute names and values, and end. Written to close itself it does so, unless
its last value has no quotes and takes the solidus in. -/
theorem walk_render_eq_positions
    {openTag : OpenTag}
    {start : Position}
    (wellFormed : openTag.WellFormed)
    (level : start.atDocumentLevel = true) :
    start.walk openTag.render = openTag.positions ∧
      start.walk openTag.renderClosed = openTag.closedPositions := by
  have head := reads_renderHead wellFormed level
  refine ⟨?_, ?_⟩
  · rw [render, Position.walk_append, head.walk_eq, head.after_eq, Position.walk_cons,
      openTag.next_headEnd_greaterThan]
    rfl
  · rw [renderClosed, Position.walk_append, head.walk_eq, head.after_eq,
      openTag.reads_solidus_greaterThan]
    rfl

/-- Values full of markup, an empty one, none at all, and one that takes the solidus in. -/
theorem walk_render_eq_positions_mixed :
    ∃ openTag : OpenTag,
      openTag.WellFormed ∧ Position.fragment.atDocumentLevel = true ∧
      openTag.render = "<a b=\"/> <\" c=\"\" d e=f/\">".toList ∧
      Position.fragment.walk openTag.render =
        [.element, .tag,
          .elementSpace, .attr, .attrSetter, .attrQuote, .attrValue, .attrValue, .attrValue,
          .attrValue, .attrQuoteClosed,
          .elementSpace, .attr, .attrSetter, .attrQuote, .attrQuoteClosed,
          .elementSpace, .attr,
          .elementSpace, .attr, .attrSetter, .attrValueUnquoted, .attrValueUnquoted,
          .attrValueUnquoted, .elementClosed] ∧
      (Position.fragment.walk openTag.renderClosed).drop 24 =
        [.attrValueUnquoted, .elementClosed] := by
  have wellFormed :
      OpenTag.WellFormed
        ⟨['a'], [⟨['b'], .quoted "/> <".toList⟩, ⟨['c'], .quoted []⟩, ⟨['d'], .absent⟩,
          ⟨['e'], .unquoted "f/\"".toList⟩]⟩ := by
    simp [WellFormed, Attribute.WellFormed, AttributeValue.WellFormed, isWhiteSpace,
      whiteSpaceRanges]
  have level : Position.fragment.atDocumentLevel = true := rfl
  obtain ⟨open_eq, closed_eq⟩ := walk_render_eq_positions wellFormed level
  refine ⟨_, wellFormed, level, by decide, open_eq, ?_⟩
  rw [closed_eq]
  decide

end OpenTag

end TemplateMarkup
