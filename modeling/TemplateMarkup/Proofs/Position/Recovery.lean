import TemplateMarkup.Position.Level

/-!
Contract: raw text is closed off from the rest, and outside it three characters make up for
whatever was read before them.

Owns:
- the walks inside raw text, and the places that a walk outside it visits;
- `recovery`, the closing brace, the quote and the greater-than sign after which every walk
  outside raw text goes on like one from the start.

Does not own: the end of raw text, which no walk finds.

Each character of `recovery` narrows down what can be open. The brace ends an injection and
starts an unquoted value where a value is due, so the quote cannot open a quoted one but
ends it. What is left is ended by the greater-than sign.
-/

set_option autoImplicit false

namespace TemplateMarkup.Position

open TemplateMarkup.Text

/-! ## Inside raw text -/

theorem walk_eq_replicate
    {place : Position}
    (stays : ∀ character, place.next character = place)
    (text : List Char) :
    place.walk text = List.replicate text.length place :=
  trace_eq_replicate fun character _ => stays character

theorem walk_altText (text : List Char) :
    altText.walk text = List.replicate text.length .altText :=
  walk_eq_replicate (fun _ => rfl) text

theorem walk_altTextCloseSequence (text : List Char) :
    altTextCloseSequence.walk text = List.replicate text.length .altText := by
  cases text with
  | nil => rfl
  | cons character rest => exact congrArg (List.cons altText) (walk_altText rest)

theorem walk_commentText (text : List Char) :
    commentText.walk text = List.replicate text.length .commentText :=
  walk_eq_replicate (fun _ => rfl) text

/-! ## Outside raw text -/

theorem exists_next_of_mem_walk
    {start visited : Position}
    {text : List Char}
    (member : visited ∈ start.walk text) :
    ∃ front character, visited = (start.after front).next character := by
  induction text generalizing start with
  | nil => cases member
  | cons character rest inductionHypothesis =>
      rcases List.mem_cons.mp member with first | later
      · exact ⟨[], character, first⟩
      · obtain ⟨front, last, same⟩ := inductionHypothesis later
        exact ⟨character :: front, last, same⟩

@[simp] theorem isRaw_after (start : Position) (text : List Char) :
    (start.after text).isRaw = start.isRaw := by
  induction text generalizing start with
  | nil => rfl
  | cons character rest inductionHypothesis =>
      rw [after_cons, inductionHypothesis, isRaw_next]

theorem notMem_of_mem_walk
    {start visited : Position}
    {text : List Char}
    (outside : start.isRaw = false)
    (member : visited ∈ start.walk text) :
    visited ∉ [initial, altText, altTextCloseSequence, commentText] := by
  obtain ⟨front, character, rfl⟩ := exists_next_of_mem_walk member
  rw [notMem_initial_and_raw_iff, isRaw_next, isRaw_after]
  exact ⟨outside, next_ne_initial _ _⟩

/-! ## Recovery -/

/-- The text that ends whatever can be open outside raw text. -/
def recovery : List Char :=
  ['\x7d', '"', '>']

/-- Places from which a greater-than sign ends a tag with a name, or is text. -/
def endsAtGreaterThan : Position → Bool
  | .tag | .elementSpace | .attr | .attrQuoteClosed | .attrValueUnquoted | .emptyElement
  | .tailTag | .tailElementSpace => true
  | position => position.atDocumentLevel

variable {position : Position}

theorem next_closeBrace (outside : position.isRaw = false) :
    (position.next '\x7d').inInjection = false ∧ position.next '\x7d' ≠ .attrSetter := by
  revert outside
  cases position <;> decide

theorem next_quote
    (outside : position.isRaw = false)
    (noInjection : position.inInjection = false)
    (noValueDue : position ≠ .attrSetter) :
    (position.next '"').endsAtGreaterThan = true := by
  revert outside noInjection noValueDue
  cases position <;> decide

theorem next_greaterThan (ends : position.endsAtGreaterThan = true) :
    position.next '>' ∈ [text, elementClosed, emptyElementClosed, tailElementClosed] := by
  revert ends
  cases position <;> decide

theorem after_recovery (outside : position.isRaw = false) :
    position.after recovery ∈ [text, elementClosed, emptyElementClosed, tailElementClosed] := by
  obtain ⟨noInjection, noValueDue⟩ := next_closeBrace outside
  have stillOutside : (position.next '\x7d').isRaw = false := by
    rw [isRaw_next, outside]
  exact next_greaterThan (next_quote stillOutside noInjection noValueDue)

theorem atDocumentLevel_after_recovery (outside : position.isRaw = false) :
    (position.after recovery).atDocumentLevel = true := by
  have settled := after_recovery outside
  simp only [List.mem_cons, List.not_mem_nil, or_false] at settled
  rcases settled with same | same | same | same <;> rw [same] <;> rfl

/-- A walk inside raw text stays there and a walk outside it never gets there, nor back to
the start. Outside raw text, whatever was read and wherever it started, `recovery` leads to
the document level, and what follows is read as from the start. -/
theorem raw_text_isolated_and_recovery_resets (start : Position) (front : List Char) :
    (start = .altText ∨ start = .altTextCloseSequence →
      ∀ visited ∈ start.walk front, visited = .altText) ∧
    (start = .commentText → ∀ visited ∈ start.walk front, visited = .commentText) ∧
    (start.isRaw = false →
      (∀ visited ∈ start.walk front,
        visited ∉ [initial, altText, altTextCloseSequence, commentText]) ∧
      start.after (front ++ recovery) ∈
        [text, elementClosed, emptyElementClosed, tailElementClosed] ∧
      (∀ following,
        start.walk (front ++ recovery ++ following) =
          start.walk (front ++ recovery) ++ initial.walk following) ∧
      ∀ (otherStart : Position) (otherFront following : List Char),
        otherStart.isRaw = false →
          (start.after (front ++ recovery)).walk following =
            (otherStart.after (otherFront ++ recovery)).walk following) := by
  have resets :
      ∀ (anyStart : Position) (anyFront following : List Char),
        anyStart.isRaw = false →
          (anyStart.after (anyFront ++ recovery)).walk following = initial.walk following := by
    intro anyStart anyFront following outside
    rw [after_append]
    apply walk_of_atDocumentLevel
    apply atDocumentLevel_after_recovery
    rw [isRaw_after, outside]
  refine ⟨?_, ?_, fun outside => ⟨fun visited => notMem_of_mem_walk outside, ?_, ?_, ?_⟩⟩
  · rintro (rfl | rfl) visited member
    · rw [walk_altText] at member
      exact List.eq_of_mem_replicate member
    · rw [walk_altTextCloseSequence] at member
      exact List.eq_of_mem_replicate member
  · rintro rfl visited member
    rw [walk_commentText] at member
    exact List.eq_of_mem_replicate member
  · rw [after_append]
    apply after_recovery
    rw [isRaw_after, outside]
  · intro following
    rw [walk_append, resets start front following outside]
  · intro otherStart otherFront following otherOutside
    rw [resets start front following outside,
      resets otherStart otherFront following otherOutside]

/-- A quoted value and an injection that were left open, and two walks inside raw text. -/
theorem raw_text_isolated_and_recovery_resets_open_value :
    (∀ visited ∈ altTextCloseSequence.walk "</b>".toList, visited = altText) ∧
    (∀ visited ∈ commentText.walk "-->".toList, visited = commentText) ∧
    attrSetter.isRaw = false ∧ initial.isRaw = false ∧
    attrSetter.after ("=\"x".toList ++ recovery) = elementClosed ∧
    attrSetter.walk ("=\"x".toList ++ recovery ++ "<b>".toList) =
      attrSetter.walk ("=\"x".toList ++ recovery) ++ [element, tag, elementClosed] ∧
    (attrSetter.after ("=\"x".toList ++ recovery)).walk "<b>".toList =
      (initial.after ("<a \x7b".toList ++ recovery)).walk "<b>".toList := by
  obtain ⟨-, -, recovers⟩ := raw_text_isolated_and_recovery_resets attrSetter "=\"x".toList
  obtain ⟨-, -, asFromStart, coincide⟩ := recovers rfl
  refine ⟨(raw_text_isolated_and_recovery_resets _ _).1 (Or.inr rfl),
    (raw_text_isolated_and_recovery_resets _ _).2.1 rfl, rfl, rfl, by decide, ?_, ?_⟩
  · exact asFromStart "<b>".toList
  · exact coincide initial "<a \x7b".toList "<b>".toList rfl

end TemplateMarkup.Position
