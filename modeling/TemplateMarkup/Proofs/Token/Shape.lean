import TemplateMarkup.Proofs.Token.Grammar

/-!
Contract: the shapes of the tokens.

Owns:
- for each place at which a token can end, the grammar of the tokens that end there;
- the tokens that start with an opening brace.

Does not own: the grammar of what stands before the last character.
-/

set_option autoImplicit false

namespace TemplateMarkup

open scoped Computability
open TemplateMarkup.Grammar
open TemplateMarkup.Text

variable {text : List Char}

/-! ## The last step -/

/-- A token is a text that completes nothing, and one character that does. -/
theorem tokenEnding_iff_exists_upTo (text : List Char) (ending : Position) :
    TokenEnding text ending ↔
      ∃ front character before,
        text = front ++ [character] ∧ front ∈ upTo before ∧
          before.next character = ending ∧ ending.atDocumentLevel = true := by
  rw [tokenEnding_iff_completesAt, completesAt_iff_exists_last]
  constructor
  · intro parts
    obtain ⟨front, character, rfl, stillOpen, last⟩ := parts
    exact ⟨front, character, _, rfl, (mem_upTo_iff front _).mpr ⟨rfl, stillOpen⟩, last⟩
  · intro parts
    obtain ⟨front, character, before, rfl, member, last⟩ := parts
    obtain ⟨rfl, stillOpen⟩ := (mem_upTo_iff front before).mp member
    exact ⟨front, character, rfl, stillOpen, last⟩

/-- The tokens that end a tag or an injection at one place are the texts of the places
from which it is ended, with the delimiter that ends it after them. -/
theorem tokenEnding_iff_of_closedBy?
    {ending : Position}
    {kind : CharKind}
    {closer : Char}
    {language : Language Char}
    (closes : ending.closedBy? = some kind)
    (single : kind.delimiter? = some closer)
    (shape : ∀ front, front ∈ language ↔ ∃ before ∈ ending.closedFrom, front ∈ upTo before)
    (text : List Char) :
    TokenEnding text ending ↔ text ∈ language * only closer := by
  rw [tokenEnding_iff_exists_upTo, only, mem_mul_oneOf]
  constructor
  · intro token
    obtain ⟨front, character, before, rfl, member, last, -⟩ := token
    obtain ⟨isKind, listed⟩ := (Position.onKind_eq_iff_of_closedBy? closes before _).mp last
    have isCloser := (CharKind.of_eq_iff_of_delimiter? single character).mp isKind
    exact ⟨front, character, rfl, (shape front).mpr ⟨before, listed, member⟩, isCloser⟩
  · intro parts
    obtain ⟨front, character, rfl, frontMember, isCloser⟩ := parts
    obtain ⟨before, listed, member⟩ := (shape front).mp frontMember
    have isKind := (CharKind.of_eq_iff_of_delimiter? single character).mpr isCloser
    have last := (Position.onKind_eq_iff_of_closedBy? closes before _).mpr ⟨isKind, listed⟩
    exact ⟨front, character, before, rfl, member, last,
      Position.atDocumentLevel_of_closedBy? closes⟩

/-! ## Opening tags -/

theorem tokenEnding_elementClosed_iff (text : List Char) :
    TokenEnding text .elementClosed ↔
      text ∈ (tagHead + tagSpaced + tagSpaced * attributeName +
        tagSpaced * attributeName * quotedValue +
        tagSpaced * attributeName * unquotedValue) * only '>' := by
  refine tokenEnding_iff_of_closedBy? rfl rfl ?_ text
  intro front
  simp only [Language.mem_add, or_assoc]
  simp [Position.closedFrom, upTo]

theorem tokenEnding_emptyElementClosed_iff (text : List Char) :
    TokenEnding text .emptyElementClosed ↔
      text ∈ (tagHead + tagSpaced + tagSpaced * attributeName +
        tagSpaced * attributeName * quotedValue) * only '/' * (outside ['>'])∗ * only '>' := by
  refine tokenEnding_iff_of_closedBy? rfl rfl ?_ text
  intro front
  simp [Position.closedFrom, upTo]

/-! ## Injections -/

/-- A token that ends an injection, in a tag or between tags. -/
theorem tokenEnding_injectionConfirmed_iff (text : List Char) :
    TokenEnding text .injectionConfirmed ↔
      text ∈ ((tagSpaced + tagSpaced * attributeName) * only '\x7b' + only '\x7b') *
        (outside ['\x7d'])∗ * only '\x7d' := by
  refine tokenEnding_iff_of_closedBy? rfl rfl ?_ text
  intro front
  rw [mem_mul_kstar_iff, Language.mem_add, or_assoc]
  simp [Position.closedFrom, upTo]

/-! ## Closing tags -/

theorem tokenEnding_fragment_iff (text : List Char) :
    TokenEnding text .fragment ↔ text ∈ only '<' * blank∗ * only '>' := by
  refine tokenEnding_iff_of_closedBy? rfl rfl ?_ text
  intro front
  simp [Position.closedFrom, upTo]

theorem tokenEnding_fragmentClosed_iff (text : List Char) :
    TokenEnding text .fragmentClosed ↔
      text ∈ only '<' * blank∗ * only '/' * blank∗ * only '>' := by
  refine tokenEnding_iff_of_closedBy? rfl rfl ?_ text
  intro front
  simp [Position.closedFrom, upTo]

/-- After the first character of its name, a closing tag goes on up to a greater-than
sign, whether or not white space ends the name before. -/
theorem mem_tail_iff (language : Language Char) (front : List Char) :
    front ∈ language * (outside ['>'])∗ ↔
      front ∈ language * (solid ['>'])∗ ∨
        front ∈ language * (solid ['>'])∗ * blank * (outside ['>'])∗ := by
  induction front using List.reverseRecOn with
  | nil => simp [nil_mem_mul, Language.nil_mem_kstar, blank]
  | append_singleton front character inductionHypothesis =>
      simp only [outside, solid, blank, snoc_mem_mul_kstar_oneOf, snoc_mem_mul_oneOf]
        at inductionHypothesis ⊢
      rw [inductionHypothesis]
      have otherIff :
          character ∉ ['>'] ↔
            (isWhiteSpace character = false ∧ character ∉ ['>']) ∨
              isWhiteSpace character = true := by
        cases space : isWhiteSpace character with
        | false => simp
        | true =>
            have other : character ∉ ['>'] := by
              intro listed
              rw [List.mem_singleton.mp listed] at space
              cases space
            simp [other]
      tauto

theorem tokenEnding_tailElementClosed_iff (text : List Char) :
    TokenEnding text .tailElementClosed ↔
      text ∈ only '<' * blank∗ * only '/' * blank∗ * solid ['>'] * (outside ['>'])∗ *
        only '>' := by
  refine tokenEnding_iff_of_closedBy? rfl rfl ?_ text
  intro front
  rw [mem_tail_iff]
  simp [Position.closedFrom, upTo]

/-! ## Text -/

/-- Nothing but the start is at the document level and completes nothing on the way. -/
theorem eq_nil_of_mem_upTo
    {before : Position}
    (member : text ∈ upTo before)
    (level : before.atDocumentLevel = true) :
    text = [] := by
  obtain ⟨rfl, stillOpen⟩ := (mem_upTo_iff text before).mp member
  rcases List.eq_nil_or_concat text with rfl | ⟨front, character, rfl⟩
  · rfl
  · rw [List.concat_eq_append, staysOpen_append] at stillOpen
    rw [List.concat_eq_append, Position.after_append, Position.after_cons, Position.after_nil,
      ((staysOpen_cons ..).mp stillOpen.2).1] at level
    cases level

theorem tokenEnding_text_iff (text : List Char) :
    TokenEnding text .text ↔
      ∃ character, text = [character] ∧ character ≠ '<' ∧ character ≠ '\x7b' := by
  rw [tokenEnding_iff_exists_upTo]
  constructor
  · intro token
    obtain ⟨front, character, before, rfl, member, last, -⟩ := token
    have level : before.atDocumentLevel = true := by
      revert last
      unfold Position.next
      cases before <;> cases CharKind.of character <;> decide
    rw [eq_nil_of_mem_upTo member level]
    rw [Position.next_of_atDocumentLevel level, Position.next_initial] at last
    refine ⟨character, rfl, ?_, ?_⟩
    · rintro rfl
      cases last
    · rintro rfl
      cases last
  · intro parts
    obtain ⟨character, rfl, notTag, notInjection⟩ := parts
    refine ⟨[], character, .initial, rfl, rfl, ?_, rfl⟩
    rw [Position.next_initial, if_neg notTag, if_neg notInjection]

/-- No token ends at the start. -/
theorem not_tokenEnding_initial (text : List Char) : ¬ TokenEnding text .initial := by
  rw [tokenEnding_iff_exists_upTo]
  intro token
  obtain ⟨front, character, before, -, -, last, -⟩ := token
  exact Position.next_ne_initial before character last

/-! ## First characters -/

/-- Whether a delimiter stands at the end of a text and nowhere before can be told one
character after another. -/
theorem cons_endsFirst_iff (character delimiter : Char) (rest : List Char) :
    (∃ inner, character :: rest = inner ++ [delimiter] ∧ delimiter ∉ inner) ↔
      if character = delimiter then rest = []
      else ∃ inner, rest = inner ++ [delimiter] ∧ delimiter ∉ inner := by
  constructor
  · intro found
    obtain ⟨inner, same, absent⟩ := found
    cases inner with
    | nil =>
        obtain ⟨isDelimiter, ends⟩ := List.cons.inj same
        rw [if_pos isDelimiter]
        exact ends
    | cons first inner =>
        obtain ⟨rfl, later⟩ := List.cons.inj same
        obtain ⟨different, absentLater⟩ := List.ne_and_not_mem_of_not_mem_cons absent
        rw [if_neg (Ne.symm different)]
        exact ⟨inner, later, absentLater⟩
  · split
    · rintro rfl
      rename_i isDelimiter
      exact ⟨[], by rw [isDelimiter, List.nil_append], List.not_mem_nil⟩
    · intro found
      obtain ⟨inner, rfl, absent⟩ := found
      rename_i different
      exact ⟨character :: inner, rfl, List.not_mem_cons_of_ne_of_not_mem (Ne.symm different) absent⟩

/-- An injection is complete at its first closing brace. -/
theorem completesAt_of_injected
    {position : Position}
    (injected :
      position = .attrMapInjection ∨ position = .descendantInjection ∨
        position = .injectionSpace)
    (text : List Char)
    (ending : Position) :
    CompletesAt position text ending ↔
      ending = .injectionConfirmed ∧ ∃ inner, text = inner ++ ['\x7d'] ∧ '\x7d' ∉ inner := by
  induction text generalizing position with
  | nil =>
      constructor
      · intro completes
        exact absurd rfl completes.ne_nil
      · intro parts
        obtain ⟨-, inner, same, -⟩ := parts
        simp at same
  | cons character rest inductionHypothesis =>
      rw [cons_endsFirst_iff]
      have row := Position.next_of_injected character injected
      by_cases closes : character = '\x7d'
      · rw [if_pos closes] at row ⊢
        rw [completesAt_cons_of_level (by rw [row]; rfl), row, and_comm, eq_comm]
      · rw [if_neg closes] at row ⊢
        rw [completesAt_cons_of_open (by rw [row]; rfl), row]
        exact inductionHypothesis (Or.inr (Or.inr rfl))

/-- A token that starts with an opening brace ends at the first closing brace. -/
theorem tokenEnding_openBrace_iff (rest : List Char) (ending : Position) :
    TokenEnding ('\x7b' :: rest) ending ↔
      ending = .injectionConfirmed ∧ ∃ inner, rest = inner ++ ['\x7d'] ∧ '\x7d' ∉ inner := by
  rw [tokenEnding_iff_completesAt, completesAt_cons_of_open rfl]
  exact completesAt_of_injected (Or.inr (Or.inl rfl)) rest ending

/-- What follows in a product does not change the first character. -/
theorem head?_of_mem_mul
    {language : Language Char}
    {first : Char}
    (starts : ∀ text ∈ language, text.head? = some first)
    (other : Language Char) :
    ∀ text ∈ language * other, text.head? = some first := by
  rintro - ⟨front, member, back, -, rfl⟩
  have frontStarts := starts front member
  cases front with
  | nil => cases frontStarts
  | cons character rest => exact frontStarts

theorem head?_of_mem_only {delimiter : Char} :
    ∀ text ∈ only delimiter, text.head? = some delimiter := by
  rintro - ⟨-, rfl, rfl⟩
  rfl

theorem head?_of_mem_tagHead : ∀ text ∈ tagHead, text.head? = some '<' :=
  head?_of_mem_mul (head?_of_mem_mul head?_of_mem_only _) _

theorem head?_of_mem_tagSpaced : ∀ text ∈ tagSpaced, text.head? = some '<' :=
  head?_of_mem_mul (head?_of_mem_mul head?_of_mem_tagHead _) _

/-! ## The tokens of tags with attributes -/

/-- An injection that a token starting with a less-than sign ends is in place of an
attribute. -/
theorem tokenEnding_injection_in_tag_iff (text : List Char) :
    TokenEnding text .injectionConfirmed ∧ text.head? = some '<' ↔
      text ∈ (tagSpaced + tagSpaced * attributeName) * only '\x7b' * (outside ['\x7d'])∗ *
        only '\x7d' := by
  have inTag : ∀ front ∈ tagSpaced + tagSpaced * attributeName, front.head? = some '<' := by
    rintro front (spaced | named)
    · exact head?_of_mem_tagSpaced front spaced
    · exact head?_of_mem_mul head?_of_mem_tagSpaced _ front named
  rw [tokenEnding_injectionConfirmed_iff, add_mul, add_mul, Language.mem_add]
  constructor
  · intro parts
    obtain ⟨inAttribute | between, starts⟩ := parts
    · exact inAttribute
    · have otherStart :=
        head?_of_mem_mul (head?_of_mem_mul head?_of_mem_only _) _ text between
      rw [otherStart] at starts
      cases starts
  · intro inAttribute
    have starts :=
      head?_of_mem_mul (head?_of_mem_mul (head?_of_mem_mul inTag _) _) _ text inAttribute
    exact ⟨Or.inl inAttribute, starts⟩

/-- The tokens of an opening tag: those that end it, those that close it at once, and
those that end at an injection in place of an attribute. -/
theorem opening_token_grammar (text : List Char) :
    (TokenEnding text .elementClosed ↔
      text ∈ (tagHead + tagSpaced + tagSpaced * attributeName +
        tagSpaced * attributeName * quotedValue +
        tagSpaced * attributeName * unquotedValue) * only '>') ∧
    (TokenEnding text .emptyElementClosed ↔
      text ∈ (tagHead + tagSpaced + tagSpaced * attributeName +
        tagSpaced * attributeName * quotedValue) * only '/' * (outside ['>'])∗ * only '>') ∧
    (TokenEnding text .injectionConfirmed ∧ text.head? = some '<' ↔
      text ∈ (tagSpaced + tagSpaced * attributeName) * only '\x7b' * (outside ['\x7d'])∗ *
        only '\x7d') :=
  ⟨tokenEnding_elementClosed_iff text, tokenEnding_emptyElementClosed_iff text,
    tokenEnding_injection_in_tag_iff text⟩

/-! ## Cutting and the other tokens -/

/-- A token starts with an opening brace exactly if it is one injection. -/
theorem isToken_openBrace_iff (text : List Char) :
    IsToken text ∧ text.head? = some '\x7b' ↔
      ∃ inner, text = '\x7b' :: inner ++ ['\x7d'] ∧ '\x7d' ∉ inner := by
  constructor
  · intro token
    obtain ⟨⟨ending, completes⟩, starts⟩ := token
    obtain ⟨rest, rfl⟩ := List.head?_eq_some_iff.mp starts
    obtain ⟨-, inner, rfl, absent⟩ := (tokenEnding_openBrace_iff rest ending).mp completes
    exact ⟨inner, rfl, absent⟩
  · intro found
    obtain ⟨inner, rfl, absent⟩ := found
    have completes := (tokenEnding_openBrace_iff _ _).mpr ⟨rfl, inner, rfl, absent⟩
    exact ⟨⟨_, completes⟩, rfl⟩

/-- A text has one segmentation, whose pieces are walked each from the start, and the
tokens without attributes have fixed shapes. -/
theorem unique_segmentation_and_token_grammar (text : List Char) :
    (∃! segmentation : Segmentation, segmentation.text = text ∧ segmentation.Valid) ∧
    (segment text).text = text ∧
    (segment text).Valid ∧
    (∀ position : Position, position.atDocumentLevel = true →
      position.walk text =
        (segment text).tokens.flatMap Position.initial.walk ++
          Position.initial.walk (segment text).rest) ∧
    ((segment text).rest = [] ∨ (segment text).rest.head? = some '<' ∨
      (segment text).rest.head? = some '\x7b') ∧
    (TokenEnding text .text ↔
      ∃ character, text = [character] ∧ character ≠ '<' ∧ character ≠ '\x7b') ∧
    (IsToken text ∧ text.head? = some '\x7b' ↔
      ∃ inner, text = '\x7b' :: inner ++ ['\x7d'] ∧ '\x7d' ∉ inner) ∧
    (∀ ending, TokenEnding text ending → text.head? = some '\x7b' →
      ending = .injectionConfirmed) ∧
    (TokenEnding text .fragment ↔ text ∈ only '<' * blank∗ * only '>') ∧
    (TokenEnding text .fragmentClosed ↔
      text ∈ only '<' * blank∗ * only '/' * blank∗ * only '>') ∧
    (TokenEnding text .tailElementClosed ↔
      text ∈ only '<' * blank∗ * only '/' * blank∗ * solid ['>'] * (outside ['>'])∗ *
        only '>') ∧
    ¬ TokenEnding text .initial := by
  refine ⟨?_, text_segment text, valid_segment text, ?_, ?_, tokenEnding_text_iff text,
    isToken_openBrace_iff text, ?_, tokenEnding_fragment_iff text,
    tokenEnding_fragmentClosed_iff text, tokenEnding_tailElementClosed_iff text,
    not_tokenEnding_initial text⟩
  · refine ⟨segment text, ⟨text_segment text, valid_segment text⟩, ?_⟩
    intro other facts
    exact (text_eq_and_valid_iff other text).mp facts
  · intro position level
    have walked := walk_text (valid_segment text) level
    rw [text_segment] at walked
    exact walked
  · have unfinished := (valid_segment text).2
    cases starts : (segment text).rest with
    | nil => exact Or.inl rfl
    | cons character rest =>
        rw [starts] at unfinished
        rcases head_of_isUnfinished unfinished with rfl | rfl
        · exact Or.inr (Or.inl rfl)
        · exact Or.inr (Or.inr rfl)
  · intro ending completes starts
    obtain ⟨rest, rfl⟩ := List.head?_eq_some_iff.mp starts
    exact ((tokenEnding_openBrace_iff rest ending).mp completes).1

/-- Three tokens and an unfinished rest, read where a tag has just ended. -/
theorem unique_segmentation_tail_injection :
    segment "a</b >\x7b<\x7d<i".toList =
        ⟨["a".toList, "</b >".toList, "\x7b<\x7d".toList], "<i".toList⟩ ∧
      Position.elementClosed.atDocumentLevel = true ∧
      Position.elementClosed.walk "a</b >\x7b<\x7d<i".toList =
        [.text, .element, .tailElementSolidus, .tailTag, .tailElementSpace,
          .tailElementClosed, .descendantInjection, .injectionSpace, .injectionConfirmed,
          .element, .tag] := by
  have walked :=
    (unique_segmentation_and_token_grammar "a</b >\x7b<\x7d<i".toList).2.2.2.1
      .elementClosed rfl
  exact ⟨by decide, rfl, walked⟩

end TemplateMarkup
