import Mathlib.Data.List.Basic
import TemplateMarkup.Token

/-!
Contract: there is one way to cut a text where nothing is open.

Owns:
- `StaysOpen` and `CompletesAt`, which say of a walk from any place what `IsUnfinished`
  and `TokenEnding` say of one from the start;
- the validity of `segment` and its uniqueness;
- the walk of a text as the walks of its pieces, each from the start.

Does not own: the shapes of the pieces.
-/

set_option autoImplicit false

namespace TemplateMarkup

open TemplateMarkup.Text

/-! ## Walks that complete nothing -/

/-- Reading the text from the place completes nothing at any character. -/
def StaysOpen (position : Position) (text : List Char) : Prop :=
  ∀ visited ∈ position.walk text, visited.atDocumentLevel = false

/-- Reading the text from the place completes something at the last character and at no
character before. -/
def CompletesAt (position : Position) (text : List Char) (ending : Position) : Prop :=
  ∃ inner,
    position.walk text = inner ++ [ending] ∧
      (∀ visited ∈ inner, visited.atDocumentLevel = false) ∧
      ending.atDocumentLevel = true

theorem tokenEnding_iff_completesAt (text : List Char) (ending : Position) :
    TokenEnding text ending ↔ CompletesAt .initial text ending := Iff.rfl

@[simp] theorem staysOpen_nil (position : Position) : StaysOpen position [] := by
  simp [StaysOpen]

@[simp] theorem staysOpen_cons (position : Position) (character : Char) (rest : List Char) :
    StaysOpen position (character :: rest) ↔
      (position.next character).atDocumentLevel = false ∧
        StaysOpen (position.next character) rest := by
  simp [StaysOpen]

theorem staysOpen_append (position : Position) (front back : List Char) :
    StaysOpen position (front ++ back) ↔
      StaysOpen position front ∧ StaysOpen (position.after front) back := by
  simp only [StaysOpen, Position.walk_append, List.forall_mem_append]

theorem completesAt_append_singleton
    (position : Position)
    (front : List Char)
    (character : Char)
    (ending : Position) :
    CompletesAt position (front ++ [character]) ending ↔
      StaysOpen position front ∧ (position.after front).next character = ending ∧
        ending.atDocumentLevel = true := by
  simp only [CompletesAt, Position.walk_append, Position.walk_cons, Position.walk_nil]
  constructor
  · intro completes
    obtain ⟨inner, places, open_, level⟩ := completes
    obtain ⟨rfl, last⟩ := List.append_inj' places rfl
    exact ⟨open_, List.singleton_inj.mp last, level⟩
  · intro parts
    obtain ⟨open_, rfl, level⟩ := parts
    exact ⟨_, rfl, open_, level⟩

/-- What is complete is so at its last character. -/
theorem completesAt_iff_exists_last
    (position : Position)
    (text : List Char)
    (ending : Position) :
    CompletesAt position text ending ↔
      ∃ front character,
        text = front ++ [character] ∧ StaysOpen position front ∧
          (position.after front).next character = ending ∧
          ending.atDocumentLevel = true := by
  rcases List.eq_nil_or_concat text with rfl | ⟨front, character, rfl⟩
  · constructor
    · intro completes
      obtain ⟨inner, places, -⟩ := completes
      simp at places
    · intro parts
      obtain ⟨front, character, same, -⟩ := parts
      simp at same
  · rw [List.concat_eq_append, completesAt_append_singleton]
    constructor
    · intro facts
      exact ⟨front, character, rfl, facts⟩
    · intro parts
      obtain ⟨otherFront, otherCharacter, same, facts⟩ := parts
      obtain ⟨rfl, last⟩ := List.append_inj' same rfl
      rw [List.singleton_inj.mp last]
      exact facts

/-- A character that completes something is the last one. -/
theorem completesAt_cons_of_level
    {position : Position}
    {character : Char}
    (level : (position.next character).atDocumentLevel = true)
    (rest : List Char)
    (ending : Position) :
    CompletesAt position (character :: rest) ending ↔
      rest = [] ∧ position.next character = ending := by
  constructor
  · intro completes
    obtain ⟨inner, places, stillOpen, -⟩ := completes
    rw [Position.walk_cons] at places
    cases inner with
    | nil =>
        obtain ⟨first, none⟩ := List.cons.inj places
        have noMore := congrArg List.length none
        rw [Position.length_walk] at noMore
        exact ⟨List.length_eq_zero_iff.mp noMore, first⟩
    | cons visited inner =>
        have notLevel := stillOpen visited (List.mem_cons_self ..)
        rw [← (List.cons.inj places).1, level] at notLevel
        cases notLevel
  · intro parts
    obtain ⟨rfl, rfl⟩ := parts
    exact ⟨[], rfl, by simp, level⟩

/-- A character that completes nothing leaves the rest to do so. -/
theorem completesAt_cons_of_open
    {position : Position}
    {character : Char}
    (stillOpen : (position.next character).atDocumentLevel = false)
    (rest : List Char)
    (ending : Position) :
    CompletesAt position (character :: rest) ending ↔
      CompletesAt (position.next character) rest ending := by
  constructor
  · intro completes
    obtain ⟨inner, places, open_, level⟩ := completes
    rw [Position.walk_cons] at places
    cases inner with
    | nil =>
        rw [← (List.cons.inj places).1, stillOpen] at level
        cases level
    | cons visited inner =>
        have later := (List.forall_mem_cons.mp open_).2
        exact ⟨inner, (List.cons.inj places).2, later, level⟩
  · intro completes
    obtain ⟨inner, places, open_, level⟩ := completes
    refine ⟨position.next character :: inner, ?_, ?_, level⟩
    · rw [Position.walk_cons, places, List.cons_append]
    · exact List.forall_mem_cons.mpr ⟨stillOpen, open_⟩

theorem CompletesAt.ne_nil
    {position ending : Position}
    {text : List Char}
    (completes : CompletesAt position text ending) :
    text ≠ [] := by
  rintro rfl
  obtain ⟨inner, places, -⟩ := completes
  simp at places

theorem CompletesAt.after_eq
    {position ending : Position}
    {text : List Char}
    (completes : CompletesAt position text ending) :
    position.after text = ending := by
  obtain ⟨front, character, rfl, -, last, -⟩ :=
    (completesAt_iff_exists_last position text ending).mp completes
  rw [Position.after_append]
  exact last

/-! ## Cutting -/

/-- Either a text completes nothing, or some beginning of it is the first to do so. -/
theorem staysOpen_or_exists_completesAt (position : Position) (text : List Char) :
    StaysOpen position text ∨
      ∃ front back ending,
        text = front ++ back ∧ CompletesAt position front ending := by
  induction text generalizing position with
  | nil => exact Or.inl (staysOpen_nil position)
  | cons character rest inductionHypothesis =>
      cases level : (position.next character).atDocumentLevel with
      | true =>
          right
          exact ⟨[character], rest, _, rfl,
            (completesAt_cons_of_level level [] _).mpr ⟨rfl, rfl⟩⟩
      | false =>
          rcases inductionHypothesis (position.next character) with
            stillOpen | ⟨front, back, ending, rfl, completes⟩
          · exact Or.inl ((staysOpen_cons ..).mpr ⟨level, stillOpen⟩)
          · right
            exact ⟨character :: front, back, ending, rfl,
              (completesAt_cons_of_open level front ending).mpr completes⟩

/-- A text that completes nothing is not cut. -/
theorem segmentFrom_of_staysOpen
    {position : Position}
    {text : List Char}
    (stillOpen : StaysOpen position text) :
    segmentFrom position text = ⟨[], text⟩ := by
  induction text generalizing position with
  | nil => rfl
  | cons character rest inductionHypothesis =>
      obtain ⟨notLevel, restOpen⟩ := (staysOpen_cons ..).mp stillOpen
      rw [segmentFrom, notLevel, if_neg Bool.false_ne_true, inductionHypothesis restOpen]
      rfl

/-- At the document level the cutting starts again. -/
theorem segmentFrom_of_atDocumentLevel
    {position : Position}
    (level : position.atDocumentLevel = true)
    (text : List Char) :
    segmentFrom position text = segment text := by
  cases text with
  | nil => rfl
  | cons character rest =>
      simp only [segment, segmentFrom, Position.next_of_atDocumentLevel level]

/-- The first cut is after the first beginning that completes something. -/
theorem segmentFrom_append
    {position ending : Position}
    {front : List Char}
    (completes : CompletesAt position front ending)
    (back : List Char) :
    segmentFrom position (front ++ back) =
      ⟨front :: (segment back).tokens, (segment back).rest⟩ := by
  induction front generalizing position with
  | nil => exact absurd rfl completes.ne_nil
  | cons character rest inductionHypothesis =>
      rw [List.cons_append, segmentFrom]
      cases level : (position.next character).atDocumentLevel with
      | true =>
          obtain ⟨rfl, -⟩ := (completesAt_cons_of_level level rest ending).mp completes
          rw [if_pos rfl, List.nil_append, segmentFrom_of_atDocumentLevel level]
          rfl
      | false =>
          have later := (completesAt_cons_of_open level rest ending).mp completes
          rw [if_neg Bool.false_ne_true, inductionHypothesis later]
          rfl

theorem text_segment (text : List Char) : (segment text).text = text :=
  text_segmentFrom .initial text

/-- The pieces of a cutting are what they should be. -/
theorem valid_segment (text : List Char) : (segment text).Valid := by
  -- The induction is on the length, since what is left after a token is no tail of the
  -- list by one constructor.
  induction size : text.length using Nat.strongRecOn generalizing text with
  | ind size inductionHypothesis =>
      rcases staysOpen_or_exists_completesAt .initial text with
        stillOpen | ⟨front, back, ending, rfl, completes⟩
      · rw [segment, segmentFrom_of_staysOpen stillOpen]
        exact ⟨by simp, stillOpen⟩
      · have positive := List.length_pos_iff.mpr completes.ne_nil
        rw [List.length_append] at size
        obtain ⟨tokensValid, restValid⟩ :=
          inductionHypothesis back.length (by omega) back rfl
        rw [segment, segmentFrom_append completes]
        exact ⟨List.forall_mem_cons.mpr ⟨⟨ending, completes⟩, tokensValid⟩, restValid⟩

/-- Pieces that are what they should be are found again. -/
theorem segment_text
    {segmentation : Segmentation}
    (valid : segmentation.Valid) :
    segment segmentation.text = segmentation := by
  obtain ⟨tokens, rest⟩ := segmentation
  obtain ⟨tokensValid, restValid⟩ := valid
  induction tokens with
  | nil => exact segmentFrom_of_staysOpen restValid
  | cons token tokens inductionHypothesis =>
      obtain ⟨⟨ending, completes⟩, laterValid⟩ := List.forall_mem_cons.mp tokensValid
      have later := inductionHypothesis laterValid restValid
      simp only [Segmentation.text, List.flatten_cons, List.append_assoc] at later ⊢
      rw [segment, segmentFrom_append completes, later]

/-- A segmentation of a text is the one that cutting finds. -/
theorem text_eq_and_valid_iff (segmentation : Segmentation) (text : List Char) :
    segmentation.text = text ∧ segmentation.Valid ↔ segmentation = segment text := by
  constructor
  · intro parts
    obtain ⟨rfl, valid⟩ := parts
    exact (segment_text valid).symm
  · rintro rfl
    exact ⟨text_segment text, valid_segment text⟩

/-! ## Walking the pieces -/

/-- The places of the pieces, each read from the start. -/
def Segmentation.walk (segmentation : Segmentation) : List Position :=
  segmentation.tokens.flatMap Position.initial.walk ++
    Position.initial.walk segmentation.rest

/-- From any place at the document level, a text is walked as its pieces are. -/
theorem walk_text
    {segmentation : Segmentation}
    (valid : segmentation.Valid)
    {position : Position}
    (level : position.atDocumentLevel = true) :
    position.walk segmentation.text = segmentation.walk := by
  obtain ⟨tokens, rest⟩ := segmentation
  obtain ⟨tokensValid, -⟩ := valid
  induction tokens generalizing position with
  | nil => exact Position.walk_of_atDocumentLevel level rest
  | cons token tokens inductionHypothesis =>
      obtain ⟨⟨ending, completes⟩, laterValid⟩ := List.forall_mem_cons.mp tokensValid
      have completesFromStart : CompletesAt .initial token ending := completes
      have endingLevel : ending.atDocumentLevel = true := completes.choose_spec.2.2
      have later := inductionHypothesis endingLevel laterValid
      simp only [Segmentation.text, Segmentation.walk, List.flatten_cons, List.flatMap_cons,
        List.append_assoc] at later ⊢
      rw [Position.walk_of_atDocumentLevel level, Position.walk_append,
        completesFromStart.after_eq, later]

/-- An unfinished text starts a tag or an injection. -/
theorem head_of_isUnfinished
    {character : Char}
    {rest : List Char}
    (unfinished : IsUnfinished (character :: rest)) :
    character = '<' ∨ character = '\x7b' := by
  have notLevel := ((staysOpen_cons ..).mp unfinished).1
  unfold Position.next at notLevel
  cases kind : CharKind.of character with
  | lessThan => exact Or.inl ((CharKind.of_eq_iff_of_delimiter? rfl character).mp kind)
  | openBrace => exact Or.inr ((CharKind.of_eq_iff_of_delimiter? rfl character).mp kind)
  | space | greaterThan | solidus | equals | quote | closeBrace | plain =>
      rw [kind] at notLevel
      cases notLevel

end TemplateMarkup
