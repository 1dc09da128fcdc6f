import Mathlib.Data.List.Induction
import TemplateMarkup.Proofs.RawText.Closing
import TemplateMarkup.Proofs.RawText.Coherence

/-!
Contract: what a scanner has matched of the closer is marked in the places it gave.

Owns:
- the places of the matched part, while the closer is not complete and when it becomes so;
- the place of the last character, as told by the text.

Does not own: where the closer is complete, or how much of it is matched.

After a fall-back the marked stretch is longer than the match. That it is never shorter
holds because a match grows by one character at a time, and each of them is marked.
-/

set_option autoImplicit false

namespace TemplateMarkup.Scanner

open TemplateMarkup.Matching

variable {element : RawElement} {body : Position} {text front : List Char} {scanner : Scanner}

/-! ## The last character -/

namespace HasRead

/-- Before the closer is complete, a character is marked exactly if something is matched
after it. -/
theorem position_eq_ite
    (reading : HasRead element body text scanner)
    (unclosed : scanner.isClosed = false) :
    scanner.position = if scanner.matched = 0 then body else .altTextCloseSequence := by
  have different := (isClosed_eq_false_iff scanner).mp unclosed
  rw [reading.position_eq, positionAt, if_neg different, reading.body_eq]

/-- The text alone tells whether its last character is marked. -/
theorem position_eq_closeSequence_iff
    (reading : HasRead element body text scanner)
    (unclosed : scanner.isClosed = false)
    (unmarked : body ≠ .altTextCloseSequence) :
    scanner.position = .altTextCloseSequence ↔
      ∃ part, part ≠ [] ∧ part <+: element.pattern ∧ part <:+ text := by
  rw [← reading.isMatched.pos_iff, reading.position_eq_ite unclosed]
  split
  · rename_i unmatched
    simp [unmatched, unmarked]
  · rename_i partly
    simp [Nat.pos_of_ne_zero partly]

end HasRead

theorem getLast?_positions (scanner : Scanner) {text : List Char} (notEmpty : text ≠ []) :
    (scanner.positions text).getLast? = some (scanner.feed text).position := by
  cases text with
  | nil => exact absurd rfl notEmpty
  | cons character rest =>
      rw [positions, run, trace_cons, List.getLast?_map, getLast?_trace]
      rfl

theorem feed_append_singleton (scanner : Scanner) (front : List Char) (character : Char) :
    scanner.feed (front ++ [character]) = (scanner.feed front).step character :=
  feed_append scanner front [character]

theorem positions_append_singleton
    (scanner : Scanner)
    (front : List Char)
    (character : Char) :
    scanner.positions (front ++ [character]) =
      scanner.positions front ++ [((scanner.feed front).step character).position] :=
  positions_append scanner front [character]

/-! ## The matched part -/

/-- All that is matched after one more character, but that character, was matched before. -/
theorem replicate_pred_step_suffix
    {places : List Position}
    (marked : List.replicate scanner.matched .altTextCloseSequence <:+ places)
    (character : Char) :
    List.replicate ((scanner.step character).matched - 1) .altTextCloseSequence <:+ places := by
  have bound := matched_step_le scanner character
  refine List.IsSuffix.trans ?_ marked
  rw [List.suffix_replicate_iff, List.length_replicate]
  exact ⟨by omega, rfl⟩

/-- The places of the matched part are all marked. -/
theorem replicate_matched_suffix_positions
    (absent : ¬ element.pattern <:+: text)
    (body : Position) :
    List.replicate ((ofElement element body).feed text).matched .altTextCloseSequence <:+
      (ofElement element body).positions text := by
  induction text using List.reverseRecOn with
  | nil => exact List.nil_suffix
  | append_singleton front character inductionHypothesis =>
      have absentBefore := not_infix_of_append absent
      have before := replicate_pred_step_suffix (inductionHypothesis absentBefore) character
      have reading := hasRead_feed absent body
      have place := reading.position_eq_ite (reading.not_isClosed absent)
      rw [feed_append_singleton] at place ⊢
      rw [positions_append_singleton, place]
      split
      · rename_i unmatched
        rw [unmatched]
        exact List.nil_suffix
      · rename_i partly
        rw [← Nat.sub_one_add_one partly, List.replicate_succ', List.suffix_append_self_iff]
        exact before

/-- The character that completes the closer follows the marks of all characters of the closer
before it. -/
theorem drop_positions_of_closing
    (nonempty : element.pattern ≠ [])
    (absent : ¬ element.pattern <:+: front)
    {character : Char}
    (ends : element.pattern <:+ front ++ [character])
    (body : Position) :
    ((ofElement element body).positions (front ++ [character])).drop
        ((front ++ [character]).length - element.pattern.length) =
      List.replicate (element.pattern.length - 1) .altTextCloseSequence ++
        [.tailElementClosed] := by
  have reading := hasRead_feed_append_singleton absent body character
  have place := reading.position_of_isClosed (reading.isClosed_iff.mpr ends)
  have whole := reading.isMatched.eq_length_iff.mpr ends
  have before :=
    replicate_pred_step_suffix (replicate_matched_suffix_positions absent body) character
  rw [feed_append_singleton] at place whole
  rw [whole] at before
  have places :
      List.replicate (element.pattern.length - 1) .altTextCloseSequence ++
          [.tailElementClosed] <:+
        (ofElement element body).positions (front ++ [character]) := by
    rw [positions_append_singleton, place, List.suffix_append_self_iff]
    exact before
  have placesLength :
      (List.replicate (element.pattern.length - 1) Position.altTextCloseSequence ++
        [Position.tailElementClosed]).length = element.pattern.length := by
    have positive := List.length_pos_iff.mpr nonempty
    rw [List.length_append, List.length_replicate, List.length_singleton]
    omega
  have lastPlaces := List.suffix_iff_eq_drop.mp places
  rw [length_positions, placesLength] at lastPlaces
  exact lastPlaces.symm

/-! ## A reading from its start -/

/-- While the closer is not complete, the last character is marked exactly if some beginning of
the closer ends the text, and is content else: comment text in a comment, raw text in any other
element. What is matched ends the text, and all places of it are marked. When a character
completes the closer, the places of all characters of the closer before it are marked, so none
of them was given as content. -/
theorem pending_match_is_marked
    {dialect : Dialect}
    {tag : String}
    {scanner : Scanner}
    (started : start? dialect tag = some scanner)
    (text : List Char) :
    ((scanner.feed text).isClosed = false →
      (text ≠ [] →
        (scanner.positions text).getLast? = some (scanner.feed text).position) ∧
      ((scanner.feed text).position = .altTextCloseSequence ↔
        ∃ part, part ≠ [] ∧ part <+: scanner.element.pattern ∧ part <:+ text) ∧
      ((scanner.feed text).position ≠ .altTextCloseSequence →
        (dialect.isComment tag = true → (scanner.feed text).position = .commentText) ∧
          (dialect.isComment tag = false → (scanner.feed text).position = .altText)) ∧
      scanner.element.pattern.take (scanner.feed text).matched <:+ text ∧
      List.replicate (scanner.feed text).matched .altTextCloseSequence <:+
        scanner.positions text) ∧
    ∀ front character,
      text = front ++ [character] →
      (scanner.feed front).isClosed = false →
      (scanner.feed text).isClosed = true →
      scanner.element.pattern <:+ text ∧
      (scanner.positions text).drop (text.length - scanner.element.pattern.length) =
        List.replicate (scanner.element.pattern.length - 1) .altTextCloseSequence ++
          [.tailElementClosed] ∧
      .commentText ∉
        (scanner.positions text).drop (text.length - scanner.element.pattern.length) ∧
      .altText ∉
        (scanner.positions text).drop (text.length - scanner.element.pattern.length) := by
  obtain ⟨element, nonempty, rfl⟩ := exists_element_of_start? started
  have unmarked := bodyOf_ne_closeSequence dialect tag
  have ofComment : dialect.isComment tag = true → bodyOf dialect tag = .commentText :=
    bodyOf_of_isComment
  have ofOther : dialect.isComment tag = false → bodyOf dialect tag = .altText :=
    bodyOf_of_not_isComment
  generalize bodyOf dialect tag = body at unmarked ofComment ofOther ⊢
  simp only [element_ofElement]
  have absent_of_unclosed {read : List Char}
      (unclosed : ((ofElement element body).feed read).isClosed = false) :
      ¬ element.pattern <:+: read := by
    rw [← isClosed_feed_iff nonempty body, unclosed]
    exact Bool.false_ne_true
  refine ⟨fun unclosed => ?_, ?_⟩
  · have absent := absent_of_unclosed unclosed
    have reading := hasRead_feed absent body
    refine ⟨getLast?_positions _, reading.position_eq_closeSequence_iff unclosed unmarked, ?_,
      reading.isMatched.1.2, replicate_matched_suffix_positions absent body⟩
    intro isContent
    have place := (reading.position_of_not_isClosed unclosed).resolve_right isContent
    rw [place]
    exact ⟨ofComment, ofOther⟩
  · rintro front character rfl unclosed closed
    have absent := absent_of_unclosed unclosed
    have ends := (hasRead_feed_append_singleton absent body character).isClosed_iff.mp closed
    have places := drop_positions_of_closing nonempty absent ends body
    refine ⟨ends, places, ?_⟩
    rw [places]
    simp [List.mem_append, List.mem_replicate]

/-- Of three brackets the last two are matched, and all three are marked. -/
theorem pending_match_is_marked_brackets :
    ∃ scanner : Scanner,
      start? .xml "!CDATA[[" = some scanner ∧
      (scanner.feed "a]]]".toList).matched = 2 ∧
      (scanner.feed "a]]]".toList).position = .altTextCloseSequence ∧
      List.replicate 2 .altTextCloseSequence <:+ scanner.positions "a]]]".toList ∧
      scanner.positions "a]]]".toList =
        [.altText, .altTextCloseSequence, .altTextCloseSequence, .altTextCloseSequence] ∧
      (scanner.positions "a]]]>".toList).drop 2 =
        [.altTextCloseSequence, .altTextCloseSequence, .tailElementClosed] := by
  have started :
      start? .xml "!CDATA[[" = some (ofElement ⟨"!CDATA[[", "]]>"⟩ .altText) := by
    decide
  obtain ⟨-, atEnd, -, -, marked⟩ :=
    (pending_match_is_marked started "a]]]".toList).1 (by decide)
  obtain ⟨-, closing, -⟩ :=
    (pending_match_is_marked started "a]]]>".toList).2 "a]]]".toList '>'
      (by decide) (by decide) (by decide)
  have partAtEnd :
      ∃ part, part ≠ [] ∧ part <+: "]]>".toList ∧ part <:+ "a]]]".toList :=
    ⟨"]]".toList, by decide, by decide, by decide⟩
  exact ⟨_, started, by decide, atEnd.mpr partAtEnd, marked, by decide, closing⟩

end TemplateMarkup.Scanner
