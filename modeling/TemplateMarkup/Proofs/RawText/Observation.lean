import TemplateMarkup.Proofs.RawText.Closing
import TemplateMarkup.Proofs.RawText.Coherence

/-!
Contract: two scanners that answer alike from now on are the same scanner.

Owns:
- `Scanner.Reached`, the scanners that some text leads to, and `Scanner.Alike`, those that
  no text tells apart;
- what the answers of a scanner give away: whether it is closed, its count and its element.

Does not own: scanners that are both closed. Past the closer the places at the document
level are read on alike, so such scanners can differ without showing it.
-/

set_option autoImplicit false

namespace TemplateMarkup.Scanner

open TemplateMarkup.Matching

/-- A scanner that a started one becomes by reading some text. -/
def Reached (scanner : Scanner) : Prop :=
  ∃ dialect tag start text, start? dialect tag = some start ∧ scanner = start.feed text

/-- No text tells the two scanners apart. -/
def Alike (left right : Scanner) : Prop :=
  ∀ text, left.positions text = right.positions text

variable {left right scanner : Scanner}

theorem Reached.coherent (reached : Reached scanner) : Coherent scanner := by
  obtain ⟨dialect, tag, start, text, started, rfl⟩ := reached
  exact (coherent_of_start? started).feed text

/-! ## What one scanner does -/

theorem matched_feed_le (scanner : Scanner) (text : List Char) :
    (scanner.feed text).matched ≤ scanner.matched + text.length := by
  induction text generalizing scanner with
  | nil => exact Nat.le_refl _
  | cons character rest inductionHypothesis =>
      have one := matched_step_le scanner character
      have others := inductionHypothesis (scanner.step character)
      rw [feed_cons, List.length_cons]
      omega

theorem isRaw_bodyOf (dialect : Dialect) (tag : String) :
    (bodyOf dialect tag).isRaw = true := by
  unfold bodyOf
  split <;> rfl

/-- The place alone tells whether a scanner is closed. -/
theorem Coherent.isClosed_eq (coherent : Coherent scanner) :
    scanner.isClosed = !scanner.position.isRaw := by
  cases closed : scanner.isClosed with
  | true =>
      rw [(coherent.outside_of_closed closed).1]
      rfl
  | false =>
      have below := coherent.matched_lt closed
      rcases Nat.eq_zero_or_pos scanner.matched with unmatched | partly
      · obtain ⟨dialect, -, bodyIs⟩ := coherent.listed
        rw [coherent.position_eq_body below unmatched, bodyIs, isRaw_bodyOf]
        rfl
      · rw [coherent.position_eq_closeSequence below partly]
        rfl

/-- A character that is not in the closer takes an unclosed scanner back to its start. -/
theorem Coherent.step_of_notMem
    (coherent : Coherent scanner)
    (unclosed : scanner.isClosed = false)
    {character : Char}
    (absent : character ∉ scanner.element.pattern) :
    scanner.step character = ofElement scanner.element scanner.body := by
  have nonempty : 0 ≠ scanner.element.pattern.length := by
    have below := coherent.matched_lt unclosed
    omega
  rw [step_of_not_isClosed unclosed, advance_eq_zero_of_notMem absent, positionAt,
    if_neg nonempty, if_pos rfl]
  rfl

theorem Coherent.step_space
    (coherent : Coherent scanner)
    (unclosed : scanner.isClosed = false) :
    scanner.step ' ' = ofElement scanner.element scanner.body := by
  obtain ⟨dialect, listed, -⟩ := coherent.listed
  exact coherent.step_of_notMem unclosed (Dialect.space_notMem_pattern listed)

theorem Coherent.isClosed_step_space (coherent : Coherent scanner) :
    (scanner.step ' ').isClosed = scanner.isClosed := by
  cases closed : scanner.isClosed with
  | true => exact isClosed_step closed ' '
  | false =>
      have below := coherent.matched_lt closed
      rw [coherent.step_space closed, isClosed_eq_false_iff]
      exact Nat.ne_of_lt (Nat.zero_lt_of_lt below)

/-- What is missing of the closer closes the scanner. -/
theorem Coherent.isClosed_feed_rest (coherent : Coherent scanner) :
    (scanner.feed (scanner.element.pattern.drop scanner.matched)).isClosed = true := by
  generalize missing : scanner.element.pattern.drop scanner.matched = rest
  induction rest generalizing scanner with
  | nil =>
      have complete := List.drop_eq_nil_iff.mp missing
      exact (isClosed_iff scanner).mpr (Nat.le_antisymm coherent.matched_le complete)
  | cons character rest inductionHypothesis =>
      have below : scanner.matched < scanner.element.pattern.length := by
        have missingCount := congrArg List.length missing
        rw [List.length_drop, List.length_cons] at missingCount
        omega
      have unclosed := (isClosed_eq_false_iff scanner).mpr (Nat.ne_of_lt below)
      rw [List.drop_eq_getElem_cons below] at missing
      obtain ⟨rfl, later⟩ := List.cons.inj missing
      apply inductionHypothesis (coherent.step _)
      rw [element_step, step_of_not_isClosed unclosed, advance_getElem below]
      exact later

/-! ## What answers give away -/

namespace Alike

theorem symm (alike : Alike left right) : Alike right left := fun text =>
  (alike text).symm

theorem step (alike : Alike left right) (character : Char) :
    Alike (left.step character) (right.step character) := fun rest =>
  (List.cons.inj (alike (character :: rest))).2

theorem feed (alike : Alike left right) (text : List Char) :
    Alike (left.feed text) (right.feed text) := by
  induction text generalizing left right with
  | nil => exact alike
  | cons character rest inductionHypothesis => exact inductionHypothesis (alike.step character)

theorem isClosed_eq
    (alike : Alike left right)
    (leftCoherent : Coherent left)
    (rightCoherent : Coherent right) :
    left.isClosed = right.isClosed := by
  have samePlace : (left.step ' ').position = (right.step ' ').position :=
    (List.cons.inj (alike [' '])).1
  calc
    left.isClosed = (left.step ' ').isClosed := leftCoherent.isClosed_step_space.symm
    _ = (right.step ' ').isClosed := by
        rw [(leftCoherent.step ' ').isClosed_eq, (rightCoherent.step ' ').isClosed_eq, samePlace]
    _ = right.isClosed := rightCoherent.isClosed_step_space

theorem matched_le
    (alike : Alike left right)
    (leftCoherent : Coherent left)
    (rightCoherent : Coherent right)
    (sameElement : left.element = right.element) :
    right.matched ≤ left.matched := by
  have rightBound := rightCoherent.matched_le
  -- What the right scanner misses of the closer has to close the left one too, and that is
  -- too short a text for one that is further from the end.
  have leftClosed :
      (left.feed (right.element.pattern.drop right.matched)).isClosed = true := by
    rw [(alike.feed _).isClosed_eq (leftCoherent.feed _) (rightCoherent.feed _)]
    exact rightCoherent.isClosed_feed_rest
  have reached := matched_feed_le left (right.element.pattern.drop right.matched)
  rw [(isClosed_iff _).mp leftClosed, (element_and_body_feed left _).1, sameElement,
    List.length_drop] at reached
  omega

theorem matched_eq
    (alike : Alike left right)
    (leftCoherent : Coherent left)
    (rightCoherent : Coherent right)
    (sameElement : left.element = right.element) :
    left.matched = right.matched :=
  Nat.le_antisymm
    (alike.symm.matched_le rightCoherent leftCoherent sameElement.symm)
    (alike.matched_le leftCoherent rightCoherent sameElement)

theorem element_eq
    (alike : Alike left right)
    (leftCoherent : Coherent left)
    (rightCoherent : Coherent right)
    (leftUnclosed : left.isClosed = false)
    (rightUnclosed : right.isClosed = false) :
    left.element = right.element := by
  have leftNonempty : left.element.pattern ≠ [] :=
    List.length_pos_iff.mp (Nat.zero_lt_of_lt (leftCoherent.matched_lt leftUnclosed))
  have rightNonempty : right.element.pattern ≠ [] :=
    List.length_pos_iff.mp (Nat.zero_lt_of_lt (rightCoherent.matched_lt rightUnclosed))
  -- After a space both count from the start, so they close where their closers occur.
  have restarted := alike.step ' '
  have leftRestarted := leftCoherent.step ' '
  have rightRestarted := rightCoherent.step ' '
  rw [leftCoherent.step_space leftUnclosed] at restarted leftRestarted
  rw [rightCoherent.step_space rightUnclosed] at restarted rightRestarted
  have occurTogether :
      ∀ text, left.element.pattern <:+: text ↔ right.element.pattern <:+: text := by
    intro text
    rw [← isClosed_feed_iff leftNonempty left.body, ← isClosed_feed_iff rightNonempty right.body,
      (restarted.feed text).isClosed_eq (leftRestarted.feed text) (rightRestarted.feed text)]
  -- Closers that occur in the same texts occur in each other.
  have samePattern : left.element.pattern = right.element.pattern :=
    List.infix_antisymm ((occurTogether _).mpr (List.infix_refl _))
      ((occurTogether _).mp (List.infix_refl _))
  obtain ⟨leftDialect, leftListed, -⟩ := leftCoherent.listed
  obtain ⟨rightDialect, rightListed, -⟩ := rightCoherent.listed
  exact Dialect.rawElement_eq_of_tag_or_closer_eq leftListed rightListed
    (Or.inr (String.toList_injective samePattern))

end Alike

/-! ## Equality -/

theorem Coherent.eq_of_unclosed
    (leftCoherent : Coherent left)
    (rightCoherent : Coherent right)
    (leftUnclosed : left.isClosed = false)
    (rightUnclosed : right.isClosed = false)
    (sameElement : left.element = right.element)
    (sameCount : left.matched = right.matched) :
    left = right := by
  obtain ⟨leftDialect, -, leftBody⟩ := leftCoherent.listed
  obtain ⟨rightDialect, -, rightBody⟩ := rightCoherent.listed
  have sameBody : left.body = right.body := by
    rw [leftBody, rightBody, sameElement]
    rfl
  have samePlace : left.position = right.position := by
    rw [leftCoherent.position_of_unclosed leftUnclosed,
      rightCoherent.position_of_unclosed rightUnclosed]
    simp only [positionAt, sameElement, sameCount, sameBody]
  cases left
  cases right
  rw [Scanner.mk.injEq]
  exact ⟨sameElement, sameBody, sameCount, samePlace⟩

/-- A tag has the same scanner in every dialect in which it has one. -/
theorem start?_eq_of_start?
    {leftDialect rightDialect : Dialect}
    {tag : String}
    (leftStarted : start? leftDialect tag = some left)
    (rightStarted : start? rightDialect tag = some right) :
    left = right := by
  obtain ⟨leftElement, leftFound, rfl⟩ := Option.map_eq_some_iff.mp leftStarted
  obtain ⟨rightElement, rightFound, rfl⟩ := Option.map_eq_some_iff.mp rightStarted
  obtain ⟨leftListed, leftTag⟩ := Dialect.mem_and_tag_of_rawElement? leftFound
  obtain ⟨rightListed, rightTag⟩ := Dialect.mem_and_tag_of_rawElement? rightFound
  rw [Dialect.rawElement_eq_of_tag_or_closer_eq leftListed rightListed
    (Or.inl (leftTag.trans rightTag.symm))]
  rfl

/-- Of two scanners of which one is unclosed, no text tells them apart exactly if they are
equal. So scanners of one tag can stand for each other whatever their dialects, and two
unclosed ones with different counts or tags are told apart by some text. -/
theorem eq_iff_no_text_tells_apart
    {left right : Scanner}
    (leftReached : Reached left)
    (rightReached : Reached right)
    (unclosed : left.isClosed = false ∨ right.isClosed = false) :
    (left = right ↔ ∀ text, left.positions text = right.positions text) ∧
    (left.isClosed = false → right.isClosed = false →
      left.matched ≠ right.matched ∨ left.element.tag ≠ right.element.tag →
        ∃ text, left.positions text ≠ right.positions text) ∧
    ∀ (leftDialect rightDialect : Dialect) (tag : String) (leftStart rightStart : Scanner),
      start? leftDialect tag = some leftStart →
      start? rightDialect tag = some rightStart →
        ∀ text,
          leftStart.feed text = rightStart.feed text ∧
            leftStart.positions text = rightStart.positions text := by
  have leftCoherent := leftReached.coherent
  have rightCoherent := rightReached.coherent
  have sameOfAlike : Alike left right → left = right := by
    intro alike
    have together := alike.isClosed_eq leftCoherent rightCoherent
    have leftUnclosed : left.isClosed = false := by
      rcases unclosed with here | there
      · exact here
      · exact together.trans there
    have rightUnclosed := together.symm.trans leftUnclosed
    have sameElement := alike.element_eq leftCoherent rightCoherent leftUnclosed rightUnclosed
    exact leftCoherent.eq_of_unclosed rightCoherent leftUnclosed rightUnclosed sameElement
      (alike.matched_eq leftCoherent rightCoherent sameElement)
  refine ⟨⟨?_, sameOfAlike⟩, ?_, ?_⟩
  · rintro rfl text
    rfl
  · intro _ _ different
    by_contra inseparable
    have same := sameOfAlike fun text => by
      by_contra apart
      exact inseparable ⟨text, apart⟩
    rcases different with counts | tags
    · exact counts (congrArg matched same)
    · exact tags (congrArg (fun scanner => scanner.element.tag) same)
  · intro leftDialect rightDialect tag leftStart rightStart leftStarted rightStarted text
    rw [start?_eq_of_start? leftStarted rightStarted]
    exact ⟨rfl, rfl⟩

/-- Three characters of two closers, which so far were answered alike. -/
theorem eq_iff_no_text_tells_apart_script_style :
    ∃ left right : Scanner,
      Reached left ∧ Reached right ∧
      left.isClosed = false ∧ right.isClosed = false ∧
      left.matched = right.matched ∧ left.position = right.position ∧
      left.element.tag ≠ right.element.tag ∧
      (∃ text, left.positions text ≠ right.positions text) ∧
      (left = right ↔ ∀ text, left.positions text = right.positions text) ∧
      ∃ serverStart clientStart,
        start? .server "style" = some serverStart ∧
        start? .client "style" = some clientStart ∧
        serverStart.positions "</st</style>x".toList =
          clientStart.positions "</st</style>x".toList := by
  have scriptStarted :
      start? .server "script" = some (ofElement ⟨"script", "</script>"⟩ .altText) := by
    decide
  have styleStarted :
      ∀ dialect, dialect = .server ∨ dialect = .client →
        start? dialect "style" = some (ofElement ⟨"style", "</style>"⟩ .altText) := by
    intro dialect page
    rcases page with rfl | rfl <;> decide
  have leftReached :
      Reached ((ofElement ⟨"script", "</script>"⟩ .altText).feed "</s".toList) :=
    ⟨_, _, _, _, scriptStarted, rfl⟩
  have rightReached :
      Reached ((ofElement ⟨"style", "</style>"⟩ .altText).feed "</s".toList) :=
    ⟨_, _, _, _, styleStarted .client (Or.inr rfl), rfl⟩
  obtain ⟨equality, apart, interchangeable⟩ :=
    eq_iff_no_text_tells_apart leftReached rightReached (Or.inl (by decide))
  refine ⟨_, _, leftReached, rightReached, by decide, by decide, by decide, by decide,
    by decide, apart (by decide) (by decide) (Or.inr (by decide)), equality, _, _,
    styleStarted .server (Or.inl rfl), styleStarted .client (Or.inr rfl), ?_⟩
  exact (interchangeable _ _ _ _ _ (styleStarted .server (Or.inl rfl))
    (styleStarted .client (Or.inr rfl)) _).2

end TemplateMarkup.Scanner
