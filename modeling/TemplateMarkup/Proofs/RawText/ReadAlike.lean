import TemplateMarkup.Proofs.RawText.Observation
import TemplateMarkup.Proofs.RawText.Safety

/-!
Contract: a text is read by its delimiters, its white space and, in raw text, the characters
of the closer; all others can stand for each other.

Owns:
- `Text.ReadAlike`, the characters that can stand for each other in markup, and its agreement
  with their kinds;
- `Scanner.ReadAlike`, the same for a scanner, which also knows the characters of its closer;
- two walks, and two scanners that start out equal, over texts that are alike character by
  character;
- characters above U+007F, of which a closer has none.

Does not own: texts of different lengths.
-/

set_option autoImplicit false

namespace TemplateMarkup

/-! ## Characters -/

namespace Text

/-- The characters that markup gives a meaning of their own. -/
def delimiters : List Char :=
  ['<', '>', '/', '=', '"', '\x7b', '\x7d']

/-- Two characters are read alike if they are the same, or both white space, or both
neither white space nor delimiters. -/
def ReadAlike (left right : Char) : Prop :=
  left = right ∨
    (isWhiteSpace left = true ∧ isWhiteSpace right = true) ∨
    (isWhiteSpace left = false ∧ left ∉ delimiters) ∧
      (isWhiteSpace right = false ∧ right ∉ delimiters)

instance (left right : Char) : Decidable (ReadAlike left right) :=
  inferInstanceAs (Decidable (_ ∨ _))

namespace CharKind

theorem of_eq_plain_iff (character : Char) :
    of character = .plain ↔ isWhiteSpace character = false ∧ character ∉ delimiters := by
  constructor
  · intro plain
    have apart :
        ∀ kind delimiter, delimiter? kind = some delimiter → character ≠ delimiter := by
      rintro kind delimiter single rfl
      rw [(of_eq_iff_of_delimiter? single character).mpr rfl] at plain
      subst plain
      cases single
    refine ⟨?_, ?_⟩
    · rw [Bool.eq_false_iff, Ne, ← of_eq_space_iff, plain]
      decide
    · simp [delimiters, apart .lessThan _ rfl, apart .greaterThan _ rfl, apart .solidus _ rfl,
        apart .equals _ rfl, apart .quote _ rfl, apart .openBrace _ rfl,
        apart .closeBrace _ rfl]
  · rintro ⟨solid, absent⟩
    simp only [delimiters, List.mem_cons, List.not_mem_nil, or_false, not_or] at absent
    simp [of, solid, absent]

/-- Characters are read alike exactly if they are of one kind. -/
theorem of_eq_of_iff (left right : Char) : of left = of right ↔ ReadAlike left right := by
  constructor
  · intro sameKind
    cases single : (of left).delimiter? with
    | some delimiter =>
        have leftIs := (of_eq_iff_of_delimiter? single left).mp rfl
        have rightIs := (of_eq_iff_of_delimiter? single right).mp sameKind.symm
        exact Or.inl (leftIs.trans rightIs.symm)
    | none =>
        -- Of the kinds that are no single delimiter there are two.
        have spaceOrPlain : of left = .space ∨ of left = .plain := by
          revert single
          cases of left <;> simp [delimiter?]
        rcases spaceOrPlain with space | plain
        · exact Or.inr (Or.inl ⟨(of_eq_space_iff left).mp space,
            (of_eq_space_iff right).mp (sameKind ▸ space)⟩)
        · exact Or.inr (Or.inr ⟨(of_eq_plain_iff left).mp plain,
            (of_eq_plain_iff right).mp (sameKind ▸ plain)⟩)
  · rintro (rfl | ⟨leftSpace, rightSpace⟩ | ⟨leftPlain, rightPlain⟩)
    · rfl
    · rw [(of_eq_space_iff left).mpr leftSpace, (of_eq_space_iff right).mpr rightSpace]
    · rw [(of_eq_plain_iff left).mpr leftPlain, (of_eq_plain_iff right).mpr rightPlain]

end CharKind

end Text

/-! ## Walks -/

namespace Position

open TemplateMarkup.Text

/-- Every two kinds are told apart at some place. -/
theorem kind_eq_of_onKind_eq
    {left right : CharKind}
    (same : ∀ position : Position, position.onKind left = position.onKind right) :
    left = right := by
  have between := same .initial
  have inTag := same .tag
  have inName := same .attr
  have inValue := same .attrSetter
  have inInjection := same .injectionSpace
  revert between inTag inName inValue inInjection
  cases left <;> cases right <;> decide

theorem readAlike_iff (left right : Char) :
    ReadAlike left right ↔ ∀ position : Position, position.next left = position.next right := by
  rw [← CharKind.of_eq_of_iff]
  exact ⟨fun sameKind position => position.next_congr sameKind, kind_eq_of_onKind_eq⟩

theorem walk_eq_of_readAlike
    {left right : List Char}
    (alike : List.Forall₂ ReadAlike left right)
    (start : Position) :
    start.walk left = start.walk right := by
  induction alike generalizing start with
  | nil => rfl
  | cons here _ inductionHypothesis =>
      rw [walk_cons, walk_cons, (readAlike_iff _ _).mp here start, inductionHypothesis]

end Position

/-! ## Scanners -/

namespace Dialect

/-- A closer holds ASCII characters only. -/
theorem toNat_le_of_mem_pattern
    {dialect : Dialect}
    {element : RawElement}
    (listed : element ∈ dialect.rawElements) :
    ∀ character ∈ element.pattern, character.toNat ≤ 0x7F := by
  have allSmall :
      ∀ anyDialect : Dialect, ∀ candidate ∈ anyDialect.rawElements,
        (candidate.pattern.all fun character => character.toNat ≤ 0x7F) = true := by
    intro anyDialect
    cases anyDialect <;> decide
  intro character member
  exact of_decide_eq_true (List.all_eq_true.mp (allSmall dialect element listed) character member)

end Dialect

namespace Scanner

open TemplateMarkup.Matching

variable {scanner : Scanner} {left right : List Char}

/-- Two characters are read alike by a scanner for a closer if they are the same, or read
alike in markup and both absent from the closer. -/
def ReadAlike (pattern : List Char) (left right : Char) : Prop :=
  left = right ∨ Text.ReadAlike left right ∧ left ∉ pattern ∧ right ∉ pattern

instance (pattern : List Char) (left right : Char) : Decidable (ReadAlike pattern left right) :=
  inferInstanceAs (Decidable (_ ∨ _))

theorem step_eq_of_readAlike
    {left right : Char}
    (alike : ReadAlike scanner.element.pattern left right) :
    scanner.step left = scanner.step right := by
  rcases alike with rfl | ⟨sameKind, leftAbsent, rightAbsent⟩
  · rfl
  · cases closed : scanner.isClosed with
    | true =>
        rw [step_of_isClosed closed, step_of_isClosed closed,
          (Position.readAlike_iff left right).mp sameKind]
    | false =>
        rw [step_of_not_isClosed closed, step_of_not_isClosed closed,
          advance_eq_zero_of_notMem leftAbsent, advance_eq_zero_of_notMem rightAbsent]

/-- Over texts that it reads alike, a scanner goes through the same states. -/
theorem run_eq_of_readAlike
    (alike : List.Forall₂ (ReadAlike scanner.element.pattern) left right) :
    scanner.run left = scanner.run right ∧ scanner.feed left = scanner.feed right := by
  generalize samePattern : scanner.element.pattern = pattern at alike
  induction alike generalizing scanner with
  | nil => exact ⟨rfl, rfl⟩
  | @cons leftFirst rightFirst _ _ here _ inductionHypothesis =>
      have sameStep : scanner.step leftFirst = scanner.step rightFirst := by
        apply step_eq_of_readAlike
        rw [samePattern]
        exact here
      have patternBelow : (scanner.step rightFirst).element.pattern = pattern := by
        rw [element_step, samePattern]
      obtain ⟨sameRun, sameEnd⟩ := inductionHypothesis patternBelow
      refine ⟨?_, ?_⟩
      · show scanner.step leftFirst :: (scanner.step leftFirst).run _ =
          scanner.step rightFirst :: (scanner.step rightFirst).run _
        rw [sameStep, sameRun]
      · rw [feed_cons, feed_cons, sameStep, sameEnd]

/-- Above U+007F no character is one of the closer's, nor is its byte, if it has one. -/
theorem Coherent.notMem_of_wide
    (coherent : Coherent scanner)
    {character : Char}
    (wide : 0x7F < character.toNat) :
    character ∉ scanner.element.pattern ∧
      ∀ byte, byte? character = some byte → byte ∉ scanner.element.bytes := by
  obtain ⟨dialect, listed, -⟩ := coherent.listed
  have absent : character ∉ scanner.element.pattern := fun member =>
    Nat.not_le_of_lt wide (Dialect.toNat_le_of_mem_pattern listed character member)
  refine ⟨absent, fun byte single member => absent ?_⟩
  rw [Dialect.pattern_eq_map_bytes listed, (byte?_eq_some_iff character byte).mp single]
  exact List.mem_map_of_mem member

end Scanner

/-! ## Texts that are read alike -/

/-- Texts whose characters are pairwise the same, both white space, or both neither white
space nor delimiters are walked alike from every place, and no coarser relation of characters
would do. A scanner goes through the same states over two texts if, besides, characters of
its closer are matched with themselves; and a character above U+007F is never taken for one
of them. -/
theorem only_delimiters_and_white_space_matter :
    (∀ left right : Char,
      Text.ReadAlike left right ↔
        ∀ position : Position, position.next left = position.next right) ∧
    (∀ (start : Position) (left right : List Char),
      List.Forall₂ Text.ReadAlike left right → start.walk left = start.walk right) ∧
    ∀ scanner : Scanner, scanner.Reached →
      (∀ left right : List Char,
        List.Forall₂ (Scanner.ReadAlike scanner.element.pattern) left right →
          scanner.positions left = scanner.positions right ∧
            scanner.run left = scanner.run right ∧
            scanner.feed left = scanner.feed right) ∧
      ∀ character : Char, 0x7F < character.toNat →
        character ∉ scanner.element.pattern ∧
        (∀ byte, Scanner.byte? character = some byte → byte ∉ scanner.element.bytes) ∧
        (scanner.isClosed = false →
          scanner.search? character = some 0 ∧
            scanner.step character = Scanner.ofElement scanner.element scanner.body) := by
  refine ⟨Position.readAlike_iff, fun start left right alike =>
    Position.walk_eq_of_readAlike alike start, ?_⟩
  intro scanner reached
  have coherent := reached.coherent
  refine ⟨fun left right alike => ?_, fun character wide => ?_⟩
  · obtain ⟨sameRun, sameEnd⟩ := Scanner.run_eq_of_readAlike alike
    exact ⟨congrArg (List.map Scanner.position) sameRun, sameRun, sameEnd⟩
  · obtain ⟨absent, noByte⟩ := coherent.notMem_of_wide wide
    refine ⟨absent, noByte, fun unclosed => ⟨?_, coherent.step_of_notMem unclosed absent⟩⟩
    rw [coherent.search?_eq_some unclosed, Matching.advance_eq_zero_of_notMem absent]

/-- U+013E and U+012D, whose low bytes are those of the closer's characters, after two
hyphens of it. -/
theorem only_delimiters_and_white_space_matter_low_bytes :
    Position.initial.walk ['<', 'a', ' ', 'b', '>'] =
        Position.initial.walk ['<', '\u013e', '\u3000', '\u00e9', '>'] ∧
      ∃ scanner : Scanner,
        scanner.Reached ∧ scanner.matched = 2 ∧ scanner.isClosed = false ∧
        scanner.positions ['-', '\u013e', '\u012d', '>'] =
          scanner.positions ['-', 'x', 'y', '>'] ∧
        scanner.feed ['-', '\u013e', '\u012d', '>'] = scanner.feed ['-', 'x', 'y', '>'] ∧
        0x7F < '\u013e'.toNat ∧
        scanner.step '\u013e' = Scanner.ofElement scanner.element scanner.body := by
  obtain ⟨-, walksAgree, scannersAgree⟩ := only_delimiters_and_white_space_matter
  have started :
      Scanner.start? .xml "!--" = some (Scanner.ofElement ⟨"!--", "-->"⟩ .commentText) := by
    decide
  have reached :
      ((Scanner.ofElement ⟨"!--", "-->"⟩ .commentText).feed ['-', '-']).Reached :=
    ⟨_, _, _, _, started, rfl⟩
  obtain ⟨runsAgree, wideIsOther⟩ := scannersAgree _ reached
  have sameRuns :=
    runsAgree ['-', '\u013e', '\u012d', '>'] ['-', 'x', 'y', '>']
      (.cons (by decide) (.cons (by decide) (.cons (by decide) (.cons (by decide) .nil))))
  refine ⟨walksAgree .initial _ _ ?_, _, reached, by decide, by decide, sameRuns.1, sameRuns.2.2,
    by decide, ((wideIsOther '\u013e' (by decide)).2.2 (by decide)).2⟩
  exact .cons (by decide) (.cons (by decide) (.cons (by decide) (.cons (by decide)
    (.cons (by decide) .nil))))

end TemplateMarkup
