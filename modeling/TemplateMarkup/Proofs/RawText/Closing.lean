import TemplateMarkup.Position.Level
import TemplateMarkup.Proofs.Matching.Overlap
import TemplateMarkup.RawText.Scanner

/-!
Contract: a raw element ends where its closer occurs for the first time.

Owns:
- `Scanner.HasRead`, what a scanner holds after a text that the closer at most ends;
- the places that a scanner gives before, at and after the first occurrence.

Does not own: the search for the closer, or the walk through what follows it.
-/

set_option autoImplicit false

namespace TemplateMarkup.Scanner

open TemplateMarkup.Matching

variable {element : RawElement} {body : Position} {text : List Char} {scanner : Scanner}

/-! ## Reading up to the closer -/

/-- What a scanner holds after a text in which the closer occurs at the end or not at
all: the element it was made for, and how much of the closer the text ends with. -/
structure HasRead
    (element : RawElement)
    (body : Position)
    (text : List Char)
    (scanner : Scanner) : Prop where
  element_eq : scanner.element = element
  body_eq : scanner.body = body
  isMatched : IsMatched element.pattern text scanner.matched
  position_eq : scanner.position = scanner.positionAt scanner.matched

theorem hasRead_ofElement (nonempty : element.pattern ≠ []) (body : Position) :
    HasRead element body [] (ofElement element body) where
  element_eq := rfl
  body_eq := rfl
  isMatched := isMatched_nil element.pattern
  position_eq := by
    have unmatched := Nat.ne_of_lt (List.length_pos_iff.mpr nonempty)
    simp [ofElement, positionAt, unmatched]

namespace HasRead

theorem isClosed_iff (reading : HasRead element body text scanner) :
    scanner.isClosed = true ↔ element.pattern <:+ text := by
  rw [Scanner.isClosed_iff, reading.element_eq]
  exact reading.isMatched.eq_length_iff

theorem not_isClosed
    (reading : HasRead element body text scanner)
    (absent : ¬ element.pattern <:+: text) :
    scanner.isClosed = false := by
  rw [Bool.eq_false_iff]
  intro closed
  exact absent (reading.isClosed_iff.mp closed).isInfix

/-- One more character, as long as the closer was not complete. -/
theorem step
    (reading : HasRead element body text scanner)
    (unclosed : scanner.isClosed = false)
    (character : Char) :
    HasRead element body (text ++ [character]) (scanner.step character) := by
  have below : scanner.matched < element.pattern.length := by
    have different : scanner.matched ≠ scanner.element.pattern.length := by
      simpa [isClosed] using unclosed
    rw [reading.element_eq] at different
    exact Nat.lt_of_le_of_ne reading.isMatched.1.1 different
  have advanced := reading.isMatched.advance below character
  rw [step_of_not_isClosed unclosed]
  exact
    { element_eq := reading.element_eq
      body_eq := reading.body_eq
      isMatched := by simpa only [reading.element_eq] using advanced
      position_eq := rfl }

/-- Before the closer is complete, a character is content or part of what may become the
closer. -/
theorem position_of_not_isClosed
    (reading : HasRead element body text scanner)
    (unclosed : scanner.isClosed = false) :
    scanner.position = body ∨ scanner.position = .altTextCloseSequence := by
  have different : scanner.matched ≠ scanner.element.pattern.length := by
    simpa [isClosed] using unclosed
  rw [reading.position_eq, positionAt, if_neg different, reading.body_eq]
  split
  · exact Or.inl rfl
  · exact Or.inr rfl

theorem position_of_isClosed
    (reading : HasRead element body text scanner)
    (closed : scanner.isClosed = true) :
    scanner.position = .tailElementClosed := by
  rw [reading.position_eq, positionAt, if_pos ((Scanner.isClosed_iff scanner).mp closed)]

end HasRead

/-- Reading a text without the closer. -/
theorem hasRead_feed
    (absent : ¬ element.pattern <:+: text)
    (body : Position) :
    HasRead element body text ((ofElement element body).feed text) := by
  induction text using List.reverseRecOn with
  | nil =>
      apply hasRead_ofElement
      intro empty
      exact absent (empty ▸ List.nil_infix)
  | append_singleton front character inductionHypothesis =>
      have absentBefore := not_infix_of_append absent
      have reading := inductionHypothesis absentBefore
      rw [feed_append]
      exact reading.step (reading.not_isClosed absentBefore) character

/-- The character after such a text can complete the closer. -/
theorem hasRead_feed_append_singleton
    {front : List Char}
    (absent : ¬ element.pattern <:+: front)
    (body : Position)
    (character : Char) :
    HasRead element body (front ++ [character])
      ((ofElement element body).feed (front ++ [character])) := by
  have reading := hasRead_feed absent body
  rw [feed_append]
  exact reading.step (reading.not_isClosed absent) character

/-- The places of a text without the closer. -/
theorem positions_of_absent
    (absent : ¬ element.pattern <:+: text)
    (body : Position) :
    ∀ position ∈ (ofElement element body).positions text,
      position = body ∨ position = .altTextCloseSequence := by
  induction text using List.reverseRecOn with
  | nil => simp
  | append_singleton front character inductionHypothesis =>
      have absentBefore := not_infix_of_append absent
      have reading := hasRead_feed absent body
      have place := reading.position_of_not_isClosed (reading.not_isClosed absent)
      rw [feed_append] at place
      rw [positions_append]
      intro position member
      rcases List.mem_append.mp member with earlier | last
      · exact inductionHypothesis absentBefore position earlier
      · rw [positions_cons, positions_nil, List.mem_singleton] at last
        rw [last]
        exact place

/-! ## Reading past the closer -/

/-- A closer that was read completely stays so. -/
theorem isClosed_feed
    (closed : scanner.isClosed = true)
    (text : List Char) :
    (scanner.feed text).isClosed = true := by
  induction text generalizing scanner with
  | nil => exact closed
  | cons character rest inductionHypothesis =>
      exact inductionHypothesis (isClosed_step closed character)

/-- Past the closer the places are those of any other text. -/
theorem positions_of_isClosed
    (closed : scanner.isClosed = true)
    (text : List Char) :
    scanner.positions text = scanner.position.walk text := by
  induction text generalizing scanner with
  | nil => rfl
  | cons character rest inductionHypothesis =>
      rw [positions_cons, inductionHypothesis (isClosed_step closed character),
        step_of_isClosed closed, Position.walk_cons]

@[simp] theorem length_positions (scanner : Scanner) (text : List Char) :
    (scanner.positions text).length = text.length := by
  simp [positions, run]

/-- Every scanner of a run is the scanner after some beginning of the text. -/
theorem exists_feed_of_mem_run
    {visited : Scanner}
    (member : visited ∈ scanner.run text) :
    ∃ count, visited = scanner.feed (text.take count) := by
  induction text generalizing scanner with
  | nil => cases member
  | cons character rest inductionHypothesis =>
      rcases List.mem_cons.mp member with now | later
      · exact ⟨1, now⟩
      · obtain ⟨count, same⟩ := inductionHypothesis later
        exact ⟨count + 1, same⟩

/-! ## At the closer -/

section FirstEnd

variable {index : Nat}

/-- The scanner at the first end of the closer. -/
theorem hasRead_at_firstEnd
    (nonempty : element.pattern ≠ [])
    (first : FirstEndsAt element.pattern text index)
    (body : Position) :
    HasRead element body (text.take (index + 1))
      ((ofElement element body).feed (text.take (index + 1))) := by
  rw [List.take_succ_eq_append_getElem first.1]
  exact hasRead_feed_append_singleton (first.not_infix_take nonempty) body _

theorem isClosed_at_firstEnd
    (nonempty : element.pattern ≠ [])
    (first : FirstEndsAt element.pattern text index)
    (body : Position) :
    ((ofElement element body).feed (text.take (index + 1))).isClosed = true :=
  (hasRead_at_firstEnd nonempty first body).isClosed_iff.mpr first.2.1

/-- A scanner is closed exactly once the closer has occurred. -/
theorem isClosed_feed_iff (nonempty : element.pattern ≠ []) (body : Position) :
    ((ofElement element body).feed text).isClosed = true ↔ element.pattern <:+: text := by
  constructor
  · intro closed
    by_contra absent
    rw [(hasRead_feed absent body).not_isClosed absent] at closed
    cases closed
  · intro occurs
    obtain ⟨index, first⟩ := (infix_iff_exists_firstEndsAt nonempty text).mp occurs
    rw [← List.take_append_drop (index + 1) text, feed_append]
    exact isClosed_feed (isClosed_at_firstEnd nonempty first body) _

/-- The places of a text in which the closer occurs: those of the text before the first
end, the end of a closing tag, and those of a text that follows such an end. -/
theorem positions_of_firstEndsAt
    (nonempty : element.pattern ≠ [])
    (first : FirstEndsAt element.pattern text index)
    (body : Position) :
    (ofElement element body).positions text =
      (ofElement element body).positions (text.take index) ++
        .tailElementClosed :: Position.tailElementClosed.walk (text.drop (index + 1)) := by
  have closed := isClosed_at_firstEnd nonempty first body
  have place := (hasRead_at_firstEnd nonempty first body).position_of_isClosed closed
  have upToEnd := List.take_succ_eq_append_getElem first.1
  calc
    (ofElement element body).positions text
      = (ofElement element body).positions (text.take (index + 1)) ++
          ((ofElement element body).feed (text.take (index + 1))).positions
            (text.drop (index + 1)) := by
        rw [← positions_append, List.take_append_drop]
    _ = (ofElement element body).positions (text.take (index + 1)) ++
          Position.tailElementClosed.walk (text.drop (index + 1)) := by
        rw [positions_of_isClosed closed, place]
    _ = _ := by
        rw [upToEnd, feed_append, feed_cons, feed_nil] at place
        rw [upToEnd, positions_append, positions_cons, positions_nil, place,
          List.append_assoc]
        rfl

end FirstEnd

/-! ## A reading from its start -/

@[simp] theorem element_ofElement (element : RawElement) (body : Position) :
    (ofElement element body).element = element := rfl

/-- A started reading is that of an element with a closer to look for. -/
theorem exists_element_of_start?
    {dialect : Dialect}
    {tag : String}
    (started : start? dialect tag = some scanner) :
    ∃ element : RawElement,
      element.pattern ≠ [] ∧ scanner = ofElement element (bodyOf dialect tag) := by
  obtain ⟨element, found, rfl⟩ := Option.map_eq_some_iff.mp started
  have listed := (Dialect.mem_and_tag_of_rawElement? found).1
  exact ⟨element, Dialect.pattern_ne_nil_of_mem listed, rfl⟩

/-- A raw element ends at the first occurrence of its closer: it is closed exactly once
the closer has occurred, all before is content or part of what may become the closer,
the occurrence ends a closing tag, and what follows is read like any other text. The content
of a comment is comment text, and that of any other element is raw text. -/
theorem closes_at_first_occurrence
    {dialect : Dialect}
    {tag : String}
    {scanner : Scanner}
    (started : start? dialect tag = some scanner)
    (text : List Char) :
    (∀ count,
      (scanner.feed (text.take count)).isClosed = true ↔
        scanner.element.pattern <:+: text.take count) ∧
    (scanner.element.pattern <:+: text ↔
      ∃ index, FirstEndsAt scanner.element.pattern text index) ∧
    (∀ index, FirstEndsAt scanner.element.pattern text index →
      (∀ position ∈ (scanner.positions text).take index,
        position = (if dialect.isComment tag then .commentText else .altText) ∨
          position = .altTextCloseSequence) ∧
      (scanner.positions text)[index]? = some .tailElementClosed ∧
      (scanner.positions text).drop (index + 1) =
        Position.tailElementClosed.walk (text.drop (index + 1)) ∧
      (scanner.positions text).drop (index + 1) =
        Position.initial.walk (text.drop (index + 1))) ∧
    (¬ scanner.element.pattern <:+: text →
      (∀ position ∈ scanner.positions text,
        position = (if dialect.isComment tag then .commentText else .altText) ∨
          position = .altTextCloseSequence) ∧
      ∀ visited ∈ scanner.run text, visited.isClosed = false) := by
  obtain ⟨element, nonempty, rfl⟩ := exists_element_of_start? started
  unfold bodyOf
  -- Where the closer occurs does not depend on what the content is.
  generalize (if dialect.isComment tag then Position.commentText else .altText) = body
  simp only [element_ofElement]
  refine ⟨fun count => isClosed_feed_iff nonempty body,
    infix_iff_exists_firstEndsAt nonempty text, ?_, ?_⟩
  · intro index first
    have places := positions_of_firstEndsAt nonempty first body
    have absent := first.not_infix_take nonempty
    have upToIndex : ((ofElement element body).positions (text.take index)).length = index := by
      rw [length_positions, List.length_take_of_le (Nat.le_of_lt first.1)]
    have following :
        ((ofElement element body).positions text).drop (index + 1) =
          Position.tailElementClosed.walk (text.drop (index + 1)) := by
      rw [places, ← List.drop_drop, List.drop_left' upToIndex]
      rfl
    refine ⟨?_, ?_, following, ?_⟩
    · rw [places, List.take_left' upToIndex]
      exact positions_of_absent absent body
    · rw [places, List.getElem?_append_right (Nat.le_of_eq upToIndex), upToIndex, Nat.sub_self]
      rfl
    · rw [following]
      exact Position.walk_of_atDocumentLevel rfl _
  · intro absent
    refine ⟨positions_of_absent absent body, ?_⟩
    intro visited member
    obtain ⟨count, rfl⟩ := exists_feed_of_mem_run member
    have absentBefore : ¬ element.pattern <:+: text.take count := fun occurs =>
      absent (occurs.trans (List.take_prefix count text).isInfix)
    exact (hasRead_feed absentBefore body).not_isClosed absentBefore

/-- A closer that starts inside what looked like another one, and a comment that does not end. -/
theorem closes_at_first_occurrence_script :
    ∃ script comment : Scanner,
      start? .server "script" = some script ∧
      FirstEndsAt script.element.pattern "</sc</script><b>".toList 12 ∧
      (∀ position ∈ (script.positions "</sc</script><b>".toList).take 12,
        position = .altText ∨ position = .altTextCloseSequence) ∧
      (script.positions "</sc</script><b>".toList)[12]? = some .tailElementClosed ∧
      (script.positions "</sc</script><b>".toList).drop 13 =
        [.element, .tag, .elementClosed] ∧
      start? .server "!--" = some comment ∧
      (∀ position ∈ comment.positions "a->".toList,
        position = .commentText ∨ position = .altTextCloseSequence) ∧
      comment.positions "a->".toList = [.commentText, .altTextCloseSequence, .commentText] := by
  have scriptStarted :
      start? .server "script" = some (ofElement ⟨"script", "</script>"⟩ .altText) := by
    decide
  have commentStarted :
      start? .server "!--" = some (ofElement ⟨"!--", "-->"⟩ .commentText) := by
    decide
  have first :
      FirstEndsAt "</script>".toList "</sc</script><b>".toList 12 := by
    decide
  have unending : ¬ "-->".toList <:+: "a->".toList := by
    decide
  obtain ⟨-, -, atFirst, -⟩ :=
    closes_at_first_occurrence scriptStarted "</sc</script><b>".toList
  obtain ⟨before, closes, handOff, -⟩ := atFirst 12 first
  obtain ⟨-, -, -, without⟩ := closes_at_first_occurrence commentStarted "a->".toList
  exact ⟨_, _, scriptStarted, first, before, closes, handOff, commentStarted,
    (without unending).1, by decide⟩

end TemplateMarkup.Scanner
