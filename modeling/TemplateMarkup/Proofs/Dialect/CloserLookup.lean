import TemplateMarkup.RawText.Scanner

/-!
Contract: tags and closers of raw elements name each other.

Owns:
- what a search by key finds in a table without repeated keys;
- the two look-ups of a dialect as one listing;
- the agreement of `Scanner.startThroughCloser?`, which takes the tag from the listing, and
  `Scanner.start?`.

Does not own: what a scanner does with the closer.

A look-up stops at the first entry that fits. That it misses none is due to the table: no two
entries of a dialect share a tag or a closer.
-/

set_option autoImplicit false

namespace TemplateMarkup

universe u v w

/-- In a table without repeated keys, a search by key misses no entry. -/
theorem map_find?_eq_some_iff
    {Entry : Type u}
    {Key : Type v}
    {Value : Type w}
    [DecidableEq Key]
    {table : List Entry}
    {keyOf : Entry → Key}
    (keysDiffer : ∀ left ∈ table, ∀ right ∈ table, keyOf left = keyOf right → left = right)
    (valueOf : Entry → Value)
    (wanted : Key)
    (value : Value) :
    (table.find? fun candidate => keyOf candidate = wanted).map valueOf = some value ↔
      ∃ entry ∈ table, keyOf entry = wanted ∧ valueOf entry = value := by
  rw [Option.map_eq_some_iff]
  constructor
  · rintro ⟨entry, found, rfl⟩
    have fits := List.find?_some found
    exact ⟨entry, List.mem_of_find?_eq_some found, by simpa using fits, rfl⟩
  · rintro ⟨entry, listed, rfl, rfl⟩
    cases search : table.find? fun candidate => keyOf candidate = keyOf entry with
    | none =>
        have missed := List.find?_eq_none.mp search entry listed
        exact absurd (decide_eq_true rfl) missed
    | some found =>
        have fits := List.find?_some search
        have sameKey : keyOf found = keyOf entry := by simpa using fits
        have same := keysDiffer found (List.mem_of_find?_eq_some search) entry listed sameKey
        exact ⟨found, rfl, congrArg valueOf same⟩

namespace Dialect

theorem mem_rawElements_iff (dialect : Dialect) (tag closer : String) :
    ⟨tag, closer⟩ ∈ dialect.rawElements ↔
      ∃ element ∈ dialect.rawElements, element.tag = tag ∧ element.closer = closer := by
  constructor
  · intro listed
    exact ⟨_, listed, rfl, rfl⟩
  · rintro ⟨element, listed, rfl, rfl⟩
    exact listed

/-- A tag has the closers that are listed with it. -/
theorem closer?_eq_some_iff (dialect : Dialect) (tag closer : String) :
    dialect.closer? tag = some closer ↔ ⟨tag, closer⟩ ∈ dialect.rawElements := by
  rw [mem_rawElements_iff]
  apply map_find?_eq_some_iff
  intro left leftListed right rightListed same
  exact rawElement_eq_of_tag_or_closer_eq leftListed rightListed (Or.inl same)

/-- A closer has the tags that are listed with it. -/
theorem tagOfCloser?_eq_some_iff (dialect : Dialect) (closer tag : String) :
    dialect.tagOfCloser? closer = some tag ↔ ⟨tag, closer⟩ ∈ dialect.rawElements := by
  simp only [mem_rawElements_iff, and_comm (a := _ = tag)]
  apply map_find?_eq_some_iff
  intro left leftListed right rightListed same
  exact rawElement_eq_of_tag_or_closer_eq leftListed rightListed (Or.inr same)

end Dialect

namespace Scanner

/-- The second look-up leads back to the tag. -/
theorem startThroughCloser?_eq_map (dialect : Dialect) (tag : String) :
    startThroughCloser? dialect tag =
      (dialect.closer? tag).map fun closer =>
        ofElement ⟨tag, closer⟩ (bodyOf dialect tag) := by
  unfold startThroughCloser?
  cases found : dialect.closer? tag with
  | none => rfl
  | some closer =>
      have listed := (dialect.closer?_eq_some_iff tag closer).mp found
      have back := (dialect.tagOfCloser?_eq_some_iff closer tag).mpr listed
      simp [back]

theorem start?_eq_map (dialect : Dialect) (tag : String) :
    start? dialect tag =
      (dialect.closer? tag).map fun closer =>
        ofElement ⟨tag, closer⟩ (bodyOf dialect tag) := by
  unfold start? Dialect.closer?
  rw [Option.map_map]
  cases found : dialect.rawElement? tag with
  | none => rfl
  | some element =>
      obtain ⟨-, rfl⟩ := Dialect.mem_and_tag_of_rawElement? found
      rfl

/-- A reading that was just started is closed only if there is nothing to look for. -/
theorem isClosed_ofElement
    {element : RawElement}
    (nonempty : element.pattern ≠ [])
    (body : Position) :
    (ofElement element body).isClosed = false := by
  have unmatched := Nat.ne_of_lt (List.length_pos_iff.mpr nonempty)
  simp [isClosed, ofElement, unmatched]

theorem bodyOf_eq_commentText_iff (dialect : Dialect) (tag : String) :
    bodyOf dialect tag = .commentText ↔ dialect.isComment tag = true := by
  cases comment : dialect.isComment tag with
  | true => simp [bodyOf_of_isComment comment]
  | false => simp [bodyOf_of_not_isComment comment]

/-- The tags and the closers of a dialect correspond: each look-up undoes the other. A reading
can be started exactly for a tag with a closer, also where the tag is looked up through the
closer. It is then a reading of that tag up to that closer, it is not closed, and its place is
that of a comment for a comment and that of other raw text else. -/
theorem closers_and_tags_correspond (dialect : Dialect) (tag : String) :
    (∀ closer,
      dialect.closer? tag = some closer ↔ dialect.tagOfCloser? closer = some tag) ∧
    startThroughCloser? dialect tag = start? dialect tag ∧
    ((startThroughCloser? dialect tag).isSome = true ↔
      (dialect.closer? tag).isSome = true) ∧
    ∀ scanner,
      startThroughCloser? dialect tag = some scanner →
      dialect.closer? tag = some scanner.element.closer ∧
        scanner.element.tag = tag ∧
        scanner.isClosed = false ∧
        (scanner.position = .commentText ↔ dialect.isComment tag = true) ∧
        (dialect.isComment tag = false → scanner.position = .altText) := by
  refine ⟨fun closer => ?_, ?_, ?_, ?_⟩
  · rw [dialect.closer?_eq_some_iff, dialect.tagOfCloser?_eq_some_iff]
  · rw [startThroughCloser?_eq_map, start?_eq_map]
  · rw [startThroughCloser?_eq_map, Option.isSome_map]
  · intro scanner started
    rw [startThroughCloser?_eq_map, Option.map_eq_some_iff] at started
    obtain ⟨closer, found, rfl⟩ := started
    have listed := (dialect.closer?_eq_some_iff tag closer).mp found
    refine ⟨found, rfl, isClosed_ofElement (Dialect.pattern_ne_nil_of_mem listed) _,
      bodyOf_eq_commentText_iff dialect tag, bodyOf_of_not_isComment⟩

/-- Sections of character data are raw text in documents without a vocabulary, and are no
comments. -/
theorem closers_and_tags_correspond_cdata :
    ∃ scanner,
      startThroughCloser? .xml "!CDATA[[" = some scanner ∧
      scanner.element.closer = "]]>" ∧
      Dialect.xml.closer? "!CDATA[[" = some scanner.element.closer ∧
      Dialect.xml.tagOfCloser? scanner.element.closer = some "!CDATA[[" ∧
      scanner.isClosed = false ∧
      scanner.position = .altText := by
  have started :
      startThroughCloser? .xml "!CDATA[[" =
        some (ofElement ⟨"!CDATA[[", "]]>"⟩ .altText) := by
    decide
  obtain ⟨inverse, -, -, facts⟩ := closers_and_tags_correspond .xml "!CDATA[["
  obtain ⟨found, -, unclosed, -, place⟩ := facts _ started
  exact ⟨_, started, rfl, found, (inverse _).mp found, unclosed, place (by decide)⟩

end Scanner

end TemplateMarkup
