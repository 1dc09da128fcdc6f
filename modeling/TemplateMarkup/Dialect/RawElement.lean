import TemplateMarkup.Dialect.Basic

/-!
Contract: the elements whose content is raw text, and the texts that end them.

Owns:
- `RawElement`, a tag together with its closer;
- the raw elements of each dialect and the look-ups from tag to closer and back;
- the tag of comments.

Does not own: finding the closer in a text.
-/

set_option autoImplicit false

namespace TemplateMarkup

open TemplateMarkup.Text

/-- An element whose content is raw text, up to the first occurrence of its closer. -/
structure RawElement where
  tag : String
  closer : String
deriving DecidableEq, Repr

/-- The characters to look for at the end of the element. -/
def RawElement.pattern (element : RawElement) : List Char :=
  element.closer.toList

/-- The closer as it is stored. -/
def RawElement.bytes (element : RawElement) : List UInt8 :=
  storedBytes element.closer

namespace Dialect

/-- The tag of a comment. -/
def commentTag : String := "!--"

/-- Whether an element with the given tag is a comment. The dialects agree on this. -/
def isComment (_ : Dialect) (tag : String) : Bool :=
  tag = commentTag

/-- The raw elements of a dialect. -/
def rawElements : Dialect → List RawElement
  | .server | .client =>
      [⟨commentTag, "-->"⟩, ⟨"script", "</script>"⟩, ⟨"style", "</style>"⟩]
  | .xml => [⟨commentTag, "-->"⟩, ⟨"!CDATA[[", "]]>"⟩]

/-- The raw element with the given tag. -/
def rawElement? (dialect : Dialect) (tag : String) : Option RawElement :=
  dialect.rawElements.find? fun element => element.tag = tag

/-- The closer of the raw element with the given tag. -/
def closer? (dialect : Dialect) (tag : String) : Option String :=
  (dialect.rawElement? tag).map RawElement.closer

/-- The tag of the raw element with the given closer. -/
def tagOfCloser? (dialect : Dialect) (closer : String) : Option String :=
  (dialect.rawElements.find? fun element => element.closer = closer).map RawElement.tag

/-- The element found for a tag is one of the dialect and has that tag. -/
theorem mem_and_tag_of_rawElement?
    {dialect : Dialect}
    {tag : String}
    {element : RawElement}
    (found : dialect.rawElement? tag = some element) :
    element ∈ dialect.rawElements ∧ element.tag = tag := by
  refine ⟨List.mem_of_find?_eq_some found, ?_⟩
  have hasTag := List.find?_some found
  simpa using hasTag

/-- Every raw element needs at least one character to end. -/
theorem pattern_ne_nil_of_mem
    {dialect : Dialect}
    {element : RawElement}
    (listed : element ∈ dialect.rawElements) :
    element.pattern ≠ [] := by
  revert element
  cases dialect <;> decide

/-- The bytes of a closer stand for its characters one by one. -/
theorem pattern_eq_map_bytes
    {dialect : Dialect}
    {element : RawElement}
    (listed : element ∈ dialect.rawElements) :
    element.pattern = element.bytes.map Char.ofUInt8 := by
  revert element
  cases dialect <;> decide

theorem space_notMem_pattern
    {dialect : Dialect}
    {element : RawElement}
    (listed : element ∈ dialect.rawElements) :
    ' ' ∉ element.pattern := by
  revert element
  cases dialect <;> decide

/-- The dialects agree on raw elements: a tag or a closer alone tells which one is meant. -/
theorem rawElement_eq_of_tag_or_closer_eq
    {leftDialect rightDialect : Dialect}
    {left right : RawElement}
    (leftListed : left ∈ leftDialect.rawElements)
    (rightListed : right ∈ rightDialect.rawElements)
    (same : left.tag = right.tag ∨ left.closer = right.closer) :
    left = right := by
  have allAgree :
      ∀ (first second : Dialect),
        ∀ one ∈ first.rawElements, ∀ other ∈ second.rawElements,
          one.tag = other.tag ∨ one.closer = other.closer → one = other := by
    intro first second
    cases first <;> cases second <;> decide
  exact allAgree leftDialect rightDialect left leftListed right rightListed same

end Dialect

end TemplateMarkup
