import TemplateMarkup.Dialect.Basic

/-!
Contract: what each dialect says about a tag by itself.

Owns:
- `Trait`, the properties that a tag can have;
- the tables of tags with each property;
- `Dialect.marks`, the verdict of a dialect on a tag.

Does not own: properties that an element takes from the element around it.

Tags are compared exactly, so a tag in another case is another tag.
-/

set_option autoImplicit false

namespace TemplateMarkup

/-- A property that a dialect can give to a tag. -/
inductive Trait where
  /-- The tag is not to be used. -/
  | banned
  /-- The element has no content. -/
  | void
  /-- The element starts a namespace named like its tag. -/
  | namespaceRoot
  /-- The white space of the element's text is kept. -/
  | verbatim
  /-- The element stands in a line of text. -/
  | inline
deriving DecidableEq, Repr

namespace Trait

/-- The tags that have a property on every page. -/
def pageTags : Trait → List String
  | .banned =>
      ["acronym", "big", "center", "content", "dir", "font", "frame", "frameset",
       "image", "marquee", "menuitem", "nobr", "noembed", "noframes", "param",
       "plaintext", "rb", "rtc", "shadow", "strike", "tt", "xmp"]
  | .void =>
      ["!--", "!DOCTYPE", "area", "base", "br", "col", "embed", "hr", "img", "input",
       "link", "meta", "param", "source", "track", "wbr"]
  | .namespaceRoot => ["html", "math", "svg"]
  | .verbatim => ["pre"]
  | .inline =>
      ["abbr", "area", "audio", "b", "bdi", "bdo", "cite", "code", "data", "dfn", "em",
       "embed", "i", "iframe", "img", "kbd", "map", "mark", "object", "picture",
       "portal", "q", "rp", "rt", "ruby", "s", "samp", "small", "source", "span",
       "strong", "sub", "sup", "time", "track", "u", "var", "video", "wbr"]

/-- The tags that have a property only on pages built in the page itself: what could
load or run something there is banned, and a link stands in a line of text. -/
def clientTags : Trait → List String
  | .banned => ["!--", "link", "script", "style"]
  | .inline => ["a"]
  | .void | .namespaceRoot | .verbatim => []

end Trait

namespace Dialect

/-- The tags to which a dialect gives a property. -/
def tags : Dialect → Trait → List String
  | .server, property => property.pageTags
  | .client, property => property.clientTags ++ property.pageTags
  | .xml, _ => []

/-- Whether a dialect gives a property to a tag. -/
def marks (dialect : Dialect) (property : Trait) (tag : String) : Bool :=
  tag ∈ dialect.tags property

@[simp] theorem marks_iff (dialect : Dialect) (property : Trait) (tag : String) :
    dialect.marks property tag = true ↔ tag ∈ dialect.tags property := by
  simp [marks]

/-- Documents without a fixed vocabulary give no property to any tag. -/
@[simp] theorem marks_xml (property : Trait) (tag : String) :
    Dialect.xml.marks property tag = false := by
  simp [marks, tags]

/-- The client dialect gives a property to its own tags and to those of the server
dialect. -/
theorem marks_client (property : Trait) (tag : String) :
    Dialect.client.marks property tag =
      (decide (tag ∈ property.clientTags) || Dialect.server.marks property tag) := by
  rw [Bool.eq_iff_iff]
  simp [tags]

end Dialect

end TemplateMarkup
