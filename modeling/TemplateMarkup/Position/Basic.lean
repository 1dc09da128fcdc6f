/-!
Contract: the places in a template at which a character can stand.

Owns:
- `Position`, one constructor for each place;
- `Position.all`, every place in listing order, and the written names;
- `Position.ofName?`, which reads a written name back.

Does not own: how one place follows another.
-/

set_option autoImplicit false

namespace TemplateMarkup

/-- Where in a template the character read last stands. -/
inductive Position where
  /-- The quote that ends an attribute value. -/
  | attrQuoteClosed
  /-- The quote that starts an attribute value. -/
  | attrQuote
  /-- The brace that starts an injection in place of an attribute. -/
  | attrMapInjection
  /-- The equals sign after an attribute name, or white space after it. -/
  | attrSetter
  /-- Inside a quoted attribute value. -/
  | attrValue
  /-- Inside an attribute value without quotes. -/
  | attrValueUnquoted
  /-- Inside an attribute name. -/
  | attr
  /-- The end of a closing tag. -/
  | tailElementClosed
  /-- The solidus of a closing tag, or white space after it. -/
  | tailElementSolidus
  /-- Between the name of a closing tag and its end. -/
  | tailElementSpace
  /-- Inside the name of a closing tag. -/
  | tailTag
  /-- The brace that starts an injection between elements. -/
  | descendantInjection
  /-- The end of a closing tag without a name. -/
  | fragmentClosed
  /-- The end of an opening tag without a name. -/
  | fragment
  /-- The end of a tag that closes itself. -/
  | emptyElementClosed
  /-- Past the solidus that makes a tag close itself. -/
  | emptyElement
  /-- The start of the template. -/
  | initial
  /-- The brace that ends an injection. -/
  | injectionConfirmed
  /-- Inside an injection. -/
  | injectionSpace
  /-- The end of an opening tag. -/
  | elementClosed
  /-- Between the parts of an opening tag. -/
  | elementSpace
  /-- The less-than sign that starts a tag, or white space after it. -/
  | element
  /-- Inside the name of an opening tag. -/
  | tag
  /-- Plain text between tags. -/
  | text
  /-- Inside raw text. -/
  | altText
  /-- Inside what may become the end of raw text. -/
  | altTextCloseSequence
  /-- Inside a comment. -/
  | commentText
deriving DecidableEq, Repr

namespace Position

/-- Every place, in listing order. -/
def all : List Position :=
  [.attrQuoteClosed, .attrQuote, .attrMapInjection, .attrSetter, .attrValue,
   .attrValueUnquoted, .attr, .tailElementClosed, .tailElementSolidus,
   .tailElementSpace, .tailTag, .descendantInjection, .fragmentClosed, .fragment,
   .emptyElementClosed, .emptyElement, .initial, .injectionConfirmed,
   .injectionSpace, .elementClosed, .elementSpace, .element, .tag, .text, .altText,
   .altTextCloseSequence, .commentText]

/-- The written name of a place. -/
def name : Position → String
  | .attrQuoteClosed => "AttrQuoteClosed"
  | .attrQuote => "AttrQuote"
  | .attrMapInjection => "AttrMapInjection"
  | .attrSetter => "AttrSetter"
  | .attrValue => "AttrValue"
  | .attrValueUnquoted => "AttrValueUnquoted"
  | .attr => "Attr"
  | .tailElementClosed => "TailElementClosed"
  | .tailElementSolidus => "TailElementSolidus"
  | .tailElementSpace => "TailElementSpace"
  | .tailTag => "TailTag"
  | .descendantInjection => "DescendantInjection"
  | .fragmentClosed => "FragmentClosed"
  | .fragment => "Fragment"
  | .emptyElementClosed => "EmptyElementClosed"
  | .emptyElement => "EmptyElement"
  | .initial => "Initial"
  | .injectionConfirmed => "InjectionConfirmed"
  | .injectionSpace => "InjectionSpace"
  | .elementClosed => "ElementClosed"
  | .elementSpace => "ElementSpace"
  | .element => "Element"
  | .tag => "Tag"
  | .text => "Text"
  | .altText => "AltText"
  | .altTextCloseSequence => "AltTextCloseSequence"
  | .commentText => "CommentText"

instance : ToString Position := ⟨name⟩

/-- A template starts at `initial`. -/
instance : Inhabited Position := ⟨.initial⟩

/-- The place with the given written name. -/
def ofName? (written : String) : Option Position :=
  all.find? fun position => position.name = written

/-- The listing leaves out no place. -/
theorem mem_all (position : Position) : position ∈ all := by
  cases position <;> decide

/-- The listing names no place twice. -/
theorem nodup_all : all.Nodup := by
  decide

/-- Reading a written name gives back the place that has it. -/
@[simp] theorem ofName?_name (position : Position) :
    ofName? position.name = some position := by
  cases position <;> decide

theorem name_injective {left right : Position} (sameName : left.name = right.name) :
    left = right := by
  have found := ofName?_name left
  rw [sameName, ofName?_name] at found
  exact (Option.some.inj found).symm

end Position

end TemplateMarkup
