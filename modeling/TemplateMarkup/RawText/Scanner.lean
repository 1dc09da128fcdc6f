import TemplateMarkup.Dialect.RawElement
import TemplateMarkup.Matching.Border
import TemplateMarkup.Position.Transition

/-!
Contract: reading a raw element up to its closer and past it.

Owns:
- `Scanner`, the state of such a reading;
- `Scanner.start?`, `Scanner.step` and the runs over a text;
- `Scanner.startThroughCloser?` and `Scanner.step?`, the same with both look-ups and over the
  bytes of the closer;
- the written description of a scanner.

Does not own: the table of raw elements, or the places after the closer, which are
those of any other text.
-/

set_option autoImplicit false

namespace TemplateMarkup

open TemplateMarkup.Matching

/-- A reading of the content of a raw element. -/
structure Scanner where
  /-- The element that is read. -/
  element : RawElement
  /-- The place of a character that belongs to the content. -/
  body : Position
  /-- How many characters of the closer the text read so far ends with. -/
  matched : Nat
  /-- The place of the character read last. -/
  position : Position
deriving DecidableEq, Repr

namespace Scanner

/-- A reading that starts right after the opening tag of the given element. -/
def ofElement (element : RawElement) (body : Position) : Scanner where
  element := element
  body := body
  matched := 0
  position := body

/-- The place of the content of a raw element. -/
def bodyOf (dialect : Dialect) (tag : String) : Position :=
  if dialect.isComment tag then .commentText else .altText

/-- A reading of the content of the element with the given tag, if its content is raw
text in the dialect. -/
def start? (dialect : Dialect) (tag : String) : Option Scanner :=
  (dialect.rawElement? tag).map fun element => ofElement element (bodyOf dialect tag)

/-- A reading of the content of the element with the given tag, made with the two look-ups:
the closer of the tag, then the tag of that closer as it is listed. -/
def startThroughCloser? (dialect : Dialect) (tag : String) : Option Scanner := do
  let closer ← dialect.closer? tag
  let listedTag ← dialect.tagOfCloser? closer
  pure (ofElement ⟨listedTag, closer⟩ (bodyOf dialect listedTag))

/-- Whether the closer was read completely. -/
def isClosed (scanner : Scanner) : Bool :=
  scanner.matched = scanner.element.pattern.length

/-- The place of a character before which the closer was not complete, by how much of
the closer is matched after it. -/
def positionAt (scanner : Scanner) (matched : Nat) : Position :=
  if matched = scanner.element.pattern.length then .tailElementClosed
  else if matched = 0 then scanner.body
  else .altTextCloseSequence

/-- Read one character. Past the closer, it is a character of any other text. -/
def step (scanner : Scanner) (character : Char) : Scanner :=
  if scanner.isClosed then
    { scanner with position := scanner.position.next character }
  else
    let matched := advance scanner.element.pattern scanner.matched character
    { scanner with matched := matched, position := scanner.positionAt matched }

/-- The scanner after each character of a text. -/
def run (scanner : Scanner) (characters : List Char) : List Scanner :=
  trace step scanner characters

/-- The scanner after the last character of a text. -/
def feed (scanner : Scanner) (characters : List Char) : Scanner :=
  final step scanner characters

/-- The place of each character of a text. -/
def positions (scanner : Scanner) (characters : List Char) : List Position :=
  (scanner.run characters).map Scanner.position

/-! ## Over the bytes of the closer, with every access checked -/

/-- The byte that alone stands for a character, for the first 256 characters. -/
def byte? (character : Char) : Option UInt8 :=
  if character.toNat < 256 then some character.toUInt8 else none

/-- The count after one more character, with every access to the bytes that are looked for
checked. A character that is no single byte is not looked for. -/
def searchBytes? (bytes : List UInt8) (matched : Nat) (character : Char) : Option Nat :=
  match byte? character with
  | none => some 0
  | some byte => advance? bytes matched byte

/-- The search for the bytes of the closer, from the count of a scanner. -/
def search? (scanner : Scanner) (character : Char) : Option Nat :=
  searchBytes? scanner.element.bytes scanner.matched character

/-- `step` with every access to the closer checked. -/
def step? (scanner : Scanner) (character : Char) : Option Scanner :=
  if scanner.isClosed then
    some { scanner with position := scanner.position.next character }
  else
    (scanner.search? character).map fun matched =>
      { scanner with matched := matched, position := scanner.positionAt matched }

/-- The written description of a scanner, field by field. -/
def describe (scanner : Scanner) : String :=
  "AltTextScanner \x7b tag: \"" ++ scanner.element.tag ++
    "\", close_sequence: \"" ++ scanner.element.closer ++
    "\", body: " ++ scanner.body.name ++
    ", matched: " ++ toString scanner.matched ++
    ", state: " ++ scanner.position.name ++ " \x7d"

/-! ## The content -/

section Content

variable {dialect : Dialect} {tag : String}

theorem bodyOf_of_isComment (comment : dialect.isComment tag = true) :
    bodyOf dialect tag = .commentText :=
  if_pos comment

theorem bodyOf_of_not_isComment (other : dialect.isComment tag = false) :
    bodyOf dialect tag = .altText := by
  rw [bodyOf, other, if_neg Bool.false_ne_true]

end Content

/-- Content is not marked as part of what may become the closer. -/
theorem bodyOf_ne_closeSequence (dialect : Dialect) (tag : String) :
    bodyOf dialect tag ≠ .altTextCloseSequence := by
  unfold bodyOf
  split <;> decide

/-! ## Steps -/

theorem isClosed_iff (scanner : Scanner) :
    scanner.isClosed = true ↔ scanner.matched = scanner.element.pattern.length := by
  simp [isClosed]

theorem step_of_isClosed
    {scanner : Scanner}
    (closed : scanner.isClosed = true)
    (character : Char) :
    scanner.step character =
      { scanner with position := scanner.position.next character } := by
  rw [step, if_pos closed]

theorem step_of_not_isClosed
    {scanner : Scanner}
    (unclosed : scanner.isClosed = false)
    (character : Char) :
    scanner.step character =
      { scanner with
        matched := advance scanner.element.pattern scanner.matched character
        position := scanner.positionAt
          (advance scanner.element.pattern scanner.matched character) } := by
  simp [step, unclosed]

/-- Reading does not change which element is read. -/
@[simp] theorem element_step (scanner : Scanner) (character : Char) :
    (scanner.step character).element = scanner.element := by
  unfold step
  split <;> rfl

@[simp] theorem body_step (scanner : Scanner) (character : Char) :
    (scanner.step character).body = scanner.body := by
  unfold step
  split <;> rfl

/-- A closer that was read completely stays so. -/
theorem isClosed_step
    {scanner : Scanner}
    (closed : scanner.isClosed = true)
    (character : Char) :
    (scanner.step character).isClosed = true := by
  rw [step_of_isClosed closed]
  exact closed

/-! ## Runs -/

@[simp] theorem feed_nil (scanner : Scanner) : scanner.feed [] = scanner := rfl

@[simp] theorem feed_cons (scanner : Scanner) (character : Char) (rest : List Char) :
    scanner.feed (character :: rest) = (scanner.step character).feed rest := rfl

theorem feed_append (scanner : Scanner) (front back : List Char) :
    scanner.feed (front ++ back) = (scanner.feed front).feed back :=
  final_append step scanner front back

@[simp] theorem positions_nil (scanner : Scanner) : scanner.positions [] = [] := rfl

@[simp] theorem positions_cons (scanner : Scanner) (character : Char) (rest : List Char) :
    scanner.positions (character :: rest) =
      (scanner.step character).position :: (scanner.step character).positions rest := rfl

theorem positions_append (scanner : Scanner) (front back : List Char) :
    scanner.positions (front ++ back) =
      scanner.positions front ++ (scanner.feed front).positions back := by
  simp [positions, run, feed, trace_append]

end Scanner

end TemplateMarkup
