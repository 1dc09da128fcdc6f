import TemplateMarkup.Proofs.Matching.Access
import TemplateMarkup.Proofs.RawText.Closing
import TemplateMarkup.Proofs.RawText.Coherence

/-!
Contract: no step of a scanner reaches outside the closer.

Owns:
- the counts from which `Scanner.searchBytes?` does not fail, and its result there;
- the agreement of `Scanner.step?` and `Scanner.step` on every scanner that comes from a
  start.

Does not own: what a scanner finds.

A search from a complete match is out of range at its first look-up. Only the test for a
closed scanner keeps a step from making one, so the bound on the count has to be known before
every step.
-/

set_option autoImplicit false

namespace TemplateMarkup.Scanner

open TemplateMarkup.Matching

/-! ## Checked steps -/

theorem byte?_eq_some_iff (character : Char) (byte : UInt8) :
    byte? character = some byte ↔ character = Char.ofUInt8 byte := by
  unfold byte?
  constructor
  · intro found
    split at found
    · rename_i small
      cases found
      apply Char.ext
      apply UInt32.toNat_inj.mp
      show character.val.toNat = character.val.toUInt8.toUInt32.toNat
      rw [UInt8.toNat_toUInt32, UInt32.toNat_toUInt8]
      exact (Nat.mod_eq_of_lt small).symm
    · cases found
  · rintro rfl
    have small : (Char.ofUInt8 byte).toNat < 256 := UInt8.toNat_lt byte
    rw [if_pos small]
    exact congrArg some (UInt8.toUInt8_toUInt32 byte)

theorem ofUInt8_injective : Function.Injective Char.ofUInt8 := by
  intro left right same
  have found := (byte?_eq_some_iff (Char.ofUInt8 left) left).mpr rfl
  rw [same, (byte?_eq_some_iff (Char.ofUInt8 right) right).mpr rfl] at found
  exact (Option.some.inj found).symm

/-- From an incomplete match the search over the bytes is in range, and finds the count of
`advance` over their characters. -/
theorem searchBytes?_eq_some
    {bytes : List UInt8}
    {matched : Nat}
    (below : matched < bytes.length)
    (character : Char) :
    searchBytes? bytes matched character =
      some (advance (bytes.map Char.ofUInt8) matched character) := by
  unfold searchBytes?
  cases single : byte? character with
  | none =>
      -- Every byte stands for a character of its own, and none of them for this one.
      have absent : character ∉ bytes.map Char.ofUInt8 := by
        rw [List.mem_map]
        rintro ⟨byte, -, same⟩
        rw [(byte?_eq_some_iff character byte).mpr same.symm] at single
        cases single
      rw [advance_eq_zero_of_notMem absent]
  | some byte =>
      have written := (byte?_eq_some_iff character byte).mp single
      simp only
      rw [advance?_eq_some below, written, advance_map ofUInt8_injective]

namespace Coherent

variable {scanner : Scanner} (coherent : Coherent scanner)
include coherent

theorem length_bytes : scanner.element.bytes.length = scanner.element.pattern.length := by
  obtain ⟨dialect, listed, -⟩ := coherent.listed
  rw [Dialect.pattern_eq_map_bytes listed, List.length_map]

/-- An unclosed scanner searches in range, and finds the count of `advance`. -/
theorem search?_eq_some (unclosed : scanner.isClosed = false) (character : Char) :
    scanner.search? character =
      some (advance scanner.element.pattern scanner.matched character) := by
  obtain ⟨dialect, listed, -⟩ := coherent.listed
  have below : scanner.matched < scanner.element.bytes.length := by
    rw [coherent.length_bytes]
    exact coherent.matched_lt unclosed
  rw [search?, Dialect.pattern_eq_map_bytes listed]
  exact searchBytes?_eq_some below character

/-- A closed scanner would search out of range. -/
theorem search?_eq_none_iff (character : Char) :
    scanner.search? character = none ↔
      scanner.isClosed = true ∧ (byte? character).isSome = true := by
  have bound := coherent.matched_le
  rw [← coherent.length_bytes] at bound
  rw [isClosed_iff, ← coherent.length_bytes, search?, searchBytes?]
  cases byte? character with
  | none => simp
  | some byte =>
      simp only [advance?_eq_none_iff, Option.isSome_some, and_true]
      omega

theorem step?_eq_some (character : Char) :
    scanner.step? character = some (scanner.step character) := by
  cases closed : scanner.isClosed with
  | true => rw [step?, if_pos closed, step_of_isClosed closed]
  | false =>
      rw [step?, closed, if_neg Bool.false_ne_true, coherent.search?_eq_some closed,
        step_of_not_isClosed closed]
      rfl

end Coherent

/-! ## After all actions -/

/-- However scanners are copied and read after a start, each of them is one of the element
that was started, its count and its place agree, and no access of a step is out of range. -/
theorem coherent_after_all_actions
    {dialect : Dialect}
    {tag : String}
    {start : Scanner}
    (started : start? dialect tag = some start)
    (actions : List Action) :
    ∀ scanner ∈ final act [start] actions,
      (scanner.element.tag = start.element.tag ∧
        scanner.element.closer = start.element.closer ∧ scanner.body = start.body) ∧
      scanner.matched ≤ scanner.element.pattern.length ∧
      (scanner.matched < scanner.element.pattern.length →
        (scanner.matched = 0 → scanner.position = scanner.body) ∧
        (0 < scanner.matched → scanner.position = .altTextCloseSequence)) ∧
      (scanner.matched = scanner.element.pattern.length →
        scanner.position ∉ [.initial, .altText, .altTextCloseSequence, .commentText] ∧
        ∀ text, (scanner.feed text).matched = scanner.element.pattern.length) ∧
      (∀ character, (scanner.step character).matched ≤ scanner.matched + 1) ∧
      scanner.element.bytes.length = scanner.element.pattern.length ∧
      (scanner.isClosed = false →
        scanner.matched < scanner.element.bytes.length ∧
        ∀ byte,
          advance? scanner.element.bytes scanner.matched byte =
            some (advance scanner.element.bytes scanner.matched byte)) ∧
      ∀ character, scanner.step? character = some (scanner.step character) := by
  intro scanner member
  obtain ⟨text, rfl⟩ := exists_feed_of_mem_final actions member
  have coherent := (coherent_of_start? started).feed text
  obtain ⟨sameElement, sameBody⟩ := element_and_body_feed start text
  refine ⟨⟨by rw [sameElement], by rw [sameElement], sameBody⟩, coherent.matched_le, ?_, ?_,
    matched_step_le _, coherent.length_bytes, ?_, coherent.step?_eq_some⟩
  · intro below
    exact ⟨coherent.position_eq_body below, coherent.position_eq_closeSequence below⟩
  · intro complete
    refine ⟨coherent.position_notMem complete, fun later => ?_⟩
    have closed := isClosed_feed ((isClosed_iff _).mpr complete) later
    rw [isClosed_iff, (element_and_body_feed (start.feed text) later).1] at closed
    exact closed
  · intro unclosed
    have below := coherent.matched_lt unclosed
    rw [← coherent.length_bytes] at below
    exact ⟨below, advance?_eq_some below⟩

/-- A copy that falls back while the scanner it was made from reads past the closer. -/
theorem coherent_after_all_actions_cdata :
    ∃ start closed copied : Scanner,
      start? .xml "!CDATA[[" = some start ∧
      final act [start]
          [.read 0 ']', .read 0 ']', .copy 0, .read 0 '>', .read 1 ']', .read 0 'x', .copy 7] =
        [closed, copied] ∧
      closed.matched = closed.element.pattern.length ∧
      closed.position ∉ [.initial, .altText, .altTextCloseSequence, .commentText] ∧
      copied.matched < copied.element.pattern.length ∧ 0 < copied.matched ∧
      copied.position = .altTextCloseSequence ∧
      ∀ character, copied.step? character = some (copied.step character) := by
  have started :
      start? .xml "!CDATA[[" = some (ofElement ⟨"!CDATA[[", "]]>"⟩ .altText) := by
    decide
  have always := coherent_after_all_actions started
    [.read 0 ']', .read 0 ']', .copy 0, .read 0 '>', .read 1 ']', .read 0 'x', .copy 7]
  have closedIs := always ⟨⟨"!CDATA[[", "]]>"⟩, .altText, 3, .text⟩ (by decide)
  have copiedIs := always ⟨⟨"!CDATA[[", "]]>"⟩, .altText, 2, .altTextCloseSequence⟩ (by decide)
  obtain ⟨-, -, -, past, -⟩ := closedIs
  obtain ⟨-, -, upTo, -, -, -, -, safe⟩ := copiedIs
  exact ⟨_, _, _, started, by decide, by decide, (past (by decide)).1, by decide, by decide,
    (upTo (by decide)).2 (by decide), safe⟩

end TemplateMarkup.Scanner
