import Mathlib.Data.List.Induction
import TemplateMarkup.Position.Level
import TemplateMarkup.RawText.Scanner

/-!
Contract: what holds of a scanner at any time, whatever it was made to read.

Owns:
- `Scanner.Action`, the copying and reading of scanners that are kept in a list;
- `Scanner.Coherent`, which ties the place of a scanner to its count, and its preservation.

Does not own: where in a text the closer is found, or how the count is found.
-/

set_option autoImplicit false

namespace TemplateMarkup.Scanner

open TemplateMarkup.Matching

/-! ## Scanners and their copies -/

/-- Something done with one of the scanners in a list. A place without a scanner is left as
it is. -/
inductive Action where
  | copy (index : Nat)
  | read (index : Nat) (character : Char)
deriving DecidableEq, Repr

/-- The scanners after an action. A copy goes to the end of the list and shares nothing with
the scanner it was made from. -/
def act (scanners : List Scanner) : Action → List Scanner
  | .copy index => scanners ++ scanners[index]?.toList
  | .read index character => scanners.modify index fun scanner => scanner.step character

variable {scanner visited start : Scanner}

theorem mem_act
    {scanners : List Scanner}
    {action : Action}
    (member : visited ∈ act scanners action) :
    visited ∈ scanners ∨
      ∃ known ∈ scanners, ∃ character, visited = known.step character := by
  cases action with
  | copy index =>
      rcases List.mem_append.mp member with kept | added
      · exact Or.inl kept
      · exact Or.inl (List.mem_of_getElem? (Option.mem_toList.mp added))
  | read index character =>
      obtain ⟨place, found⟩ := List.mem_iff_getElem?.mp member
      rw [act, List.getElem?_modify, Option.map_eq_map, Option.map_eq_some_iff] at found
      obtain ⟨known, knownAt, same⟩ := found
      have knownMember := List.mem_of_getElem? knownAt
      by_cases here : index = place
      · rw [if_pos here] at same
        exact Or.inr ⟨known, knownMember, character, same.symm⟩
      · rw [if_neg here] at same
        exact Or.inl (same ▸ knownMember)

/-- Whatever is copied and read in between, a scanner is the one that the first scanner
becomes by reading some text. -/
theorem exists_feed_of_mem_final
    (actions : List Action)
    (member : visited ∈ final act [start] actions) :
    ∃ text, visited = start.feed text := by
  induction actions using List.reverseRecOn generalizing visited with
  | nil =>
      rw [final_nil, List.mem_singleton] at member
      exact ⟨[], member⟩
  | append_singleton earlier action inductionHypothesis =>
      rw [final_append, final_cons, final_nil] at member
      rcases mem_act member with kept | ⟨known, knownMember, character, rfl⟩
      · exact inductionHypothesis kept
      · obtain ⟨text, rfl⟩ := inductionHypothesis knownMember
        exact ⟨text ++ [character], (feed_append start text [character]).symm⟩

/-! ## Coherence -/

/-- What holds of a scanner at any time. Up to the closer its count decides its place;
past the closer its place is one outside raw text. -/
structure Coherent (scanner : Scanner) : Prop where
  listed : ∃ dialect : Dialect,
    scanner.element ∈ dialect.rawElements ∧
      scanner.body = bodyOf dialect scanner.element.tag
  matched_le : scanner.matched ≤ scanner.element.pattern.length
  position_of_unclosed :
    scanner.isClosed = false → scanner.position = scanner.positionAt scanner.matched
  outside_of_closed :
    scanner.isClosed = true → scanner.position.isRaw = false ∧ scanner.position ≠ .initial

theorem isClosed_eq_false_iff (scanner : Scanner) :
    scanner.isClosed = false ↔ scanner.matched ≠ scanner.element.pattern.length := by
  rw [Bool.eq_false_iff, Ne, isClosed_iff]

theorem coherent_of_start?
    {dialect : Dialect}
    {tag : String}
    (started : start? dialect tag = some scanner) :
    Coherent scanner := by
  obtain ⟨element, found, rfl⟩ := Option.map_eq_some_iff.mp started
  obtain ⟨listed, hasTag⟩ := Dialect.mem_and_tag_of_rawElement? found
  have unmatched :=
    Nat.ne_of_lt (List.length_pos_iff.mpr (Dialect.pattern_ne_nil_of_mem listed))
  refine
    { listed := ⟨dialect, listed, ?_⟩
      matched_le := Nat.zero_le _
      position_of_unclosed := ?_
      outside_of_closed := ?_ }
  · rw [← hasTag]
    rfl
  · intro _
    simp [ofElement, positionAt, unmatched]
  · intro closed
    exact absurd ((isClosed_iff _).mp closed) unmatched

theorem matched_step_le (scanner : Scanner) (character : Char) :
    (scanner.step character).matched ≤ scanner.matched + 1 := by
  cases closed : scanner.isClosed with
  | true =>
      rw [step_of_isClosed closed]
      exact Nat.le_succ _
  | false =>
      rw [step_of_not_isClosed closed]
      exact advance_le _ _ _

namespace Coherent

section Places

variable (coherent : Coherent scanner)
include coherent

theorem position_eq_body
    (below : scanner.matched < scanner.element.pattern.length)
    (unmatched : scanner.matched = 0) :
    scanner.position = scanner.body := by
  have unclosed := (isClosed_eq_false_iff scanner).mpr (Nat.ne_of_lt below)
  rw [coherent.position_of_unclosed unclosed, positionAt, if_neg (Nat.ne_of_lt below),
    if_pos unmatched]

theorem position_eq_closeSequence
    (below : scanner.matched < scanner.element.pattern.length)
    (partly : 0 < scanner.matched) :
    scanner.position = .altTextCloseSequence := by
  have unclosed := (isClosed_eq_false_iff scanner).mpr (Nat.ne_of_lt below)
  rw [coherent.position_of_unclosed unclosed, positionAt, if_neg (Nat.ne_of_lt below),
    if_neg (by omega)]

theorem position_notMem
    (complete : scanner.matched = scanner.element.pattern.length) :
    scanner.position ∉
      [Position.initial, .altText, .altTextCloseSequence, .commentText] := by
  rw [Position.notMem_initial_and_raw_iff]
  exact coherent.outside_of_closed ((isClosed_iff scanner).mpr complete)

end Places

theorem matched_lt (coherent : Coherent scanner) (unclosed : scanner.isClosed = false) :
    scanner.matched < scanner.element.pattern.length :=
  Nat.lt_of_le_of_ne coherent.matched_le ((isClosed_eq_false_iff scanner).mp unclosed)

theorem step (coherent : Coherent scanner) (character : Char) :
    Coherent (scanner.step character) := by
  cases closed : scanner.isClosed with
  | true =>
      -- No character leads back into raw text, where the table would be stuck.
      obtain ⟨outside, -⟩ := coherent.outside_of_closed closed
      rw [step_of_isClosed closed]
      refine
        { listed := coherent.listed
          matched_le := coherent.matched_le
          position_of_unclosed := fun unclosed => ?_
          outside_of_closed := fun _ => ⟨?_, Position.next_ne_initial _ _⟩ }
      · have stillClosed : scanner.isClosed = false := unclosed
        rw [closed] at stillClosed
        cases stillClosed
      · rw [Position.isRaw_next]
        exact outside
  | false =>
      have within := Nat.le_trans (advance_le scanner.element.pattern scanner.matched character)
        (coherent.matched_lt closed)
      rw [step_of_not_isClosed closed]
      refine
        { listed := coherent.listed
          matched_le := within
          position_of_unclosed := fun _ => rfl
          outside_of_closed := fun complete => ?_ }
      have whole := (isClosed_iff _).mp complete
      simp only at whole ⊢
      rw [positionAt, if_pos whole]
      decide

theorem feed (coherent : Coherent scanner) (text : List Char) :
    Coherent (scanner.feed text) := by
  induction text generalizing scanner with
  | nil => exact coherent
  | cons character rest inductionHypothesis =>
      exact inductionHypothesis (coherent.step character)

end Coherent

theorem element_and_body_feed (scanner : Scanner) (text : List Char) :
    (scanner.feed text).element = scanner.element ∧ (scanner.feed text).body = scanner.body := by
  induction text generalizing scanner with
  | nil => exact ⟨rfl, rfl⟩
  | cons character rest inductionHypothesis =>
      simpa using inductionHypothesis (scanner.step character)

end TemplateMarkup.Scanner
