import Mathlib.Data.List.Induction
import Mathlib.Data.List.Infix
import Mathlib.Data.Nat.Find
import Mathlib.Order.Bounds.Basic
import TemplateMarkup.Matching.Border
import TemplateMarkup.Trace

/-!
Contract: a count is enough to find a pattern in a text.

Owns:
- `IsMatched`, the length of the longest prefix of the pattern that a text ends with;
- the step that keeps it: `advance` reads it off the count before, without the text;
- `matchedAfter`, the count after a whole text;
- `FirstEndsAt`, the place at which a pattern occurs for the first time.

Does not own: what is done once the pattern has occurred.

The step is where a shorter match has to survive a longer one. Whatever prefix the longer
text ends with, it is, less its last character, no longer than the count before. So it
lies inside the matched part, and the pattern alone tells whether it is there.
-/

set_option autoImplicit false

namespace TemplateMarkup.Matching

universe u

variable {Symbol : Type u} {pattern text : List Symbol} {matched : Nat}

/-! ## The longest prefix that a text ends with -/

/-- The text ends with the first `matched` characters of the pattern, and with no longer
prefix of it. -/
def IsMatched (pattern text : List Symbol) (matched : Nat) : Prop :=
  IsGreatest {length | length ≤ pattern.length ∧ pattern.take length <:+ text} matched

theorem isMatched_nil (pattern : List Symbol) : IsMatched pattern [] 0 := by
  constructor
  · simp
  · intro length ending
    obtain ⟨within, ends⟩ := ending
    have short := ends.length_le
    rw [List.length_take_of_le within] at short
    exact short

/-- The whole pattern is matched exactly if the text ends with it. -/
theorem IsMatched.eq_length_iff (longest : IsMatched pattern text matched) :
    matched = pattern.length ↔ pattern <:+ text := by
  constructor
  · intro whole
    simpa [whole] using longest.1.2
  · intro ends
    have reached : pattern.length ≤ matched := longest.2 ⟨Nat.le_refl _, by simpa using ends⟩
    exact Nat.le_antisymm longest.1.1 reached

/-- A text without the pattern does not end with all of it. -/
theorem IsMatched.lt_length
    (longest : IsMatched pattern text matched)
    (absent : ¬ pattern <:+: text) :
    matched < pattern.length := by
  apply Nat.lt_of_le_of_ne longest.1.1
  intro whole
  exact absent (longest.eq_length_iff.mp whole).isInfix

/-- Something is matched exactly if the text ends with some beginning of the pattern. -/
theorem IsMatched.pos_iff (longest : IsMatched pattern text matched) :
    0 < matched ↔ ∃ part, part ≠ [] ∧ part <+: pattern ∧ part <:+ text := by
  constructor
  · intro positive
    refine ⟨pattern.take matched, ?_, List.take_prefix _ _, longest.1.2⟩
    rw [← List.length_pos_iff, List.length_take_of_le longest.1.1]
    exact positive
  · rintro ⟨part, nonempty, begins, ends⟩
    rw [List.prefix_iff_eq_take.mp begins] at ends
    have reached : part.length ≤ matched := longest.2 ⟨begins.length_le, ends⟩
    exact (List.length_pos_iff.mpr nonempty).trans_le reached

/-- A prefix that the text ends with after one more character was there, less its last
character, before it. -/
theorem le_succ_of_take_suffix
    (longest : IsMatched pattern text matched)
    {symbol : Symbol}
    {length : Nat}
    (within : length ≤ pattern.length)
    (ends : pattern.take length <:+ text ++ [symbol]) :
    length ≤ matched + 1 := by
  cases length with
  | zero => exact Nat.zero_le _
  | succ shorter =>
      rw [List.take_succ_eq_append_getElem (by omega), List.suffix_concat_iff] at ends
      rcases ends with empty | ⟨front, same, frontEnds⟩
      · have nonempty : (pattern.take (shorter + 1)).length = shorter + 1 :=
          List.length_take_of_le within
        rw [List.take_succ_eq_append_getElem (by omega), empty] at nonempty
        cases nonempty
      · have frontEq := (List.append_inj' same rfl).1
        have reached : shorter ≤ matched := longest.2 ⟨by omega, frontEq ▸ frontEnds⟩
        omega

/-- A pattern that a text does not hold is not in its beginnings. -/
theorem not_infix_of_append
    {front back : List Symbol}
    (absent : ¬ pattern <:+: front ++ back) :
    ¬ pattern <:+: front :=
  fun occurs => absent (occurs.trans (List.prefix_append front back).isInfix)

theorem not_infix_dropLast (absent : ¬ pattern <:+: text) : ¬ pattern <:+: text.dropLast :=
  fun occurs => absent (occurs.trans (List.dropLast_prefix text).isInfix)

section Step

variable [DecidableEq Symbol]

/-- One more character: `advance` finds the longest prefix again, from the count alone. -/
theorem IsMatched.advance
    (longest : IsMatched pattern text matched)
    (below : matched < pattern.length)
    (symbol : Symbol) :
    IsMatched pattern (text ++ [symbol]) (advance pattern matched symbol) := by
  have matchedEnds : pattern.take matched ++ [symbol] <:+ text ++ [symbol] :=
    List.suffix_append_self_iff.mpr longest.1.2
  constructor
  · refine ⟨(advance_le pattern matched symbol).trans below, ?_⟩
    rcases Nat.eq_zero_or_pos (Matching.advance pattern matched symbol) with zero | positive
    · simp [zero]
    · have survived := admissible_longest positive
      have within := (advance_le pattern matched symbol).trans below
      exact ((survives_iff positive within matched symbol).mp survived).trans matchedEnds
  · intro length ending
    obtain ⟨within, ends⟩ := ending
    have bounded := le_succ_of_take_suffix longest within ends
    rcases Nat.eq_zero_or_pos length with zero | positive
    · omega
    · -- Both are ends of the longer text, so the shorter one is an end of the other.
      have inside : pattern.take length <:+ pattern.take matched ++ [symbol] := by
        apply List.suffix_of_suffix_length_le ends matchedEnds
        rw [List.length_append, List.length_take_of_le within,
          List.length_take_of_le longest.1.1]
        exact bounded
      exact le_longest ((survives_iff positive within matched symbol).mpr inside) bounded

/-! ## The count over a text -/

/-- The count after a text, one character after another from nothing matched. -/
def matchedAfter (pattern text : List Symbol) : Nat :=
  final (Matching.advance pattern) 0 text

theorem matchedAfter_append_singleton (pattern front : List Symbol) (symbol : Symbol) :
    matchedAfter pattern (front ++ [symbol]) =
      Matching.advance pattern (matchedAfter pattern front) symbol :=
  final_append (Matching.advance pattern) 0 front [symbol]

/-- Unless the pattern occurs before the last character, the count is the length of the longest
prefix of the pattern that the text ends with. -/
theorem isMatched_matchedAfter (absent : ¬ pattern <:+: text.dropLast) :
    IsMatched pattern text (matchedAfter pattern text) := by
  induction text using List.reverseRecOn with
  | nil => exact isMatched_nil pattern
  | append_singleton front symbol inductionHypothesis =>
      rw [List.dropLast_concat] at absent
      have before := inductionHypothesis (not_infix_dropLast absent)
      rw [matchedAfter_append_singleton]
      exact before.advance (before.lt_length absent) symbol

/-- Before every character of such a text the pattern is not complete. -/
theorem matchedAfter_lt_length
    {front rest : List Symbol}
    {symbol : Symbol}
    (absent : ¬ pattern <:+: (front ++ symbol :: rest).dropLast) :
    matchedAfter pattern front < pattern.length := by
  rw [List.dropLast_append_of_ne_nil (List.cons_ne_nil symbol rest)] at absent
  have absentBefore := not_infix_of_append absent
  exact (isMatched_matchedAfter (not_infix_dropLast absentBefore)).lt_length absentBefore

end Step

/-! ## The first occurrence -/

/-- The pattern occurs in the text, and its first occurrence ends with the character at
`index`. -/
def FirstEndsAt (pattern text : List Symbol) (index : Nat) : Prop :=
  index < text.length ∧ pattern <:+ text.take (index + 1) ∧
    ∀ earlier < index, ¬ pattern <:+ text.take (earlier + 1)

instance [DecidableEq Symbol] (pattern text : List Symbol) (index : Nat) :
    Decidable (FirstEndsAt pattern text index) := by
  unfold FirstEndsAt
  infer_instance

/-- An occurrence ends with some character of the text. -/
theorem exists_suffix_take_of_infix
    (nonempty : pattern ≠ [])
    (occurs : pattern <:+: text) :
    ∃ index < text.length, pattern <:+ text.take (index + 1) := by
  obtain ⟨front, ends, starts⟩ := List.infix_iff_suffix_prefix.mp occurs
  have frontEq := List.prefix_iff_eq_take.mp starts
  have positive : 0 < front.length :=
    (List.length_pos_iff.mpr nonempty).trans_le ends.length_le
  have bounded := starts.length_le
  refine ⟨front.length - 1, by omega, ?_⟩
  rw [Nat.sub_add_cancel positive, ← frontEq]
  exact ends

/-- A pattern occurs exactly if it occurs for a first time. -/
theorem infix_iff_exists_firstEndsAt (nonempty : pattern ≠ []) (text : List Symbol) :
    pattern <:+: text ↔ ∃ index, FirstEndsAt pattern text index := by
  constructor
  · classical
    intro occurs
    have somewhere := exists_suffix_take_of_infix nonempty occurs
    refine ⟨Nat.find somewhere, (Nat.find_spec somewhere).1, (Nat.find_spec somewhere).2, ?_⟩
    intro earlier before ends
    have inside := before.trans (Nat.find_spec somewhere).1
    exact Nat.find_min somewhere before ⟨inside, ends⟩
  · intro parts
    obtain ⟨index, -, ends, -⟩ := parts
    exact ends.isInfix.trans (List.take_prefix _ _).isInfix

/-- Before its first end the pattern does not occur. -/
theorem FirstEndsAt.not_infix_take
    {index : Nat}
    (first : FirstEndsAt pattern text index)
    (nonempty : pattern ≠ []) :
    ¬ pattern <:+: text.take index := by
  intro occurs
  obtain ⟨earlier, inside, ends⟩ := exists_suffix_take_of_infix nonempty occurs
  have before : earlier < index := by
    rw [List.length_take] at inside
    omega
  rw [List.take_take, Nat.min_eq_left (by omega)] at ends
  exact first.2.2 earlier before ends

end TemplateMarkup.Matching
