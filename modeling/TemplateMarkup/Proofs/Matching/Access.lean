import Mathlib.Data.List.Infix
import TemplateMarkup.Matching.Border

/-!
Contract: from which counts the search with every access checked does not fail.

Owns:
- the counts from which `advance?` succeeds, with the result of `advance`, and those from
  which it fails;
- the count when pattern and character are written in other symbols.

Does not own: the counts that a reading comes to.
-/

set_option autoImplicit false

namespace TemplateMarkup.Matching

universe u

variable {Symbol : Type u}

theorem difference?_of_le {total part : Nat} (within : part ≤ total) :
    difference? total part = some (total - part) :=
  if_pos within

theorem slice?_of_le
    {members : List Symbol}
    {first past : Nat}
    (ordered : first ≤ past)
    (within : past ≤ members.length) :
    slice? members first past = some ((members.take past).drop first) :=
  if_pos ⟨ordered, within⟩

/-- Where no test fails, the search is the one over the answers. -/
theorem longest?_eq_some
    {test : Nat → Option Bool}
    {admissible : Nat → Bool}
    {bound : Nat}
    (answered : ∀ length, 0 < length → length ≤ bound → test length = some (admissible length)) :
    longest? test bound = some (longest admissible bound) := by
  induction bound with
  | zero => rfl
  | succ bound inductionHypothesis =>
      have below := inductionHypothesis fun length positive within =>
        answered length positive (by omega)
      rw [longest?, answered (bound + 1) (by omega) (by omega), Option.bind_some, below, longest]
      split <;> rfl

section Search

variable [DecidableEq Symbol] {pattern : List Symbol} {matched : Nat}

theorem survives?_eq_some
    (below : matched < pattern.length)
    (symbol : Symbol)
    {length : Nat}
    (positive : 0 < length)
    (within : length ≤ matched + 1) :
    survives? pattern matched symbol length = some (survives pattern matched symbol length) := by
  have inside : length - 1 < pattern.length := by omega
  have overlapStart : matched + 1 - length = matched - (length - 1) := by omega
  simp only [survives?, survives, difference?_of_le positive, Option.bind_some,
    List.getElem?_eq_getElem inside, Option.some.injEq]
  by_cases agrees : pattern[length - 1] = symbol
  -- Both slices have `length - 1` members, so comparing them is the test for a suffix.
  · rw [if_pos agrees, slice?_of_le (Nat.zero_le _) (Nat.le_of_lt inside), Option.bind_some,
      difference?_of_le within, Option.bind_some, slice?_of_le (by omega) (by omega),
      Option.map_some, overlapStart, List.drop_zero, decide_eq_true agrees, Bool.true_and,
      Option.some.injEq, Bool.eq_iff_iff, decide_eq_true_eq, List.isSuffixOf_iff_suffix,
      List.suffix_iff_eq_drop, List.length_take_of_le (Nat.le_of_lt below),
      List.length_take_of_le (Nat.le_of_lt inside)]
  · rw [if_neg agrees, decide_eq_false agrees, Bool.false_and]

theorem advance?_eq_some (below : matched < pattern.length) (symbol : Symbol) :
    advance? pattern matched symbol = some (advance pattern matched symbol) := by
  apply longest?_eq_some
  intro length positive within
  exact survives?_eq_some below symbol positive within

/-- From a complete match the first look-up is out of range. -/
theorem advance?_eq_none_iff (pattern : List Symbol) (matched : Nat) (symbol : Symbol) :
    advance? pattern matched symbol = none ↔ pattern.length ≤ matched := by
  constructor
  · intro fails
    rcases Nat.lt_or_ge matched pattern.length with below | complete
    · rw [advance?_eq_some below] at fails
      cases fails
    · exact complete
  · intro complete
    have noLast : pattern[matched]? = none := List.getElem?_eq_none complete
    simp [advance?, longest?, survives?, difference?, noLast]

/-- The count is the same in any symbols that tell the same characters apart. -/
theorem advance_map
    {Other : Type u}
    [DecidableEq Other]
    {write : Symbol → Other}
    (injective : Function.Injective write)
    (pattern : List Symbol)
    (matched : Nat)
    (symbol : Symbol) :
    advance (pattern.map write) matched (write symbol) = advance pattern matched symbol := by
  have sameTest :
      survives (pattern.map write) matched (write symbol) = survives pattern matched symbol := by
    funext length
    rw [Bool.eq_iff_iff]
    simp only [survives, Bool.and_eq_true, decide_eq_true_eq, List.isSuffixOf_iff_suffix,
      ← List.map_take, List.suffix_map_iff_of_injective injective, List.getElem?_map]
    rw [← Option.map_some, (Option.map_injective injective).eq_iff]
  rw [advance, advance, sameTest]

end Search

end TemplateMarkup.Matching
