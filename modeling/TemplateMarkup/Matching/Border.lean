/-!
Contract: looking for a pattern in a text while keeping only a count.

The count is the length of the longest prefix of the pattern that the text read so far
ends with. When the next character does not extend that prefix, a shorter one may still
survive. Every candidate is a prefix of the pattern that the matched part itself ends
with, so the pattern alone tells which.

Owns:
- `longest`, a search for the greatest admissible length;
- `advance`, the count after one more character;
- `advance?`, which makes the comparisons of `advance` in their order and fails at the first
  difference, index or slice that is out of range.

Does not own: what happens once the whole pattern is matched, or from which counts `advance?`
does not fail.
-/

set_option autoImplicit false

namespace TemplateMarkup.Matching

universe u

/-- The greatest length from 1 to `bound` that is admissible, or 0 if there is none. -/
def longest (admissible : Nat → Bool) : Nat → Nat
  | 0 => 0
  | bound + 1 =>
      if admissible (bound + 1) then bound + 1 else longest admissible bound

theorem longest_le (admissible : Nat → Bool) (bound : Nat) :
    longest admissible bound ≤ bound := by
  induction bound with
  | zero => exact Nat.le_refl 0
  | succ bound inductionHypothesis =>
      rw [longest]
      split
      · exact Nat.le_refl _
      · omega

/-- A positive result is admissible. -/
theorem admissible_longest
    {admissible : Nat → Bool}
    {bound : Nat}
    (positive : 0 < longest admissible bound) :
    admissible (longest admissible bound) = true := by
  induction bound with
  | zero => exact absurd positive (Nat.lt_irrefl 0)
  | succ bound inductionHypothesis =>
      rw [longest] at positive ⊢
      by_cases holds : admissible (bound + 1) = true
      · rw [if_pos holds]
        exact holds
      · rw [if_neg holds] at positive ⊢
        exact inductionHypothesis positive

/-- No admissible length up to the bound is greater than the result. -/
theorem le_longest
    {admissible : Nat → Bool}
    {length bound : Nat}
    (holds : admissible length = true)
    (within : length ≤ bound) :
    length ≤ longest admissible bound := by
  induction bound with
  | zero => exact within
  | succ bound inductionHypothesis =>
      rw [longest]
      split
      · exact within
      · rename_i fails
        have below : length ≠ bound + 1 := by
          intro same
          exact fails (same ▸ holds)
        exact inductionHypothesis (by omega)

variable {Symbol : Type u}

section Search

variable [DecidableEq Symbol]

/-- Whether `length` characters of the pattern are matched once `symbol` follows its
first `matched` characters: the prefix ends with `symbol`, and the rest of it is what
the matched part ends with. -/
def survives (pattern : List Symbol) (matched : Nat) (symbol : Symbol) (length : Nat) :
    Bool :=
  pattern[length - 1]? = some symbol &&
    (pattern.take (length - 1)).isSuffixOf (pattern.take matched)

/-- How much of the pattern is matched after `symbol`, if `matched` characters of it
were matched before. -/
def advance (pattern : List Symbol) (matched : Nat) (symbol : Symbol) : Nat :=
  longest (survives pattern matched symbol) (matched + 1)

/-- One character extends the match by at most one. -/
theorem advance_le (pattern : List Symbol) (matched : Nat) (symbol : Symbol) :
    advance pattern matched symbol ≤ matched + 1 :=
  longest_le _ _

/-- A positive length survives exactly if the prefix of that length is what the matched
part followed by the character ends with. -/
theorem survives_iff
    {pattern : List Symbol}
    {length : Nat}
    (positive : 0 < length)
    (within : length ≤ pattern.length)
    (matched : Nat)
    (symbol : Symbol) :
    survives pattern matched symbol length = true ↔
      pattern.take length <:+ pattern.take matched ++ [symbol] := by
  obtain ⟨shorter, rfl⟩ : ∃ shorter, length = shorter + 1 := ⟨length - 1, by omega⟩
  have inside : shorter < pattern.length := by omega
  rw [List.take_succ_eq_append_getElem inside]
  simp only [survives, Nat.add_sub_cancel, List.getElem?_eq_getElem inside,
    Bool.and_eq_true, decide_eq_true_eq, Option.some.injEq, List.isSuffixOf_iff_suffix]
  constructor
  · rintro ⟨lastIs, front, frontEq⟩
    refine ⟨front, ?_⟩
    rw [lastIs, ← List.append_assoc, frontEq]
  · rintro ⟨front, frontEq⟩
    rw [← List.append_assoc] at frontEq
    have parts := List.append_inj' frontEq rfl
    exact ⟨List.singleton_inj.mp parts.2, front, parts.1⟩

/-- The next character of the pattern extends the match. -/
theorem advance_getElem
    {pattern : List Symbol}
    {matched : Nat}
    (below : matched < pattern.length) :
    advance pattern matched pattern[matched] = matched + 1 := by
  have extended : survives pattern matched pattern[matched] (matched + 1) = true := by
    rw [survives_iff (by omega) below]
    exact ⟨[], List.take_succ_eq_append_getElem below⟩
  exact Nat.le_antisymm (advance_le _ _ _) (le_longest extended (Nat.le_refl _))

/-- A character that the pattern does not hold ends every match. -/
theorem advance_eq_zero_of_notMem
    {pattern : List Symbol}
    {symbol : Symbol}
    (absent : symbol ∉ pattern)
    (matched : Nat) :
    advance pattern matched symbol = 0 := by
  rcases Nat.eq_zero_or_pos (advance pattern matched symbol) with zero | positive
  · exact zero
  · have survived := admissible_longest positive
    simp only [survives, Bool.and_eq_true, decide_eq_true_eq] at survived
    exact absurd (List.mem_of_getElem? survived.1) absent

end Search

/-! ## With every access checked

The order matters: the last character of a candidate is looked up first, and its two slices
are taken only where that character agrees.
-/

/-- The difference of two numbers, none if it would be negative. -/
def difference? (total part : Nat) : Option Nat :=
  if part ≤ total then some (total - part) else none

/-- The members at `first` and later but before `past`, none if there is no such slice. -/
def slice? (members : List Symbol) (first past : Nat) : Option (List Symbol) :=
  if first ≤ past ∧ past ≤ members.length then some ((members.take past).drop first) else none

/-- A descending search that ends where a test fails. -/
def longest? (admissible : Nat → Option Bool) : Nat → Option Nat
  | 0 => some 0
  | bound + 1 =>
      (admissible (bound + 1)).bind fun holds =>
        if holds then some (bound + 1) else longest? admissible bound

variable [DecidableEq Symbol]

def survives? (pattern : List Symbol) (matched : Nat) (symbol : Symbol) (length : Nat) :
    Option Bool :=
  (difference? length 1).bind fun shorter =>
    pattern[shorter]?.bind fun last =>
      if last = symbol then
        (slice? pattern 0 shorter).bind fun front =>
          (difference? (matched + 1) length).bind fun start =>
            (slice? pattern start matched).map fun overlap => decide (front = overlap)
      else
        some false

/-- `advance` with every access checked. -/
def advance? (pattern : List Symbol) (matched : Nat) (symbol : Symbol) : Option Nat :=
  longest? (survives? pattern matched symbol) (matched + 1)

end TemplateMarkup.Matching
