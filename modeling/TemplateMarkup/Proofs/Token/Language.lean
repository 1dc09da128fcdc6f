import Mathlib.Computability.Language

/-!
Contract: languages of texts that are read one character after another.

Owns:
- `oneOf`, the language of single characters with a property;
- when a text with one more character is in a product that ends with such a character or
  with any number of them.

Does not own: any grammar.

These are languages in the sense of regular expressions: `+` is a choice, `*` is one
after the other, and `∗` is any number of times.
-/

set_option autoImplicit false

namespace TemplateMarkup.Grammar

open scoped Computability

/-- The texts of one character that has a property. -/
def oneOf (allowed : Char → Prop) : Language Char :=
  {text | ∃ character, allowed character ∧ text = [character]}

variable {language other : Language Char} {allowed : Char → Prop}
variable {front text : List Char} {character : Char}

@[simp] theorem nil_notMem_oneOf : [] ∉ oneOf allowed := by
  intro parts
  obtain ⟨character, -, same⟩ := parts
  cases same

theorem nil_mem_mul : [] ∈ language * other ↔ [] ∈ language ∧ [] ∈ other := by
  constructor
  · intro parts
    obtain ⟨left, inLanguage, right, inOther, same⟩ := parts
    obtain ⟨rfl, rfl⟩ := List.append_eq_nil_iff.mp same
    exact ⟨inLanguage, inOther⟩
  · intro both
    obtain ⟨inLanguage, inOther⟩ := both
    exact Language.append_mem_mul inLanguage inOther

/-- A text ends with an allowed character exactly if it has a last one. -/
theorem mem_mul_oneOf :
    text ∈ language * oneOf allowed ↔
      ∃ front character, text = front ++ [character] ∧ front ∈ language ∧ allowed character := by
  constructor
  · intro parts
    obtain ⟨front, inLanguage, -, ⟨character, isAllowed, rfl⟩, rfl⟩ := parts
    exact ⟨front, character, rfl, inLanguage, isAllowed⟩
  · intro parts
    obtain ⟨front, character, rfl, inLanguage, isAllowed⟩ := parts
    exact Language.append_mem_mul inLanguage ⟨character, isAllowed, rfl⟩

/-- One more character is the last of a product that ends with an allowed one. -/
theorem snoc_mem_mul_oneOf :
    front ++ [character] ∈ language * oneOf allowed ↔
      front ∈ language ∧ allowed character := by
  rw [mem_mul_oneOf]
  constructor
  · intro parts
    obtain ⟨otherFront, last, same, inLanguage, isAllowed⟩ := parts
    obtain ⟨rfl, lastEq⟩ := List.append_inj' same rfl
    rw [List.singleton_inj.mp lastEq]
    exact ⟨inLanguage, isAllowed⟩
  · intro parts
    obtain ⟨inLanguage, isAllowed⟩ := parts
    exact ⟨front, character, rfl, inLanguage, isAllowed⟩

theorem snoc_mem_oneOf :
    front ++ [character] ∈ oneOf allowed ↔ front ∈ (1 : Language Char) ∧ allowed character := by
  rw [← one_mul (oneOf allowed), snoc_mem_mul_oneOf]

/-- Repetition is none, or repetition and then once more. -/
theorem mul_kstar_eq (language other : Language Char) :
    language * other∗ = language + language * other∗ * other := by
  calc
    language * other∗ = language * (1 + other∗ * other) := by
      rw [Language.one_add_kstar_mul_self_eq_kstar]
    _ = language + language * other∗ * other := by
      rw [mul_add, mul_one, mul_assoc]

/-- Repetition is none, or once and then repetition. -/
theorem mem_mul_kstar_iff :
    text ∈ language * other∗ ↔ text ∈ language ∨ text ∈ language * other * other∗ := by
  rw [← Language.mem_add, mul_assoc, ← Language.one_add_self_mul_kstar_eq_kstar other, mul_add,
    mul_one, Language.one_add_self_mul_kstar_eq_kstar]

/-- One more character ends what was there before the repetition, or goes on with it. -/
theorem snoc_mem_mul_kstar_oneOf :
    front ++ [character] ∈ language * (oneOf allowed)∗ ↔
      front ++ [character] ∈ language ∨
        (front ∈ language * (oneOf allowed)∗ ∧ allowed character) := by
  rw [mul_kstar_eq, Language.mem_add, snoc_mem_mul_oneOf, ← mul_kstar_eq]

end TemplateMarkup.Grammar
