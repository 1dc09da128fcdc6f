import Mathlib.Data.List.Forall2
import TemplateMarkup.Text.AsciiCase

/-!
Contract: texts compared up to case, character by character and byte by byte.

Owns:
- the codes of a letter in lower and in upper case;
- `lowerLetter`, the letters that change when a text is folded, spelled out;
- `CaseVariant`, a change of the case of some letters, which folding does not see;
- the agreement of `sameBytesIgnoringCase` and `sameIgnoringCase`.

Does not own: which texts are compared.

A letter from `A` to `Z` is one byte. No byte of a character that takes several lies in that
range, so folding the bytes one by one folds the characters and nothing else.
-/

set_option autoImplicit false

namespace TemplateMarkup.Text

universe u v

/-! ## Characters -/

theorem toNat_toLower (character : Char) :
    character.toLower.toNat =
      if 65 ≤ character.toNat ∧ character.toNat ≤ 90 then character.toNat + 32
      else character.toNat := by
  unfold Char.toLower
  split
  · rename_i upper
    have codes : 65 ≤ character.toNat ∧ character.toNat ≤ 90 := upper
    have shift : ('a'.val - 'A'.val).toNat = 32 := by decide
    rw [if_pos codes, ← Char.toNat_val, UInt32.toNat_add, shift, Char.toNat_val]
    omega
  · rename_i other
    exact (if_neg other).symm

theorem toNat_toUpper (character : Char) :
    character.toUpper.toNat =
      if 97 ≤ character.toNat ∧ character.toNat ≤ 122 then character.toNat - 32
      else character.toNat := by
  unfold Char.toUpper
  split
  · rename_i lower
    have codes : 97 ≤ character.toNat ∧ character.toNat ≤ 122 := lower
    -- The difference of the letters is negative, so it wraps around.
    have shift : ('A'.val - 'a'.val).toNat = 4294967264 := by decide
    rw [if_pos codes, ← Char.toNat_val, UInt32.toNat_add, shift, Char.toNat_val]
    omega
  · rename_i other
    exact (if_neg other).symm

theorem isAlpha_of_isLower_toLower
    {character : Char}
    (lower : character.toLower.isLower = true) :
    character.isAlpha = true := by
  have isLower_iff (letter : Char) :
      letter.isLower = true ↔ 97 ≤ letter.toNat ∧ letter.toNat ≤ 122 := by
    unfold Char.isLower
    rw [Bool.and_eq_true, decide_eq_true_eq, decide_eq_true_eq]
    rfl
  have isUpper_iff :
      character.isUpper = true ↔ 65 ≤ character.toNat ∧ character.toNat ≤ 90 := by
    unfold Char.isUpper
    rw [decide_eq_true_eq]
    rfl
  rw [isLower_iff, toNat_toLower] at lower
  unfold Char.isAlpha
  rw [Bool.or_eq_true, isLower_iff, isUpper_iff]
  by_cases upper : 65 ≤ character.toNat ∧ character.toNat ≤ 90
  · exact Or.inl upper
  · rw [if_neg upper] at lower
    exact Or.inr lower

/-- A letter from `A` to `Z` in lower case, and any other character as it is. -/
def lowerLetter (character : Char) : Char :=
  if 'A' ≤ character ∧ character ≤ 'Z' then Char.ofNat (character.toNat + 32) else character

theorem toLower_eq_lowerLetter (character : Char) :
    character.toLower = lowerLetter character := by
  have code := toNat_toLower character
  unfold lowerLetter
  by_cases letter : 'A' ≤ character ∧ character ≤ 'Z'
  · have codes : 65 ≤ character.toNat ∧ character.toNat ≤ 90 := letter
    rw [if_pos codes] at code
    rw [if_pos letter, ← code, Char.ofNat_toNat]
  · have codes : ¬ (65 ≤ character.toNat ∧ character.toNat ≤ 90) := letter
    rw [if_neg codes] at code
    rw [if_neg letter]
    exact Char.toNat_inj.mp code

/-- Two lists are the same under a function exactly if they are equally long and it takes members
at the same place to the same value. -/
theorem map_eq_map_iff_zip
    {Member : Type u}
    {Other : Type v}
    (view : Member → Other)
    (left right : List Member) :
    left.map view = right.map view ↔
      left.length = right.length ∧
        ∀ pair ∈ left.zip right, view pair.1 = view pair.2 := by
  rw [← List.forall₂_eq_eq_eq, List.forall₂_map_left_iff, List.forall₂_map_right_iff,
    List.forall₂_iff_zip]
  simp only [Prod.forall]

/-- The second text is the first with some of its letters in another case. -/
def CaseVariant (written changed : String) : Prop :=
  List.Forall₂
    (fun before after => after = before ∨ after = before.toLower ∨ after = before.toUpper)
    written.toList changed.toList

theorem foldCase_eq_of_caseVariant
    {written changed : String}
    (variant : CaseVariant written changed) :
    foldCase changed = foldCase written := by
  have sameLetters :
      List.Forall₂ (fun before after => before.toLower = after.toLower)
        written.toList changed.toList := by
    apply variant.imp
    intro before after change
    apply Char.toNat_inj.mp
    rcases change with rfl | rfl | rfl
    · rfl
    · simp only [toNat_toLower]
      grind
    · simp only [toNat_toLower, toNat_toUpper]
      grind
  rw [← List.forall₂_map_right_iff, ← List.forall₂_map_left_iff,
    List.forall₂_eq_eq_eq] at sameLetters
  exact sameLetters.symm

/-! ## Bytes -/

theorem storedBytes_eq_flatMap (text : String) :
    storedBytes text = text.toList.flatMap String.utf8EncodeChar := by
  show text.toByteArray.data.toList = _
  rw [← String.utf8Encode_toList, List.utf8Encode, List.toList_data_toByteArray]

theorem flatMap_utf8EncodeChar_injective :
    Function.Injective fun characters : List Char =>
      characters.flatMap String.utf8EncodeChar := by
  intro left right same
  have sameEncoding : left.utf8Encode = right.utf8Encode := congrArg List.toByteArray same
  have sameDecoding := congrArg ByteArray.utf8Decode? sameEncoding
  rw [List.utf8Decode?_utf8Encode, List.utf8Decode?_utf8Encode] at sameDecoding
  simpa using sameDecoding

theorem lowerByte_of_outside {byte : UInt8} (outside : byte.toNat < 65 ∨ 90 < byte.toNat) :
    lowerByte byte = byte := by
  apply if_neg
  intro letter
  have from65 : 65 ≤ byte.toNat := UInt8.le_iff_toNat_le.mp letter.1
  have upTo90 : byte.toNat ≤ 90 := UInt8.le_iff_toNat_le.mp letter.2
  omega

theorem utf8EncodeChar_of_le {character : Char} (narrow : character.toNat ≤ 127) :
    String.utf8EncodeChar character = [UInt8.ofNat character.toNat] :=
  if_pos narrow

/-- A character that takes several bytes takes none below 128. -/
theorem le_of_mem_utf8EncodeChar
    {character : Char}
    (wide : 127 < character.toNat)
    {byte : UInt8}
    (member : byte ∈ String.utf8EncodeChar character) :
    128 ≤ byte.toNat := by
  have several : ¬ character.val.toNat ≤ 127 := Nat.not_le.mpr wide
  simp only [String.utf8EncodeChar, if_neg several] at member
  split at member
  · simp only [List.mem_cons, List.not_mem_nil, or_false] at member
    rcases member with rfl | rfl <;> rw [UInt8.toNat_ofNat'] <;> omega
  · split at member
    · simp only [List.mem_cons, List.not_mem_nil, or_false] at member
      rcases member with rfl | rfl | rfl <;> rw [UInt8.toNat_ofNat'] <;> omega
    · simp only [List.mem_cons, List.not_mem_nil, or_false] at member
      rcases member with rfl | rfl | rfl | rfl <;> rw [UInt8.toNat_ofNat'] <;> omega

/-- Folding the bytes of a character folds the character. -/
theorem utf8EncodeChar_toLower (character : Char) :
    String.utf8EncodeChar character.toLower =
      (String.utf8EncodeChar character).map lowerByte := by
  have code := toNat_toLower character
  by_cases letter : 65 ≤ character.toNat ∧ character.toNat ≤ 90
  · rw [if_pos letter] at code
    have isLetter : 65 ≤ UInt8.ofNat character.toNat ∧ UInt8.ofNat character.toNat ≤ 90 := by
      rw [UInt8.le_iff_toNat_le, UInt8.le_iff_toNat_le, UInt8.toNat_ofNat',
        Nat.mod_eq_of_lt (by omega)]
      exact letter
    rw [utf8EncodeChar_of_le (by omega), utf8EncodeChar_of_le (by omega), code,
      List.map_singleton, lowerByte, if_pos isLetter, UInt8.ofNat_add]
    rfl
  · rw [if_neg letter] at code
    have kept : ∀ byte ∈ String.utf8EncodeChar character, lowerByte byte = byte := by
      intro byte member
      apply lowerByte_of_outside
      rcases Nat.lt_or_ge 127 character.toNat with wide | narrow
      · have high := le_of_mem_utf8EncodeChar wide member
        omega
      · rw [utf8EncodeChar_of_le narrow, List.mem_singleton] at member
        rw [member, UInt8.toNat_ofNat', Nat.mod_eq_of_lt (by omega)]
        omega
    rw [Char.toNat_inj.mp code, List.map_congr_left kept, List.map_id']

/-- Comparing the bytes of two texts up to case compares their characters up to case. -/
theorem sameBytesIgnoringCase_eq_sameIgnoringCase (left right : String) :
    sameBytesIgnoringCase left right = sameIgnoringCase left right := by
  have bytes_foldCase (text : String) :
      (storedBytes text).map lowerByte = (foldCase text).flatMap String.utf8EncodeChar := by
    rw [storedBytes_eq_flatMap, foldCase, List.map_flatMap, List.flatMap_map]
    simp only [utf8EncodeChar_toLower]
  rw [Bool.eq_iff_iff, sameIgnoringCase_iff]
  calc
    sameBytesIgnoringCase left right = true
      ↔ (storedBytes left).map lowerByte = (storedBytes right).map lowerByte := by
        rw [map_eq_map_iff_zip]
        simp [sameBytesIgnoringCase]
    _ ↔ foldCase left = foldCase right := by
        rw [bytes_foldCase, bytes_foldCase]
        exact flatMap_utf8EncodeChar_injective.eq_iff

end TemplateMarkup.Text
