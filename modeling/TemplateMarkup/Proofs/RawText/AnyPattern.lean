import TemplateMarkup.Proofs.Matching.Overlap
import TemplateMarkup.Proofs.RawText.Safety
import TemplateMarkup.Proofs.Text.LetterCase

/-!
Contract: the search over bytes counts right for every pattern, listed as a closer or not.

Owns:
- the count over a text from the bytes of a pattern, with every access checked, and its
  agreement with `Matching.matchedAfter`;
- bytes below 128 as the stored form of their characters.

Does not own: what is counted, or what a scanner does with the count.

A text may complete the pattern with its last character and not before. A search after that
would look past the end of the pattern.
-/

set_option autoImplicit false

namespace TemplateMarkup.Scanner

open TemplateMarkup.Matching
open TemplateMarkup.Text

variable {bytes : List UInt8} {text : List Char}

/-! ## Stored patterns -/

/-- Bytes below 128 are the stored form of the characters that they stand for. -/
theorem storedBytes_ofList_map_ofUInt8 (ascii : ∀ byte ∈ bytes, byte < 128) :
    storedBytes (String.ofList (bytes.map Char.ofUInt8)) = bytes := by
  rw [storedBytes_eq_flatMap, String.toList_ofList, List.flatMap_map]
  have single : ∀ byte ∈ bytes, String.utf8EncodeChar (Char.ofUInt8 byte) = [byte] := by
    intro byte member
    have below : byte.toNat < 128 := UInt8.lt_iff_toNat_lt.mp (ascii byte member)
    have code : (Char.ofUInt8 byte).toNat = byte.toNat := UInt8.toNat_toUInt32 byte
    rw [utf8EncodeChar_of_le (by omega), code, UInt8.ofNat_toNat]
  rw [List.flatMap_congr single]
  exact List.flatMap_singleton' bytes

/-- Unless the pattern occurs before the last character, no search over the text is out of range,
and the searches give the count. -/
theorem foldlM_searchBytes?_eq_some
    (absent : ¬ bytes.map Char.ofUInt8 <:+: text.dropLast) :
    text.foldlM (searchBytes? bytes) 0 =
      some (matchedAfter (bytes.map Char.ofUInt8) text) := by
  induction text using List.reverseRecOn with
  | nil => rfl
  | append_singleton front character inductionHypothesis =>
      have below := matchedAfter_lt_length absent
      rw [List.length_map] at below
      rw [List.dropLast_concat] at absent
      rw [List.foldlM_append, inductionHypothesis (not_infix_dropLast absent),
        matchedAfter_append_singleton, ← searchBytes?_eq_some below]
      simp

/-! ## The count over a text -/

/-- Searching for the bytes of any pattern of ASCII characters, one character of the text after
another, gives the length of the longest prefix of the pattern that the text ends with, and 0 if
there is none but the empty one. Before each character less than the whole pattern is matched, no
access is out of range, and the count grows by at most one. The text is one in which the pattern
does not occur before the last character; so the pattern is not empty. -/
theorem longest_prefix_is_counted
    {bytes : List UInt8}
    (ascii : ∀ byte ∈ bytes, byte < 128)
    {text : List Char}
    (absent : ¬ bytes.map Char.ofUInt8 <:+: text.dropLast) :
    storedBytes (String.ofList (bytes.map Char.ofUInt8)) = bytes ∧
    text.foldlM (searchBytes? bytes) 0 =
      some (matchedAfter (bytes.map Char.ofUInt8) text) ∧
    IsMatched (bytes.map Char.ofUInt8) text (matchedAfter (bytes.map Char.ofUInt8) text) ∧
    (matchedAfter (bytes.map Char.ofUInt8) text = 0 ↔
      ∀ part, part ≠ [] → part <+: bytes.map Char.ofUInt8 → ¬ part <:+ text) ∧
    ∀ front character rest,
      text = front ++ character :: rest →
      matchedAfter (bytes.map Char.ofUInt8) front < bytes.length ∧
      searchBytes? bytes (matchedAfter (bytes.map Char.ofUInt8) front) character =
        some (matchedAfter (bytes.map Char.ofUInt8) (front ++ [character])) ∧
      matchedAfter (bytes.map Char.ofUInt8) (front ++ [character]) ≤
        matchedAfter (bytes.map Char.ofUInt8) front + 1 := by
  have longest := isMatched_matchedAfter absent
  refine ⟨storedBytes_ofList_map_ofUInt8 ascii, foldlM_searchBytes?_eq_some absent, longest, ?_,
    ?_⟩
  · rw [← Nat.le_zero, ← Nat.not_lt, longest.pos_iff]
    simp only [not_exists, not_and]
  · rintro front character rest rfl
    have below := matchedAfter_lt_length absent
    rw [List.length_map] at below
    rw [matchedAfter_append_singleton]
    exact ⟨below, searchBytes?_eq_some below character, advance_le _ _ _⟩

/-- A pattern that overlaps itself, completed by the last character after a fall-back. -/
theorem longest_prefix_is_counted_overlap :
    [97, 97, 98, 97, 97, 97].map Char.ofUInt8 = "aabaaa".toList ∧
    "xaabaabaaa".toList.foldlM (searchBytes? [97, 97, 98, 97, 97, 97]) 0 = some 6 ∧
    IsMatched "aabaaa".toList "xaabaabaaa".toList 6 ∧
    searchBytes? [97, 97, 98, 97, 97, 97] 5 'b' = some 3 := by
  have pattern : [97, 97, 98, 97, 97, 97].map Char.ofUInt8 = "aabaaa".toList := by
    decide
  have ascii : ∀ byte ∈ ([97, 97, 98, 97, 97, 97] : List UInt8), byte < 128 := by
    simp
  have absent :
      ¬ [97, 97, 98, 97, 97, 97].map Char.ofUInt8 <:+: "xaabaabaaa".toList.dropLast := by
    decide +kernel
  obtain ⟨-, counted, longest, -, everyStep⟩ := longest_prefix_is_counted ascii absent
  have whole :
      matchedAfter ([97, 97, 98, 97, 97, 97].map Char.ofUInt8) "xaabaabaaa".toList = 6 := by
    decide
  obtain ⟨-, fallBack, -⟩ := everyStep "xaabaa".toList 'b' "aaa".toList (by decide)
  rw [whole] at counted longest
  exact ⟨pattern, counted, pattern ▸ longest, fallBack⟩

end TemplateMarkup.Scanner
