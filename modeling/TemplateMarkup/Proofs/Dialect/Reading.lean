import TemplateMarkup.Dialect.Basic
import TemplateMarkup.Proofs.Dialect.CloserLookup
import TemplateMarkup.Proofs.Text.LetterCase

/-!
Contract: which texts name a dialect.

Owns:
- `Dialect.Spells`, the texts that name a dialect, told character by character;
- the agreement of `Dialect.ofStoredName`, with the dialects in any order, and `Dialect.ofName`;
- what is shown for a text that names no dialect.

Does not own: the names.

The dialects are tried one after another, and the first that fits is taken. That another order
takes the same one is due to the names: no text spells two of them.
-/

set_option autoImplicit false

namespace TemplateMarkup

open TemplateMarkup.Text

namespace Dialect

variable {written changed : String} {dialect left right : Dialect}

/-! ## Spelling -/

/-- The text has as many characters as the name of the dialect, and each of them is the one of
the name once a letter from `A` to `Z` is put in lower case. -/
structure Spells (written : String) (dialect : Dialect) : Prop where
  length_eq : written.length = dialect.name.length
  lowerLetter_eq :
    ∀ pair ∈ written.toList.zip dialect.name.toList, lowerLetter pair.1 = pair.2

/-- A name consists of letters in lower case. -/
theorem isLower_of_mem_name (dialect : Dialect) :
    ∀ character ∈ dialect.name.toList, character.isLower = true := by
  cases dialect <;> simp [name]

theorem toLower_of_mem_name (dialect : Dialect) :
    ∀ character ∈ dialect.name.toList, character.toLower = character := by
  cases dialect <;> simp [name]

theorem spells_iff (written : String) (dialect : Dialect) :
    Spells written dialect ↔ foldCase written = foldCase dialect.name := by
  have agree_iff :
      ∀ pair ∈ written.toList.zip dialect.name.toList,
        pair.1.toLower = pair.2.toLower ↔ lowerLetter pair.1 = pair.2 := by
    intro pair member
    rw [toLower_of_mem_name dialect _ (List.of_mem_zip member).2, toLower_eq_lowerLetter]
  rw [foldCase, foldCase, map_eq_map_iff_zip, String.length_toList, String.length_toList,
    forall₂_congr agree_iff]
  constructor
  · intro spells
    exact ⟨spells.length_eq, spells.lowerLetter_eq⟩
  · intro parts
    exact { length_eq := parts.1, lowerLetter_eq := parts.2 }

theorem Spells.unique (leftSpelled : Spells written left) (rightSpelled : Spells written right) :
    left = right := by
  rw [spells_iff] at leftSpelled rightSpelled
  exact foldCase_name_injective (leftSpelled.symm.trans rightSpelled)

theorem ofName_eq_ok_iff_spells (written : String) (dialect : Dialect) :
    ofName written = .ok dialect ↔ Spells written dialect := by
  rw [ofName_eq_ok_iff, spells_iff]

/-- Only letters name a dialect, so white space around a name is no part of it. -/
theorem isAlpha_of_ofName_eq_ok (read : ofName written = .ok dialect) :
    ∀ character ∈ written.toList, character.isAlpha = true := by
  rw [ofName_eq_ok_iff] at read
  intro character member
  have folded : character.toLower ∈ foldCase dialect.name := by
    rw [← read]
    exact List.mem_map_of_mem member
  obtain ⟨letter, letterMember, same⟩ := List.mem_map.mp folded
  rw [toLower_of_mem_name dialect letter letterMember] at same
  apply isAlpha_of_isLower_toLower
  rw [← same]
  exact isLower_of_mem_name dialect letter letterMember

theorem ofName_eq_ok_iff_of_caseVariant
    (variant : CaseVariant written changed)
    (dialect : Dialect) :
    ofName changed = .ok dialect ↔ ofName written = .ok dialect := by
  rw [ofName_eq_ok_iff, ofName_eq_ok_iff, foldCase_eq_of_caseVariant variant]

/-! ## Any order, and stored names -/

/-- Where no dialect is left out, the search finds the one that the text spells. -/
theorem find?_eq_some_iff
    {order : List Dialect}
    (complete : ∀ dialect, dialect ∈ order)
    (written : String)
    (dialect : Dialect) :
    (order.find? fun candidate => sameIgnoringCase candidate.name written) = some dialect ↔
      Spells written dialect := by
  have search :
      (order.find? fun candidate => foldCase candidate.name = foldCase written).map id =
          some dialect ↔
        ∃ candidate ∈ order,
          foldCase candidate.name = foldCase written ∧ id candidate = dialect := by
    apply map_find?_eq_some_iff
    intro left _ right _ same
    exact foldCase_name_injective same
  rw [Option.map_id] at search
  rw [spells_iff]
  constructor
  · intro found
    obtain ⟨candidate, -, same, rfl⟩ := search.mp found
    exact same.symm
  · intro spelled
    exact search.mpr ⟨dialect, complete dialect, spelled.symm, rfl⟩

/-- Neither the order of the dialects nor the comparison of bytes makes a difference. -/
theorem ofStoredName_eq_ofName
    {order : List Dialect}
    (complete : ∀ dialect, dialect ∈ order)
    (written : String) :
    ofStoredName order written = ofName written := by
  have sameFound :
      (order.find? fun candidate => sameIgnoringCase candidate.name written) =
        all.find? fun candidate => sameIgnoringCase candidate.name written := by
    apply Option.ext
    intro dialect
    rw [find?_eq_some_iff complete, find?_eq_some_iff mem_all]
  cases search : all.find? fun candidate => sameIgnoringCase candidate.name written with
  | none =>
      simp only [ofStoredName, ofName, sameBytesIgnoringCase_eq_sameIgnoringCase, sameFound, search]
  | some found =>
      simp only [ofStoredName, ofName, sameBytesIgnoringCase_eq_sameIgnoringCase, sameFound, search]

/-! ## Unknown names -/

/-- A text is refused exactly if it spells no name, and the failure holds the text itself. -/
theorem ofName_eq_error_iff (written : String) (unknown : UnknownDialect) :
    ofName written = .error unknown ↔
      unknown = ⟨written⟩ ∧ ∀ dialect, ¬ Spells written dialect := by
  have spelled_iff := find?_eq_some_iff mem_all written
  unfold ofName
  cases search : all.find? fun candidate => sameIgnoringCase candidate.name written with
  | some found =>
      have spelled := (spelled_iff found).mp search
      constructor
      · intro refused
        cases refused
      · intro parts
        exact absurd spelled (parts.2 found)
  | none =>
      have unspelled : ∀ dialect, ¬ Spells written dialect := by
        intro dialect spelled
        rw [(spelled_iff dialect).mpr spelled] at search
        cases search
      constructor
      · intro refused
        cases refused
        exact ⟨rfl, unspelled⟩
      · intro parts
        rw [parts.1]

end Dialect

theorem UnknownDialect.message_eq (written : String) :
    UnknownDialect.message ⟨written⟩ =
      "unknown ruleset '" ++ written ++ "', expected one of: server, client, xml" := by
  have listed : ", ".intercalate ["server", "client", "xml"] = "server, client, xml" := by
    decide
  have joined :
      "', expected one of: " ++ "server, client, xml" =
        "', expected one of: server, client, xml" := by
    decide
  calc
    UnknownDialect.message ⟨written⟩
      = "unknown ruleset '" ++ written ++ "', expected one of: " ++
          ", ".intercalate ["server", "client", "xml"] := rfl
    _ = "unknown ruleset '" ++ written ++ ("', expected one of: " ++ "server, client, xml") := by
        rw [listed, String.append_assoc]
    _ = "unknown ruleset '" ++ written ++ "', expected one of: server, client, xml" :=
        congrArg _ joined

theorem UnknownDialect.message_injective : Function.Injective UnknownDialect.message := by
  rintro ⟨left⟩ ⟨right⟩ same
  rw [message_eq, message_eq, String.append_left_inj, String.append_right_inj] at same
  rw [same]

namespace Dialect

/-! ## Reading a name -/

/-- A dialect is read exactly from the texts that spell its name up to the case of letters, and
no text spells two names, so the order in which the dialects are tried and the comparison of
bytes make no difference. Every name is read back, also with letters in another case, and a text
with anything but letters is refused. What is refused is told as it was given, so that two
refusals of different texts never look alike. -/
theorem read_exactly_up_to_case (written : String) :
    (∀ dialect, ofName written = .ok dialect ↔ Spells written dialect) ∧
    (∀ left right, Spells written left → Spells written right → left = right) ∧
    (∀ order : List Dialect, order.Perm all → ofStoredName order written = ofName written) ∧
    (∀ dialect : Dialect, ofName dialect.name = .ok dialect) ∧
    (∀ changed,
      CaseVariant written changed →
      ∀ dialect, ofName changed = .ok dialect ↔ ofName written = .ok dialect) ∧
    (∀ character ∈ written.toList,
      character.isAlpha = false → ∀ dialect, ofName written ≠ .ok dialect) ∧
    ((∀ dialect, ¬ Spells written dialect) → ofName written = .error ⟨written⟩) ∧
    UnknownDialect.message ⟨written⟩ =
      "unknown ruleset '" ++ written ++ "', expected one of: server, client, xml" ∧
    ∀ other unknown otherUnknown,
      ofName written = .error unknown →
      ofName other = .error otherUnknown →
      written ≠ other →
      unknown.message ≠ otherUnknown.message := by
  refine ⟨ofName_eq_ok_iff_spells written, fun _ _ => Spells.unique, ?_, ofName_name,
    fun _ => ofName_eq_ok_iff_of_caseVariant, ?_, ?_, UnknownDialect.message_eq written, ?_⟩
  · intro order permuted
    apply ofStoredName_eq_ofName
    intro dialect
    exact permuted.mem_iff.mpr (mem_all dialect)
  · intro character member noLetter dialect read
    rw [isAlpha_of_ofName_eq_ok read character member] at noLetter
    cases noLetter
  · intro unspelled
    exact (ofName_eq_error_iff written ⟨written⟩).mpr ⟨rfl, unspelled⟩
  · intro other unknown otherUnknown refused otherRefused different sameMessage
    obtain ⟨rfl, -⟩ := (ofName_eq_error_iff written unknown).mp refused
    obtain ⟨rfl, -⟩ := (ofName_eq_error_iff other otherUnknown).mp otherRefused
    exact different (congrArg UnknownDialect.name (UnknownDialect.message_injective sameMessage))

/-- A name in mixed case, and two texts with a character that other case rules would take for a
letter of a name. -/
theorem read_exactly_up_to_case_long_s :
    Spells "XmL" .xml ∧
    ofName "XmL" = .ok .xml ∧
    ofStoredName [.xml, .client, .server] "XmL" = .ok .xml ∧
    CaseVariant "XmL" "xMl" ∧
    ofName "xMl" = .ok .xml ∧
    ofName "\u017ferver" = .error ⟨"\u017ferver"⟩ ∧
    ofName " xml" = .error ⟨" xml"⟩ ∧
    UnknownDialect.message ⟨"\u017ferver"⟩ ≠ UnknownDialect.message ⟨" xml"⟩ := by
  have spelled : Spells "XmL" .xml :=
    { length_eq := by decide
      lowerLetter_eq := by decide }
  have variant : CaseVariant "XmL" "xMl" := by
    simp [CaseVariant]
  obtain ⟨readIff, -, anyOrder, -, anyCase, -⟩ := read_exactly_up_to_case "XmL"
  have read := (readIff .xml).mpr spelled
  have permuted : [Dialect.xml, .client, .server].Perm all := by
    decide
  have refused (text : String) (character : Char) (member : character ∈ text.toList)
      (noLetter : character.isAlpha = false) : ofName text = .error ⟨text⟩ := by
    obtain ⟨readIff, -, -, -, -, onlyLetters, otherwise, -⟩ := read_exactly_up_to_case text
    apply otherwise
    intro dialect spelled
    exact onlyLetters character member noLetter dialect ((readIff dialect).mpr spelled)
  have longS := refused "\u017ferver" '\u017f' (by decide) (by decide)
  have space := refused " xml" ' ' (by decide) (by decide)
  obtain ⟨-, -, -, -, -, -, -, -, distinct⟩ := read_exactly_up_to_case "\u017ferver"
  exact ⟨spelled, read, (anyOrder _ permuted).trans read, variant, (anyCase _ variant .xml).mpr read,
    longS, space, distinct " xml" _ _ longS space (by decide)⟩

end Dialect

end TemplateMarkup
