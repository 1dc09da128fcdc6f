import TemplateMarkup.Text.AsciiCase

/-!
Contract: the dialects that a template is written for.

Owns:
- `Dialect`, its listing order and its written names;
- the facts that depend on the dialect alone;
- `Dialect.ofName`, which reads a name, and `UnknownDialect`, its one failure;
- `Dialect.ofStoredName`, which reads a name from its bytes.

Does not own: what a dialect says about a tag.
-/

set_option autoImplicit false

namespace TemplateMarkup

open TemplateMarkup.Text

/-- The dialect of markup that a template is written for. -/
inductive Dialect where
  /-- Pages built on a server. -/
  | server
  /-- Pages built by a program that runs in the page. -/
  | client
  /-- Documents without a fixed vocabulary. -/
  | xml
deriving DecidableEq, Repr

namespace Dialect

/-- Every dialect, in listing order. -/
def all : List Dialect := [.server, .client, .xml]

/-- A template is written for a server unless it says otherwise. -/
instance : Inhabited Dialect := ⟨.server⟩

/-- The written name of a dialect. -/
def name : Dialect → String
  | .server => "server"
  | .client => "client"
  | .xml => "xml"

instance : ToString Dialect := ⟨name⟩

/-- The name of a dialect as a heading. -/
def label : Dialect → String
  | .server => "Server"
  | .client => "Client"
  | .xml => "Xml"

/-- The namespace of a root element that names none itself. -/
def rootNamespace : Dialect → String
  | .server => "html"
  | .client => "html"
  | .xml => "xml"

/-- Whether the indentation of the template is kept. -/
def keepsIndentation : Dialect → Bool
  | .server => true
  | .client => false
  | .xml => true

/-- The listing leaves out no dialect. -/
theorem mem_all (dialect : Dialect) : dialect ∈ all := by
  cases dialect <;> decide

end Dialect

/-- The failure to read a dialect: no dialect has the given name. -/
structure UnknownDialect where
  name : String
deriving DecidableEq, Repr

/-- The text shown for an unknown dialect: the name as it was given, then the names
that would have been read. -/
def UnknownDialect.message (unknown : UnknownDialect) : String :=
  "unknown ruleset '" ++ unknown.name ++ "', expected one of: " ++
    ", ".intercalate (Dialect.all.map Dialect.name)

namespace Dialect

/-- Read a dialect from its name, in whatever case its letters are. -/
def ofName (written : String) : Except UnknownDialect Dialect :=
  match all.find? fun dialect => sameIgnoringCase dialect.name written with
  | some dialect => .ok dialect
  | none => .error ⟨written⟩

/-- Read a dialect from its name as it is stored, with the dialects tried in the given order. -/
def ofStoredName (order : List Dialect) (written : String) : Except UnknownDialect Dialect :=
  match order.find? fun dialect => sameBytesIgnoringCase dialect.name written with
  | some dialect => .ok dialect
  | none => .error ⟨written⟩

/-- No two dialects have names that differ in case only. -/
theorem foldCase_name_injective
    {left right : Dialect}
    (sameName : foldCase left.name = foldCase right.name) :
    left = right := by
  revert sameName
  cases left <;> cases right <;> decide

/-- A dialect is read exactly from the texts that spell its name up to case. -/
theorem ofName_eq_ok_iff (written : String) (dialect : Dialect) :
    ofName written = .ok dialect ↔ foldCase written = foldCase dialect.name := by
  unfold ofName
  constructor
  · intro read
    split at read
    · rename_i found foundBy
      have spelled := List.find?_some foundBy
      rw [sameIgnoringCase_iff] at spelled
      cases read
      exact spelled.symm
    · cases read
  · intro spelled
    cases search : all.find? fun candidate => sameIgnoringCase candidate.name written with
    | some found =>
        have foundSpelled := List.find?_some search
        rw [sameIgnoringCase_iff, spelled] at foundSpelled
        rw [foldCase_name_injective foundSpelled]
    | none =>
        have missed := List.find?_eq_none.mp search dialect (mem_all dialect)
        rw [sameIgnoringCase_iff, spelled] at missed
        exact absurd rfl missed

@[simp] theorem ofName_name (dialect : Dialect) : ofName dialect.name = .ok dialect :=
  (ofName_eq_ok_iff dialect.name dialect).mpr rfl

end Dialect

end TemplateMarkup
