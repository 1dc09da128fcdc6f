import Mathlib.Data.Finset.Insert
import TemplateMarkup.Operation

/-!
Contract: a record of warnings that is made on its first use.

Owns:
- `KeySet`, and `KeySet.put`, which records a key and tells whether it is new;
- `KeySet.perform` and `KeySet.afterAll`, the operations on it.

Does not own: its agreement with the log.

A record that was made is kept when it is cleared.
-/

set_option autoImplicit false

namespace TemplateMarkup

/-- A set of keys that is made when the first key is put into it. -/
structure KeySet where
  made? : Option (Finset String)

namespace KeySet

def unused : KeySet := ⟨none⟩

def keys (set : KeySet) : Finset String :=
  set.made?.getD ∅

/-- Put a key into the set. The answer is whether the key is new. -/
def put (set : KeySet) (key : String) : Bool × KeySet :=
  (key ∉ set.keys, ⟨some (insert key set.keys)⟩)

/-- Take every key out of the set, if it was made. -/
def clear (set : KeySet) : KeySet :=
  ⟨set.made?.map fun _ => ∅⟩

/-- The line that an operation shows, and the set after it. To ask whether a warning is new
is to record it. -/
def perform (set : KeySet) (operation : Operation) : Option String × KeySet :=
  match operation with
  | .clear => (none, set.clear)
  | .warn _ | .create _ _ | .derive _ _ _ =>
      match operation.warning? with
      | none => (none, set)
      | some warning =>
          let (isNew, set) := set.put warning.key
          (if isNew then some warning.line else none, set)

def afterAll (set : KeySet) (operations : List Operation) : KeySet :=
  final (fun set operation => (set.perform operation).2) set operations

theorem keys_clear (set : KeySet) : set.clear.keys = ∅ := by
  unfold clear keys
  cases set.made? <;> rfl

variable {set : KeySet} {operation : Operation}

theorem perform_of_warning?_eq_none
    (keeps : operation ≠ .clear)
    (silent : operation.warning? = none) :
    set.perform operation = (none, set) := by
  cases operation <;> simp_all [perform]

theorem perform_of_warning?_eq_some
    {warning : Warning}
    (given : operation.warning? = some warning) :
    set.perform operation =
      (if warning.key ∉ set.keys then some warning.line else none,
        ⟨some (insert warning.key set.keys)⟩) := by
  cases operation with
  | clear => cases given
  | warn _ | create _ _ | derive _ _ _ =>
      simp only [perform, given, put, decide_eq_true_eq]

end KeySet

end TemplateMarkup
