import TemplateMarkup.Warning.Basic

/-!
Contract: showing each warning once.

Owns:
- `WarningLog`, the keys of the warnings shown so far;
- `WarningLog.lineFor?` and `WarningLog.record`, the line and the new keys when a warning
  is given;
- `WarningLog.clear`.

Does not own: the causes of warnings.
-/

set_option autoImplicit false

namespace TemplateMarkup

/-- The keys of the warnings shown since the log was last cleared, newest first. -/
structure WarningLog where
  recorded : List String
deriving DecidableEq, Repr

namespace WarningLog

/-- The log in which nothing was shown yet. -/
def empty : WarningLog := ⟨[]⟩

/-- Forget every warning, so that each can be shown again. -/
def clear (_ : WarningLog) : WarningLog := empty

/-- Whether a warning with this one's key was shown. -/
def knows (log : WarningLog) (warning : Warning) : Bool :=
  warning.key ∈ log.recorded

/-- The log after a warning was given. -/
def record (log : WarningLog) (warning : Warning) : WarningLog :=
  if log.knows warning then log else ⟨warning.key :: log.recorded⟩

/-- The line shown when a warning is given: none if its key is known. -/
def lineFor? (log : WarningLog) (warning : Warning) : Option String :=
  if log.knows warning then none else some warning.line

theorem knows_iff (log : WarningLog) (warning : Warning) :
    log.knows warning = true ↔ warning.key ∈ log.recorded := by
  simp [knows]

@[simp] theorem recorded_clear (log : WarningLog) : log.clear.recorded = [] := rfl

/-- Giving a warning adds its key and nothing else. -/
@[simp] theorem mem_recorded_record (log : WarningLog) (warning : Warning) (key : String) :
    key ∈ (log.record warning).recorded ↔ key = warning.key ∨ key ∈ log.recorded := by
  unfold record
  by_cases known : log.knows warning = true
  · rw [if_pos known]
    have listed := (log.knows_iff warning).mp known
    constructor
    · exact Or.inr
    · intro either
      rcases either with same | member
      · exact same ▸ listed
      · exact member
  · rw [if_neg known]
    exact List.mem_cons

/-- A line is shown exactly if the key is new. -/
theorem lineFor?_eq_some_iff (log : WarningLog) (warning : Warning) (shown : String) :
    log.lineFor? warning = some shown ↔
      warning.key ∉ log.recorded ∧ shown = warning.line := by
  unfold lineFor?
  by_cases known : log.knows warning = true
  · rw [if_pos known]
    have listed := (log.knows_iff warning).mp known
    simp [listed]
  · rw [if_neg known]
    have unlisted : warning.key ∉ log.recorded := fun listed =>
      known ((log.knows_iff warning).mpr listed)
    simp [unlisted, eq_comm]

end WarningLog

end TemplateMarkup
