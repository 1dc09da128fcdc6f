import TemplateMarkup.ElementContext.Basic
import TemplateMarkup.Trace
import TemplateMarkup.Warning.Log

/-!
Contract: the operations that give warnings, run one after another on a log.

Owns:
- `Operation`, its warning and its context, neither of which depends on the log;
- `Operation.apply` and `Operation.shown?`, what an operation does to a log and which
  line it shows;
- `WarningLog.lines`, the lines that a list of operations shows.

Does not own: where contexts are kept.

An operation gives its warning before it can fail, so a failure leaves the same log and
shows the same line as a success.
-/

set_option autoImplicit false

namespace TemplateMarkup

/-- Something that is done while a template is built and that may give a warning. -/
inductive Operation where
  /-- Give a warning. -/
  | warn (warning : Warning)
  /-- Forget every warning. -/
  | clear
  /-- Make the context of a root element. -/
  | create (dialect : Dialect) (tag : String)
  /-- Make the context of an element inside another. -/
  | derive (dialect : Dialect) (parent : ElementContext) (tag : String)
deriving DecidableEq, Repr

namespace Operation

/-- The warning that an operation gives. -/
def warning? : Operation → Option Warning
  | .warn warning => some warning
  | .clear => none
  | .create dialect tag => ElementContext.banWarning? dialect tag
  | .derive dialect _ tag => ElementContext.banWarning? dialect tag

/-- The context that an operation makes, or why it makes none. -/
def context? : Operation → Option (Except ContextError ElementContext)
  | .warn _ => none
  | .clear => none
  | .create dialect tag => some (.ok (ElementContext.root dialect tag))
  | .derive dialect parent tag => some (ElementContext.child dialect parent tag)

/-- The log after an operation. -/
def apply (log : WarningLog) (operation : Operation) : WarningLog :=
  match operation with
  | .clear => log.clear
  | .warn _ | .create _ _ | .derive _ _ _ =>
      match operation.warning? with
      | some warning => log.record warning
      | none => log

/-- The line that an operation shows. -/
def shown? (log : WarningLog) (operation : Operation) : Option String :=
  operation.warning?.bind log.lineFor?

theorem shown?_eq_some_iff (log : WarningLog) (operation : Operation) (line : String) :
    shown? log operation = some line ↔
      ∃ warning, operation.warning? = some warning ∧
        warning.key ∉ log.recorded ∧ line = warning.line := by
  unfold shown?
  rw [Option.bind_eq_some_iff]
  simp only [WarningLog.lineFor?_eq_some_iff]

section Apply

variable {operation : Operation} {warning : Warning}

theorem apply_of_warning?_eq_some
    (given : operation.warning? = some warning)
    (log : WarningLog) :
    apply log operation = log.record warning := by
  cases operation with
  | clear => cases given
  | warn _ | create _ _ | derive _ _ _ => simp only [apply, given]

theorem apply_of_warning?_eq_none
    (keeps : operation ≠ .clear)
    (silent : operation.warning? = none)
    (log : WarningLog) :
    apply log operation = log := by
  cases operation with
  | clear => exact absurd rfl keeps
  | warn _ | create _ _ | derive _ _ _ => simp only [apply, silent]

/-- An operation other than `clear` adds the key of its warning and nothing else. -/
theorem mem_recorded_apply
    (keeps : operation ≠ .clear)
    (log : WarningLog)
    (key : String) :
    key ∈ (apply log operation).recorded ↔
      operation.warning?.map Warning.key = some key ∨ key ∈ log.recorded := by
  cases given : operation.warning? with
  | none =>
      rw [apply_of_warning?_eq_none keeps given]
      simp
  | some warning =>
      rw [apply_of_warning?_eq_some given]
      simp [eq_comm]

end Apply

end Operation

namespace WarningLog

/-- The log after a list of operations. -/
def afterAll (log : WarningLog) (operations : List Operation) : WarningLog :=
  final Operation.apply log operations

/-- The lines that a list of operations shows, in order. -/
def lines (log : WarningLog) : List Operation → List String
  | [] => []
  | operation :: rest =>
      (operation.shown? log).toList ++ (operation.apply log).lines rest

theorem lines_append (log : WarningLog) (front back : List Operation) :
    log.lines (front ++ back) = log.lines front ++ (log.afterAll front).lines back := by
  induction front generalizing log with
  | nil => rfl
  | cons operation rest inductionHypothesis =>
      rw [List.cons_append, lines, lines, inductionHypothesis, List.append_assoc]
      rfl

end WarningLog

end TemplateMarkup
