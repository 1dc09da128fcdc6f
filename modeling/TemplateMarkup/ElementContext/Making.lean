import TemplateMarkup.ElementContext.Path
import TemplateMarkup.Operation

/-!
Contract: the making of contexts, one effect after another.

Owns:
- `Console`, a log together with what was shown;
- `Making`, in which a failure keeps what was recorded and shown before it;
- `Making.root`, `Making.child` and `Making.path`, and the agreement of the first two with the
  contexts and the operations.

Does not own: when a child cannot be made.

A child is made from a root context of its tag, so its warning is given before its depth is
counted.
-/

set_option autoImplicit false

namespace TemplateMarkup

/-- A log together with the lines that were shown so far. -/
structure Console where
  log : WarningLog
  lines : List String
deriving DecidableEq, Repr

namespace Console

/-- Show a warning, unless its key is known. -/
def give (console : Console) (warning : Warning) : Console :=
  if console.log.knows warning then console
  else ⟨console.log.record warning, console.lines ++ [warning.line]⟩

/-- The console after an operation. -/
def after (console : Console) (operation : Operation) : Console :=
  ⟨operation.apply console.log, console.lines ++ (operation.shown? console.log).toList⟩

section After

variable {operation : Operation} {warning : Warning}

theorem after_of_warning?_eq_some
    (given : operation.warning? = some warning)
    (console : Console) :
    console.after operation = console.give warning := by
  rw [after, Operation.apply_of_warning?_eq_some given, Operation.shown?, given,
    Option.bind_some, WarningLog.lineFor?, give]
  by_cases known : console.log.knows warning = true
  · rw [if_pos known, if_pos known, WarningLog.record, if_pos known, Option.toList_none,
      List.append_nil]
  · rw [if_neg known, if_neg known, Option.toList_some]

theorem after_of_warning?_eq_none
    (keeps : operation ≠ .clear)
    (silent : operation.warning? = none)
    (console : Console) :
    console.after operation = console := by
  rw [after, Operation.apply_of_warning?_eq_none keeps silent, Operation.shown?, silent,
    Option.bind_none, Option.toList_none, List.append_nil]

end After

end Console

/-- Something that can fail. A failure undoes nothing on the console. -/
abbrev Making := ExceptT ContextError (StateM Console)

namespace Making

/-- What is made, or why nothing is, and the console after it. -/
def runOn {Made : Type} (making : Making Made) (console : Console) :
    Except ContextError Made × Console :=
  making.run.run console

/-- Make the context of an element that stands in no other. The only effect is the warning for
a banned tag. -/
def root (dialect : Dialect) (tag : String) : Making ElementContext := do
  if dialect.marks .banned tag then
    modify fun console => console.give (ElementContext.banWarning dialect tag)
  return ElementContext.root dialect tag

/-- Turn a root context into that of an element inside another. What it has from its own tag
stays. -/
def moveInside
    (dialect : Dialect)
    (parent : ElementContext)
    (depth : UInt64)
    (made : ElementContext) :
    ElementContext :=
  { made with
    namespaceName :=
      if dialect.marks .namespaceRoot made.tag then made.namespaceName
      else parent.namespaceName
    layout := .initial
    depth := depth
    isVerbatim := if dialect.marks .verbatim parent.tag then true else made.isVerbatim }

/-- Make the context of an element inside another: make a root context of its tag, count its
depth, and move it inside. -/
def child (dialect : Dialect) (parent : ElementContext) (tag : String) :
    Making ElementContext := do
  let made ← root dialect tag
  let depth ← ElementContext.childDepth dialect parent tag
  return moveInside dialect parent depth made

/-- Make the contexts along a path, each inside the one before, and keep the last. -/
def descend (start : ElementContext) : List PathStep → Making ElementContext
  | [] => pure start
  | step :: rest => do
      let context ← child step.dialect start step.tag
      descend context rest

/-- Make the contexts along a path that starts in an element that stands in no other. -/
def path (dialect : Dialect) (tag : String) (steps : List PathStep) : Making ElementContext := do
  let outermost ← root dialect tag
  descend outermost steps

/-! ## Agreement -/

section Sequence

variable {First Second : Type} {making : Making First} {next : First → Making Second}
variable {before between : Console}

theorem runOn_bind_of_ok
    {made : First}
    (ran : making.runOn before = (.ok made, between)) :
    (making >>= next).runOn before = (next made).runOn between := by
  unfold runOn at ran ⊢
  rw [ExceptT.run_bind, StateT.run_bind, ran]
  rfl

theorem runOn_bind_of_error
    {reason : ContextError}
    (ran : making.runOn before = (.error reason, between)) :
    (making >>= next).runOn before = (.error reason, between) := by
  unfold runOn at ran ⊢
  rw [ExceptT.run_bind, StateT.run_bind, ran]
  rfl

theorem runOn_lift (result : Except ContextError First) (console : Console) :
    (liftM result : Making First).runOn console = (result, console) := by
  cases result <;> rfl

end Sequence

theorem after_create (console : Console) (dialect : Dialect) (tag : String) :
    console.after (.create dialect tag) =
      if dialect.marks .banned tag then
        console.give (ElementContext.banWarning dialect tag)
      else console := by
  by_cases banned : dialect.marks .banned tag = true
  · have given :
        (Operation.create dialect tag).warning? = some (ElementContext.banWarning dialect tag) :=
      if_pos banned
    rw [if_pos banned]
    exact console.after_of_warning?_eq_some given
  · have silent : (Operation.create dialect tag).warning? = none := if_neg banned
    rw [if_neg banned]
    exact console.after_of_warning?_eq_none Operation.noConfusion silent

theorem runOn_root (dialect : Dialect) (tag : String) (console : Console) :
    (root dialect tag).runOn console =
      (.ok (ElementContext.root dialect tag), console.after (.create dialect tag)) := by
  rw [after_create]
  unfold root
  split <;> rfl

theorem moveInside_root
    (dialect : Dialect)
    (parent : ElementContext)
    (tag : String)
    (depth : UInt64) :
    moveInside dialect parent depth (ElementContext.root dialect tag) =
      ElementContext.childAt dialect parent tag depth := by
  unfold moveInside ElementContext.root ElementContext.childAt
  cases dialect.marks .namespaceRoot tag <;> cases dialect.marks .verbatim parent.tag <;> simp

theorem runOn_child
    (dialect : Dialect)
    (parent : ElementContext)
    (tag : String)
    (console : Console) :
    (child dialect parent tag).runOn console =
      (ElementContext.child dialect parent tag, console.after (.create dialect tag)) := by
  rw [child, runOn_bind_of_ok (runOn_root dialect tag console), ElementContext.child]
  have counting :=
    runOn_lift (ElementContext.childDepth dialect parent tag)
      (console.after (.create dialect tag))
  cases counted : ElementContext.childDepth dialect parent tag with
  | ok depth =>
      rw [counted] at counting
      rw [runOn_bind_of_ok counting, moveInside_root]
      rfl
  | error reason =>
      rw [counted] at counting
      rw [runOn_bind_of_error counting]
      rfl

end Making

end TemplateMarkup
