import TemplateMarkup.ElementContext.Basic

/-!
Contract: contexts along a path of nested elements.

Owns: `PathStep` and `ElementContext.descend`, the context at the end of a path.

Does not own: the rule for one step.
-/

set_option autoImplicit false

namespace TemplateMarkup

/-- One step into a nested element: the tag of the element and the dialect it is read
in. -/
structure PathStep where
  dialect : Dialect
  tag : String
deriving DecidableEq, Repr

namespace ElementContext

/-- The context at the end of a path that starts inside the given element. -/
def descend (start : ElementContext) : List PathStep → Except ContextError ElementContext
  | [] => .ok start
  | step :: rest =>
      match child step.dialect start step.tag with
      | .ok context => context.descend rest
      | .error reason => .error reason

/-- Descending a path in two parts. -/
theorem descend_append (start : ElementContext) (front back : List PathStep) :
    start.descend (front ++ back) =
      (start.descend front).bind fun context => context.descend back := by
  induction front generalizing start with
  | nil => rfl
  | cons step rest inductionHypothesis =>
      rw [List.cons_append, descend, descend]
      cases child step.dialect start step.tag with
      | ok context => exact inductionHypothesis context
      | error reason => rfl

end ElementContext

end TemplateMarkup
