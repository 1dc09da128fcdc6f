/-!
Contract: a warning and its two written forms.

Owns:
- `Warning`, a message and the component that gives it;
- `Warning.key`, under which a warning is remembered;
- `Warning.line`, as which it is shown.

Does not own: when a warning is shown.
-/

set_option autoImplicit false

namespace TemplateMarkup

/-- A message to the author of a template, and the component that gives it. -/
structure Warning where
  component : String
  message : String
deriving DecidableEq, Repr

namespace Warning

/-- The text under which a warning is remembered. Two warnings can share it if a
component holds a closing bracket. -/
def key (warning : Warning) : String :=
  "[" ++ warning.component ++ "] " ++ warning.message

/-- The line that shows a warning, in yellow. -/
def line (warning : Warning) : String :=
  "\x1b[33m[Coyote " ++ warning.component ++ "] ⚠ " ++ warning.message ++ "\x1b[0m\n"

/-- A bracket in the component makes two different warnings share a key. -/
example :
    Warning.key ⟨"a] b", "c"⟩ = Warning.key ⟨"a", "b] c"⟩ := by
  decide

end Warning

end TemplateMarkup
