import TemplateMarkup.Dialect.Traits
import TemplateMarkup.Warning.Basic

/-!
Contract: what is known about an element of a template before its content is read.

Owns:
- `ElementContext` and `Layout`;
- `ElementContext.root`, the context of an element that stands in no other;
- `ElementContext.child`, the context of an element inside another, and its one
  failure;
- the warning that a banned tag calls for.

Does not own: the verdicts of a dialect on a tag, or when a warning is shown.

A child takes from its parent the namespace, the tag and the depth, and nothing else.
What the parent's tag means is asked of the child's dialect.
-/

set_option autoImplicit false

namespace TemplateMarkup

/-- How the text of an element is laid out. -/
inductive Layout where
  | block
  | initial
  | inline
  | root
deriving DecidableEq, Repr

namespace Layout

/-- Every layout, in listing order. -/
def all : List Layout := [.block, .initial, .inline, .root]

/-- The written name of a layout. -/
def name : Layout → String
  | .block => "Block"
  | .initial => "Initial"
  | .inline => "Inline"
  | .root => "Root"

/-- The layout with the given written name. -/
def ofName? (written : String) : Option Layout :=
  all.find? fun layout => layout.name = written

@[simp] theorem ofName?_name (layout : Layout) : ofName? layout.name = some layout := by
  cases layout <;> decide

end Layout

/-- What is known about an element before its content is read. -/
structure ElementContext where
  /-- The namespace the element belongs to. -/
  namespaceName : String
  /-- The tag of the element. -/
  tag : String
  /-- How its text is laid out. -/
  layout : Layout
  /-- How many steps its content is indented. -/
  depth : UInt64
  /-- Whether it has no content. -/
  isVoid : Bool
  /-- Whether it stands in a line of text. -/
  isInline : Bool
  /-- Whether the white space of its text is kept. -/
  isVerbatim : Bool
  /-- Whether its tag is banned. -/
  isBanned : Bool
deriving DecidableEq, Repr

/-- Why there is no context for an element. -/
inductive ContextError where
  /-- The element would be nested deeper than can be counted. -/
  | depthOverflow
deriving DecidableEq, Repr

/-- The text shown for a failure. -/
def ContextError.message : ContextError → String
  | .depthOverflow => "attempt to add with overflow"

/-- The greatest depth that can be counted. -/
def deepest : UInt64 := 0xFFFFFFFFFFFFFFFF

/-- One step deeper, unless the depth cannot be counted any more. -/
def deeper (depth : UInt64) : Except ContextError UInt64 :=
  if depth = deepest then .error .depthOverflow else .ok (depth + 1)

theorem toNat_deepest : deepest.toNat + 1 = UInt64.size := rfl

/-- A step deeper counts one more. -/
theorem deeper_eq_ok
    {depth : UInt64}
    (countable : depth.toNat + 1 < UInt64.size) :
    ∃ below, deeper depth = .ok below ∧ below.toNat = depth.toNat + 1 := by
  have notDeepest : depth ≠ deepest := by
    intro same
    rw [same, toNat_deepest] at countable
    exact absurd countable (Nat.lt_irrefl _)
  refine ⟨depth + 1, if_neg notDeepest, ?_⟩
  rw [UInt64.toNat_add, UInt64.toNat_one]
  exact Nat.mod_eq_of_lt countable

/-- Only the greatest depth has no deeper one. -/
theorem deeper_eq_error_iff (depth : UInt64) (reason : ContextError) :
    deeper depth = .error reason ↔ depth = deepest := by
  cases reason
  unfold deeper
  split
  · rename_i same
    simp [same]
  · rename_i different
    simp [different]

namespace ElementContext

/-- The context of an element that stands in no other. -/
def root (dialect : Dialect) (tag : String) : ElementContext where
  namespaceName := if dialect.marks .namespaceRoot tag then tag else dialect.rootNamespace
  tag := tag
  layout := .root
  depth := 0
  isVoid := dialect.marks .void tag
  isInline := dialect.marks .inline tag
  isVerbatim := dialect.marks .verbatim tag
  isBanned := dialect.marks .banned tag

/-- The depth of an element inside another: one step more, unless the element around it
has no content or it stands in a line of text. -/
def childDepth (dialect : Dialect) (parent : ElementContext) (tag : String) :
    Except ContextError UInt64 :=
  if dialect.marks .void parent.tag || dialect.marks .inline tag then
    .ok parent.depth
  else
    deeper parent.depth

/-- The context of an element at a known depth inside another. -/
def childAt
    (dialect : Dialect)
    (parent : ElementContext)
    (tag : String)
    (depth : UInt64) :
    ElementContext where
  namespaceName := if dialect.marks .namespaceRoot tag then tag else parent.namespaceName
  tag := tag
  layout := .initial
  depth := depth
  isVoid := dialect.marks .void tag
  isInline := dialect.marks .inline tag
  isVerbatim := dialect.marks .verbatim tag || dialect.marks .verbatim parent.tag
  isBanned := dialect.marks .banned tag

/-- The context of an element inside another. -/
def child (dialect : Dialect) (parent : ElementContext) (tag : String) :
    Except ContextError ElementContext :=
  (childDepth dialect parent tag).map (childAt dialect parent tag)

/-- The warning that a dialect has for a tag it bans. -/
def banWarning (dialect : Dialect) (tag : String) : Warning :=
  ⟨"Rules", dialect.name ++ " rules ban <" ++ tag ++ ">"⟩

/-- The warning that a tag calls for in a dialect, if the dialect bans it. -/
def banWarning? (dialect : Dialect) (tag : String) : Option Warning :=
  if dialect.marks .banned tag then some (banWarning dialect tag) else none

theorem banWarning?_eq_some_iff (dialect : Dialect) (tag : String) (warning : Warning) :
    banWarning? dialect tag = some warning ↔
      dialect.marks .banned tag = true ∧ warning = banWarning dialect tag := by
  unfold banWarning?
  by_cases banned : dialect.marks .banned tag = true
  · rw [if_pos banned, Option.some.injEq, eq_comm]
    simp only [banned, true_and]
  · rw [if_neg banned]
    simp only [banned, reduceCtorEq, false_and]

end ElementContext

end TemplateMarkup
