import Mathlib.Data.List.Basic
import TemplateMarkup.ElementContext.Path

/-!
Contract: the context at the end of a path, read off the path without descending it.

Owns:
- the tag, the namespace and the depth that a path leads to;
- one step and a whole path as steps of these three;
- what the last step alone decides.

Does not own: depths that cannot be counted.

Three fields go down a path: the tag is that of the last step, the namespace is that of
the last step that starts one, and the depth counts pairs of neighbours. The other five
are the verdicts of the last dialect on the last tag and, for one of them, on the tag
before it.
-/

set_option autoImplicit false

namespace TemplateMarkup

/-- Whether an element is one step deeper than the element around it, which has the tag
`above`. -/
def PathStep.deepens (above : String) (step : PathStep) : Bool :=
  !step.dialect.marks .void above && !step.dialect.marks .inline step.tag

/-- Whether an element starts a namespace. -/
def PathStep.startsNamespace (step : PathStep) : Bool :=
  step.dialect.marks .namespaceRoot step.tag

namespace ElementContext

/-- The tags along a path that starts in an element with the tag `outer`, outermost
first. -/
def tagsAlong (outer : String) (path : List PathStep) : List String :=
  outer :: path.map PathStep.tag

/-- The tag at the end of a path. -/
def lastTag (outer : String) (path : List PathStep) : String :=
  (tagsAlong outer path).getLast (List.cons_ne_nil _ _)

/-- The step at the end of a path that starts in the element that `outer` leads to. -/
def lastStep (outer : PathStep) (path : List PathStep) : PathStep :=
  (outer :: path).getLast (List.cons_ne_nil _ _)

/-- How many elements along a path are one step deeper than the element around them. -/
def stepsDeeper (outer : String) (path : List PathStep) : Nat :=
  ((tagsAlong outer path).zip path).countP fun neighbours =>
    neighbours.2.deepens neighbours.1

/-- The namespace at the end of a path that starts in the namespace `outer`: the tag of
the last element that starts one. -/
def lastNamespace (outer : String) (path : List PathStep) : String :=
  match (path.filter PathStep.startsNamespace).getLast? with
  | some step => step.tag
  | none => outer

variable {start context : ElementContext} {path : List PathStep} {step : PathStep}

@[simp] theorem lastTag_nil (outer : String) : lastTag outer [] = outer := rfl

@[simp] theorem lastTag_cons (outer : String) (step : PathStep) (rest : List PathStep) :
    lastTag outer (step :: rest) = lastTag step.tag rest := rfl

@[simp] theorem lastTag_append_singleton
    (outer : String)
    (front : List PathStep)
    (last : PathStep) :
    lastTag outer (front ++ [last]) = last.tag := by
  simp [lastTag, tagsAlong]

@[simp] theorem lastStep_nil (outer : PathStep) : lastStep outer [] = outer := rfl

@[simp] theorem lastStep_append_singleton
    (outer : PathStep)
    (front : List PathStep)
    (last : PathStep) :
    lastStep outer (front ++ [last]) = last := by
  simp [lastStep]

@[simp] theorem stepsDeeper_nil (outer : String) : stepsDeeper outer [] = 0 := rfl

theorem stepsDeeper_cons (outer : String) (step : PathStep) (rest : List PathStep) :
    stepsDeeper outer (step :: rest) =
      (if step.deepens outer then 1 else 0) + stepsDeeper step.tag rest := by
  simp only [stepsDeeper, tagsAlong, List.map_cons, List.zip_cons_cons, List.countP_cons]
  exact Nat.add_comm _ _

@[simp] theorem lastNamespace_nil (outer : String) : lastNamespace outer [] = outer := rfl

theorem lastNamespace_cons (outer : String) (step : PathStep) (rest : List PathStep) :
    lastNamespace outer (step :: rest) =
      lastNamespace (if step.startsNamespace then step.tag else outer) rest := by
  unfold lastNamespace
  by_cases starts : step.startsNamespace = true
  · rw [List.filter_cons_of_pos starts, if_pos starts, List.getLast?_cons]
    cases (rest.filter PathStep.startsNamespace).getLast? with
    | none => rfl
    | some below => rfl
  · rw [List.filter_cons_of_neg starts, if_neg starts]

/-! ## One step -/

/-- A child of an element whose depth can be counted one step further. -/
theorem exists_child
    (parent : ElementContext)
    (countable : parent.depth.toNat + 1 < UInt64.size)
    (step : PathStep) :
    ∃ depth,
      child step.dialect parent step.tag =
          .ok (childAt step.dialect parent step.tag depth) ∧
        depth.toNat = parent.depth.toNat + if step.deepens parent.tag then 1 else 0 := by
  unfold child childDepth PathStep.deepens
  cases step.dialect.marks .void parent.tag with
  | true => exact ⟨parent.depth, rfl, rfl⟩
  | false =>
      cases step.dialect.marks .inline step.tag with
      | true => exact ⟨parent.depth, rfl, rfl⟩
      | false =>
          obtain ⟨below, found, counted⟩ := deeper_eq_ok countable
          refine ⟨below, ?_, counted⟩
          simp [found, Except.map]

/-- A child depends on the namespace, the tag and the depth of its parent alone. -/
theorem child_congr
    {parent other : ElementContext}
    (sameNamespace : other.namespaceName = parent.namespaceName)
    (sameTag : other.tag = parent.tag)
    (sameDepth : other.depth = parent.depth)
    (dialect : Dialect)
    (tag : String) :
    child dialect other tag = child dialect parent tag := by
  have sameRule : childAt dialect other tag = childAt dialect parent tag := by
    funext depth
    simp only [childAt, sameNamespace, sameTag]
  simp only [child, childDepth, sameTag, sameDepth, sameRule]

/-! ## A whole path -/

/-- The three fields that go down a path. -/
structure Inherits
    (start : ElementContext)
    (path : List PathStep)
    (context : ElementContext) : Prop where
  tag_eq : context.tag = lastTag start.tag path
  namespace_eq : context.namespaceName = lastNamespace start.namespaceName path
  depth_eq : context.depth.toNat = start.depth.toNat + stepsDeeper start.tag path

/-- Along a path on which every depth can be counted there is a context at the end, and
the path alone tells its tag, its namespace and its depth. -/
theorem exists_descend
    (start : ElementContext)
    (path : List PathStep)
    (countable : start.depth.toNat + path.length < UInt64.size) :
    ∃ context, start.descend path = .ok context ∧ Inherits start path context := by
  -- The start is kept general, since below a step the path starts in the child.
  induction path generalizing start with
  | nil =>
      exact
        ⟨start, rfl,
          { tag_eq := (lastTag_nil start.tag).symm
            namespace_eq := (lastNamespace_nil start.namespaceName).symm
            depth_eq := by rw [stepsDeeper_nil, Nat.add_zero] }⟩
  | cons step rest inductionHypothesis =>
      rw [List.length_cons] at countable
      obtain ⟨depth, found, counted⟩ := exists_child start (by omega) step
      have restCountable :
          (childAt step.dialect start step.tag depth).depth.toNat + rest.length <
            UInt64.size := by
        change depth.toNat + rest.length < UInt64.size
        split at counted <;> omega
      obtain ⟨context, reached, inherits⟩ := inductionHypothesis _ restCountable
      refine ⟨context, ?_, ?_⟩
      · rw [descend, found]
        exact reached
      · have depthBelow := inherits.depth_eq
        change context.depth.toNat = depth.toNat + stepsDeeper step.tag rest at depthBelow
        exact
          { tag_eq := by
              rw [lastTag_cons]
              exact inherits.tag_eq
            namespace_eq := by
              rw [lastNamespace_cons]
              exact inherits.namespace_eq
            depth_eq := by
              rw [stepsDeeper_cons]
              omega }

/-! ## The last step -/

/-- The fields that the last dialect decides on the last tag alone. -/
structure Verdicts (last : PathStep) (context : ElementContext) : Prop where
  isVoid_eq : context.isVoid = last.dialect.marks .void last.tag
  isInline_eq : context.isInline = last.dialect.marks .inline last.tag
  isBanned_eq : context.isBanned = last.dialect.marks .banned last.tag

theorem verdicts_root (dialect : Dialect) (tag : String) :
    Verdicts ⟨dialect, tag⟩ (root dialect tag) := ⟨rfl, rfl, rfl⟩

/-- The fields of a child that its own step decides, the tag around it aside. -/
structure EndsIn (above : String) (last : PathStep) (context : ElementContext) : Prop
    extends Verdicts last context where
  layout_eq : context.layout = .initial
  isVerbatim_eq :
    context.isVerbatim =
      (last.dialect.marks .verbatim last.tag || last.dialect.marks .verbatim above)

theorem endsIn_of_child
    {parent : ElementContext}
    (found : child step.dialect parent step.tag = .ok context) :
    EndsIn parent.tag step context := by
  unfold child at found
  cases depthFound : childDepth step.dialect parent step.tag with
  | error reason =>
      rw [depthFound] at found
      contradiction
  | ok depth =>
      rw [depthFound] at found
      have same : childAt step.dialect parent step.tag depth = context :=
        Except.ok.inj found
      subst same
      exact
        { isVoid_eq := rfl
          isInline_eq := rfl
          isBanned_eq := rfl
          layout_eq := rfl
          isVerbatim_eq := rfl }

theorem endsIn_of_descend
    {front : List PathStep}
    {last : PathStep}
    (countable : start.depth.toNat + front.length < UInt64.size)
    (reached : start.descend (front ++ [last]) = .ok context) :
    EndsIn (lastTag start.tag front) last context := by
  obtain ⟨parent, reachedParent, inherits⟩ := exists_descend start front countable
  rw [descend_append, reachedParent] at reached
  have found : child last.dialect parent last.tag = .ok context := by
    change parent.descend [last] = .ok context at reached
    rw [descend] at reached
    split at reached
    · rename_i below childFound
      rw [childFound, ← reached]
      rfl
    · contradiction
  rw [← inherits.tag_eq]
  exact endsIn_of_child found

theorem endsIn_of_descend_take
    {before : Nat}
    (within : before < path.length)
    (countable : start.depth.toNat + before < UInt64.size)
    (reached : start.descend (path.take (before + 1)) = .ok context) :
    EndsIn (lastTag start.tag (path.take before)) path[before] context := by
  have front_length : (path.take before).length = before :=
    List.length_take_of_le (Nat.le_of_lt within)
  rw [← List.take_append_getElem within] at reached
  refine endsIn_of_descend ?_ reached
  rw [front_length]
  exact countable

/-- A path of at least one step reads three fields of the context it starts in. -/
theorem descend_congr
    {other : ElementContext}
    (sameNamespace : other.namespaceName = start.namespaceName)
    (sameTag : other.tag = start.tag)
    (sameDepth : other.depth = start.depth)
    (notEmpty : path ≠ []) :
    other.descend path = start.descend path := by
  cases path with
  | nil => exact absurd rfl notEmpty
  | cons step rest =>
      rw [descend, descend, child_congr sameNamespace sameTag sameDepth]

/-! ## The closed form -/

theorem Inherits.depth_eq_of_root
    {dialect : Dialect}
    {tag : String}
    (inherits : Inherits (root dialect tag) path context) :
    context.depth.toNat = stepsDeeper tag path := by
  have counted := inherits.depth_eq
  change context.depth.toNat = 0 + stepsDeeper tag path at counted
  rw [counted, Nat.zero_add]

theorem Inherits.namespace_eq_of_root
    {dialect : Dialect}
    {tag : String}
    (inherits : Inherits (root dialect tag) path context) :
    context.namespaceName = lastNamespace dialect.rootNamespace (⟨dialect, tag⟩ :: path) := by
  rw [inherits.namespace_eq, lastNamespace_cons]
  rfl

/-- The contexts along a path, in closed form. From any context, every beginning of a path
whose depths can be counted leads to a context with the tag, the namespace and the depth
read off that beginning; once a step is taken, the last step and the tag before it decide
the other fields, and of the context at the start only these three count. From the
context of an element that stands in no other, the same holds with that element as the
first of the path. -/
theorem descend_closed_form :
    (∀ (start : ElementContext) (path : List PathStep),
      start.depth.toNat + path.length < UInt64.size →
      ∀ count ≤ path.length,
        ∃ context,
          start.descend (path.take count) = .ok context ∧
            Inherits start (path.take count) context ∧
            ∀ front last,
              path.take count = front ++ [last] →
              EndsIn (lastTag start.tag front) last context ∧
                ∀ other : ElementContext,
                  other.namespaceName = start.namespaceName →
                  other.tag = start.tag →
                  other.depth = start.depth →
                  other.descend (path.take count) = .ok context) ∧
    ∀ (dialect : Dialect) (tag : String) (path : List PathStep),
      path.length < UInt64.size →
      ∀ count ≤ path.length,
        ∃ context,
          (root dialect tag).descend (path.take count) = .ok context ∧
            context.tag = lastTag tag (path.take count) ∧
            context.layout = (if count = 0 then .root else .initial) ∧
            context.depth.toNat = stepsDeeper tag (path.take count) ∧
            context.namespaceName =
              lastNamespace dialect.rootNamespace (⟨dialect, tag⟩ :: path.take count) ∧
            Verdicts (lastStep ⟨dialect, tag⟩ (path.take count)) context ∧
            (context.isVerbatim = true ↔
              (lastStep ⟨dialect, tag⟩ (path.take count)).dialect.marks .verbatim
                  (lastTag tag (path.take count)) = true ∨
                0 < count ∧
                  (lastStep ⟨dialect, tag⟩ (path.take count)).dialect.marks .verbatim
                    (lastTag tag (path.take (count - 1))) = true) := by
  refine ⟨?_, ?_⟩
  · intro start path countable count within
    have length_eq : (path.take count).length = count := List.length_take_of_le within
    obtain ⟨context, reached, inherits⟩ :=
      exists_descend start (path.take count) (by omega)
    refine ⟨context, reached, inherits, ?_⟩
    intro front last split_eq
    have countableFront : start.depth.toNat + front.length < UInt64.size := by
      rw [split_eq, List.length_append] at length_eq
      omega
    have notEmpty : path.take count ≠ [] := by
      rw [split_eq]
      exact List.append_ne_nil_of_right_ne_nil front (List.cons_ne_nil last [])
    refine ⟨?_, ?_⟩
    · rw [split_eq] at reached
      exact endsIn_of_descend countableFront reached
    · intro other sameNamespace sameTag sameDepth
      rw [descend_congr sameNamespace sameTag sameDepth notEmpty]
      exact reached
  · intro dialect tag path countable count within
    have length_eq : (path.take count).length = count := List.length_take_of_le within
    have depth_root : (root dialect tag).depth.toNat = 0 := rfl
    obtain ⟨context, reached, inherits⟩ :=
      exists_descend (root dialect tag) (path.take count) (by omega)
    have depthCounted := inherits.depth_eq_of_root
    have namespaceFound := inherits.namespace_eq_of_root
    refine ⟨context, reached, inherits.tag_eq, ?_⟩
    cases count with
    | zero =>
        have atRoot : root dialect tag = context := Except.ok.inj reached
        subst atRoot
        refine ⟨rfl, depthCounted, namespaceFound, verdicts_root dialect tag, ?_⟩
        simp [root]
    | succ before =>
        have ends := endsIn_of_descend_take within (by omega) reached
        have last_eq : lastStep ⟨dialect, tag⟩ (path.take (before + 1)) = path[before] := by
          rw [← List.take_append_getElem within, lastStep_append_singleton]
        have tag_eq : lastTag tag (path.take (before + 1)) = path[before].tag := by
          rw [← List.take_append_getElem within, lastTag_append_singleton]
        rw [last_eq, tag_eq]
        refine ⟨ends.layout_eq, depthCounted, namespaceFound, ends.toVerdicts, ?_⟩
        rw [ends.isVerbatim_eq, Bool.or_eq_true, Nat.add_sub_cancel]
        simp [root]

/-- Dialects may differ from step to step, and the flags of the context at the start may
contradict its tag. -/
theorem descend_closed_form_mixed :
    (∃ context,
      descend
          { namespaceName := "svg", tag := "br", layout := .block, depth := 7,
            isVoid := false, isInline := true, isVerbatim := true, isBanned := true }
          [⟨.xml, "a"⟩, ⟨.client, "a"⟩] = .ok context ∧
        context.namespaceName = "svg" ∧
          context.depth.toNat = 8) ∧
    ∃ context,
      (root .server "html").descend [⟨.client, "pre"⟩, ⟨.server, "a"⟩] = .ok context ∧
        context.layout = .initial ∧
          context.depth.toNat = 2 ∧
            context.namespaceName = "html" ∧
              context.isVerbatim = true := by
  refine ⟨?_, ?_⟩
  · obtain ⟨context, reached, inherits, -⟩ :=
      descend_closed_form.1
        { namespaceName := "svg", tag := "br", layout := .block, depth := 7,
          isVoid := false, isInline := true, isVerbatim := true, isBanned := true }
        [⟨.xml, "a"⟩, ⟨.client, "a"⟩] (by decide) 2 (by decide)
    refine ⟨context, reached, ?_, ?_⟩
    · rw [inherits.namespace_eq]
      decide
    · rw [inherits.depth_eq]
      decide
  · obtain ⟨context, reached, -, layout_eq, depth_eq, namespace_eq, -, isVerbatim_iff⟩ :=
      descend_closed_form.2 .server "html" [⟨.client, "pre"⟩, ⟨.server, "a"⟩]
        (by decide) 2 (by decide)
    refine ⟨context, reached, layout_eq, ?_, ?_, ?_⟩
    · rw [depth_eq]
      decide
    · rw [namespace_eq]
      decide
    · rw [isVerbatim_iff]
      decide

end ElementContext

end TemplateMarkup
