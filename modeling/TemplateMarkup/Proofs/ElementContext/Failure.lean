import TemplateMarkup.ElementContext.Making
import TemplateMarkup.Proofs.ElementContext.ClosedForm
import TemplateMarkup.Proofs.Warning.Deduplication

/-!
Contract: when no context can be made, and what is left of the attempt.

Owns:
- what is made along a path, whatever was recorded and shown before;
- the condition under which a child fails, and its absence along a path from a root.

Does not own: the fields of a context other than its depth, or which warnings are shown.

The warning of a child is given before its depth is counted. Only the counting can fail.
-/

set_option autoImplicit false

namespace TemplateMarkup

/-! ## Along a path -/

namespace Making

/-- Nothing recorded or shown before has a part in what is made along a path. -/
theorem runOn_descend_fst (start : ElementContext) (path : List PathStep) (console : Console) :
    ((descend start path).runOn console).1 = start.descend path := by
  induction path generalizing start console with
  | nil => rfl
  | cons step rest inductionHypothesis =>
      have ran := runOn_child step.dialect start step.tag console
      rw [descend, ElementContext.descend]
      cases made : ElementContext.child step.dialect start step.tag with
      | ok context =>
          rw [made] at ran
          rw [runOn_bind_of_ok ran, inductionHypothesis]
      | error reason =>
          rw [made] at ran
          rw [runOn_bind_of_error ran]

theorem runOn_path_fst
    (dialect : Dialect)
    (tag : String)
    (steps : List PathStep)
    (console : Console) :
    ((path dialect tag steps).runOn console).1 =
      (ElementContext.root dialect tag).descend steps := by
  rw [path, runOn_bind_of_ok (runOn_root dialect tag console), runOn_descend_fst]

end Making

/-! ## When there is no context -/

namespace ElementContext

/-- Only the counting of a depth fails. -/
theorem child_eq_error_iff
    (dialect : Dialect)
    (parent : ElementContext)
    (tag : String)
    (reason : ContextError) :
    child dialect parent tag = .error reason ↔
      parent.depth = deepest ∧
        dialect.marks .void parent.tag = false ∧ dialect.marks .inline tag = false := by
  have fromDepth :
      child dialect parent tag = .error reason ↔
        childDepth dialect parent tag = .error reason := by
    unfold child
    cases childDepth dialect parent tag <;> simp [Except.map]
  rw [fromDepth, childDepth]
  cases dialect.marks .void parent.tag with
  | true => simp
  | false =>
      cases dialect.marks .inline tag with
      | true => simp
      | false => simpa using deeper_eq_error_iff parent.depth reason

theorem eq_deepest_iff (depth : UInt64) : depth = deepest ↔ depth.toNat = UInt64.size - 1 := by
  rw [← UInt64.toNat_inj]
  rfl

theorem stepsDeeper_le_length (outer : String) (path : List PathStep) :
    stepsDeeper outer path ≤ path.length := by
  refine List.countP_le_length.trans ?_
  rw [List.length_zip]
  exact Nat.min_le_right _ _

/-- Along a path from a root that takes fewer steps than can be counted, no child fails, and
the depth grows with every step or stays, by at most one. -/
theorem exists_descend_take
    (dialect : Dialect)
    (tag : String)
    {path : List PathStep}
    (countable : path.length < UInt64.size)
    {count : Nat}
    (within : count ≤ path.length) :
    ∃ context,
      (root dialect tag).descend (path.take count) = .ok context ∧
      context.depth.toNat ≤ count ∧
      ∀ step, path[count]? = some step →
        ∃ below,
          child step.dialect context step.tag = .ok below ∧
          (root dialect tag).descend (path.take (count + 1)) = .ok below ∧
          context.depth ≤ below.depth := by
  have taken : (path.take count).length = count := List.length_take_of_le within
  have atRoot : (root dialect tag).depth.toNat = 0 := rfl
  obtain ⟨context, reached, inherits⟩ :=
    exists_descend (root dialect tag) (path.take count) (by omega)
  have bounded := stepsDeeper_le_length tag (path.take count)
  rw [taken, ← inherits.depth_eq_of_root] at bounded
  refine ⟨context, reached, bounded, fun step next => ?_⟩
  have inside : count < path.length := (List.getElem?_eq_some_iff.mp next).1
  have deeperCountable : context.depth.toNat + 1 < UInt64.size := by omega
  obtain ⟨depth, found, counted⟩ := exists_child context deeperCountable step
  refine ⟨_, found, ?_, ?_⟩
  · rw [List.take_add_one, next, Option.toList_some, descend_append, reached]
    change context.descend [step] = _
    rw [descend, found]
    rfl
  · rw [UInt64.le_iff_toNat_le]
    change context.depth.toNat ≤ depth.toNat
    omega

end ElementContext

theorem Session.getElem?_contexts_perform
    {session : Session}
    {index : Nat}
    {context : ElementContext}
    (present : session.contexts[index]? = some context)
    (operation : Operation) :
    (session.perform operation).contexts[index]? = some context := by
  rw [← Array.getElem?_toList] at present ⊢
  have inside := (List.getElem?_eq_some_iff.mp present).1
  rw [contexts_perform, List.getElem?_append_left inside]
  exact present

/-! ## Failures and their effects -/

/-- A child cannot be made exactly if its depth would have to be counted past the greatest one.
Whether it is made or not, the making records and shows what the making of a root context of its
tag does, and changes no context there is. Along a path from a root that takes fewer steps than
there are depths every child is made; its depth is at most the number of steps up to it and at
least the depth around it. -/
theorem child_fails_only_past_greatest_depth :
    (∀ (dialect : Dialect) (parent : ElementContext) (tag : String) (console : Console),
      ((∃ reason, ((Making.child dialect parent tag).runOn console).1 = .error reason) ↔
        parent.depth.toNat = UInt64.size - 1 ∧
          dialect.marks .void parent.tag = false ∧ dialect.marks .inline tag = false) ∧
      ((Making.child dialect parent tag).runOn console).2 =
        ((Making.root dialect tag).runOn console).2 ∧
      (Making.root dialect tag).runOn console =
        (.ok (ElementContext.root dialect tag), console.after (.create dialect tag)) ∧
      (Making.child dialect parent tag).runOn console =
        (ElementContext.child dialect parent tag, console.after (.derive dialect parent tag)) ∧
      ∀ (session : Session) (index : Nat) (context : ElementContext),
        session.contexts[index]? = some context →
        (session.perform (.derive dialect parent tag)).contexts[index]? = some context) ∧
    ∀ (dialect : Dialect) (tag : String) (path : List PathStep) (console : Console),
      path.length < UInt64.size →
      ∀ count ≤ path.length,
        ∃ context,
          ((Making.path dialect tag (path.take count)).runOn console).1 = .ok context ∧
          context.depth.toNat ≤ count ∧
          ∀ step, path[count]? = some step →
            ∃ below,
              (∀ later,
                ((Making.child step.dialect context step.tag).runOn later).1 = .ok below) ∧
              ((Making.path dialect tag (path.take (count + 1))).runOn console).1 =
                .ok below ∧
              context.depth ≤ below.depth := by
  refine ⟨fun dialect parent tag console => ⟨?_, ?_, Making.runOn_root dialect tag console,
    Making.runOn_child dialect parent tag console, ?_⟩, ?_⟩
  · rw [Making.runOn_child, ← ElementContext.eq_deepest_iff]
    simp only [ElementContext.child_eq_error_iff]
    constructor
    · rintro ⟨-, facts⟩
      exact facts
    · intro facts
      exact ⟨.depthOverflow, facts⟩
  · rw [Making.runOn_child, Making.runOn_root]
  · intro session index context present
    exact Session.getElem?_contexts_perform present _
  · intro dialect tag path console countable count within
    simp only [Making.runOn_path_fst, Making.runOn_child]
    obtain ⟨context, reached, bounded, next⟩ :=
      ElementContext.exists_descend_take dialect tag countable within
    refine ⟨context, reached, bounded, fun step following => ?_⟩
    obtain ⟨below, found, reachedBelow, notLess⟩ := next step following
    exact ⟨below, fun _ => found, reachedBelow, notLess⟩

/-- A banned element below the greatest depth is warned of and not made; the context around it
stays. -/
theorem child_fails_only_past_greatest_depth_font :
    ∃ (parent : ElementContext) (console : Console),
      parent.depth.toNat = UInt64.size - 1 ∧
      (∃ reason, ((Making.child .server parent "font").runOn console).1 = .error reason) ∧
      ((Making.child .server parent "font").runOn console).2.lines =
        ["\x1b[33m[Coyote Rules] ⚠ server rules ban <font>\x1b[0m\n"] ∧
      ((Session.empty.addContext parent).perform (.derive .server parent "font")).contexts[0]? =
        some parent ∧
      ∃ context,
        ((Making.path .client "html" [⟨.xml, "a"⟩, ⟨.client, "a"⟩]).runOn console).1 =
          .ok context ∧
        context.depth.toNat ≤ 2 := by
  obtain ⟨derived, descended⟩ := child_fails_only_past_greatest_depth
  let parent : ElementContext := { ElementContext.root .server "div" with depth := deepest }
  let console : Console := ⟨WarningLog.empty, []⟩
  obtain ⟨failure, sameEffects, rooted, -, unchanged⟩ := derived .server parent "font" console
  obtain ⟨context, reached, bounded, -⟩ :=
    descended .client "html" [⟨.xml, "a"⟩, ⟨.client, "a"⟩] console (by decide) 2 (by decide)
  refine ⟨parent, console, rfl, failure.mpr ⟨rfl, by decide, by decide⟩, ?_,
    unchanged (Session.empty.addContext parent) 0 parent rfl, context, reached, bounded⟩
  rw [sameEffects, rooted]
  decide

end TemplateMarkup
