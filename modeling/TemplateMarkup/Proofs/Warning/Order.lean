import Mathlib.Data.List.Dedup
import TemplateMarkup.Proofs.Warning.Deduplication

/-!
Contract: the order in which warnings are given decides only the order in which they are shown.

Owns:
- `Warning.Delimited`, the warnings whose key and whose line tell them from all others of this
  kind;
- what a list of operations without a clear shows and records, as a set;
- the number of lines that the making of contexts shows.

Does not own: lists of operations in which the log is cleared, or warnings that share a key.

The component stands before a closing bracket in the key. As long as it holds none itself, the
first bracket ends it, and two warnings with one key are one warning.
-/

set_option autoImplicit false

namespace TemplateMarkup

universe u

/-- Two lists with a mark in them are equal exactly if they agree before and after its first
occurrence. -/
theorem append_cons_eq_iff_of_notMem
    {Symbol : Type u}
    {mark : Symbol}
    {left right leftRest rightRest : List Symbol}
    (leftFree : mark ∉ left)
    (rightFree : mark ∉ right) :
    left ++ mark :: leftRest = right ++ mark :: rightRest ↔
      left = right ∧ leftRest = rightRest := by
  induction left generalizing right with
  | nil =>
      cases right with
      | nil => simp
      | cons head tail =>
          have different : mark ≠ head := fun same => rightFree (same ▸ List.mem_cons_self)
          simp [different]
  | cons leftHead leftTail inductionHypothesis =>
      rw [List.mem_cons, not_or] at leftFree
      cases right with
      | nil => simp [Ne.symm leftFree.1]
      | cons head tail =>
          rw [List.mem_cons, not_or] at rightFree
          simp [inductionHypothesis leftFree.2 rightFree.2, and_assoc]

/-! ## Warnings told apart by their key -/

namespace Warning

/-- The component holds no closing bracket, so the first one in the key ends it. -/
def Delimited (warning : Warning) : Prop :=
  ']' ∉ warning.component.toList

theorem toList_key (warning : Warning) :
    warning.key.toList =
      '[' :: (warning.component.toList ++ ']' :: ' ' :: warning.message.toList) := by
  simp [key]

theorem toList_line (warning : Warning) :
    warning.line.toList =
      "\x1b[33m[Coyote ".toList ++
        (warning.component.toList ++
          ']' :: (" ⚠ ".toList ++ (warning.message.toList ++ "\x1b[0m\n".toList))) := by
  have bracket : "] ⚠ ".toList = ']' :: " ⚠ ".toList := by decide
  delta line
  simp only [String.toList_append, List.append_assoc, bracket, List.cons_append]

variable {left right : Warning}

theorem eq_iff (left right : Warning) :
    left = right ↔
      left.component.toList = right.component.toList ∧
        left.message.toList = right.message.toList := by
  rw [String.toList_inj, String.toList_inj]
  obtain ⟨leftComponent, leftMessage⟩ := left
  obtain ⟨rightComponent, rightMessage⟩ := right
  rw [mk.injEq]

theorem key_eq_iff (leftDelimited : left.Delimited) (rightDelimited : right.Delimited) :
    left.key = right.key ↔ left = right := by
  rw [← String.toList_inj, toList_key, toList_key, List.cons_inj_right,
    append_cons_eq_iff_of_notMem leftDelimited rightDelimited, List.cons_inj_right, ← eq_iff]

theorem line_eq_iff (leftDelimited : left.Delimited) (rightDelimited : right.Delimited) :
    left.line = right.line ↔ left = right := by
  rw [← String.toList_inj, toList_line, toList_line, List.append_cancel_left_eq,
    append_cons_eq_iff_of_notMem leftDelimited rightDelimited, List.append_cancel_left_eq,
    List.append_cancel_right_eq, ← eq_iff]

end Warning

/-! ## Warnings for banned tags -/

namespace ElementContext

theorem delimited_banWarning (dialect : Dialect) (tag : String) :
    (banWarning dialect tag).Delimited := by
  show ']' ∉ "Rules".toList
  decide

/-- The first letter tells the names of the dialects apart. -/
theorem name_append_eq_iff (left right : Dialect) (leftRest rightRest : List Char) :
    left.name.toList ++ leftRest = right.name.toList ++ rightRest ↔
      left = right ∧ leftRest = rightRest := by
  have nonempty (dialect : Dialect) : dialect.name.toList ≠ [] := by
    cases dialect <;> decide
  constructor
  · intro same
    have sameFirst := congrArg List.head? same
    rw [List.head?_append_of_ne_nil _ (nonempty left),
      List.head?_append_of_ne_nil _ (nonempty right)] at sameFirst
    have sameDialect : left = right := by
      revert sameFirst
      cases left <;> cases right <;> decide
    subst sameDialect
    exact ⟨rfl, List.append_cancel_left same⟩
  · rintro ⟨rfl, rfl⟩
    rfl

theorem toList_message_banWarning (dialect : Dialect) (tag : String) :
    (banWarning dialect tag).message.toList =
      dialect.name.toList ++ (" rules ban <".toList ++ (tag.toList ++ ">".toList)) := by
  simp only [banWarning, String.toList_append, List.append_assoc]

theorem banWarning_eq_iff
    (leftDialect rightDialect : Dialect)
    (leftTag rightTag : String) :
    banWarning leftDialect leftTag = banWarning rightDialect rightTag ↔
      leftDialect = rightDialect ∧ leftTag = rightTag := by
  rw [Warning.eq_iff, toList_message_banWarning, toList_message_banWarning, name_append_eq_iff,
    List.append_cancel_left_eq, List.append_cancel_right_eq, String.toList_inj, String.toList_inj]
  exact and_iff_right rfl

end ElementContext

/-! ## Lists of operations without a clear -/

/-- The warnings that a list of operations gives, whether or not they are shown. -/
def warningsGiven (operations : List Operation) : List Warning :=
  operations.filterMap Operation.warning?

theorem mem_warningsGiven_cons
    (operation : Operation)
    (rest : List Operation)
    (warning : Warning) :
    warning ∈ warningsGiven (operation :: rest) ↔
      operation.warning? = some warning ∨ warning ∈ warningsGiven rest := by
  simp [warningsGiven, eq_comm]

theorem issuedSinceClear_iff_of_notMem
    {operations : List Operation}
    (keeps : .clear ∉ operations)
    (key : String) :
    IssuedSinceClear operations key ↔ ∃ operation ∈ operations, operation.key? = some key := by
  constructor
  · rintro ⟨earlier, operation, later, rfl, issues, -⟩
    have listed : operation ∈ earlier ++ operation :: later := by simp
    exact ⟨operation, listed, issues⟩
  · rintro ⟨operation, listed, issues⟩
    obtain ⟨earlier, later, rfl⟩ := List.append_of_mem listed
    refine ⟨earlier, operation, later, rfl, issues, fun clears => keeps ?_⟩
    exact List.mem_append_right _ (List.mem_cons_of_mem _ clears)

namespace WarningLog

variable {operations : List Operation}

/-- Without a clear, the log keeps what it has and adds the keys that are issued. -/
theorem mem_recorded_afterAll_iff
    (keeps : .clear ∉ operations)
    (log : WarningLog)
    (key : String) :
    key ∈ (log.afterAll operations).recorded ↔
      key ∈ log.recorded ∨ ∃ operation ∈ operations, operation.key? = some key := by
  rw [mem_recorded_afterAll, issuedSinceClear_iff_of_notMem keeps, or_comm, and_iff_right keeps]

/-- Without a clear, a line is shown exactly if it is that of a warning given whose key was not
known at the start. -/
theorem mem_lines_iff
    (keeps : .clear ∉ operations)
    (delimited : ∀ warning ∈ warningsGiven operations, warning.Delimited)
    (log : WarningLog)
    (line : String) :
    line ∈ log.lines operations ↔
      ∃ warning ∈ warningsGiven operations,
        warning.key ∉ log.recorded ∧ line = warning.line := by
  induction operations generalizing log with
  | nil => simp [lines, warningsGiven]
  | cons operation rest inductionHypothesis =>
      rw [List.mem_cons, not_or] at keeps
      simp only [mem_warningsGiven_cons] at delimited ⊢
      have known := Operation.mem_recorded_apply (Ne.symm keeps.1) log
      rw [lines, List.mem_append, Option.mem_toList, Operation.shown?_eq_some_iff,
        inductionHypothesis keeps.2 fun warning member => delimited warning (Or.inr member)]
      constructor
      · rintro (⟨warning, given, isNew, rfl⟩ | ⟨warning, member, isNew, rfl⟩)
        · exact ⟨warning, Or.inl given, isNew, rfl⟩
        · rw [known, not_or] at isNew
          exact ⟨warning, Or.inr member, isNew.2, rfl⟩
      · rintro ⟨warning, given | member, isNew, rfl⟩
        · exact Or.inl ⟨warning, given, isNew, rfl⟩
        · by_cases same : operation.warning? = some warning
          · exact Or.inl ⟨warning, same, isNew, rfl⟩
          · -- Another warning with the same key would be this one.
            refine Or.inr ⟨warning, member, ?_, rfl⟩
            rw [known, not_or]
            refine ⟨fun sameKey => same ?_, isNew⟩
            obtain ⟨other, given, keyEq⟩ := Option.map_eq_some_iff.mp sameKey
            rw [given, (Warning.key_eq_iff (delimited other (Or.inl given))
              (delimited warning (Or.inr member))).mp keyEq]

/-- Without a clear, no line is shown twice. -/
theorem nodup_lines
    (keeps : .clear ∉ operations)
    (delimited : ∀ warning ∈ warningsGiven operations, warning.Delimited)
    (log : WarningLog) :
    (log.lines operations).Nodup := by
  induction operations generalizing log with
  | nil => exact List.nodup_nil
  | cons operation rest inductionHypothesis =>
      rw [List.mem_cons, not_or] at keeps
      simp only [mem_warningsGiven_cons] at delimited
      have delimitedRest : ∀ warning ∈ warningsGiven rest, warning.Delimited :=
        fun warning member => delimited warning (Or.inr member)
      rw [lines, List.nodup_append]
      refine ⟨?_, inductionHypothesis keeps.2 delimitedRest _, ?_⟩
      · cases operation.shown? log <;> simp
      · rintro line shown other shownLater rfl
        rw [Option.mem_toList, Operation.shown?_eq_some_iff] at shown
        obtain ⟨warning, given, -, rfl⟩ := shown
        rw [mem_lines_iff keeps.2 delimitedRest] at shownLater
        obtain ⟨later, member, isNew, sameLine⟩ := shownLater
        have same := (Warning.line_eq_iff (delimited warning (Or.inl given))
          (delimitedRest later member)).mp sameLine
        subst same
        rw [Operation.mem_recorded_apply (Ne.symm keeps.1), given] at isNew
        exact isNew (Or.inl rfl)

section Reordered

variable {reordered : List Operation} (order : operations.Perm reordered)
variable (keeps : .clear ∉ operations)
include order keeps

/-- Without a clear, the order of the operations has no part in what is recorded after them. -/
theorem mem_recorded_afterAll_perm_iff (log : WarningLog) (key : String) :
    key ∈ (log.afterAll reordered).recorded ↔ key ∈ (log.afterAll operations).recorded := by
  have keepsToo : .clear ∉ reordered := fun clears => keeps (order.mem_iff.mpr clears)
  rw [mem_recorded_afterAll_iff keepsToo, mem_recorded_afterAll_iff keeps]
  simp only [order.mem_iff]

/-- Without a clear, the order of the operations decides only the order of the lines. -/
theorem lines_perm
    (delimited : ∀ warning ∈ warningsGiven operations, warning.Delimited)
    (log : WarningLog) :
    (log.lines reordered).Perm (log.lines operations) := by
  have keepsToo : .clear ∉ reordered := fun clears => keeps (order.mem_iff.mpr clears)
  have sameGiven : (warningsGiven operations).Perm (warningsGiven reordered) :=
    order.filterMap _
  have delimitedToo : ∀ warning ∈ warningsGiven reordered, warning.Delimited :=
    fun warning member => delimited warning (sameGiven.mem_iff.mpr member)
  rw [List.perm_ext_iff_of_nodup (nodup_lines keepsToo delimitedToo log)
    (nodup_lines keeps delimited log)]
  intro line
  rw [mem_lines_iff keepsToo delimitedToo, mem_lines_iff keeps delimited]
  simp only [sameGiven.mem_iff]

end Reordered

end WarningLog

/-! ## Banned elements -/

namespace Operation

/-- The dialect and the tag of the element whose context an operation makes, if the tag is
banned. -/
def banned? : Operation → Option (Dialect × String)
  | .create dialect tag | .derive dialect _ tag =>
      if dialect.marks .banned tag then some (dialect, tag) else none
  | .warn _ | .clear => none

theorem warning?_eq_map_banned?
    {operation : Operation}
    (noWarning : ∀ warning, operation ≠ .warn warning) :
    operation.warning? =
      operation.banned?.map fun banned => ElementContext.banWarning banned.1 banned.2 := by
  cases operation with
  | warn warning => exact absurd rfl (noWarning warning)
  | clear => rfl
  | create dialect tag | derive dialect _ tag =>
      simp only [warning?, ElementContext.banWarning?, banned?]
      split <;> rfl

end Operation

variable {operations : List Operation}

theorem delimited_of_mem_warningsGiven
    (delimited : ∀ warning, .warn warning ∈ operations → ']' ∉ warning.component.toList)
    {warning : Warning}
    (member : warning ∈ warningsGiven operations) :
    warning.Delimited := by
  obtain ⟨operation, listed, given⟩ := List.mem_filterMap.mp member
  rcases (operation.warning?_eq_some_iff warning).mp given with
    plain | ⟨dialect, tag, -, -, rfl⟩
  · exact delimited warning (plain ▸ listed)
  · exact ElementContext.delimited_banWarning dialect tag

/-- The lines shown on a log in which nothing was shown are those of the banned elements, each
once. -/
theorem lines_empty_perm
    (keeps : .clear ∉ operations)
    (noWarning : ∀ warning, .warn warning ∉ operations) :
    (WarningLog.empty.lines operations).Perm
      ((operations.filterMap Operation.banned?).dedup.map fun banned =>
        (ElementContext.banWarning banned.1 banned.2).line) := by
  have delimited : ∀ warning ∈ warningsGiven operations, warning.Delimited :=
    fun warning member =>
      delimited_of_mem_warningsGiven (fun given listed => absurd listed (noWarning given)) member
  have lineInjective :
      Function.Injective fun banned : Dialect × String =>
        (ElementContext.banWarning banned.1 banned.2).line := by
    intro left right same
    have sameWarning := (Warning.line_eq_iff (ElementContext.delimited_banWarning _ _)
      (ElementContext.delimited_banWarning _ _)).mp same
    exact Prod.ext_iff.mpr ((ElementContext.banWarning_eq_iff _ _ _ _).mp sameWarning)
  have given :
      warningsGiven operations =
        (operations.filterMap Operation.banned?).map fun banned =>
          ElementContext.banWarning banned.1 banned.2 := by
    rw [warningsGiven, List.map_filterMap]
    apply List.filterMap_congr
    intro operation listed
    exact Operation.warning?_eq_map_banned? fun warning same => noWarning warning (same ▸ listed)
  rw [List.perm_ext_iff_of_nodup (WarningLog.nodup_lines keeps delimited _)
    ((List.nodup_dedup _).map lineInjective)]
  intro line
  rw [WarningLog.mem_lines_iff keeps delimited, given]
  simp [WarningLog.empty, eq_comm]

/-! ## Order -/

/-- Warnings whose components hold no closing bracket share a key only if they are the same,
and the warnings for banned tags only if dialect and tag are the same. So the operations of a
list without a clear show the same lines in any order, each once, and leave the same keys
recorded: those recorded before and those they issue. On a log in which nothing was shown, the making of contexts shows as many lines as
there are pairs of a dialect and a tag it bans. -/
theorem order_of_warnings_is_free :
    (∀ left right : Warning,
      ']' ∉ left.component.toList →
      ']' ∉ right.component.toList →
      (left.key = right.key ↔
        left.component = right.component ∧ left.message = right.message)) ∧
    (∀ leftDialect rightDialect leftTag rightTag,
      (ElementContext.banWarning leftDialect leftTag).key =
          (ElementContext.banWarning rightDialect rightTag).key ↔
        leftDialect = rightDialect ∧ leftTag = rightTag) ∧
    (∀ dialect parent tag,
      Dialect.marks dialect .banned tag = true →
      (Operation.create dialect tag).key? = some (ElementContext.banWarning dialect tag).key ∧
        (Operation.derive dialect parent tag).key? =
          some (ElementContext.banWarning dialect tag).key) ∧
    (∀ (log : WarningLog) (operations reordered : List Operation),
      operations.Perm reordered →
      .clear ∉ operations →
      (∀ warning, .warn warning ∈ operations → ']' ∉ warning.component.toList) →
      (log.lines reordered).Perm (log.lines operations) ∧
        (log.lines reordered).Nodup ∧
        (∀ line,
          line ∈ log.lines operations ↔
            ∃ operation ∈ operations, ∃ warning,
              operation.warning? = some warning ∧
              warning.key ∉ log.recorded ∧ line = warning.line) ∧
        (∀ key,
          key ∈ (log.afterAll operations).recorded ↔
            key ∈ log.recorded ∨ ∃ operation ∈ operations, operation.key? = some key) ∧
        ∀ key,
          key ∈ (log.afterAll reordered).recorded ↔
            key ∈ (log.afterAll operations).recorded) ∧
    ∀ operations : List Operation,
      .clear ∉ operations →
      (∀ warning, .warn warning ∉ operations) →
      (WarningLog.empty.lines operations).length =
        (operations.filterMap Operation.banned?).dedup.length := by
  refine ⟨?_, ?_, ?_, ?_, ?_⟩
  · intro left right leftDelimited rightDelimited
    rw [Warning.key_eq_iff leftDelimited rightDelimited, Warning.eq_iff, String.toList_inj,
      String.toList_inj]
  · intro leftDialect rightDialect leftTag rightTag
    rw [← ElementContext.banWarning_eq_iff]
    exact Warning.key_eq_iff (ElementContext.delimited_banWarning _ _)
      (ElementContext.delimited_banWarning _ _)
  · intro dialect parent tag banned
    have given : ElementContext.banWarning? dialect tag =
        some (ElementContext.banWarning dialect tag) := if_pos banned
    simp only [Operation.key?, Operation.warning?, given, Option.map_some, and_self]
  · intro log operations reordered order keeps plainDelimited
    have delimited : ∀ warning ∈ warningsGiven operations, warning.Delimited :=
      fun _ member => delimited_of_mem_warningsGiven plainDelimited member
    have sameLines := WarningLog.lines_perm order keeps delimited log
    refine ⟨sameLines, ?_, fun line => ?_, WarningLog.mem_recorded_afterAll_iff keeps log,
      WarningLog.mem_recorded_afterAll_perm_iff order keeps log⟩
    · rw [sameLines.nodup_iff]
      exact WarningLog.nodup_lines keeps delimited log
    · rw [WarningLog.mem_lines_iff keeps delimited]
      simp only [warningsGiven, List.mem_filterMap]
      constructor
      · rintro ⟨warning, ⟨operation, listed, given⟩, facts⟩
        exact ⟨operation, listed, warning, given, facts⟩
      · rintro ⟨operation, listed, warning, given, facts⟩
        exact ⟨warning, ⟨operation, listed, given⟩, facts⟩
  · intro operations keeps noWarning
    rw [(lines_empty_perm keeps noWarning).length_eq, List.length_map]

/-- A warning given before and after a context with the same warning, in both orders. -/
theorem order_of_warnings_is_free_font :
    (WarningLog.empty.lines
        [.warn ⟨"Rules", "server rules ban <font>"⟩, .warn ⟨"Parser", "a] b"⟩,
          .create .server "font"]).Perm
      (WarningLog.empty.lines
        [.create .server "font", .warn ⟨"Rules", "server rules ban <font>"⟩,
          .warn ⟨"Parser", "a] b"⟩]) ∧
      Warning.key ⟨"a", "b] c"⟩ ≠ Warning.key ⟨"a b", "c"⟩ ∧
      (Operation.derive .client (ElementContext.root .client "p") "link").key? =
        some (ElementContext.banWarning .client "link").key ∧
      (WarningLog.empty.lines
        [.create .server "font", .create .client "font", .create .server "font",
          .create .server "p"]).length = 2 := by
  obtain ⟨keys, -, issued, order, count⟩ := order_of_warnings_is_free
  refine ⟨?_, ?_, (issued .client (ElementContext.root .client "p") "link" (by decide)).2, ?_⟩
  · exact (order WarningLog.empty _ _ (by decide) (by decide) (by simp)).1
  · rw [Ne, keys _ _ (by decide) (by decide)]
    decide
  · rw [count _ (by decide) (by simp)]
    decide

end TemplateMarkup
