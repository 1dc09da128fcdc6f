import Mathlib.Data.List.Induction
import TemplateMarkup.ElementContext.Making
import TemplateMarkup.Session
import TemplateMarkup.Warning.KeySet

/-!
Contract: between two clears each warning is shown once, and nothing else is shown.

Owns:
- `Operation.key?`, the key that an operation issues, and `IssuedSinceClear`, the keys that
  a list of operations issued since it cleared the log for the last time;
- what is recorded and shown after any list of operations;
- the agreement of `KeySet` with the log;
- the contexts that a session collects, on which its log has no influence.

Does not own: the tags that are banned, or warnings with the same key.

A clear forgets everything, so what is recorded is told by the operations after the last one.
The warning of a context is given before the context is made, so it makes no difference to
the log whether the context can be made.
-/

set_option autoImplicit false

namespace TemplateMarkup

/-! ## Keys -/

namespace Operation

/-- The key of the warning that an operation gives. -/
def key? (operation : Operation) : Option String :=
  operation.warning?.map Warning.key

/-- A warning is given as such, or by making a context of a banned element. -/
theorem warning?_eq_some_iff (operation : Operation) (warning : Warning) :
    operation.warning? = some warning ↔
      operation = .warn warning ∨
      ∃ dialect tag,
        (operation = .create dialect tag ∨ ∃ parent, operation = .derive dialect parent tag) ∧
        dialect.marks .banned tag = true ∧ warning = ElementContext.banWarning dialect tag := by
  cases operation with
  | warn given => simp [warning?]
  | clear => simp [warning?]
  | create dialect tag => simp [warning?, ElementContext.banWarning?_eq_some_iff]
  | derive dialect parent tag => simp [warning?, ElementContext.banWarning?_eq_some_iff]

theorem key_banWarning (dialect : Dialect) (tag : String) :
    (ElementContext.banWarning dialect tag).key =
      "[Rules] " ++ dialect.name ++ " rules ban <" ++ tag ++ ">" := by
  have label : "[" ++ "Rules" ++ "] " = "[Rules] " := by decide
  simp only [ElementContext.banWarning, Warning.key, label, String.append_assoc]

theorem key?_eq_some_iff (operation : Operation) (key : String) :
    operation.key? = some key ↔
      (∃ component message,
        operation = .warn ⟨component, message⟩ ∧
          key = "[" ++ component ++ "] " ++ message) ∨
      ∃ dialect tag,
        (operation = .create dialect tag ∨ ∃ parent, operation = .derive dialect parent tag) ∧
        dialect.marks .banned tag = true ∧
        key = "[Rules] " ++ dialect.name ++ " rules ban <" ++ tag ++ ">" := by
  unfold key?
  rw [Option.map_eq_some_iff]
  constructor
  · rintro ⟨warning, given, rfl⟩
    rcases (warning?_eq_some_iff operation warning).mp given with
      plain | ⟨dialect, tag, makes, banned, rfl⟩
    · exact Or.inl ⟨warning.component, warning.message, plain, rfl⟩
    · exact Or.inr ⟨dialect, tag, makes, banned, key_banWarning dialect tag⟩
  · rintro (⟨component, message, plain, rfl⟩ | ⟨dialect, tag, makes, banned, rfl⟩)
    · exact ⟨_, (warning?_eq_some_iff operation _).mpr (Or.inl plain), rfl⟩
    · refine ⟨_, (warning?_eq_some_iff operation _).mpr (Or.inr ?_), key_banWarning dialect tag⟩
      exact ⟨dialect, tag, makes, banned, rfl⟩

end Operation

/-- Some operation of the list issued the key, and none after it cleared the log. -/
def IssuedSinceClear (history : List Operation) (key : String) : Prop :=
  ∃ earlier operation later,
    history = earlier ++ operation :: later ∧
      operation.key? = some key ∧ .clear ∉ later

theorem not_issuedSinceClear_nil (key : String) : ¬ IssuedSinceClear [] key := by
  rintro ⟨earlier, operation, later, split, -, -⟩
  simp at split

theorem issuedSinceClear_append_singleton
    (history : List Operation)
    (last : Operation)
    (key : String) :
    IssuedSinceClear (history ++ [last]) key ↔
      last.key? = some key ∨ last ≠ .clear ∧ IssuedSinceClear history key := by
  constructor
  · rintro ⟨earlier, operation, later, split, issues, kept⟩
    rcases List.eq_nil_or_concat later with rfl | ⟨between, final, rfl⟩
    · obtain ⟨-, rfl⟩ := List.append_singleton_inj.mp split
      exact Or.inl issues
    · rw [List.concat_eq_append] at split kept
      have aligned : history ++ [last] = (earlier ++ operation :: between) ++ [final] := by
        rw [split, List.append_assoc, List.cons_append]
      obtain ⟨rfl, rfl⟩ := List.append_singleton_inj.mp aligned
      rw [List.mem_append, not_or, List.mem_singleton] at kept
      exact Or.inr ⟨Ne.symm kept.2, earlier, operation, between, rfl, issues, kept.1⟩
  · rintro (issues | ⟨keeps, earlier, operation, later, rfl, issues, kept⟩)
    · exact ⟨history, last, [], rfl, issues, List.not_mem_nil⟩
    · refine ⟨earlier, operation, later ++ [last], ?_, issues, ?_⟩
      · rw [List.append_assoc, List.cons_append]
      · rw [List.mem_append, not_or, List.mem_singleton]
        exact ⟨kept, Ne.symm keeps⟩

/-! ## The log after a list of operations -/

namespace WarningLog

variable {log : WarningLog}

theorem afterAll_append_singleton
    (log : WarningLog)
    (history : List Operation)
    (last : Operation) :
    log.afterAll (history ++ [last]) = last.apply (log.afterAll history) := by
  rw [afterAll, final_append]
  rfl

/-- What was recorded at the start is still so if nothing cleared the log. -/
theorem mem_recorded_afterAll
    (log : WarningLog)
    (history : List Operation)
    (key : String) :
    key ∈ (log.afterAll history).recorded ↔
      IssuedSinceClear history key ∨ .clear ∉ history ∧ key ∈ log.recorded := by
  induction history using List.reverseRecOn with
  | nil => simp [afterAll, not_issuedSinceClear_nil]
  | append_singleton front last inductionHypothesis =>
      rw [afterAll_append_singleton, issuedSinceClear_append_singleton]
      by_cases clears : last = .clear
      · subst clears
        simp [Operation.apply, Operation.key?, Operation.warning?]
      · rw [Operation.mem_recorded_apply clears, inductionHypothesis, List.mem_append, not_or,
          List.mem_singleton]
        have keeps : ¬ Operation.clear = last := Ne.symm clears
        unfold Operation.key?
        tauto

theorem mem_recorded_afterAll_empty (history : List Operation) (key : String) :
    key ∈ (empty.afterAll history).recorded ↔ IssuedSinceClear history key := by
  rw [mem_recorded_afterAll]
  simp [empty]

theorem lines_append_cons
    (log : WarningLog)
    (earlier later : List Operation)
    (operation : Operation) :
    log.lines (earlier ++ operation :: later) =
      log.lines earlier ++ (operation.shown? (log.afterAll earlier)).toList ++
        (log.afterAll (earlier ++ [operation])).lines later := by
  rw [lines_append, lines, afterAll_append_singleton, List.append_assoc]

end WarningLog

/-! ## A record that is made on its first use -/

namespace KeySet

/-- The set holds the keys that the log has recorded. -/
def Holds (set : KeySet) (log : WarningLog) : Prop :=
  ∀ key, key ∈ set.keys ↔ key ∈ log.recorded

variable {set : KeySet} {log : WarningLog}

/-- One operation shows the same line and records the same key in both. -/
theorem Holds.perform (holds : Holds set log) (operation : Operation) :
    (set.perform operation).1 = operation.shown? log ∧
      Holds (set.perform operation).2 (operation.apply log) := by
  by_cases clears : operation = .clear
  · subst clears
    refine ⟨rfl, fun key => ?_⟩
    show key ∈ set.clear.keys ↔ key ∈ log.clear.recorded
    simp [keys_clear]
  · cases given : operation.warning? with
    | none =>
        rw [perform_of_warning?_eq_none clears given]
        refine ⟨by simp [Operation.shown?, given], fun key => ?_⟩
        rw [Operation.mem_recorded_apply clears, given]
        simpa using holds key
    | some warning =>
        rw [perform_of_warning?_eq_some given]
        refine ⟨?_, fun key => ?_⟩
        · have known := (holds warning.key).trans (log.knows_iff warning).symm
          simp only [Operation.shown?, given, Option.bind_some, WarningLog.lineFor?, known]
          cases log.knows warning <;> rfl
        · rw [Operation.mem_recorded_apply clears, given]
          show key ∈ insert warning.key set.keys ↔ _
          rw [Finset.mem_insert, holds key, Option.map_some, Option.some.injEq, eq_comm]

theorem Holds.afterAll (holds : Holds set log) (operations : List Operation) :
    Holds (set.afterAll operations) (log.afterAll operations) := by
  induction operations generalizing set log with
  | nil => exact holds
  | cons operation rest inductionHypothesis =>
      exact inductionHypothesis (holds.perform operation).2

theorem holds_unused : Holds unused WarningLog.empty := by
  intro key
  simp [unused, keys, WarningLog.empty]

end KeySet

/-! ## The contexts of a session -/

/-- The context that an operation makes, if it makes one. -/
def Operation.made? (operation : Operation) : Option ElementContext :=
  operation.context?.bind Except.toOption

namespace Session

theorem contexts_perform (session : Session) (operation : Operation) :
    (session.perform operation).contexts.toList =
      session.contexts.toList ++ operation.made?.toList := by
  unfold perform Operation.made?
  cases operation.context? with
  | none => simp
  | some made =>
      cases made with
      | error reason => simp [Except.toOption]
      | ok context => simp [addContext, Except.toOption]

/-- A session collects the contexts of its operations in order, whatever its log holds. -/
theorem contexts_performAll (session : Session) (operations : List Operation) :
    (final perform session operations).contexts.toList =
      session.contexts.toList ++ operations.filterMap Operation.made? := by
  induction operations generalizing session with
  | nil => simp
  | cons operation rest inductionHypothesis =>
      rw [final_cons, inductionHypothesis, contexts_perform, List.filterMap_cons,
        List.append_assoc]
      cases operation.made? <;> rfl

theorem log_performAll (session : Session) (operations : List Operation) :
    (final perform session operations).log = session.log.afterAll operations := by
  induction operations generalizing session with
  | nil => rfl
  | cons operation rest inductionHypothesis =>
      rw [final_cons, inductionHypothesis, log_perform]
      rfl

end Session

/-! ## Deduplication -/

/-- After any operations on a log in which nothing was shown yet, an operation shows a line
exactly if it issues a key that was not issued since the last clear, and the line is that of
its own warning. The log then holds exactly the keys issued since the last clear. A record
that is made on its first use shows and holds the same. Whatever is recorded and shown, the
making of a context makes the same context, which is the one that a session collects, and has
no effect but that of its operation. -/
theorem shown_once_between_clears (earlier later : List Operation) (operation : Operation) :
    (∀ line,
      operation.shown? (WarningLog.empty.afterAll earlier) = some line ↔
        ∃ component message,
          operation.warning? = some ⟨component, message⟩ ∧
          ¬ IssuedSinceClear earlier ("[" ++ component ++ "] " ++ message) ∧
          line = "\x1b[33m[Coyote " ++ component ++ "] ⚠ " ++ message ++ "\x1b[0m\n") ∧
    (∀ component message,
      operation.warning? = some ⟨component, message⟩ ↔
        operation = .warn ⟨component, message⟩ ∨
        ∃ dialect tag,
          (operation = .create dialect tag ∨
            ∃ parent, operation = .derive dialect parent tag) ∧
          dialect.marks .banned tag = true ∧
          component = "Rules" ∧ message = dialect.name ++ " rules ban <" ++ tag ++ ">") ∧
    (∀ key,
      operation.key? = some key ↔
        (∃ component message,
          operation = .warn ⟨component, message⟩ ∧
            key = "[" ++ component ++ "] " ++ message) ∨
        ∃ dialect tag,
          (operation = .create dialect tag ∨
            ∃ parent, operation = .derive dialect parent tag) ∧
          dialect.marks .banned tag = true ∧
          key = "[Rules] " ++ dialect.name ++ " rules ban <" ++ tag ++ ">") ∧
    WarningLog.empty.lines (earlier ++ operation :: later) =
      WarningLog.empty.lines earlier ++
        (operation.shown? (WarningLog.empty.afterAll earlier)).toList ++
        (WarningLog.empty.afterAll (earlier ++ [operation])).lines later ∧
    (∀ key,
      key ∈ (WarningLog.empty.afterAll (earlier ++ [operation])).recorded ↔
        IssuedSinceClear (earlier ++ [operation]) key) ∧
    ((KeySet.unused.afterAll earlier).perform operation).1 =
      operation.shown? (WarningLog.empty.afterAll earlier) ∧
    (∀ key,
      key ∈ (KeySet.unused.afterAll (earlier ++ [operation])).keys ↔
        IssuedSinceClear (earlier ++ [operation]) key) ∧
    (∀ (console : Console) (dialect : Dialect) (parent : ElementContext) (tag : String),
      (Making.root dialect tag).runOn console =
        (.ok (ElementContext.root dialect tag), console.after (.create dialect tag)) ∧
      (Making.child dialect parent tag).runOn console =
        (ElementContext.child dialect parent tag, console.after (.derive dialect parent tag)) ∧
      (Operation.create dialect tag).context? =
        some ((Making.root dialect tag).runOn console).1 ∧
      (Operation.derive dialect parent tag).context? =
        some ((Making.child dialect parent tag).runOn console).1) ∧
    ∀ session : Session,
      (final Session.perform session (earlier ++ operation :: later)).log =
        session.log.afterAll (earlier ++ operation :: later) ∧
      (final Session.perform session (earlier ++ operation :: later)).contexts.toList =
        session.contexts.toList ++
          (earlier.filterMap Operation.made? ++ operation.made?.toList ++
            later.filterMap Operation.made?) := by
  have holds := KeySet.holds_unused.afterAll earlier
  have holdsAfter := KeySet.holds_unused.afterAll (earlier ++ [operation])
  refine ⟨fun line => ?_, fun component message => ?_, operation.key?_eq_some_iff,
    WarningLog.empty.lines_append_cons earlier later operation,
    WarningLog.mem_recorded_afterAll_empty _, (holds.perform operation).1, fun key => ?_,
    fun console dialect parent tag => ?_, fun session => ⟨session.log_performAll _, ?_⟩⟩
  · rw [Operation.shown?_eq_some_iff]
    simp only [WarningLog.mem_recorded_afterAll_empty]
    constructor
    · rintro ⟨warning, given, isNew, rfl⟩
      exact ⟨warning.component, warning.message, given, isNew, rfl⟩
    · rintro ⟨component, message, given, isNew, rfl⟩
      exact ⟨_, given, isNew, rfl⟩
  · rw [Operation.warning?_eq_some_iff]
    simp only [ElementContext.banWarning, Warning.mk.injEq]
  · rw [holdsAfter key, WarningLog.mem_recorded_afterAll_empty]
  · have rooted := Making.runOn_root dialect tag console
    have derived := Making.runOn_child dialect parent tag console
    rw [rooted, derived]
    exact ⟨rfl, rfl, rfl, rfl⟩
  · rw [session.contexts_performAll, List.filterMap_append, List.filterMap_cons]
    cases operation.made? <;> simp

end TemplateMarkup
