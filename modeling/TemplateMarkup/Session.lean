import TemplateMarkup.Operation
import TemplateMarkup.RawText.Scanner

/-!
Contract: a sequence of steps that share contexts, scanners and one warning log.

Owns:
- `Reference`, the naming of an earlier context or scanner;
- `Session` and the steps on it.

Does not own: the meaning of the single steps, or the reading of step descriptions.

Members are only ever added, so a reference that was good stays good. A step that fails
adds nothing.
-/

set_option autoImplicit false

namespace TemplateMarkup

universe u

/-- The naming of a member of a growing list. -/
inductive Reference where
  /-- The member added last. -/
  | latest
  /-- The member at a place, counted from 0. -/
  | place (index : Nat)
deriving DecidableEq, Repr

namespace Reference

/-- The place that a reference asks for in a list of the given size. -/
def index (size : Nat) : Reference → Nat
  | .latest => size - 1
  | .place index => index

/-- The place that a reference names in a list of the given size, if it has that
place. -/
def resolve (reference : Reference) (size : Nat) : Option Nat :=
  if reference.index size < size then some (reference.index size) else none

/-- The member that a reference names. -/
def find? {Member : Type u} (reference : Reference) (members : Array Member) :
    Option Member :=
  (reference.resolve members.size).bind fun index => members[index]?

end Reference

/-- The contexts and scanners made so far, and the warnings shown. -/
structure Session where
  contexts : Array ElementContext
  scanners : Array Scanner
  log : WarningLog
deriving DecidableEq, Repr

namespace Session

/-- The session in which nothing was done yet. -/
def empty : Session where
  contexts := #[]
  scanners := #[]
  log := WarningLog.empty

/-- Add a context as it is. -/
def addContext (session : Session) (context : ElementContext) : Session :=
  { session with contexts := session.contexts.push context }

/-- Do an operation: its warning goes to the log, and its context, if it makes one, is
added. -/
def perform (session : Session) (operation : Operation) : Session :=
  let logged := { session with log := operation.apply session.log }
  match operation.context? with
  | some (.ok context) => logged.addContext context
  | some (.error _) | none => logged

/-- Add a scanner. -/
def addScanner (session : Session) (scanner : Scanner) : Session :=
  { session with scanners := session.scanners.push scanner }

/-- Put a scanner at a place that has one. -/
def replaceScanner (session : Session) (index : Nat) (scanner : Scanner) : Session :=
  { session with scanners := session.scanners.setIfInBounds index scanner }

/-- Read a text with the scanner that a reference names. The scanner after each
character is returned with the session. -/
def feedScanner (session : Session) (reference : Reference) (characters : List Char) :
    Option (List Scanner × Session) := do
  let index ← reference.resolve session.scanners.size
  let scanner ← session.scanners[index]?
  pure (scanner.run characters,
    session.replaceScanner index (scanner.feed characters))

@[simp] theorem log_perform (session : Session) (operation : Operation) :
    (session.perform operation).log = operation.apply session.log := by
  unfold perform
  split <;> rfl

end Session

end TemplateMarkup
