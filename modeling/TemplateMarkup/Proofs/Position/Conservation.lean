import Mathlib.Data.List.Chain
import TemplateMarkup.Position.Level

/-!
Contract: every tag and every injection that is opened is ended once, or is still open at the
end of the text.

Owns:
- the steps of a walk, and the balance and alternation of those that cross the border of a
  region;
- which steps cross the borders of the insides of tags and of injections.

Does not own: the shapes of tags and injections.

Over any region, a walk leaves as often as it enters, up to where it starts and ends. What
the transition table adds is which steps cross: a tag is entered from the document level
alone, and it is left for its end or for an injection among its attributes.
-/

set_option autoImplicit false

namespace TemplateMarkup.Position

open TemplateMarkup.Text

/-! ## Steps across the border of a region -/

/-- The steps of a walk, each with the place before it and the place after it. -/
def steps (position : Position) (characters : List Char) : List (Position × Position) :=
  (position :: position.walk characters).zip (position.walk characters)

/-- What a step does to a tag or an injection. -/
inductive Event where
  | opened
  | ended
deriving DecidableEq, Repr

/-- The event of a step that enters or leaves a region. -/
def crossing? (region : Position → Bool) (step : Position × Position) : Option Event :=
  if region step.1 = region step.2 then none
  else if region step.2 then some .opened
  else some .ended

@[simp] theorem steps_cons (position : Position) (character : Char) (rest : List Char) :
    position.steps (character :: rest) =
      (position, position.next character) :: (position.next character).steps rest := rfl

theorem exists_next_of_mem_steps
    {position : Position}
    {characters : List Char}
    {step : Position × Position}
    (member : step ∈ position.steps characters) :
    ∃ before character, step = (before, before.next character) := by
  induction characters generalizing position with
  | nil => cases member
  | cons character rest inductionHypothesis =>
      rcases List.mem_cons.mp member with first | later
      · exact ⟨position, character, first⟩
      · exact inductionHypothesis later

theorem map_snd_steps (position : Position) (characters : List Char) :
    (position.steps characters).map Prod.snd = position.walk characters :=
  List.map_snd_zip (by simp)

theorem countP_steps_snd
    (test : Position → Bool)
    (position : Position)
    (characters : List Char) :
    (position.steps characters).countP (fun step => test step.2) =
      (position.walk characters).countP test := by
  rw [← map_snd_steps, List.countP_map]
  rfl

section Region

variable (region : Position → Bool)

/-- A walk enters a region as often as it leaves it, up to where it starts and ends. -/
theorem count_crossings (position : Position) (characters : List Char) :
    ((position.steps characters).filterMap (crossing? region)).count .opened +
        (region position).toNat =
      ((position.steps characters).filterMap (crossing? region)).count .ended +
        (region (position.after characters)).toNat := by
  induction characters generalizing position with
  | nil => rfl
  | cons character rest inductionHypothesis =>
      have later := inductionHypothesis (position.next character)
      rw [after_cons, steps_cons, List.filterMap_cons]
      cases before : region position <;> cases now : region (position.next character) <;>
        simp [crossing?, before, now] at later ⊢ <;> omega

/-- Between two entries a region is left, and between two exits it is entered. -/
theorem isChain_crossings (position : Position) (characters : List Char) :
    List.IsChain (· ≠ ·)
      ((if region position then .opened else .ended) ::
        (position.steps characters).filterMap (crossing? region)) := by
  induction characters generalizing position with
  | nil => exact List.isChain_singleton _
  | cons character rest inductionHypothesis =>
      have later := inductionHypothesis (position.next character)
      rw [steps_cons, List.filterMap_cons]
      cases before : region position <;> cases now : region (position.next character) <;>
        simp [crossing?, before, now] at later ⊢ <;> exact later

end Region

/-! ## Events -/

section Events

variable {opens ends : Position × Position → Bool} {region : Position → Bool}

/-- The event of a step, by a test for openings and one for endings. -/
def event? (opens ends : Position × Position → Bool) (step : Position × Position) :
    Option Event :=
  if opens step then some .opened
  else if ends step then some .ended
  else none

theorem count_opened (opens ends : Position × Position → Bool) (all : List (Position × Position)) :
    (all.filterMap (event? opens ends)).count .opened = all.countP opens := by
  rw [List.count_filterMap]
  apply List.countP_congr
  intro step _
  rw [beq_iff_eq, event?]
  by_cases opening : opens step = true
  · simp [opening]
  · rw [if_neg opening]
    split <;> simp [opening]

theorem count_ended
    (apart : ∀ step, opens step = true → ends step = false)
    (all : List (Position × Position)) :
    (all.filterMap (event? opens ends)).count .ended = all.countP ends := by
  rw [List.count_filterMap]
  apply List.countP_congr
  intro step _
  rw [beq_iff_eq, event?]
  by_cases opening : opens step = true
  · simp [opening, apart step opening]
  · rw [if_neg opening]
    by_cases ending : ends step = true <;> simp [ending]

/-- Where the events of single steps are the crossings of a border, those of a walk balance
and take turns. -/
theorem balance_and_turns
    (apart : ∀ step, opens step = true → ends step = false)
    (crosses : ∀ before character,
      event? opens ends (before, before.next character) =
        crossing? region (before, before.next character))
    (position : Position)
    (characters : List Char) :
    (position.steps characters).countP opens + (region position).toNat =
      (position.steps characters).countP ends + (region (position.after characters)).toNat ∧
    List.IsChain (· ≠ ·)
      ((if region position then .opened else .ended) ::
        (position.steps characters).filterMap (event? opens ends)) := by
  have sameEvents :
      (position.steps characters).filterMap (event? opens ends) =
        (position.steps characters).filterMap (crossing? region) := by
    apply List.filterMap_congr
    intro step member
    obtain ⟨before, character, rfl⟩ := exists_next_of_mem_steps member
    exact crosses before character
  have balance := count_crossings region position characters
  rw [← sameEvents, count_opened, count_ended apart] at balance
  refine ⟨balance, ?_⟩
  rw [sameEvents]
  exact isChain_crossings region position characters

end Events

/-! ## Tags -/

/-- The ends of tags: with a name or without, opening, closing or both. -/
def endsTag : Position → Bool
  | .elementClosed | .emptyElementClosed | .tailElementClosed | .fragment
  | .fragmentClosed => true
  | _ => false

/-- A step from the document level to the start of a tag. -/
def opensTag (step : Position × Position) : Bool :=
  step.1.atDocumentLevel && step.2 = .element

/-- A step to the end of a tag, or to an injection among its attributes, after which nothing
of the tag is read. -/
def leavesTag (step : Position × Position) : Bool :=
  step.2.endsTag || step.2 = .attrMapInjection

theorem leavesTag_of_opensTag (step : Position × Position) (opens : opensTag step = true) :
    leavesTag step = false := by
  have now : step.2 = .element := by
    simpa using (Bool.and_eq_true_iff.mp opens).2
  rw [leavesTag, now]
  rfl

theorem tagEvent_eq_crossing? (position : Position) (character : Char) :
    event? opensTag leavesTag (position, position.next character) =
      crossing? inTag (position, position.next character) := by
  unfold next
  cases position <;> cases CharKind.of character <;> rfl

theorem countP_endsTag_or (places : List Position) :
    (places.countP fun place => place.endsTag || place = .attrMapInjection) =
      places.countP endsTag + places.count .attrMapInjection := by
  induction places with
  | nil => rfl
  | cons place rest inductionHypothesis =>
      rw [List.countP_cons, List.countP_cons, List.count_cons, inductionHypothesis]
      cases place <;> simp [endsTag] <;> omega

theorem countP_leavesTag (position : Position) (characters : List Char) :
    (position.steps characters).countP leavesTag =
      (position.walk characters).countP endsTag +
        (position.walk characters).count .attrMapInjection := by
  rw [← countP_endsTag_or]
  exact countP_steps_snd (fun place => place.endsTag || place = .attrMapInjection)
    position characters

/-! ## Injections -/

def opensInjection (position : Position) : Bool :=
  position = .descendantInjection || position = .attrMapInjection

def endsInjection (position : Position) : Bool :=
  position = .injectionConfirmed

theorem endsInjection_of_opensInjection
    {position : Position}
    (opens : position.opensInjection = true) :
    position.endsInjection = false := by
  revert opens
  cases position <;> decide

theorem injectionEvent_eq_crossing? (position : Position) (character : Char) :
    event? (fun step => step.2.opensInjection) (fun step => step.2.endsInjection)
        (position, position.next character) =
      crossing? inInjection (position, position.next character) := by
  unfold next
  cases position <;> cases CharKind.of character <;> rfl

/-! ## Conservation -/

/-- Every tag that is opened is ended, at its end or by an injection among its attributes,
or the text stops inside it; and every injection that is opened is ended or the text stops
inside it. Openings and endings take turns, so nothing is ended that is not open, and nothing
is opened again before it is ended. -/
theorem tags_and_injections_conserved (text : List Char) :
    (initial.steps text).countP opensTag =
      (initial.walk text).countP endsTag + (initial.walk text).count .attrMapInjection +
        (initial.after text).inTag.toNat ∧
    (initial.walk text).countP opensInjection =
      (initial.walk text).countP endsInjection + (initial.after text).inInjection.toNat ∧
    List.IsChain (· ≠ ·)
      (.ended :: (initial.steps text).filterMap (event? opensTag leavesTag)) ∧
    List.IsChain (· ≠ ·)
      (.ended :: (initial.steps text).filterMap
        (event? (fun step => step.2.opensInjection) fun step => step.2.endsInjection)) := by
  obtain ⟨tagBalance, tagTurns⟩ :=
    balance_and_turns leavesTag_of_opensTag tagEvent_eq_crossing? initial text
  obtain ⟨injectionBalance, injectionTurns⟩ :=
    balance_and_turns (fun _ => endsInjection_of_opensInjection) injectionEvent_eq_crossing?
      initial text
  refine ⟨?_, ?_, tagTurns, injectionTurns⟩
  · rw [countP_leavesTag] at tagBalance
    exact tagBalance
  · rw [countP_steps_snd opensInjection, countP_steps_snd endsInjection] at injectionBalance
    exact injectionBalance

end TemplateMarkup.Position
