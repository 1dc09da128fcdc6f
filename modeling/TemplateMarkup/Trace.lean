/-!
Contract: the run of a deterministic step function over a list of inputs.

Owns:
- `trace`, the states reached after each input;
- `final`, the state reached after the last input;
- how both behave on an appended list of inputs.

Does not own: any particular step function.
-/

set_option autoImplicit false

namespace TemplateMarkup

universe u v

variable {State : Type u} {Input : Type v}

/-- The states reached after each input, in order. The starting state is not listed. -/
def trace (step : State → Input → State) : State → List Input → List State
  | _, [] => []
  | state, input :: rest =>
      step state input :: trace step (step state input) rest

/-- The state reached once every input is consumed. -/
def final (step : State → Input → State) (state : State) (inputs : List Input) : State :=
  inputs.foldl step state

@[simp] theorem trace_cons
    (step : State → Input → State)
    (state : State)
    (input : Input)
    (rest : List Input) :
    trace step state (input :: rest) =
      step state input :: trace step (step state input) rest := rfl

@[simp] theorem final_nil (step : State → Input → State) (state : State) :
    final step state [] = state := rfl

@[simp] theorem final_cons
    (step : State → Input → State)
    (state : State)
    (input : Input)
    (rest : List Input) :
    final step state (input :: rest) = final step (step state input) rest := rfl

/-- Every input is answered by exactly one state. -/
@[simp] theorem length_trace
    (step : State → Input → State)
    (state : State)
    (inputs : List Input) :
    (trace step state inputs).length = inputs.length := by
  induction inputs generalizing state with
  | nil => rfl
  | cons input rest inductionHypothesis => simp [inductionHypothesis]

theorem final_append
    (step : State → Input → State)
    (state : State)
    (front back : List Input) :
    final step state (front ++ back) =
      final step (final step state front) back := by
  simp [final]

/-- A run over an appended list is the run over the front, then the run over the
back from where the front ended. -/
theorem trace_append
    (step : State → Input → State)
    (state : State)
    (front back : List Input) :
    trace step state (front ++ back) =
      trace step state front ++ trace step (final step state front) back := by
  induction front generalizing state with
  | nil => rfl
  | cons input rest inductionHypothesis => simp [inductionHypothesis]

section Stays

variable {step : State → Input → State} {state : State} {inputs : List Input}
variable (stays : ∀ input ∈ inputs, step state input = state)
include stays

/-- A state that no input leaves is the state after each of them. -/
theorem trace_eq_replicate :
    trace step state inputs = List.replicate inputs.length state := by
  induction inputs with
  | nil => rfl
  | cons input rest inductionHypothesis =>
      rw [List.forall_mem_cons] at stays
      rw [trace_cons, stays.1, inductionHypothesis stays.2]
      rfl

theorem final_eq_self : final step state inputs = state := by
  induction inputs with
  | nil => rfl
  | cons input rest inductionHypothesis =>
      rw [List.forall_mem_cons] at stays
      rw [final_cons, stays.1, inductionHypothesis stays.2]

end Stays

/-- The last state of a non-empty run is its final state. -/
theorem getLast?_trace
    (step : State → Input → State)
    (state : State)
    (inputs : List Input) :
    (state :: trace step state inputs).getLast? = some (final step state inputs) := by
  induction inputs generalizing state with
  | nil => rfl
  | cons input rest inductionHypothesis =>
      simpa [List.getLast?_cons_cons] using inductionHypothesis (step state input)

end TemplateMarkup
