/-!
Finite runs of a labelled transition system.

A history lists the events of a run, newest first.
-/

namespace Tpt

universe u v

/-- The runs from an initial state, with their histories. -/
inductive Trace {State : Type u} {Event : Type v}
    (initial : State → Prop) (step : State → Event → State → Prop) :
    List Event → State → Prop where
  | start {state} : initial state → Trace initial step [] state
  | next {history state event after} :
      Trace initial step history state →
      step state event after →
      Trace initial step (event :: history) after

namespace Trace

variable {State : Type u} {Event : Type v}
variable {initial : State → Prop} {step : State → Event → State → Prop}
variable {history : List Event} {state : State}

/-- A relation between histories and states that holds at the start and is
kept by every step holds of every run. -/
theorem invariant
    (Invariant : List Event → State → Prop)
    (starts : ∀ {state}, initial state → Invariant [] state)
    (kept : ∀ {history state event after}, Invariant history state →
      step state event after → Invariant (event :: history) after)
    (trace : Trace initial step history state) : Invariant history state := by
  induction trace with
  | start begins => exact starts begins
  | next _ stepped inductionHypothesis => exact kept inductionHypothesis stepped

theorem imp
    {other : State → Event → State → Prop}
    (weaker : ∀ {state event after}, step state event after → other state event after)
    (trace : Trace initial step history state) : Trace initial other history state := by
  induction trace with
  | start begins => exact .start begins
  | next _ stepped inductionHypothesis => exact .next inductionHypothesis (weaker stepped)

end Trace

section Replay

variable {State : Type u} {Event : Type v} (step : State → Event → Option State)

/-- Take the steps of a history, its oldest event first. -/
def replay : List Event → State → Option State
  | [], state => some state
  | event :: history, state => (replay history state).bind fun before => step before event

variable {step}

theorem Trace.of_replay
    {initial : State → Prop} {history : List Event} {state after : State}
    (begins : initial state) (replayed : replay step history state = some after) :
    Trace initial (fun before event after => step before event = some after) history after := by
  induction history generalizing after with
  | nil =>
      obtain rfl := Option.some.inj replayed
      exact .start begins
  | cons event history inductionHypothesis =>
      obtain ⟨before, earlier, stepped⟩ := Option.bind_eq_some_iff.mp replayed
      exact .next (inductionHypothesis earlier) stepped

end Replay

end Tpt
