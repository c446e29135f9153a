import Tpt.Lib.Trace

/-!
Transition systems whose steps use up a measure: their runs are bounded, and
every run can be taken on to a state with no step left.
-/

namespace Tpt

universe u v

variable {State : Type u} {Event : Type v}

def Final (step : State → Event → State → Prop) (state : State) : Prop :=
  ∀ event after, ¬ step state event after

namespace Trace

variable {initial : State → Prop} {step : State → Event → State → Prop}
variable {history onward : List Event} {state after : State}

theorem append
    (trace : Trace initial step history state)
    (further : Trace (fun before => before = state) step onward after) :
    Trace initial step (onward ++ history) after := by
  induction further with
  | start same =>
      rw [same]
      exact trace
  | next _ stepped inductionHypothesis => exact .next inductionHypothesis stepped

theorem bounded
    {measure : State → Nat} {bound : Nat}
    (begins : ∀ {state}, initial state → measure state ≤ bound)
    (decreases : ∀ {state event after}, step state event after → measure after < measure state)
    (trace : Trace initial step history state) : history.length + measure state ≤ bound := by
  induction trace with
  | start first =>
      rw [List.length_nil, Nat.zero_add]
      exact begins first
  | next _ stepped inductionHypothesis =>
      have less := decreases stepped
      rw [List.length_cons]
      omega

theorem exists_final
    {measure : State → Nat}
    (decreases : ∀ {state event after}, step state event after → measure after < measure state)
    (state : State) :
    ∃ history after, Trace (fun before => before = state) step history after ∧
      Final step after := by
  induction size : measure state using Nat.strongRecOn generalizing state with
  | ind size inductionHypothesis =>
      by_cases final : Final step state
      · exact ⟨[], state, .start rfl, final⟩
      · simp only [Final, Classical.not_forall, Classical.not_not] at final
        obtain ⟨event, next, stepped⟩ := final
        obtain ⟨onward, after, further, final⟩ := inductionHypothesis (measure next)
          (size ▸ decreases stepped) next rfl
        have first : Trace (fun before => before = state) step [event] next :=
          .next (.start rfl) stepped
        exact ⟨onward ++ [event], after, first.append further, final⟩

/-- When all runs from a state are bounded, one of them ends where no step can
be taken. -/
theorem exists_final_of_bounded
    {bound : Nat} (state : State)
    (bounded : ∀ onward after, Trace (fun before => before = state) step onward after →
      onward.length ≤ bound) :
    ∃ onward after, Trace (fun before => before = state) step onward after ∧
      Final step after := by
  induction bound generalizing state with
  | zero =>
      refine ⟨[], state, .start rfl, ?_⟩
      intro event after stepped
      exact Nat.not_succ_le_zero 0 (bounded [event] after (.next (.start rfl) stepped))
  | succ bound inductionHypothesis =>
      by_cases final : Final step state
      · exact ⟨[], state, .start rfl, final⟩
      · simp only [Final, Classical.not_forall, Classical.not_not] at final
        obtain ⟨event, next, stepped⟩ := final
        have first : Trace (fun before => before = state) step [event] next :=
          .next (.start rfl) stepped
        obtain ⟨onward, after, further, final⟩ := inductionHypothesis next (by
          intro onward after further
          have long := bounded _ after (first.append further)
          rw [List.length_append, List.length_singleton] at long
          exact Nat.le_of_succ_le_succ long)
        exact ⟨onward ++ [event], after, first.append further, final⟩

end Trace

end Tpt
