import Mathlib.Tactic

/-!
A first-in first-out list of a bounded length.

A history lists the calls, newest first.
-/

namespace Tpt

universe u

inductive FifoCall (Value : Type u) where
  | add (value : Value)
  | delete
  deriving DecidableEq

variable {Value : Type u}

namespace FifoCall

/-- What a call does to the list; there is no room for more than `capacity`. -/
def apply (capacity : Nat) : FifoCall Value → List Value → List Value
  | add value, values => if values.length < capacity then values ++ [value] else values
  | delete, values => values.tail

def taken : FifoCall Value → List Value → Option Value
  | add _, _ => none
  | delete, values => values.head?

end FifoCall

def fifo (capacity : Nat) (history : List (FifoCall Value)) : List Value :=
  history.foldr (FifoCall.apply capacity) []

/-- The history in which these values are added, the first of them first. -/
def addAll : List Value → List (FifoCall Value) → List (FifoCall Value)
  | [], history => history
  | value :: values, history => addAll values (.add value :: history)

theorem fifo_addAll
    {capacity : Nat} {values : List Value} {history : List (FifoCall Value)}
    (room : (fifo capacity history).length + values.length ≤ capacity) :
    fifo capacity (addAll values history) = fifo capacity history ++ values := by
  induction values generalizing history with
  | nil => rw [addAll, List.append_nil]
  | cons value values inductionHypothesis =>
      rw [List.length_cons] at room
      have roomHere : (fifo capacity history).length < capacity := by omega
      have added : fifo capacity (.add value :: history) = fifo capacity history ++ [value] :=
        if_pos roomHere
      have roomAfter :
          (fifo capacity (.add value :: history)).length + values.length ≤ capacity := by
        rw [added, List.length_append, List.length_singleton]
        omega
      rw [addAll, inductionHypothesis roomAfter, added, List.append_assoc]
      rfl

end Tpt
