import Tpt.Lib.Fifo
import Tpt.Lib.Trace
import Tpt.SharedMemory.Queue

/-!
The ring is a first-in first-out list of `QUEUE_SIZE` values, with no semaphore
around its functions.
-/

namespace Tpt

namespace SharedMemory

/-- A call of `queue_add` or `queue_delete`, with the value that was deleted. -/
def queueCall (queue : Queue) : FifoCall Int → Option (Option Int × Queue)
  | .add val => (queueAdd queue val).map (Prod.mk none)
  | .delete => queueDelete queue

def QueueRun : List (FifoCall Int) → Queue → Prop :=
  Trace (fun queue => ∃ before, queue = queueInit before) fun queue call after =>
    ∃ taken, queueCall queue call = some (taken, after)

structure RefinesFifo (queue : Queue) (values : List Int) : Prop where
  capacity : values.length ≤ queueSize
  sentinels : queue.head = -1 ∧ queue.tail = -1 ↔ values = []
  indices : values ≠ [] →
    (0 ≤ queue.head ∧ queue.head < queueSize) ∧ 0 ≤ queue.tail ∧ queue.tail < queueSize
  adds : ∀ val, values.length < queueSize →
    ∃ after, queueAdd queue val = some after ∧ queuePrint after = some (values ++ [val])
  full : ∀ val, values.length = queueSize → queueAdd queue val = some queue
  deletes : ∀ value rest, values = value :: rest →
    ∃ after, queueDelete queue = some (some value, after) ∧ queuePrint after = some rest
  empty : values = [] → queueDelete queue = some (none, queue)
  prints : queuePrint queue = some values

theorem indexOf_bounds (position : Nat) :
    0 ≤ indexOf position ∧ indexOf position < queueSize := by
  have inside : position % queueSize < queueSize := Nat.mod_lt _ (by decide)
  exact ⟨Int.natCast_nonneg _, Int.ofNat_lt.mpr inside⟩

namespace Holds

variable {queue : Queue} {values : List Int}

theorem length_le (holds : Holds queue values) : values.length ≤ queueSize := by
  cases holds with
  | empty head tail => exact Nat.zero_le queueSize
  | filled start last room head tail =>
      rw [length_window]
      exact room

theorem sentinels (holds : Holds queue values) :
    queue.head = -1 ∧ queue.tail = -1 ↔ values = [] := by
  cases holds with
  | empty head tail => exact iff_of_true ⟨head, tail⟩ rfl
  | filled start last room head tail =>
      refine iff_of_false (fun ends => ?_) (List.cons_ne_nil _ _)
      exact indexOf_ne_neg_one start (head.symm.trans ends.1)

theorem indices (holds : Holds queue values) (filled : values ≠ []) :
    (0 ≤ queue.head ∧ queue.head < queueSize) ∧ 0 ≤ queue.tail ∧ queue.tail < queueSize := by
  cases holds with
  | empty head tail => exact absurd rfl filled
  | filled start last room head tail =>
      rw [head, tail]
      exact ⟨indexOf_bounds _, indexOf_bounds _⟩

theorem queueAdd_full (holds : Holds queue values) (full : values.length = queueSize)
    (val : Int) : SharedMemory.queueAdd queue val = some queue :=
  if_pos (holds.full_iff.mpr full)

theorem queueDelete_empty (holds : Holds queue values) (empty : values = []) :
    SharedMemory.queueDelete queue = some (none, queue) :=
  if_pos (holds.empty_iff.mpr empty)

theorem queueCall (holds : Holds queue values) (call : FifoCall Int) :
    ∃ after, SharedMemory.queueCall queue call = some (call.taken values, after) ∧
      Holds after (call.apply queueSize values) := by
  cases call with
  | add val =>
      rw [SharedMemory.queueCall, FifoCall.apply]
      split_ifs with room
      · obtain ⟨after, added, holdsAfter⟩ := holds.queueAdd room val
        exact ⟨after, by rw [added]; rfl, holdsAfter⟩
      · have full := Nat.le_antisymm holds.length_le (Nat.le_of_not_lt room)
        exact ⟨queue, by rw [holds.queueAdd_full full]; rfl, holds⟩
  | delete =>
      cases values with
      | nil => exact ⟨queue, holds.queueDelete_empty rfl, holds⟩
      | cons value rest => exact holds.queueDelete

theorem refinesFifo (holds : Holds queue values) : RefinesFifo queue values where
  capacity := holds.length_le
  sentinels := holds.sentinels
  indices := holds.indices
  adds val room := by
    obtain ⟨after, added, holdsAfter⟩ := holds.queueAdd room val
    exact ⟨after, added, holdsAfter.queuePrint⟩
  full val full := holds.queueAdd_full full val
  deletes value rest whole := by
    subst whole
    obtain ⟨after, deleted, holdsAfter⟩ := holds.queueDelete
    exact ⟨after, deleted, holdsAfter.queuePrint⟩
  empty := holds.queueDelete_empty
  prints := holds.queuePrint

end Holds

theorem holds_of_queueRun {history : List (FifoCall Int)} {queue : Queue}
    (run : QueueRun history queue) : Holds queue (fifo queueSize history) := by
  refine Trace.invariant (fun history queue => Holds queue (fifo queueSize history)) ?_ ?_ run
  · rintro queue ⟨before, rfl⟩
    exact holds_queueInit before
  · rintro history queue call after holds ⟨taken, called⟩
    obtain ⟨after', called', holdsAfter⟩ := holds.queueCall call
    obtain ⟨_, rfl⟩ := Prod.mk.inj (Option.some.inj (called.symm.trans called'))
    exact holdsAfter

theorem exists_queueRun (history : List (FifoCall Int)) : ∃ queue, QueueRun history queue := by
  induction history with
  | nil => exact ⟨_, .start ⟨⟨fun _ => 0, 0, 0⟩, rfl⟩⟩
  | cons call history inductionHypothesis =>
      obtain ⟨queue, run⟩ := inductionHypothesis
      obtain ⟨after, called, _⟩ := (holds_of_queueRun run).queueCall call
      exact ⟨after, .next run ⟨_, called⟩⟩

/-- After any calls of `queue_add` and `queue_delete` the ring stands for the
list that these calls make, and all its free slots can be filled. -/
theorem ring_refines_fifo {history : List (FifoCall Int)} {queue : Queue}
    (run : QueueRun history queue) :
    RefinesFifo queue (fifo queueSize history) ∧
      ∀ values, (fifo queueSize history).length + values.length ≤ queueSize →
        ∃ after, QueueRun (addAll values history) after ∧
          queuePrint after = some (fifo queueSize history ++ values) := by
  refine ⟨(holds_of_queueRun run).refinesFifo, fun values room => ?_⟩
  obtain ⟨after, filled⟩ := exists_queueRun (addAll values history)
  refine ⟨after, filled, ?_⟩
  rw [← fifo_addAll room]
  exact (holds_of_queueRun filled).queuePrint

def roundTheRing : List (FifoCall Int) := .add 5 :: .delete :: addAll [1, 2, 3, 4] []

theorem ring_refines_fifo_round :
    ∃ queue, QueueRun roundTheRing queue ∧ RefinesFifo queue [2, 3, 4, 5] := by
  obtain ⟨queue, run⟩ := exists_queueRun roundTheRing
  exact ⟨queue, run, (ring_refines_fifo run).1⟩

end SharedMemory

end Tpt
