import Tpt.Lib.Ring

/-!
The ring in the shared segment, `queue_init`, `queue_add` and `queue_print` of
`shm_producer.c` and `queue_delete` of `shm_consumer.c`.

An access outside the array has no result.
-/

namespace Tpt

namespace SharedMemory

def queueSize : Nat := 4

instance : NeZero queueSize := ⟨by decide⟩

/-- `struct queue`; `head` and `tail` are -1 while the queue is empty. -/
structure Queue where
  arr : Fin queueSize → Int
  head : Int
  tail : Int

def cell? : Int → Option (Fin queueSize)
  | .ofNat index => if inside : index < queueSize then some ⟨index, inside⟩ else none
  | .negSucc _ => none

def nextIndex (index : Int) : Int := (index + 1).tmod queueSize

def queueInit (queue : Queue) : Queue := { queue with head := -1, tail := -1 }

/-- The test of `queue_add` before "Queue is full". -/
def Queue.Full (queue : Queue) : Prop := nextIndex queue.tail = queue.head

instance : DecidablePred Queue.Full :=
  fun queue => inferInstanceAs (Decidable (nextIndex queue.tail = queue.head))

/-- The test of `queue_delete` before "Queue is empty". -/
def Queue.Empty (queue : Queue) : Prop := queue.head = -1

instance : DecidablePred Queue.Empty :=
  fun queue => inferInstanceAs (Decidable (queue.head = -1))

def Queue.setTail (queue : Queue) (val : Int) : Option Queue :=
  (cell? queue.tail).map fun cell => { queue with arr := Function.update queue.arr cell val }

def queueAdd (queue : Queue) (val : Int) : Option Queue :=
  if queue.Full then some queue
  else if queue.head = -1 ∧ queue.tail = -1 then
    { queue with head := 0, tail := 0 : Queue }.setTail val
  else { queue with tail := nextIndex queue.tail : Queue }.setTail val

/-- `queue_delete`, with the value that it prints as deleted. -/
def queueDelete (queue : Queue) : Option (Option Int × Queue) :=
  if queue.Empty then some (none, queue)
  else
    (cell? queue.head).map fun cell =>
      if queue.head = queue.tail then
        (some (queue.arr cell), { queue with head := -1, tail := -1 })
      else (some (queue.arr cell), { queue with head := nextIndex queue.head })

/-- At most `fuel` turns of the loop of `queue_print`; the printed values. -/
def queuePrintLoop (queue : Queue) : Nat → Int → Option (List Int)
  | 0, _ => none
  | fuel + 1, i =>
      (cell? i).bind fun cell =>
        if i = queue.tail then some [queue.arr cell]
        else (queuePrintLoop queue fuel (nextIndex i)).map (queue.arr cell :: ·)

/-- The values that `queue_print` prints, if its loop ends within one round. -/
def queuePrint (queue : Queue) : Option (List Int) :=
  if queue.head = -1 then some [] else queuePrintLoop queue queueSize queue.head

def indexOf (position : Nat) : Int := ((position % queueSize : Nat) : Int)

@[simp] theorem cell?_indexOf (position : Nat) :
    cell? (indexOf position) = some (Fin.ofNat queueSize position) := by
  have inside : position % queueSize < queueSize := Nat.mod_lt _ (by decide)
  exact dif_pos inside

@[simp] theorem nextIndex_indexOf (position : Nat) :
    nextIndex (indexOf position) = indexOf (position + 1) := by
  have reduced : ((position % queueSize : Nat) : Int) + 1 =
      ((position % queueSize + 1 : Nat) : Int) := rfl
  rw [nextIndex, indexOf, reduced, indexOf, ← Int.ofNat_tmod, Nat.mod_add_mod]

theorem indexOf_ne_neg_one (position : Nat) : indexOf position ≠ -1 := by
  unfold indexOf
  omega

theorem indexOf_ne
    {start distance : Nat} (positive : 0 < distance) (small : distance < queueSize) :
    indexOf (start + distance) ≠ indexOf start := by
  intro same
  exact mod_add_ne positive small (Int.ofNat.inj same)

theorem indexOf_round (start : Nat) : indexOf (start + queueSize) = indexOf start := by
  rw [indexOf, indexOf, Nat.add_mod_right]

inductive Holds (queue : Queue) : List Int → Prop where
  | empty : queue.head = -1 → queue.tail = -1 → Holds queue []
  | filled (start last : Nat) : last < queueSize → queue.head = indexOf start →
      queue.tail = indexOf (start + last) → Holds queue (window queue.arr start (last + 1))

theorem holds_queueInit (queue : Queue) : Holds (queueInit queue) [] := .empty rfl rfl

namespace Holds

variable {queue : Queue} {values : List Int}

theorem empty_iff (holds : Holds queue values) : queue.Empty ↔ values = [] := by
  cases holds with
  | empty head tail => simp [Queue.Empty, head]
  | filled start last room head tail =>
      simp [Queue.Empty, head, indexOf_ne_neg_one, window]

theorem full_iff (holds : Holds queue values) : queue.Full ↔ values.length = queueSize := by
  cases holds with
  | empty head tail => simp [Queue.Full, head, tail, nextIndex, queueSize]
  | filled start last room head tail =>
      rw [Queue.Full, head, tail, nextIndex_indexOf, length_window]
      constructor
      · intro same
        by_contra short
        exact indexOf_ne (Nat.succ_pos last) (Nat.lt_of_le_of_ne room short) same
      · intro whole
        rw [Nat.add_assoc, whole, indexOf_round]

theorem queueAdd
    (holds : Holds queue values) (room : values.length < queueSize) (val : Int) :
    ∃ after, SharedMemory.queueAdd queue val = some after ∧ Holds after (values ++ [val]) := by
  have open_ : ¬ queue.Full := fun full => Nat.ne_of_lt room (holds.full_iff.mp full)
  rw [SharedMemory.queueAdd, if_neg open_]
  cases holds with
  | empty head tail =>
      refine ⟨_, by rw [if_pos ⟨head, tail⟩]; exact rfl, ?_⟩
      exact .filled 0 0 (by decide) rfl rfl
  | filled start last _ head tail =>
      rw [length_window] at room
      have used : ¬ (queue.head = -1 ∧ queue.tail = -1) := fun ends =>
        indexOf_ne_neg_one start (head.symm.trans ends.1)
      rw [if_neg used, Queue.setTail, tail, nextIndex_indexOf, cell?_indexOf]
      refine ⟨_, rfl, ?_⟩
      rw [← window_push queue.arr val room]
      exact .filled start (last + 1) room head rfl

theorem queueDelete
    {value : Int} {rest : List Int} (holds : Holds queue (value :: rest)) :
    ∃ after, SharedMemory.queueDelete queue = some (some value, after) ∧ Holds after rest := by
  have used : ¬ queue.Empty := fun empty => List.cons_ne_nil _ _ (holds.empty_iff.mp empty)
  rw [SharedMemory.queueDelete, if_neg used]
  generalize whole : value :: rest = values at holds
  cases holds with
  | empty head tail => cases whole
  | filled start last room head tail =>
      obtain ⟨rfl, rfl⟩ := List.cons.inj whole
      rw [head, cell?_indexOf]
      cases last with
      | zero =>
          have single : indexOf start = queue.tail := tail.symm
          refine ⟨_, by rw [Option.map_some, if_pos single], ?_⟩
          exact .empty rfl rfl
      | succ last =>
          have more : indexOf start ≠ queue.tail := by
            rw [tail]
            exact (indexOf_ne (Nat.succ_pos last) room).symm
          refine ⟨_, by rw [Option.map_some, if_neg more, nextIndex_indexOf], ?_⟩
          refine .filled (start + 1) last (Nat.lt_of_succ_lt room) rfl ?_
          rw [tail, Nat.add_assoc, Nat.add_comm 1 last]

end Holds

theorem queuePrintLoop_window
    {queue : Queue} {start last fuel : Nat} (room : last < queueSize)
    (tail : queue.tail = indexOf (start + last)) (enough : last < fuel) :
    queuePrintLoop queue fuel (indexOf start) = some (window queue.arr start (last + 1)) := by
  induction last generalizing start fuel with
  | zero =>
      obtain ⟨rest, rfl⟩ := Nat.exists_eq_add_one_of_ne_zero (Nat.ne_of_gt enough)
      have single : indexOf start = queue.tail := tail.symm
      rw [queuePrintLoop, cell?_indexOf, Option.bind_some, if_pos single]
      rfl
  | succ last inductionHypothesis =>
      obtain ⟨rest, rfl⟩ := Nat.exists_eq_add_one_of_ne_zero (Nat.ne_zero_of_lt enough)
      have more : indexOf start ≠ queue.tail := by
        rw [tail]
        exact (indexOf_ne (Nat.succ_pos last) room).symm
      have next : queue.tail = indexOf (start + 1 + last) := by
        rw [tail, Nat.add_assoc start 1 last, Nat.add_comm 1 last]
      rw [queuePrintLoop, cell?_indexOf, Option.bind_some, if_neg more, nextIndex_indexOf,
        inductionHypothesis (Nat.lt_of_succ_lt room) next (Nat.lt_of_succ_lt_succ enough)]
      rfl

theorem Holds.queuePrint
    {queue : Queue} {values : List Int} (holds : Holds queue values) :
    SharedMemory.queuePrint queue = some values := by
  cases holds with
  | empty head tail => rw [SharedMemory.queuePrint, if_pos head]
  | filled start last room head tail =>
      have used : queue.head ≠ -1 := by
        rw [head]
        exact indexOf_ne_neg_one start
      rw [SharedMemory.queuePrint, if_neg used, head]
      exact queuePrintLoop_window room tail room

end SharedMemory

end Tpt
