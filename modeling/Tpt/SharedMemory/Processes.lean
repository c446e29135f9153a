import Tpt.Lib.Locals
import Tpt.Lib.Trace
import Tpt.SharedMemory.Queue

/-!
Producers and consumers around the shared ring, `shm_producer.c` and
`shm_consumer.c`, in any interleaving.

Each `sem_wait`, each `sem_post`, `queue_add` and `queue_delete` is one step,
and so is the start of a producer, which resets the ring and opens the named
semaphores with the values they have.
-/

namespace Tpt

namespace SharedMemory

universe u

/-- Where a process stands: not running, or before a statement of the producer
loop or of the consumer loop. -/
inductive Pc where
  | absent
  | produce
  | waitEmpty (val : Int)
  | lockProducer (val : Int)
  | add (val : Int)
  | unlockProducer
  | postFull
  | waitFull
  | lockConsumer
  | delete
  | unlockConsumer
  | postEmpty
  deriving DecidableEq

/-- The segment, the semaphores and the processes, with the values given to
`queue_add` and those deleted so far. -/
structure System (Process : Type u) where
  queue : Queue
  full : Nat
  empty : Nat
  mutex : Nat
  pcs : Process → Pc
  added : List Int
  deleted : List Int

def Pc.AtTop (pc : Pc) : Prop := pc = .absent ∨ pc = .produce ∨ pc = .waitFull

instance : DecidablePred Pc.AtTop :=
  fun pc => inferInstanceAs (Decidable (pc = .absent ∨ pc = .produce ∨ pc = .waitFull))

def Pc.mayExit : Pc → Bool
  | .produce | .waitEmpty _ | .lockProducer _ | .postFull => true
  | _ => false

variable {Process : Type u}

structure Initial (system : System Process) : Prop where
  queue : ∃ queue, system.queue = queueInit queue
  full : system.full = 0
  empty : system.empty = queueSize
  mutex : system.mutex = 1
  pcs : ∀ process, (system.pcs process).AtTop
  added : system.added = []
  deleted : system.deleted = []

variable [DecidableEq Process]

def System.move (system : System Process) (process : Process) (pc : Pc) : System Process :=
  { system with pcs := Function.update system.pcs process pc }

/-- One step of a process in its loop, if it is enabled; `rand` is the value
that a producer draws. -/
def loopStep (system : System Process) (process : Process) (rand : Int) :
    Option (System Process) :=
  match system.pcs process with
  | .absent => none
  | .produce => some (system.move process (.waitEmpty rand))
  | .waitEmpty val =>
      (semWait system.empty).map fun empty =>
        { system with empty }.move process (.lockProducer val)
  | .lockProducer val =>
      (semWait system.mutex).map fun mutex => { system with mutex }.move process (.add val)
  | .add val =>
      (queueAdd system.queue val).map fun queue =>
        { system with queue, added := system.added ++ [val] }.move process .unlockProducer
  | .unlockProducer => some ({ system with mutex := semPost system.mutex }.move process .postFull)
  | .postFull => some ({ system with full := semPost system.full }.move process .produce)
  | .waitFull =>
      (semWait system.full).map fun full => { system with full }.move process .lockConsumer
  | .lockConsumer =>
      (semWait system.mutex).map fun mutex => { system with mutex }.move process .delete
  | .delete =>
      (queueDelete system.queue).map fun (value, queue) =>
        { system with queue, deleted := system.deleted ++ value.toList }.move
          process .unlockConsumer
  | .unlockConsumer => some ({ system with mutex := semPost system.mutex }.move process .postEmpty)
  | .postEmpty => some ({ system with empty := semPost system.empty }.move process .waitFull)

inductive Event (Process : Type u) where
  | loop (process : Process) (rand : Int)
  | start (process : Process)
  | exit (process : Process)

def step (system : System Process) : Event Process → Option (System Process)
  | .loop process rand => loopStep system process rand
  | .start process =>
      if system.pcs process = .absent then
        some ({ system with queue := queueInit system.queue }.move process .produce)
      else none
  | .exit process =>
      if (system.pcs process).mayExit then some (system.move process .absent) else none

def LoopRun : List (Process × Int) → System Process → Prop :=
  Trace Initial fun system event after => loopStep system event.1 event.2 = some after

def Run : List (Event Process) → System Process → Prop :=
  Trace Initial fun system event after => step system event = some after

/-- One between `sem_wait(mutex)` and `sem_post(mutex)`. -/
@[simp] def Pc.locked : Pc → Nat
  | .add _ | .unlockProducer | .delete | .unlockConsumer => 1
  | _ => 0

/-- Elements of the ring that a process has yet to post to `full`, or has
taken from `full` and not yet deleted. -/
@[simp] def Pc.filled : Pc → Nat
  | .unlockProducer | .postFull | .lockConsumer | .delete => 1
  | _ => 0

/-- Free places that a process has taken from `empty` and not yet used, or has
made and not yet posted to `empty`. -/
@[simp] def Pc.emptied : Pc → Nat
  | .lockProducer _ | .add _ | .unlockConsumer | .postEmpty => 1
  | _ => 0

section Agreement

variable [Fintype Process]

structure Agrees (system : System Process) (contents : List Int) : Prop where
  holds : Holds system.queue contents
  mutex : system.mutex + total Pc.locked system.pcs = 1
  full : system.full + total Pc.filled system.pcs = contents.length
  empty : system.empty + total Pc.emptied system.pcs + contents.length ≤ queueSize
  log : system.deleted ++ contents = system.added

omit [DecidableEq Process] in
theorem Agrees.initial {system : System Process} (begins : Initial system) :
    Agrees system [] := by
  obtain ⟨queue, reset⟩ := begins.queue
  have none_at_work : ∀ measure : Pc → Nat, measure .absent = 0 → measure .produce = 0 →
      measure .waitFull = 0 → total measure system.pcs = 0 := by
    intro measure absent produce waitFull
    apply Finset.sum_eq_zero
    intro process _
    rcases begins.pcs process with place | place | place
    · rw [place, absent]
    · rw [place, produce]
    · rw [place, waitFull]
  refine ⟨?_, ?_, ?_, ?_, ?_⟩
  · rw [reset]
    exact holds_queueInit queue
  · rw [begins.mutex, none_at_work _ rfl rfl rfl]
  · rw [begins.full, none_at_work _ rfl rfl rfl]
    rfl
  · rw [begins.empty, none_at_work _ rfl rfl rfl]
    exact Nat.le_refl _
  · rw [begins.added, begins.deleted]
    rfl

theorem Agrees.moves
    {system after : System Process} {contents left : List Int} {process : Process} {pc : Pc}
    (agrees : Agrees system contents)
    (pcs : after.pcs = Function.update system.pcs process pc)
    (holds : Holds after.queue left)
    (mutex : after.mutex + pc.locked = system.mutex + (system.pcs process).locked)
    (full : after.full + pc.filled + contents.length =
      system.full + (system.pcs process).filled + left.length)
    (empty : after.empty + pc.emptied + left.length ≤
      system.empty + (system.pcs process).emptied + contents.length)
    (log : after.deleted ++ left = after.added) : Agrees after left := by
  have locked := total_update Pc.locked system.pcs process pc
  have filled := total_update Pc.filled system.pcs process pc
  have emptied := total_update Pc.emptied system.pcs process pc
  have mutexBefore := agrees.mutex
  have fullBefore := agrees.full
  have emptyBefore := agrees.empty
  refine ⟨holds, ?_, ?_, ?_, log⟩
  · rw [pcs]
    omega
  · rw [pcs]
    omega
  · rw [pcs]
    omega

section Steps

variable {system after : System Process} {contents : List Int} {process : Process} {rand : Int}

omit [DecidableEq Process] in
theorem Agrees.not_full
    (agrees : Agrees system contents) {val : Int} (place : system.pcs process = .add val) :
    contents.length < queueSize := by
  have claimed := single_le_total Pc.emptied system.pcs process
  have empty := agrees.empty
  rw [place, Pc.emptied] at claimed
  omega

omit [DecidableEq Process] in
theorem Agrees.not_empty
    (agrees : Agrees system contents) (place : system.pcs process = .delete) :
    contents ≠ [] := by
  have claimed := single_le_total Pc.filled system.pcs process
  have full := agrees.full
  rw [place, Pc.filled] at claimed
  rintro rfl
  rw [List.length_nil] at full
  omega

theorem Agrees.loopStep
    (agrees : Agrees system contents)
    (stepped : SharedMemory.loopStep system process rand = some after) :
    ∃ left, Agrees after left := by
  unfold SharedMemory.loopStep at stepped
  cases place : system.pcs process with
  | absent => simp [place] at stepped
  | produce =>
      simp only [place, Option.some.injEq] at stepped
      subst stepped
      refine ⟨contents, agrees.moves rfl agrees.holds ?_ ?_ ?_ agrees.log⟩ <;>
        simp [place, System.move]
  | waitEmpty val =>
      simp only [place, Option.map_eq_some_iff, semWait_eq_some] at stepped
      obtain ⟨empty, positive, rfl⟩ := stepped
      refine ⟨contents, agrees.moves rfl agrees.holds ?_ ?_ ?_ agrees.log⟩ <;>
        simp [place, positive, System.move]
  | lockProducer val =>
      simp only [place, Option.map_eq_some_iff, semWait_eq_some] at stepped
      obtain ⟨mutex, positive, rfl⟩ := stepped
      refine ⟨contents, agrees.moves rfl agrees.holds ?_ ?_ ?_ agrees.log⟩ <;>
        simp [place, positive, System.move]
  | add val =>
      simp only [place, Option.map_eq_some_iff] at stepped
      obtain ⟨queue, called, rfl⟩ := stepped
      obtain ⟨extended, added, holds⟩ := agrees.holds.queueAdd (agrees.not_full place) val
      obtain rfl := Option.some.inj (added.symm.trans called)
      have log : system.deleted ++ (contents ++ [val]) = system.added ++ [val] := by
        rw [← List.append_assoc, agrees.log]
      refine ⟨contents ++ [val], agrees.moves rfl holds ?_ ?_ ?_ log⟩ <;>
        simp [place, System.move] <;> omega
  | unlockProducer =>
      simp only [place, Option.some.injEq] at stepped
      subst stepped
      refine ⟨contents, agrees.moves rfl agrees.holds ?_ ?_ ?_ agrees.log⟩ <;>
        simp [place, semPost, System.move]
  | postFull =>
      simp only [place, Option.some.injEq] at stepped
      subst stepped
      refine ⟨contents, agrees.moves rfl agrees.holds ?_ ?_ ?_ agrees.log⟩ <;>
        simp [place, semPost, System.move]
  | waitFull =>
      simp only [place, Option.map_eq_some_iff, semWait_eq_some] at stepped
      obtain ⟨full, positive, rfl⟩ := stepped
      refine ⟨contents, agrees.moves rfl agrees.holds ?_ ?_ ?_ agrees.log⟩ <;>
        simp [place, positive, System.move]
  | lockConsumer =>
      simp only [place, Option.map_eq_some_iff, semWait_eq_some] at stepped
      obtain ⟨mutex, positive, rfl⟩ := stepped
      refine ⟨contents, agrees.moves rfl agrees.holds ?_ ?_ ?_ agrees.log⟩ <;>
        simp [place, positive, System.move]
  | delete =>
      simp only [place, Option.map_eq_some_iff] at stepped
      obtain ⟨⟨value, queue⟩, called, rfl⟩ := stepped
      obtain ⟨first, left, rfl⟩ := List.exists_cons_of_ne_nil (agrees.not_empty place)
      obtain ⟨shortened, deleted, holds⟩ := agrees.holds.queueDelete
      obtain ⟨rfl, rfl⟩ := Prod.mk.inj (Option.some.inj (deleted.symm.trans called))
      have log : system.deleted ++ [first] ++ left = system.added := by
        rw [List.append_assoc]
        exact agrees.log
      refine ⟨left, agrees.moves rfl holds ?_ ?_ ?_ log⟩ <;>
        simp [place, System.move] <;> omega
  | unlockConsumer =>
      simp only [place, Option.some.injEq] at stepped
      subst stepped
      refine ⟨contents, agrees.moves rfl agrees.holds ?_ ?_ ?_ agrees.log⟩ <;>
        simp [place, semPost, System.move]
  | postEmpty =>
      simp only [place, Option.some.injEq] at stepped
      subst stepped
      refine ⟨contents, agrees.moves rfl agrees.holds ?_ ?_ ?_ agrees.log⟩ <;>
        simp [place, semPost, System.move]

theorem agrees_of_loopRun {history : List (Process × Int)} (run : LoopRun history system) :
    ∃ contents, Agrees system contents := by
  refine Trace.invariant (fun _ system => ∃ contents, Agrees system contents) ?_ ?_ run
  · intro state begins
    exact ⟨[], Agrees.initial begins⟩
  · rintro history state event after ⟨contents, agrees⟩ stepped
    exact agrees.loopStep stepped

omit [DecidableEq Process] in
theorem Agrees.one_inside (agrees : Agrees system contents) :
    (Finset.univ.filter fun process => (system.pcs process).locked = 1).card ≤ 1 := by
  have counted : total Pc.locked system.pcs =
      (Finset.univ.filter fun process => (system.pcs process).locked = 1).card := by
    rw [Finset.card_filter]
    apply Finset.sum_congr rfl
    intro process _
    cases system.pcs process <;> rfl
  have mutex := agrees.mutex
  omega

/-- As long as all stay in their loops, the ring is never full for `queue_add`
nor empty for `queue_delete`, one process at most is in the critical section,
and what was deleted, followed by what `queue_print` prints, is what was
added. -/
theorem loops_keep_fifo {history : List (Process × Int)} (run : LoopRun history system) :
    (∀ process val, system.pcs process = .add val → ¬ system.queue.Full) ∧
    (∀ process, system.pcs process = .delete → ¬ system.queue.Empty) ∧
    (Finset.univ.filter fun process => (system.pcs process).locked = 1).card ≤ 1 ∧
    ∃ contents, queuePrint system.queue = some contents ∧
      system.deleted ++ contents = system.added := by
  obtain ⟨contents, agrees⟩ := agrees_of_loopRun run
  refine ⟨?_, ?_, agrees.one_inside, contents, agrees.holds.queuePrint, agrees.log⟩
  · intro process val place full
    exact Nat.ne_of_lt (agrees.not_full place) (agrees.holds.full_iff.mp full)
  · intro process place empty
    exact agrees.not_empty place (agrees.holds.empty_iff.mp empty)

def freshSystem (pcs : Process → Pc) : System Process :=
  { queue := queueInit { arr := fun _ => 0, head := 0, tail := 0 }
    full := 0
    empty := queueSize
    mutex := 1
    pcs
    added := []
    deleted := [] }

omit [DecidableEq Process] [Fintype Process] in
theorem initial_freshSystem {pcs : Process → Pc} (top : ∀ process, (pcs process).AtTop) :
    Initial (freshSystem pcs) :=
  ⟨⟨_, rfl⟩, rfl, rfl, rfl, top, rfl, rfl⟩

/-- A producer adds 7 and 8 while a consumer takes the 7; newest step first. -/
def twoValues : List (Bool × Int) :=
  [(true, 0), (false, 0), (false, 0), (false, 0), (true, 0), (true, 0), (true, 0), (true, 0),
    (true, 8), (false, 0), (true, 0), (true, 0), (true, 0), (true, 0), (true, 0), (true, 7)]

theorem loops_keep_fifo_two_values :
    ∃ system : System Bool, LoopRun twoValues system ∧ system.added = [7, 8] ∧
      system.deleted = [7] ∧ queuePrint system.queue = some [8] := by
  have begins : Initial (freshSystem fun producer : Bool =>
      cond producer Pc.produce Pc.waitFull) := initial_freshSystem (by decide)
  obtain ⟨system, replayed, logs⟩ := Option.map_eq_some_iff.mp
    (by decide : (replay (fun system event => loopStep system event.1 event.2) twoValues
        (freshSystem fun producer : Bool => cond producer Pc.produce Pc.waitFull)).map
      (fun system => (system.added, system.deleted)) = some ([7, 8], [7]))
  obtain ⟨added, deleted⟩ := Prod.mk.inj logs
  have run : LoopRun twoValues system := Trace.of_replay begins replayed
  obtain ⟨contents, printed, log⟩ := (loops_keep_fifo run).2.2.2
  rw [added, deleted] at log
  obtain rfl : contents = [8] := List.append_cancel_left log
  exact ⟨system, run, added, deleted, printed⟩

end Steps

end Agreement

end SharedMemory

end Tpt
