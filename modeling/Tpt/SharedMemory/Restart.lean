import Tpt.SharedMemory.Processes

/-!
Producers that start again while the segment and the semaphores exist.

`queue_init` empties the ring without touching the semaphores, so a start is
harmless only while the ring is empty already, and a producer must not exit
between its `sem_post(mutex)` and its `sem_post(full)`.
-/

namespace Tpt

namespace SharedMemory

universe u

variable {Process : Type u} [DecidableEq Process]

/-- Nothing that was added and not deleted is missing from the ring. -/
def NothingLost (system : System Process) : Prop :=
  ∃ contents, queuePrint system.queue = some contents ∧
    system.deleted ++ contents = system.added

/-- With every running process at the top of its loop, `full` counts the
elements of the ring. -/
def FullCounts (system : System Process) : Prop :=
  (∀ process, (system.pcs process).AtTop) →
    ∃ contents, queuePrint system.queue = some contents ∧ contents.length = system.full

/-- A start finds the ring empty, and an exit leaves no post of `full` undone. -/
def Careful (system : System Process) : Event Process → Prop
  | .loop _ _ => True
  | .start _ => system.queue.Empty
  | .exit process => system.pcs process ≠ .postFull

def CarefulRun : List (Event Process) → System Process → Prop :=
  Trace Initial fun system event after => step system event = some after ∧ Careful system event

section Steps

variable [Fintype Process] {system after : System Process} {contents : List Int}

theorem Agrees.start
    {process : Process} (agrees : Agrees system contents)
    (place : system.pcs process = .absent) (empty : system.queue.Empty) :
    Agrees ({ system with queue := queueInit system.queue }.move process .produce) contents := by
  obtain rfl := agrees.holds.empty_iff.mp empty
  refine agrees.moves rfl (holds_queueInit system.queue) ?_ ?_ ?_ agrees.log <;>
    simp [place, System.move]

theorem Agrees.exit
    {process : Process} (agrees : Agrees system contents)
    (allowed : (system.pcs process).mayExit = true) (posted : system.pcs process ≠ .postFull) :
    Agrees (system.move process .absent) contents := by
  cases place : system.pcs process with
  | postFull => exact absurd place posted
  | produce =>
      refine agrees.moves rfl agrees.holds ?_ ?_ ?_ agrees.log <;> simp [place, System.move]
  | waitEmpty val =>
      refine agrees.moves rfl agrees.holds ?_ ?_ ?_ agrees.log <;> simp [place, System.move]
  | lockProducer val =>
      refine agrees.moves rfl agrees.holds ?_ ?_ ?_ agrees.log <;> simp [place, System.move]
  | _ => simp [place, Pc.mayExit] at allowed

theorem Agrees.step
    {event : Event Process} (agrees : Agrees system contents)
    (stepped : SharedMemory.step system event = some after) (careful : Careful system event) :
    ∃ left, Agrees after left := by
  cases event with
  | loop process rand => exact agrees.loopStep stepped
  | start process =>
      obtain ⟨place, moved⟩ := Option.ite_none_right_eq_some.mp stepped
      obtain rfl := Option.some.inj moved
      exact ⟨contents, agrees.start place careful⟩
  | exit process =>
      obtain ⟨allowed, moved⟩ := Option.ite_none_right_eq_some.mp stepped
      obtain rfl := Option.some.inj moved
      exact ⟨contents, agrees.exit allowed careful⟩

theorem agrees_of_carefulRun {history : List (Event Process)} (run : CarefulRun history system) :
    ∃ contents, Agrees system contents := by
  refine Trace.invariant (fun _ system => ∃ contents, Agrees system contents) ?_ ?_ run
  · intro state begins
    exact ⟨[], Agrees.initial begins⟩
  · rintro history state event after ⟨contents, agrees⟩ ⟨stepped, careful⟩
    exact agrees.step stepped careful

omit [DecidableEq Process] in
theorem Agrees.full_eq_length
    (agrees : Agrees system contents) (top : ∀ process, (system.pcs process).AtTop) :
    contents.length = system.full := by
  have idle : total Pc.filled system.pcs = 0 := by
    apply Finset.sum_eq_zero
    intro process _
    rcases top process with place | place | place <;> rw [place] <;> rfl
  rw [← agrees.full, idle, Nat.add_zero]

/-- Careful starts and exits keep the queue and its semaphore in step. -/
theorem careful_restart_keeps_queue
    {history : List (Event Process)} (run : CarefulRun history system) :
    NothingLost system ∧ FullCounts system := by
  obtain ⟨contents, agrees⟩ := agrees_of_carefulRun run
  refine ⟨⟨contents, agrees.holds.queuePrint, agrees.log⟩, ?_⟩
  intro top
  exact ⟨contents, agrees.holds.queuePrint, agrees.full_eq_length top⟩

omit [Fintype Process] in
theorem LoopRun.careful
    {history : List (Process × Int)} (run : LoopRun history system) :
    CarefulRun (history.map fun event => .loop event.1 event.2) system := by
  induction run with
  | start begins => exact .start begins
  | next _ stepped inductionHypothesis => exact .next inductionHypothesis ⟨stepped, trivial⟩

end Steps

/-- The first process adds the 5, and the last one deletes it; newest step
first. -/
def fivePasses : List (Fin 3 × Int) :=
  [(2, 0), (2, 0), (2, 0), (2, 0), (2, 0), (0, 0), (0, 0), (0, 0), (0, 0), (0, 0), (0, 5)]

/-- A value has passed when the producer exits and another one takes its place. -/
theorem careful_restart_keeps_queue_once :
    ∃ (history : List (Event (Fin 3))) (system : System (Fin 3)),
      CarefulRun (.start 1 :: .exit 0 :: history) system ∧ system.added = [5] ∧
      system.deleted = [5] ∧ NothingLost system ∧ FullCounts system := by
  have begins : Initial (freshSystem ![Pc.produce, Pc.absent, Pc.waitFull]) :=
    initial_freshSystem (by decide)
  obtain ⟨system, replayed, facts⟩ := Option.map_eq_some_iff.mp
    (by decide : (replay (fun system event => loopStep system event.1 event.2) fivePasses
        (freshSystem ![Pc.produce, Pc.absent, Pc.waitFull])).map
      (fun system => (system.added, system.deleted, system.pcs 0, system.pcs 1,
        system.queue.head)) = some ([5], [5], Pc.produce, Pc.absent, -1))
  simp only [Prod.mk.injEq] at facts
  obtain ⟨added, deleted, first, second, head⟩ := facts
  have passed := LoopRun.careful (Trace.of_replay begins replayed)
  have exited : step system (.exit 0) = some (system.move 0 .absent) := by
    simp [step, first, Pc.mayExit]
  have left : CarefulRun (.exit 0 :: _) (system.move 0 .absent) :=
    passed.next ⟨exited, by simp [Careful, first]⟩
  have started : step (system.move 0 .absent) (.start 1) = some
      ({ system.move 0 .absent with queue := queueInit system.queue }.move 1 .produce) := by
    simp [step, System.move, second]
  have run := left.next ⟨started, head⟩
  exact ⟨_, _, run, added, deleted, careful_restart_keeps_queue run⟩

/-- A second producer starts while the 5 of the first is in the ring; newest
step first. -/
def startOverFive : List (Event Bool) :=
  [.start false, .loop true 0, .loop true 0, .loop true 0, .loop true 0, .loop true 0,
    .loop true 5]

theorem five_lost_by_restart :
    ∃ system : System Bool, Run startOverFive system ∧
      ¬ NothingLost system ∧ ¬ FullCounts system := by
  have begins : Initial (freshSystem fun first : Bool => cond first Pc.produce Pc.absent) :=
    initial_freshSystem (by decide)
  obtain ⟨system, replayed, facts⟩ := Option.map_eq_some_iff.mp
    (by decide : (replay step startOverFive
        (freshSystem fun first : Bool => cond first Pc.produce Pc.absent)).map
      (fun system => (queuePrint system.queue, system.deleted, system.added, system.full,
        system.pcs true, system.pcs false)) =
      some (some [], [], [5], 1, Pc.produce, Pc.produce))
  simp only [Prod.mk.injEq] at facts
  obtain ⟨printed, deleted, added, full, first, second⟩ := facts
  refine ⟨system, Trace.of_replay begins replayed, ?_, ?_⟩
  · rintro ⟨contents, prints, log⟩
    rw [printed, Option.some.injEq] at prints
    rw [← prints, deleted, added] at log
    cases log
  · intro counts
    have top : ∀ process, (system.pcs process).AtTop := by
      intro process
      cases process with
      | true => exact .inr (.inl first)
      | false => exact .inr (.inl second)
    obtain ⟨contents, prints, counted⟩ := counts top
    rw [printed, Option.some.injEq] at prints
    rw [← prints, full] at counted
    cases counted

end SharedMemory

end Tpt
