import Tpt.SharedMemory.Processes

/-!
Producers and consumers that a signal ends anywhere in their loops.

`signal_handler` detaches the segment and lets the signal end the process; what
the process took from a semaphore and did not post is lost to the others.  A
process that is ended inside `queue_add` or `queue_delete` has the mutex, so
nobody looks at the ring that it leaves.
-/

namespace Tpt

namespace SharedMemory

universe u

/-- The system, and the units of its semaphores that ended processes never
gave back. -/
structure Interrupted (Process : Type u) where
  system : System Process
  lostMutex : Nat
  lostFull : Nat
  lostEmpty : Nat

/-- What happens next: a step in a loop, the start of a process, or a signal. -/
inductive Life (Process : Type u) where
  | loop (process : Process) (rand : Int)
  | startProducer (process : Process)
  | startConsumer (process : Process)
  | signal (process : Process)

def Pc.isProducer : Pc → Bool
  | .produce | .waitEmpty _ | .lockProducer _ | .add _ | .unlockProducer | .postFull => true
  | _ => false

def Pc.isConsumer : Pc → Bool
  | .waitFull | .lockConsumer | .delete | .unlockConsumer | .postEmpty => true
  | _ => false

variable {Process : Type u} [DecidableEq Process]

/-- `signal_handler`, with what its process had taken. -/
def signalHandler (state : Interrupted Process) (process : Process) : Interrupted Process :=
  { system := state.system.move process .absent
    lostMutex := state.lostMutex + (state.system.pcs process).locked
    lostFull := state.lostFull + (state.system.pcs process).filled
    lostEmpty := state.lostEmpty + (state.system.pcs process).emptied }

def lifeStep (state : Interrupted Process) : Life Process → Option (Interrupted Process)
  | .loop process rand =>
      (loopStep state.system process rand).map fun system => { state with system }
  | .startProducer process =>
      if state.system.pcs process = .absent then
        let queue := queueInit state.system.queue
        some { state with system := { state.system with queue }.move process .produce }
      else none
  | .startConsumer process =>
      if state.system.pcs process = .absent then
        some { state with system := state.system.move process .waitFull }
      else none
  | .signal process => some (signalHandler state process)

/-- A producer starts over an empty ring only. -/
def KeepsRing (state : Interrupted Process) : Life Process → Prop
  | .startProducer _ => state.system.queue.Empty
  | _ => True

instance (state : Interrupted Process) : DecidablePred (KeepsRing state) := fun event =>
  match event with
  | .startProducer _ => inferInstanceAs (Decidable state.system.queue.Empty)
  | .loop _ _ | .startConsumer _ | .signal _ => isTrue trivial

structure Begins (state : Interrupted Process) : Prop where
  system : Initial state.system
  lostMutex : state.lostMutex = 0
  lostFull : state.lostFull = 0
  lostEmpty : state.lostEmpty = 0

def LifeRun : List (Life Process) → Interrupted Process → Prop :=
  Trace Begins fun state event after =>
    lifeStep state event = some after ∧ KeepsRing state event

/-- The onward runs in which all processes stay in their loops. -/
def LoopsOn (system : System Process) : List (Process × Int) → System Process → Prop :=
  Trace (fun before => before = system)
    fun system event after => loopStep system event.1 event.2 = some after

/-- The onward runs in which anything happens, a start over a filled ring too. -/
def LivesOn (state : Interrupted Process) : List (Life Process) → Interrupted Process → Prop :=
  Trace (fun before => before = state) fun state event after => lifeStep state event = some after

/-- The loops alone can take any number of values through the ring. -/
def Passes (system : System Process) : Prop :=
  ∀ count, ∃ onward after, LoopsOn system onward after ∧ count ≤ after.deleted.length

/-- The mutex is there, and one place of the ring still goes round. -/
def Interrupted.Usable (state : Interrupted Process) : Prop :=
  state.lostMutex = 0 ∧ state.lostFull + state.lostEmpty < queueSize

structure Moves
    (system after : System Process) (process : Process) (pc : Pc)
    (contents left : List Int) : Prop where
  pcs : after.pcs = Function.update system.pcs process pc
  holds : Holds after.queue left
  mutex : after.mutex + pc.locked = system.mutex + (system.pcs process).locked
  full : after.full + pc.filled + contents.length =
    system.full + (system.pcs process).filled + left.length
  empty : after.empty + pc.emptied + left.length =
    system.empty + (system.pcs process).emptied + contents.length
  log : system.deleted ++ contents = system.added → after.deleted ++ left = after.added
  grows : system.added <+: after.added

section Steps

variable {state next : Interrupted Process} {system after : System Process}
variable {contents left : List Int} {process : Process} {pc : Pc} {rand : Int}

theorem loopStep_moves
    (holds : Holds system.queue contents)
    (room : ∀ val, system.pcs process = .add val → contents.length < queueSize)
    (filled : system.pcs process = .delete → contents ≠ [])
    (stepped : loopStep system process rand = some after) :
    ∃ pc left, Moves system after process pc contents left ∧
      pc.isProducer = (system.pcs process).isProducer ∧
      pc.isConsumer = (system.pcs process).isConsumer := by
  unfold loopStep at stepped
  cases place : system.pcs process with
  | absent => simp [place] at stepped
  | produce =>
      simp only [place, Option.some.injEq] at stepped
      subst stepped
      refine ⟨_, contents, ⟨rfl, holds, ?_, ?_, ?_, id, List.prefix_rfl⟩, ?_, ?_⟩ <;>
        simp [place, System.move, Pc.isProducer, Pc.isConsumer]
  | waitEmpty val =>
      simp only [place, Option.map_eq_some_iff, semWait_eq_some] at stepped
      obtain ⟨empty, positive, rfl⟩ := stepped
      refine ⟨_, contents, ⟨rfl, holds, ?_, ?_, ?_, id, List.prefix_rfl⟩, ?_, ?_⟩ <;>
        simp [place, positive, System.move, Pc.isProducer, Pc.isConsumer]
  | lockProducer val =>
      simp only [place, Option.map_eq_some_iff, semWait_eq_some] at stepped
      obtain ⟨mutex, positive, rfl⟩ := stepped
      refine ⟨_, contents, ⟨rfl, holds, ?_, ?_, ?_, id, List.prefix_rfl⟩, ?_, ?_⟩ <;>
        simp [place, positive, System.move, Pc.isProducer, Pc.isConsumer]
  | add val =>
      simp only [place, Option.map_eq_some_iff] at stepped
      obtain ⟨queue, called, rfl⟩ := stepped
      obtain ⟨extended, added, holds⟩ := holds.queueAdd (room val place) val
      obtain rfl := Option.some.inj (added.symm.trans called)
      refine ⟨_, contents ++ [val], ⟨rfl, holds, ?_, ?_, ?_, ?_, List.prefix_append _ _⟩, ?_, ?_⟩
      case refine_4 =>
        intro log
        change system.deleted ++ (contents ++ [val]) = system.added ++ [val]
        rw [← List.append_assoc, log]
      all_goals simp [place, System.move, Pc.isProducer, Pc.isConsumer] <;> omega
  | unlockProducer =>
      simp only [place, Option.some.injEq] at stepped
      subst stepped
      refine ⟨_, contents, ⟨rfl, holds, ?_, ?_, ?_, id, List.prefix_rfl⟩, ?_, ?_⟩ <;>
        simp [place, semPost, System.move, Pc.isProducer, Pc.isConsumer]
  | postFull =>
      simp only [place, Option.some.injEq] at stepped
      subst stepped
      refine ⟨_, contents, ⟨rfl, holds, ?_, ?_, ?_, id, List.prefix_rfl⟩, ?_, ?_⟩ <;>
        simp [place, semPost, System.move, Pc.isProducer, Pc.isConsumer]
  | waitFull =>
      simp only [place, Option.map_eq_some_iff, semWait_eq_some] at stepped
      obtain ⟨full, positive, rfl⟩ := stepped
      refine ⟨_, contents, ⟨rfl, holds, ?_, ?_, ?_, id, List.prefix_rfl⟩, ?_, ?_⟩ <;>
        simp [place, positive, System.move, Pc.isProducer, Pc.isConsumer]
  | lockConsumer =>
      simp only [place, Option.map_eq_some_iff, semWait_eq_some] at stepped
      obtain ⟨mutex, positive, rfl⟩ := stepped
      refine ⟨_, contents, ⟨rfl, holds, ?_, ?_, ?_, id, List.prefix_rfl⟩, ?_, ?_⟩ <;>
        simp [place, positive, System.move, Pc.isProducer, Pc.isConsumer]
  | delete =>
      simp only [place, Option.map_eq_some_iff] at stepped
      obtain ⟨⟨value, queue⟩, called, rfl⟩ := stepped
      obtain ⟨first, left, rfl⟩ := List.exists_cons_of_ne_nil (filled place)
      obtain ⟨shortened, deleted, holds⟩ := holds.queueDelete
      obtain ⟨rfl, rfl⟩ := Prod.mk.inj (Option.some.inj (deleted.symm.trans called))
      refine ⟨_, left, ⟨rfl, holds, ?_, ?_, ?_, ?_, List.prefix_rfl⟩, ?_, ?_⟩
      case refine_4 =>
        intro log
        change system.deleted ++ [first] ++ left = system.added
        rw [List.append_assoc]
        exact log
      all_goals simp [place, System.move, Pc.isProducer, Pc.isConsumer] <;> omega
  | unlockConsumer =>
      simp only [place, Option.some.injEq] at stepped
      subst stepped
      refine ⟨_, contents, ⟨rfl, holds, ?_, ?_, ?_, id, List.prefix_rfl⟩, ?_, ?_⟩ <;>
        simp [place, semPost, System.move, Pc.isProducer, Pc.isConsumer]
  | postEmpty =>
      simp only [place, Option.some.injEq] at stepped
      subst stepped
      refine ⟨_, contents, ⟨rfl, holds, ?_, ?_, ?_, id, List.prefix_rfl⟩, ?_, ?_⟩ <;>
        simp [place, semPost, System.move, Pc.isProducer, Pc.isConsumer]

section Balance

variable [Fintype Process]

/-- The semaphores, the ring, the places of all processes and what is lost
agree. -/
structure Balanced (state : Interrupted Process) (contents : List Int) : Prop where
  holds : Holds state.system.queue contents
  mutex : state.system.mutex + total Pc.locked state.system.pcs + state.lostMutex = 1
  full : state.system.full + total Pc.filled state.system.pcs + state.lostFull = contents.length
  empty : state.system.empty + total Pc.emptied state.system.pcs + state.lostEmpty +
    contents.length = queueSize
  log : state.system.deleted ++ contents = state.system.added

omit [DecidableEq Process] in
theorem Balanced.begins (begins : Begins state) : Balanced state [] := by
  have agrees := Agrees.initial begins.system
  have idle : total Pc.emptied state.system.pcs = 0 := by
    apply Finset.sum_eq_zero
    intro process _
    rcases begins.system.pcs process with place | place | place <;> rw [place] <;> rfl
  refine ⟨agrees.holds, ?_, ?_, ?_, agrees.log⟩
  · rw [begins.lostMutex, agrees.mutex]
  · rw [begins.lostFull, agrees.full]
    rfl
  · rw [begins.lostEmpty, begins.system.empty, idle]
    rfl

omit [DecidableEq Process] in
theorem Balanced.room
    (balanced : Balanced state contents) {val : Int}
    (place : state.system.pcs process = .add val) : contents.length < queueSize := by
  have claimed := single_le_total Pc.emptied state.system.pcs process
  have empty := balanced.empty
  rw [place, Pc.emptied] at claimed
  omega

omit [DecidableEq Process] in
theorem Balanced.not_empty
    (balanced : Balanced state contents) (place : state.system.pcs process = .delete) :
    contents ≠ [] := by
  have claimed := single_le_total Pc.filled state.system.pcs process
  have full := balanced.full
  rw [place, Pc.filled] at claimed
  rintro rfl
  rw [List.length_nil] at full
  omega

theorem Balanced.moves
    (balanced : Balanced state contents)
    (moves : Moves state.system after process pc contents left) :
    Balanced { state with system := after } left := by
  have locked := total_update Pc.locked state.system.pcs process pc
  have filled := total_update Pc.filled state.system.pcs process pc
  have emptied := total_update Pc.emptied state.system.pcs process pc
  obtain ⟨_, mutexBefore, fullBefore, emptyBefore, log⟩ := balanced
  have mutexMoved := moves.mutex
  have fullMoved := moves.full
  have emptyMoved := moves.empty
  refine ⟨moves.holds, ?_, ?_, ?_, moves.log log⟩ <;> dsimp only <;> rw [moves.pcs] <;> omega

theorem Balanced.loopStep_moves
    (balanced : Balanced state contents)
    (stepped : loopStep state.system process rand = some after) :
    ∃ pc left, Moves state.system after process pc contents left ∧
      Balanced { state with system := after } left := by
  obtain ⟨pc, left, moves, _⟩ := SharedMemory.loopStep_moves balanced.holds
    (fun _ place => balanced.room place) (fun place => balanced.not_empty place) stepped
  exact ⟨pc, left, moves, balanced.moves moves⟩

theorem Balanced.starts
    {queue : Queue} (balanced : Balanced state contents)
    (place : state.system.pcs process = .absent) (holds : Holds queue contents)
    (top : pc.AtTop) :
    Balanced { state with system := { state.system with queue }.move process pc } contents := by
  rcases top with rfl | rfl | rfl <;>
    refine balanced.moves ⟨rfl, holds, ?_, ?_, ?_, id, List.prefix_rfl⟩ <;>
      simp [place, System.move]

theorem Balanced.signalHandler (balanced : Balanced state contents) :
    Balanced (SharedMemory.signalHandler state process) contents := by
  have kept : ∀ measure : Pc → Nat, measure .absent = 0 →
      total measure (Function.update state.system.pcs process .absent) +
        measure (state.system.pcs process) = total measure state.system.pcs := by
    intro measure absent
    rw [total_update, absent, Nat.add_zero]
  have locked := kept Pc.locked rfl
  have filled := kept Pc.filled rfl
  have emptied := kept Pc.emptied rfl
  obtain ⟨holds, mutex, full, empty, log⟩ := balanced
  refine ⟨holds, ?_, ?_, ?_, log⟩ <;>
    dsimp only [SharedMemory.signalHandler, System.move] <;> omega

theorem Balanced.lifeStep
    {event : Life Process} (balanced : Balanced state contents)
    (stepped : SharedMemory.lifeStep state event = some next) (keeps : KeepsRing state event) :
    ∃ left, Balanced next left := by
  cases event with
  | loop process rand =>
      obtain ⟨system, looped, rfl⟩ := Option.map_eq_some_iff.mp stepped
      obtain ⟨_, left, _, kept⟩ := balanced.loopStep_moves looped
      exact ⟨left, kept⟩
  | startProducer process =>
      obtain ⟨place, moved⟩ := Option.ite_none_right_eq_some.mp stepped
      obtain rfl := Option.some.inj moved
      obtain rfl := balanced.holds.empty_iff.mp keeps
      exact ⟨[], balanced.starts place (holds_queueInit _) (.inr (.inl rfl))⟩
  | startConsumer process =>
      obtain ⟨place, moved⟩ := Option.ite_none_right_eq_some.mp stepped
      obtain rfl := Option.some.inj moved
      exact ⟨contents, balanced.starts place balanced.holds (.inr (.inr rfl))⟩
  | signal process =>
      obtain rfl := Option.some.inj stepped
      exact ⟨contents, balanced.signalHandler⟩

theorem balanced_of_lifeRun
    {history : List (Life Process)} (run : LifeRun history state) :
    ∃ contents, Balanced state contents := by
  refine Trace.invariant (fun _ state => ∃ contents, Balanced state contents) ?_ ?_ run
  · intro state begins
    exact ⟨[], Balanced.begins begins⟩
  · rintro history state event next ⟨contents, balanced⟩ ⟨stepped, keeps⟩
    exact balanced.lifeStep stepped keeps

end Balance

end Steps

end SharedMemory

end Tpt
