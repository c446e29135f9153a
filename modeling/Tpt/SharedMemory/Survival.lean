import Tpt.Lib.Progress
import Tpt.SharedMemory.Interrupts

/-!
When the ring outlives the signals that end its processes.

A system that has lost its mutex, or all places of its ring, does nothing any
more.  In any other, the units of `full` and `empty` are used up while no value
is added, and then a process is before `queue_add`.
-/

namespace Tpt

namespace SharedMemory

universe u

variable {Process : Type u} [DecidableEq Process]

section Steps

variable {state next : Interrupted Process} {system after : System Process}
variable {contents left : List Int} {process : Process} {pc : Pc} {rand : Int}

def Pc.Outside (pc : Pc) : Prop := pc.locked = 0

/-- Holding no unit of `full` and none of `empty`. -/
def Pc.Idle (pc : Pc) : Prop := pc.filled = 0 ∧ pc.emptied = 0

/-- Nobody will get into the critical section. -/
inductive Dead (system : System Process) : Prop where
  | locked : system.mutex = 0 → (∀ process, (system.pcs process).Outside) → Dead system
  | drained : system.full = 0 → system.empty = 0 → (∀ process, (system.pcs process).Idle) →
      Dead system

omit [DecidableEq Process] in
theorem Balanced.dead_of_not_usable
    [Fintype Process] (balanced : Balanced state contents) (unusable : ¬ state.Usable) :
    Dead state.system := by
  have mutex := balanced.mutex
  have full := balanced.full
  have empty := balanced.empty
  by_cases lost : state.lostMutex = 0
  · have gone : queueSize ≤ state.lostFull + state.lostEmpty := by
      by_contra few
      exact unusable ⟨lost, Nat.lt_of_not_le few⟩
    refine .drained (by omega) (by omega) ?_
    intro process
    have filled := single_le_total Pc.filled state.system.pcs process
    have emptied := single_le_total Pc.emptied state.system.pcs process
    exact ⟨by omega, by omega⟩
  · refine .locked (by omega) ?_
    intro process
    have locked := single_le_total Pc.locked state.system.pcs process
    change _ = 0
    omega

theorem everywhere_update
    (Allowed : Pc → Prop) {pcs : Process → Pc}
    (everywhere : ∀ process, Allowed (pcs process)) (allowed : Allowed pc) :
    ∀ other, Allowed (Function.update pcs process pc other) :=
  (Function.forall_update_iff pcs fun _ place => Allowed place).mpr
    ⟨allowed, fun other _ => everywhere other⟩

theorem Dead.loopStep
    (dead : Dead system) (stepped : SharedMemory.loopStep system process rand = some after) :
    Dead after ∧ after.added = system.added ∧ after.deleted = system.deleted := by
  unfold SharedMemory.loopStep at stepped
  cases dead with
  | locked mutex outside =>
      have inside := outside process
      cases place : system.pcs process with
      | absent => simp [place] at stepped
      | produce =>
          simp only [place, Option.some.injEq] at stepped
          subst stepped
          exact ⟨.locked mutex (everywhere_update Pc.Outside outside rfl), rfl, rfl⟩
      | postFull =>
          simp only [place, Option.some.injEq] at stepped
          subst stepped
          exact ⟨.locked mutex (everywhere_update Pc.Outside outside rfl), rfl, rfl⟩
      | postEmpty =>
          simp only [place, Option.some.injEq] at stepped
          subst stepped
          exact ⟨.locked mutex (everywhere_update Pc.Outside outside rfl), rfl, rfl⟩
      | waitEmpty val =>
          simp only [place, Option.map_eq_some_iff] at stepped
          obtain ⟨empty, _, rfl⟩ := stepped
          exact ⟨.locked mutex (everywhere_update Pc.Outside outside rfl), rfl, rfl⟩
      | waitFull =>
          simp only [place, Option.map_eq_some_iff] at stepped
          obtain ⟨full, _, rfl⟩ := stepped
          exact ⟨.locked mutex (everywhere_update Pc.Outside outside rfl), rfl, rfl⟩
      | lockProducer val => simp [place, mutex, semWait] at stepped
      | lockConsumer => simp [place, mutex, semWait] at stepped
      | _ => simp [place, Pc.Outside] at inside
  | drained full empty outside =>
      have inside := outside process
      cases place : system.pcs process with
      | absent => simp [place] at stepped
      | produce =>
          simp only [place, Option.some.injEq] at stepped
          subst stepped
          exact ⟨.drained full empty (everywhere_update Pc.Idle outside ⟨rfl, rfl⟩), rfl, rfl⟩
      | waitEmpty val => simp [place, empty, semWait] at stepped
      | waitFull => simp [place, full, semWait] at stepped
      | _ => simp [place, Pc.Idle] at inside

theorem Dead.replaced
    {queue : Queue} (dead : Dead system) (top : pc.AtTop) :
    Dead ({ system with queue }.move process pc) := by
  have nothing : pc.Outside ∧ pc.Idle := by
    rcases top with rfl | rfl | rfl <;> exact ⟨rfl, rfl, rfl⟩
  cases dead with
  | locked mutex outside => exact .locked mutex (everywhere_update Pc.Outside outside nothing.1)
  | drained full empty outside =>
      exact .drained full empty (everywhere_update Pc.Idle outside nothing.2)

theorem Dead.lifeStep
    {event : Life Process} (dead : Dead state.system)
    (stepped : SharedMemory.lifeStep state event = some next) :
    Dead next.system ∧ next.system.added = state.system.added ∧
      next.system.deleted = state.system.deleted := by
  cases event with
  | loop process rand =>
      obtain ⟨system, looped, rfl⟩ := Option.map_eq_some_iff.mp stepped
      exact dead.loopStep looped
  | startProducer process =>
      obtain ⟨place, moved⟩ := Option.ite_none_right_eq_some.mp stepped
      obtain rfl := Option.some.inj moved
      exact ⟨dead.replaced (.inr (.inl rfl)), rfl, rfl⟩
  | startConsumer process =>
      obtain ⟨place, moved⟩ := Option.ite_none_right_eq_some.mp stepped
      obtain rfl := Option.some.inj moved
      exact ⟨dead.replaced (.inr (.inr rfl)), rfl, rfl⟩
  | signal process =>
      obtain rfl := Option.some.inj stepped
      exact ⟨dead.replaced (.inl rfl), rfl, rfl⟩

theorem Dead.livesOn
    {onward : List (Life Process)} (dead : Dead state.system) (lives : LivesOn state onward next) :
    next.system.added = state.system.added ∧ next.system.deleted = state.system.deleted := by
  have kept : Dead next.system ∧ next.system.added = state.system.added ∧
      next.system.deleted = state.system.deleted := by
    refine Trace.invariant (fun _ now => Dead now.system ∧
      now.system.added = state.system.added ∧ now.system.deleted = state.system.deleted) ?_ ?_ lives
    · rintro now rfl
      exact ⟨dead, rfl, rfl⟩
    · rintro history now event next ⟨dead, added, deleted⟩ stepped
      obtain ⟨dead, addedAfter, deletedAfter⟩ := dead.lifeStep stepped
      exact ⟨dead, addedAfter.trans added, deletedAfter.trans deleted⟩
  exact kept.2

theorem Dead.loopsOn
    {onward : List (Process × Int)} (dead : Dead system) (loops : LoopsOn system onward after) :
    after.deleted = system.deleted := by
  have kept : Dead after ∧ after.deleted = system.deleted := by
    refine Trace.invariant (fun _ now => Dead now ∧ now.deleted = system.deleted) ?_ ?_ loops
    · rintro now rfl
      exact ⟨dead, rfl⟩
    · rintro history now event next ⟨dead, deleted⟩ stepped
      obtain ⟨dead, _, deletedAfter⟩ := dead.loopStep stepped
      exact ⟨dead, deletedAfter.trans deleted⟩
  exact kept.2

theorem Dead.not_passes (dead : Dead system) : ¬ Passes system := by
  intro passes
  obtain ⟨onward, after, loops, more⟩ := passes (system.deleted.length + 1)
  rw [dead.loopsOn loops] at more
  omega

inductive Blocked (system : System Process) : Pc → Prop where
  | absent : Blocked system .absent
  | waitEmpty {val} : system.empty = 0 → Blocked system (.waitEmpty val)
  | lockProducer {val} : system.mutex = 0 → Blocked system (.lockProducer val)
  | waitFull : system.full = 0 → Blocked system .waitFull
  | lockConsumer : system.mutex = 0 → Blocked system .lockConsumer

/-- A step of a loop other than `queue_add`. -/
def QuietStep (system : System Process) (event : Process × Int) (after : System Process) : Prop :=
  loopStep system event.1 event.2 = some after ∧ ∀ val, system.pcs event.1 ≠ .add val

/-- The steps before a process waits, weighed so that a post costs less than
the steps up to it. -/
@[simp] def Pc.ahead : Pc → Nat
  | .absent | .waitEmpty _ | .waitFull => 0
  | .produce | .add _ => 1
  | .lockProducer _ => 2
  | .postEmpty => 4
  | .unlockConsumer => 5
  | .delete => 6
  | .lockConsumer => 7
  | .postFull => 10
  | .unlockProducer => 11

structure Working (state : Interrupted Process) (producer consumer : Process) : Prop where
  usable : state.Usable
  produces : (state.system.pcs producer).isProducer = true
  consumes : (state.system.pcs consumer).isConsumer = true

section Progress

variable [Fintype Process] {producer consumer : Process}

def System.ahead (system : System Process) : Nat :=
  3 * system.empty + 8 * system.full + total Pc.ahead system.pcs

theorem QuietStep.decreases
    {event : Process × Int} (quiet : QuietStep system event after) :
    after.ahead < system.ahead := by
  obtain ⟨process, rand⟩ := event
  obtain ⟨stepped, quiet⟩ := quiet
  unfold loopStep at stepped
  have changed := fun pc => total_update Pc.ahead system.pcs process pc
  unfold System.ahead
  cases place : system.pcs process with
  | absent => simp [place] at stepped
  | add val => exact absurd place (quiet val)
  | produce | unlockProducer | postFull | unlockConsumer | postEmpty =>
      simp only [place, Option.some.injEq] at stepped
      subst stepped
      simp only [place, Pc.ahead] at changed
      simp only [System.move, semPost]
      grind
  | waitEmpty _ | lockProducer _ | waitFull | lockConsumer =>
      simp only [place, Option.map_eq_some_iff, semWait_eq_some] at stepped
      obtain ⟨_, positive, rfl⟩ := stepped
      simp only [place, Pc.ahead] at changed
      simp only [System.move, positive]
      grind
  | delete =>
      simp only [place, Option.map_eq_some_iff] at stepped
      obtain ⟨_, _, rfl⟩ := stepped
      simp only [place, Pc.ahead] at changed
      simp only [System.move]
      grind

omit [DecidableEq Process] [Fintype Process] in
theorem Blocked.outside (blocked : Blocked system pc) : pc.Outside := by
  cases blocked <;> rfl

section Waiting

variable (blocked : Blocked system pc) (mutex : system.mutex ≠ 0)

include blocked mutex

omit [DecidableEq Process] [Fintype Process]

theorem Blocked.idle : pc.Idle := by
  cases blocked with
  | lockProducer none => exact absurd none mutex
  | lockConsumer none => exact absurd none mutex
  | _ => exact ⟨rfl, rfl⟩

theorem Blocked.empty_of_producer (produces : pc.isProducer = true) : system.empty = 0 := by
  cases blocked with
  | waitEmpty none => exact none
  | lockProducer none => exact absurd none mutex
  | _ => cases produces

theorem Blocked.full_of_consumer (consumes : pc.isConsumer = true) : system.full = 0 := by
  cases blocked with
  | waitFull none => exact none
  | lockConsumer none => exact absurd none mutex
  | _ => cases consumes

end Waiting

theorem Balanced.blocked
    (balanced : Balanced state contents) (stuck : loopStep state.system process rand = none)
    (quiet : ∀ val, state.system.pcs process ≠ .add val) :
    Blocked state.system (state.system.pcs process) := by
  unfold SharedMemory.loopStep at stuck
  cases place : state.system.pcs process with
  | absent => exact .absent
  | add val => exact absurd place (quiet val)
  | waitEmpty val =>
      simp only [place, Option.map_eq_none_iff, semWait_eq_none] at stuck
      exact .waitEmpty stuck
  | lockProducer val =>
      simp only [place, Option.map_eq_none_iff, semWait_eq_none] at stuck
      exact .lockProducer stuck
  | waitFull =>
      simp only [place, Option.map_eq_none_iff, semWait_eq_none] at stuck
      exact .waitFull stuck
  | lockConsumer =>
      simp only [place, Option.map_eq_none_iff, semWait_eq_none] at stuck
      exact .lockConsumer stuck
  | delete =>
      obtain ⟨first, left, rfl⟩ := List.exists_cons_of_ne_nil (balanced.not_empty place)
      obtain ⟨shortened, deleted, _⟩ := balanced.holds.queueDelete
      simp [place, deleted] at stuck
  | _ => simp [place] at stuck

omit [DecidableEq Process] in
/-- With every process blocked and the mutex there, all places of the ring are
lost. -/
theorem Balanced.not_usable_of_blocked
    (balanced : Balanced state contents)
    (blocked : ∀ process, Blocked state.system (state.system.pcs process))
    (produces : (state.system.pcs producer).isProducer = true)
    (consumes : (state.system.pcs consumer).isConsumer = true) : ¬ state.Usable := by
  rintro ⟨lockLeft, few⟩
  have outside : total Pc.locked state.system.pcs = 0 :=
    Finset.sum_eq_zero fun process _ => (blocked process).outside
  have mutex : state.system.mutex ≠ 0 := by
    have one := balanced.mutex
    omega
  have empty := (blocked producer).empty_of_producer mutex produces
  have full := (blocked consumer).full_of_consumer mutex consumes
  have filled : total Pc.filled state.system.pcs = 0 :=
    Finset.sum_eq_zero fun process _ => ((blocked process).idle mutex).1
  have emptied : total Pc.emptied state.system.pcs = 0 :=
    Finset.sum_eq_zero fun process _ => ((blocked process).idle mutex).2
  have fullLeft := balanced.full
  have emptyLeft := balanced.empty
  omega

theorem Working.loopStep
    (working : Working state producer consumer) (balanced : Balanced state contents)
    (stepped : SharedMemory.loopStep state.system process rand = some after) :
    Working { state with system := after } producer consumer := by
  obtain ⟨pc, left, moves, produces, consumes⟩ := SharedMemory.loopStep_moves balanced.holds
    (fun _ place => balanced.room place) (fun place => balanced.not_empty place) stepped
  refine ⟨working.usable, ?_, ?_⟩
  · rcases update_cases (congrFun moves.pcs producer).symm with ⟨rfl, same⟩ | ⟨_, same⟩
    · exact same ▸ produces.trans working.produces
    · exact same ▸ working.produces
  · rcases update_cases (congrFun moves.pcs consumer).symm with ⟨rfl, same⟩ | ⟨_, same⟩
    · exact same ▸ consumes.trans working.consumes
    · exact same ▸ working.consumes

theorem Working.loopsOn
    {onward : List (Process × Int)} (working : Working state producer consumer)
    (balanced : Balanced state contents) (loops : LoopsOn state.system onward after) :
    Working { state with system := after } producer consumer ∧
      (∃ left, Balanced { state with system := after } left) ∧
      state.system.added <+: after.added := by
  refine Trace.invariant (fun _ now => Working { state with system := now } producer consumer ∧
    (∃ left, Balanced { state with system := now } left) ∧
    state.system.added <+: now.added) ?_ ?_ loops
  · rintro now rfl
    exact ⟨working, ⟨contents, balanced⟩, List.prefix_rfl⟩
  · rintro history now event next ⟨working, ⟨left, balanced⟩, grown⟩ stepped
    obtain ⟨pc, after, moves, kept⟩ := balanced.loopStep_moves stepped
    exact ⟨working.loopStep balanced stepped, ⟨after, kept⟩, grown.trans moves.grows⟩

theorem Working.adds
    (working : Working state producer consumer) (balanced : Balanced state contents) :
    ∃ onward after, LoopsOn state.system onward after ∧
      state.system.added.length + 1 ≤ after.added.length := by
  obtain ⟨onward, now, quiet, final⟩ : ∃ onward now,
      Trace (fun before => before = state.system) QuietStep onward now ∧ Final QuietStep now :=
    Trace.exists_final (fun quiet => quiet.decreases) state.system
  have loops : LoopsOn state.system onward now := quiet.imp fun stepped => stepped.1
  obtain ⟨working, ⟨left, balanced⟩, grown⟩ := working.loopsOn balanced loops
  by_cases adding : ∃ process val, now.pcs process = .add val
  · obtain ⟨process, val, place⟩ := adding
    obtain ⟨queue, added, _⟩ := balanced.holds.queueAdd (balanced.room place) val
    have stepped : SharedMemory.loopStep now process 0 =
        some ({ now with queue, added := now.added ++ [val] }.move process .unlockProducer) := by
      simp only [SharedMemory.loopStep, place]
      rw [added]
      rfl
    have further : LoopsOn state.system ((process, 0) :: onward) _ := .next loops stepped
    refine ⟨_, _, further, ?_⟩
    have length := grown.length_le
    simp only [System.move, List.length_append, List.length_singleton]
    omega
  · have quiet : ∀ process val, now.pcs process ≠ .add val :=
      fun process val place => adding ⟨process, val, place⟩
    refine absurd working.usable
      (balanced.not_usable_of_blocked ?_ working.produces working.consumes)
    intro process
    have stuck : SharedMemory.loopStep now process 0 = none := by
      rw [Option.eq_none_iff_forall_ne_some]
      intro after stepped
      exact final (process, 0) after ⟨stepped, quiet process⟩
    exact balanced.blocked stuck (quiet process)

theorem Working.adds_many
    (working : Working state producer consumer) (balanced : Balanced state contents)
    (count : Nat) :
    ∃ onward after, LoopsOn state.system onward after ∧
      state.system.added.length + count ≤ after.added.length := by
  induction count with
  | zero => exact ⟨[], state.system, .start rfl, Nat.le_refl _⟩
  | succ count inductionHypothesis =>
      obtain ⟨onward, now, loops, more⟩ := inductionHypothesis
      obtain ⟨working, ⟨left, balanced⟩, _⟩ := working.loopsOn balanced loops
      obtain ⟨further, after, later, next⟩ := working.adds balanced
      exact ⟨further ++ onward, after, loops.append later, by
        dsimp only at next
        omega⟩

/-- What is not in the ring has been deleted, so that adding without end
deletes without end. -/
theorem Working.passes
    (working : Working state producer consumer) (balanced : Balanced state contents) :
    Passes state.system := by
  intro count
  obtain ⟨onward, after, loops, more⟩ := working.adds_many balanced (count + queueSize)
  obtain ⟨_, ⟨left, balanced⟩, _⟩ := working.loopsOn balanced loops
  have log := congrArg List.length balanced.log
  have bounded := balanced.empty
  rw [List.length_append] at log
  exact ⟨onward, after, loops, by
    dsimp only at log
    omega⟩

/-- Wherever signals end processes, the ring passes values for ever exactly
while the mutex and one of its places are left to the running ones; after that
no start brings it back. -/
theorem interrupted_queue_passes_iff
    {history : List (Life Process)} (run : LifeRun history state)
    (produces : (state.system.pcs producer).isProducer = true)
    (consumes : (state.system.pcs consumer).isConsumer = true) :
    (Passes state.system ↔ state.Usable) ∧
    (¬ state.Usable → ∀ onward after, LivesOn state onward after →
      after.system.added = state.system.added ∧ after.system.deleted = state.system.deleted) := by
  obtain ⟨contents, balanced⟩ := balanced_of_lifeRun run
  refine ⟨⟨?_, ?_⟩, ?_⟩
  · intro passes
    by_contra unusable
    exact (balanced.dead_of_not_usable unusable).not_passes passes
  · intro usable
    exact (Working.mk usable produces consumes).passes balanced
  · intro unusable onward after lives
    exact (balanced.dead_of_not_usable unusable).livesOn lives

/-- A producer that a signal ends between its two waits, and that starts again;
newest step first. -/
def endedBetweenWaits : List (Life Bool) :=
  [.startProducer true, .signal true, .loop true 0, .loop true 0]

/-- The fourth time, the ring is dead. -/
theorem interrupted_queue_passes_iff_four_times :
    ∃ history, ∃ state : Interrupted Bool, LifeRun history state ∧
      state.system.pcs true = .produce ∧ state.system.pcs false = .waitFull ∧
      ¬ Passes state.system ∧
      ∀ onward after, LivesOn state onward after → after.system.deleted = [] := by
  let fresh : Interrupted Bool :=
    { system := freshSystem fun producer => cond producer Pc.produce Pc.waitFull
      lostMutex := 0
      lostFull := 0
      lostEmpty := 0 }
  let history := endedBetweenWaits ++ endedBetweenWaits ++ endedBetweenWaits ++ endedBetweenWaits
  have begins : Begins fresh := ⟨initial_freshSystem (by decide), rfl, rfl, rfl⟩
  obtain ⟨state, replayed, facts⟩ := Option.map_eq_some_iff.mp
    (by decide : (replay (fun state event =>
        if KeepsRing state event then lifeStep state event else none) history fresh).map
      (fun state => (state.lostEmpty, state.system.pcs true, state.system.pcs false,
        state.system.deleted)) = some (4, Pc.produce, Pc.waitFull, []))
  simp only [Prod.mk.injEq] at facts
  obtain ⟨lost, producer, consumer, deleted⟩ := facts
  have run : LifeRun history state := (Trace.of_replay begins replayed).imp fun stepped =>
    (Option.ite_none_right_eq_some.mp stepped).symm
  have unusable : ¬ state.Usable := by
    rintro ⟨_, few⟩
    rw [lost, queueSize] at few
    omega
  have produces : (state.system.pcs true).isProducer = true := by rw [producer]; rfl
  have consumes : (state.system.pcs false).isConsumer = true := by rw [consumer]; rfl
  have settled := interrupted_queue_passes_iff run produces consumes
  refine ⟨history, state, run, producer, consumer, mt settled.1.mp unusable, ?_⟩
  intro onward after lives
  exact (settled.2 unusable onward after lives).2.trans deleted

end Progress

end Steps

end SharedMemory

end Tpt
