import Tpt.Philosophers.Exclusion

/-!
The philosophers never deadlock, and every run comes to its end with every
philosopher fed once.
-/

namespace Tpt

namespace Philosophers

variable {count : Nat} {table after : Table count} {history : List (Fin count)}

def Stuck (table : Table count) : Prop :=
  ∀ position, philosopher table position = none

def AllFinished (table : Table count) : Prop :=
  ∀ position, (table.philosophers position).pc = .finished

inductive Blocked (table : Table count) (position : Fin count) : Prop where
  | finished : (table.philosophers position).pc = .finished → Blocked table position
  | lock : (table.philosophers position).pc = .waitLock → table.lock = 0 → Blocked table position
  | first : (table.philosophers position).pc = .waitFirst → table.forks position = 0 →
      Blocked table position
  | second : (table.philosophers position).pc = .waitSecond →
      table.forks (rightOf position) = 0 → Blocked table position

theorem blocked_of_none
    {position : Fin count} (disabled : philosopher table position = none) :
    Blocked table position := by
  unfold philosopher at disabled
  cases place : (table.philosophers position).pc with
  | loopTest =>
      simp only [place] at disabled
      split at disabled <;> cases disabled
  | waitLock =>
      simp only [place, Table.waitLock, Option.map_eq_none_iff, semWait_eq_none] at disabled
      exact .lock place disabled
  | waitFirst =>
      simp only [place, Table.waitFork, Option.map_eq_none_iff, semWait_eq_none] at disabled
      exact .first place disabled
  | waitSecond =>
      simp only [place, Table.waitFork, Option.map_eq_none_iff, semWait_eq_none] at disabled
      exact .second place disabled
  | finished => exact .finished place
  | think => simp [place] at disabled
  | eat => simp [place] at disabled
  | postFirst => simp [place] at disabled
  | postSecond => simp [place] at disabled
  | postLock => simp [place] at disabled
  | thinkAgain => simp [place] at disabled

/-- A property that passes to the right holds all around the table. -/
theorem around_table
    {property : Fin count → Prop} (passes : ∀ position, property position →
      property (rightOf position))
    {start : Fin count} (holds : property start) (position : Fin count) : property position := by
  have reached : ∀ distance, property ⟨(start.val + distance) % count,
      Nat.mod_lt _ start.pos⟩ := by
    intro distance
    induction distance with
    | zero => simpa [Nat.mod_eq_of_lt start.isLt] using holds
    | succ distance inductionHypothesis =>
        have next := passes _ inductionHypothesis
        simpa [rightOf, Nat.add_assoc] using next
  have there := reached (count - start.val + position.val)
  have place : (start.val + (count - start.val + position.val)) % count = position.val := by
    rw [← Nat.add_assoc, Nat.add_sub_cancel' start.isLt.le, Nat.add_mod_left,
      Nat.mod_eq_of_lt position.isLt]
  simpa only [place] using there

namespace Stuck

theorem holdsSecond
    (stuck : Stuck table) (position : Fin count) :
    (table.philosophers position).pc.holdsSecond = 0 := by
  cases blocked_of_none (stuck position) with
  | finished place => simp [place]
  | lock place _ => simp [place]
  | first place _ => simp [place]
  | second place _ => simp [place]

theorem holdsFirst
    (stuck : Stuck table) {position : Fin count}
    (holds : (table.philosophers position).pc.holdsFirst = 1) :
    (table.philosophers position).pc = .waitSecond := by
  cases blocked_of_none (stuck position) with
  | finished place => simp [place] at holds
  | lock place _ => simp [place] at holds
  | first place _ => simp [place] at holds
  | second place _ => exact place

/-- A missing fork is the first fork of a philosopher that waits for its second. -/
theorem waitSecond_of_taken
    (stuck : Stuck table) (balanced : Balanced table) {fork : Fin count}
    (taken : table.forks fork = 0) : (table.philosophers fork).pc = .waitSecond := by
  rcases (balanced.fork_zero_iff fork).mp taken with first | ⟨position, _, second⟩
  · exact stuck.holdsFirst first
  · rw [stuck.holdsSecond position] at second
    exact absurd second Nat.zero_ne_one

/-- The hunger of one philosopher would go all around the table, and the room
has not place for all. -/
theorem no_waitSecond
    (stuck : Stuck table) (balanced : Balanced table) (position : Fin count) :
    (table.philosophers position).pc ≠ .waitSecond := by
  intro waits
  have everyone : ∀ other, (table.philosophers other).pc = .waitSecond := by
    refine around_table ?_ waits
    intro other place
    cases blocked_of_none (stuck other) with
    | second _ taken => exact stuck.waitSecond_of_taken balanced taken
    | finished done => simp [done] at place
    | lock done _ => simp [done] at place
    | first done _ => simp [done] at place
  have full : inRoom table = count := by simp [inRoom, everyone]
  have room := balanced.lock
  have positive := position.pos
  omega

theorem outside
    (stuck : Stuck table) (balanced : Balanced table) (position : Fin count) :
    (table.philosophers position).pc = .finished ∨
      (table.philosophers position).pc = .waitLock ∧ table.lock = 0 := by
  cases blocked_of_none (stuck position) with
  | finished place => exact .inl place
  | lock place empty => exact .inr ⟨place, empty⟩
  | first place taken =>
      have waits := stuck.waitSecond_of_taken balanced taken
      rw [place] at waits
      cases waits
  | second place _ => exact absurd place (stuck.no_waitSecond balanced position)

theorem allFinished
    (stuck : Stuck table) (balanced : Balanced table) (enough : 2 ≤ count) :
    AllFinished table := by
  have empty : inRoom table = 0 := by
    apply Finset.sum_eq_zero
    intro position _
    rcases stuck.outside balanced position with place | ⟨place, _⟩ <;> simp [place]
  have room := balanced.lock
  intro position
  rcases stuck.outside balanced position with place | ⟨_, closed⟩
  · exact place
  · omega

end Stuck

def remaining (table : Table count) : Nat :=
  ∑ position, (table.philosophers position).remaining

theorem remaining_step
    {position : Fin count} (stepped : philosopher table position = some after) :
    1 + remaining after = 0 + remaining table := by
  obtain ⟨self, moves⟩ := philosopher_moves stepped
  rw [remaining, remaining, moves.philosophers]
  refine sum_balance (fun _ (self : Philosopher) => self.remaining) ?_
  rw [Nat.add_comm, moves.remaining, Nat.zero_add]

theorem length_add_remaining (run : Run count history table) :
    history.length + remaining table = 11 * count := by
  refine Trace.invariant
    (fun history table => history.length + remaining table = 11 * count) ?_ ?_ run
  · rintro state rfl
    simp [remaining, initializeSemaphores, Philosopher.remaining, Nat.mul_comm]
  · intro history state position after inductionHypothesis stepped
    rw [← inductionHypothesis, List.length_cons, Nat.add_assoc, remaining_step stepped,
      Nat.zero_add]

def Endless (tables : Nat → Table count) : Prop :=
  tables 0 = initializeSemaphores count ∧
    ∀ time, ∃ position, philosopher (tables time) position = some (tables (time + 1))

theorem Endless.run
    {tables : Nat → Table count} (endless : Endless tables) (time : Nat) :
    ∃ history, history.length = time ∧ Run count history (tables time) := by
  induction time with
  | zero => exact ⟨[], rfl, .start endless.1⟩
  | succ time inductionHypothesis =>
      obtain ⟨history, length, run⟩ := inductionHypothesis
      obtain ⟨position, stepped⟩ := endless.2 time
      exact ⟨position :: history, by rw [List.length_cons, length], .next run stepped⟩

theorem not_endless (tables : Nat → Table count) : ¬ Endless tables := by
  intro endless
  obtain ⟨history, length, run⟩ := endless.run (11 * count + 1)
  have steps := length_add_remaining run
  omega

theorem Balanced.of_allFinished
    (balanced : Balanced table) (finished : AllFinished table) :
    (∀ position, (table.philosophers position).meals = 1) ∧
      table.lock = (initializeSemaphores count).lock ∧
      table.forks = (initializeSemaphores count).forks := by
  refine ⟨?_, ?_, ?_⟩
  · intro position
    have sound := balanced.sound position
    simp only [Philosopher.Sound, finished position] at sound
    exact sound.1
  · have room := balanced.lock
    simpa [initializeSemaphores, inRoom, finished _] using room
  · funext fork
    have units := balanced.forks fork
    simpa [initializeSemaphores, held, Pc.holds, finished _] using units

/-- No reachable table is stuck before all have finished, no run goes on
forever, and a run that cannot go on has fed every philosopher once and given
back every unit of every semaphore. -/
theorem run_completes (enough : 2 ≤ count) :
    (∀ history table, Run count history table →
      AllFinished table ∨ ∃ position after, philosopher table position = some after) ∧
    (∀ history table, Run count history table → history.length ≤ 11 * count) ∧
    (∀ tables : Nat → Table count, ¬ Endless tables) ∧
    (∀ history table, Run count history table → Stuck table →
      AllFinished table ∧ (∀ position, (table.philosophers position).meals = 1) ∧
        table.lock = (initializeSemaphores count).lock ∧
        table.forks = (initializeSemaphores count).forks) := by
  refine ⟨?_, ?_, not_endless, ?_⟩
  · intro history table run
    by_cases stuck : Stuck table
    · exact .inl (stuck.allFinished (balanced_of_run run) enough)
    · obtain ⟨position, enabled⟩ := not_forall.mp stuck
      exact .inr ⟨position, Option.ne_none_iff_exists'.mp enabled⟩
  · intro history table run
    rw [← length_add_remaining run]
    exact Nat.le_add_right _ _
  · intro history table run stuck
    have finished := stuck.allFinished (balanced_of_run run) enough
    exact ⟨finished, (balanced_of_run run).of_allFinished finished⟩

/-- Five philosophers one after another, the first one last in the list. -/
def inTurn : List (Fin 5) := [4, 3, 2, 1, 0].flatMap (List.replicate 11)

theorem run_completes_five :
    ∃ table, Run 5 inTurn table ∧ AllFinished table ∧
      (∀ position, (table.philosophers position).meals = 1) ∧ table.lock = 4 := by
  obtain ⟨table, replayed, finished⟩ : ∃ table,
      replay philosopher inTurn (initializeSemaphores 5) = some table ∧
      ∀ position, (table.philosophers position).pc = .finished :=
    ⟨_, rfl, by decide⟩
  have run : Run 5 inTurn table := Trace.of_replay rfl replayed
  have stuck : Stuck table := by
    intro position
    rw [philosopher, finished position]
  obtain ⟨all, fed, lock, _⟩ := (run_completes (by decide)).2.2.2 inTurn table run stuck
  exact ⟨table, run, all, fed, lock⟩

end Philosophers

end Tpt
