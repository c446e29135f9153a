import Tpt.Philosophers.Model

/-!
Every unit of a semaphore is either in the semaphore or held by a philosopher
between the matching `sem_wait` and `sem_post`.
-/

namespace Tpt

namespace Philosophers

variable {count : Nat} {table after : Table count} {position : Fin count}
variable {history : List (Fin count)}

def held (table : Table count) (fork : Fin count) : Nat :=
  ∑ position, (table.philosophers position).pc.holds position fork

def inRoom (table : Table count) : Nat :=
  ∑ position, (table.philosophers position).pc.inRoom

structure Balanced (table : Table count) : Prop where
  forks : ∀ fork, table.forks fork + held table fork = 1
  lock : table.lock + inRoom table = count - 1
  sound : ∀ position, (table.philosophers position).Sound

theorem Balanced.initial : Balanced (initializeSemaphores count) where
  forks fork := by simp [initializeSemaphores, held, Pc.holds]
  lock := by simp [initializeSemaphores, inRoom]
  sound position := by simp [initializeSemaphores, Philosopher.Sound]

theorem Balanced.step
    (balanced : Balanced table) (stepped : philosopher table position = some after) :
    Balanced after := by
  obtain ⟨self, moves⟩ := philosopher_moves stepped
  refine ⟨?_, ?_, ?_⟩
  · intro fork
    rw [← balanced.forks fork, held, held, moves.philosophers]
    exact sum_balance (fun position (self : Philosopher) => self.pc.holds position fork)
      (moves.forks fork)
  · rw [← balanced.lock, inRoom, inRoom, moves.philosophers]
    exact sum_balance (fun _ (self : Philosopher) => self.pc.inRoom) moves.lock
  · intro other
    rw [moves.philosophers]
    by_cases same : other = position
    · subst same
      rw [Function.update_self]
      exact moves.sound (balanced.sound other)
    · rw [Function.update_of_ne same]
      exact balanced.sound other

theorem balanced_of_run (run : Run count history table) : Balanced table := by
  refine Trace.invariant (fun _ table => Balanced table) ?_ ?_ run
  · rintro state rfl
    exact Balanced.initial
  · intro history state position after balanced stepped
    exact balanced.step stepped

theorem rightOf_injective : Function.Injective (@rightOf count) := by
  intro first second same
  have values : (first.val + 1) % count = (second.val + 1) % count := congrArg Fin.val same
  exact Fin.ext (Nat.ModEq.eq_of_lt_of_lt (Nat.ModEq.add_right_cancel' 1 values)
    first.isLt second.isLt)

theorem rightOf_surjective (fork : Fin count) : ∃ position, rightOf position = fork :=
  Finite.injective_iff_surjective.mp rightOf_injective fork

theorem held_rightOf (table : Table count) (position : Fin count) :
    held table (rightOf position) =
      (table.philosophers (rightOf position)).pc.holdsFirst +
        (table.philosophers position).pc.holdsSecond := by
  have sides : ∀ other, (table.philosophers other).pc.holds other (rightOf position) =
      (if other = rightOf position then (table.philosophers other).pc.holdsFirst else 0) +
        (if other = position then (table.philosophers other).pc.holdsSecond else 0) := by
    intro other
    simp only [Pc.holds, rightOf_injective.eq_iff]
  simp only [held, sides, Finset.sum_add_distrib, Finset.sum_ite_eq', Finset.mem_univ, if_true]

theorem Balanced.rightFork (balanced : Balanced table) (position : Fin count) :
    table.forks (rightOf position) + ((table.philosophers (rightOf position)).pc.holdsFirst +
      (table.philosophers position).pc.holdsSecond) = 1 := by
  rw [← held_rightOf]
  exact balanced.forks (rightOf position)

theorem Pc.Eating.holdsFirst {pc : Pc} (eating : pc.Eating) : pc.holdsFirst = 1 := by
  rcases eating with rfl | rfl <;> rfl

theorem Pc.Eating.holdsSecond {pc : Pc} (eating : pc.Eating) : pc.holdsSecond = 1 := by
  rcases eating with rfl | rfl <;> rfl

theorem Balanced.not_both_eating (balanced : Balanced table) (position : Fin count) :
    ¬ ((table.philosophers position).pc.Eating ∧
      (table.philosophers (rightOf position)).pc.Eating) := by
  rintro ⟨left, right⟩
  have units := balanced.rightFork position
  rw [right.holdsFirst, left.holdsSecond] at units
  omega

theorem Balanced.fork_zero_iff (balanced : Balanced table) (fork : Fin count) :
    table.forks fork = 0 ↔ (table.philosophers fork).pc.holdsFirst = 1 ∨
      ∃ position, rightOf position = fork ∧
        (table.philosophers position).pc.holdsSecond = 1 := by
  obtain ⟨left, rfl⟩ := rightOf_surjective fork
  have units := balanced.rightFork left
  simp only [rightOf_injective.eq_iff, exists_eq_left]
  omega

theorem inRoom_eq_card (table : Table count) :
    inRoom table =
      (Finset.univ.filter fun position => (table.philosophers position).pc.inRoom = 1).card := by
  rw [Finset.card_filter]
  apply Finset.sum_congr rfl
  intro position _
  cases (table.philosophers position).pc <;> rfl

/-- In every state of every run no two neighbours eat at once, a fork is taken
exactly while a neighbour holds it, and one philosopher stays out of the
room. -/
theorem run_exclusive (run : Run count history table) :
    (∀ position, ¬ ((table.philosophers position).pc.Eating ∧
      (table.philosophers (rightOf position)).pc.Eating)) ∧
    (∀ fork, table.forks fork ≤ 1 ∧
      (table.forks fork = 0 ↔ (table.philosophers fork).pc.holdsFirst = 1 ∨
        ∃ position, rightOf position = fork ∧
          (table.philosophers position).pc.holdsSecond = 1)) ∧
    (Finset.univ.filter fun position =>
      (table.philosophers position).pc.inRoom = 1).card ≤ count - 1 := by
  have balanced := balanced_of_run run
  refine ⟨balanced.not_both_eating, ?_, ?_⟩
  · intro fork
    refine ⟨?_, balanced.fork_zero_iff fork⟩
    rw [← balanced.forks fork]
    exact Nat.le_add_right _ _
  · rw [← inRoom_eq_card, ← balanced.lock]
    exact Nat.le_add_left _ _

/-- The first of five philosophers is eating, and its neighbour is not. -/
theorem run_exclusive_five :
    ∃ table : Table 5, Run 5 [0, 0, 0, 0, 0] table ∧ (table.philosophers 0).pc = .eat ∧
      table.forks 0 = 0 ∧ table.forks 1 = 0 ∧ ¬ (table.philosophers 1).pc.Eating ∧
      (Finset.univ.filter fun position =>
        (table.philosophers position).pc.inRoom = 1).card ≤ 4 := by
  obtain ⟨table, replayed, eats, left, right⟩ : ∃ table,
      replay philosopher [0, 0, 0, 0, 0] (initializeSemaphores 5) = some table ∧
      (table.philosophers 0).pc = .eat ∧ table.forks 0 = 0 ∧ table.forks 1 = 0 :=
    ⟨_, rfl, rfl, rfl, rfl⟩
  have run : Run 5 [0, 0, 0, 0, 0] table := Trace.of_replay rfl replayed
  obtain ⟨apart, _, room⟩ := run_exclusive run
  exact ⟨table, run, eats, left, right, fun neighbour => apart 0 ⟨.inl eats, neighbour⟩, room⟩

end Philosophers

end Tpt
