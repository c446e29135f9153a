import Tpt.Lib.Locals
import Tpt.Lib.Trace

/-!
The dining philosophers, `dinphilo.c`, for any number of them.

Each loop test, each `think`, each `eat` and each semaphore operation of a
philosopher is one step.  A `sem_wait` is enabled only while its semaphore is
positive.  A thread that `run_all_threads` has yet to create stands at its
first loop test.
-/

namespace Tpt

namespace Philosophers

/-- Where a philosopher stands: the statement it executes next. -/
inductive Pc where
  | loopTest
  | think
  | waitLock
  | waitFirst
  | waitSecond
  | eat
  | postFirst
  | postSecond
  | postLock
  | thinkAgain
  | finished
  deriving DecidableEq, Repr

/-- One thread: its place, its loop counter, and how often it has eaten. -/
structure Philosopher where
  pc : Pc
  i : Nat
  meals : Nat
  deriving DecidableEq, Repr

structure Table (count : Nat) where
  lock : Nat
  forks : Fin count → Nat
  philosophers : Fin count → Philosopher

def rightOf {count : Nat} (position : Fin count) : Fin count :=
  ⟨(position.val + 1) % count, Nat.mod_lt _ position.pos⟩

/-- `initialize_semaphores`, with every philosopher about to enter its loop. -/
def initializeSemaphores (count : Nat) : Table count :=
  { lock := count - 1
    forks := fun _ => 1
    philosophers := fun _ => { pc := .loopTest, i := 0, meals := 0 } }

namespace Table

variable {count : Nat}

def put (table : Table count) (position : Fin count) (self : Philosopher) : Table count :=
  { table with philosophers := Function.update table.philosophers position self }

def waitLock (table : Table count) : Option (Table count) :=
  (semWait table.lock).map fun lock => { table with lock }

def postLock (table : Table count) : Table count :=
  { table with lock := semPost table.lock }

def waitFork (table : Table count) (fork : Fin count) : Option (Table count) :=
  (semWait (table.forks fork)).map fun value =>
    { table with forks := Function.update table.forks fork value }

def postFork (table : Table count) (fork : Fin count) : Table count :=
  { table with forks := Function.update table.forks fork (semPost (table.forks fork)) }

end Table

def philosopher {count : Nat} (table : Table count) (position : Fin count) :
    Option (Table count) :=
  let self := table.philosophers position
  match self.pc with
  | .loopTest =>
      if self.i < 1 then some (table.put position { self with pc := .think })
      else some (table.put position { self with pc := .thinkAgain })
  | .think => some (table.put position { self with pc := .waitLock })
  | .waitLock => table.waitLock.map fun table => table.put position { self with pc := .waitFirst }
  | .waitFirst =>
      (table.waitFork position).map fun table => table.put position { self with pc := .waitSecond }
  | .waitSecond =>
      (table.waitFork (rightOf position)).map fun table =>
        table.put position { self with pc := .eat }
  | .eat => some (table.put position { self with pc := .postFirst, meals := self.meals + 1 })
  | .postFirst => some ((table.postFork position).put position { self with pc := .postSecond })
  | .postSecond =>
      some ((table.postFork (rightOf position)).put position { self with pc := .postLock })
  | .postLock => some (table.postLock.put position { self with pc := .loopTest, i := self.i + 1 })
  | .thinkAgain => some (table.put position { self with pc := .finished })
  | .finished => none

/-- The runs of `count` philosophers: any of them takes the next step. -/
def Run (count : Nat) : List (Fin count) → Table count → Prop :=
  Trace (fun table => table = initializeSemaphores count)
    (fun table position after => philosopher table position = some after)

/-- Between the `sem_wait` and the `sem_post` on the lock. -/
@[simp] def Pc.inRoom : Pc → Nat
  | .waitFirst | .waitSecond | .eat | .postFirst | .postSecond | .postLock => 1
  | _ => 0

/-- Between the `sem_wait` and the `sem_post` on the fork at its own position. -/
@[simp] def Pc.holdsFirst : Pc → Nat
  | .waitSecond | .eat | .postFirst => 1
  | _ => 0

/-- Between the `sem_wait` and the `sem_post` on the fork to its right. -/
@[simp] def Pc.holdsSecond : Pc → Nat
  | .eat | .postFirst | .postSecond => 1
  | _ => 0

/-- Between the second `sem_wait` on a fork and the first `sem_post`. -/
def Pc.Eating (pc : Pc) : Prop := pc = .eat ∨ pc = .postFirst

instance : DecidablePred Pc.Eating :=
  fun pc => inferInstanceAs (Decidable (pc = .eat ∨ pc = .postFirst))

def Pc.holds {count : Nat} (pc : Pc) (position fork : Fin count) : Nat :=
  (if position = fork then pc.holdsFirst else 0) +
    (if rightOf position = fork then pc.holdsSecond else 0)

def Philosopher.remaining (self : Philosopher) : Nat :=
  match self.pc with
  | .loopTest => 2 + 9 * (1 - self.i)
  | .think => 10
  | .waitLock => 9
  | .waitFirst => 8
  | .waitSecond => 7
  | .eat => 6
  | .postFirst => 5
  | .postSecond => 4
  | .postLock => 3
  | .thinkAgain => 1
  | .finished => 0

def Philosopher.Sound (self : Philosopher) : Prop :=
  match self.pc with
  | .loopTest => self.meals = self.i ∧ self.i ≤ 1
  | .think | .waitLock | .waitFirst | .waitSecond | .eat => self.meals = 0 ∧ self.i = 0
  | .postFirst | .postSecond | .postLock => self.meals = 1 ∧ self.i = 0
  | .thinkAgain | .finished => self.meals = 1 ∧ self.i = 1

structure Moves {count : Nat} (table : Table count) (position : Fin count) (moved : Philosopher)
    (after : Table count) : Prop where
  philosophers : after.philosophers = Function.update table.philosophers position moved
  lock : after.lock + moved.pc.inRoom = table.lock + (table.philosophers position).pc.inRoom
  forks : ∀ fork, after.forks fork + moved.pc.holds position fork =
    table.forks fork + (table.philosophers position).pc.holds position fork
  remaining : moved.remaining + 1 = (table.philosophers position).remaining
  sound : (table.philosophers position).Sound → moved.Sound

section Semaphores

variable {count : Nat} {table after : Table count} {fork : Fin count}

theorem waitLock_eq_some :
    table.waitLock = some after ↔
      ∃ lock, table.lock = lock + 1 ∧ after = { table with lock } := by
  simp only [Table.waitLock, Option.map_eq_some_iff, semWait_eq_some, @eq_comm _ after]

theorem waitFork_eq_some :
    table.waitFork fork = some after ↔
      ∃ value, table.forks fork = value + 1 ∧
        after = { table with forks := Function.update table.forks fork value } := by
  simp only [Table.waitFork, Option.map_eq_some_iff, semWait_eq_some, @eq_comm _ after]

end Semaphores

namespace Moves

variable {count : Nat} {table after : Table count} {position : Fin count} {self : Philosopher}

theorem put
    (room : self.pc.inRoom = (table.philosophers position).pc.inRoom)
    (first : self.pc.holdsFirst = (table.philosophers position).pc.holdsFirst)
    (second : self.pc.holdsSecond = (table.philosophers position).pc.holdsSecond)
    (remaining : self.remaining + 1 = (table.philosophers position).remaining)
    (sound : (table.philosophers position).Sound → self.Sound) :
    Moves table position self (table.put position self) where
  philosophers := rfl
  lock := congrArg (table.lock + ·) room
  forks fork := by
    simp only [Pc.holds, first, second]
    rfl
  remaining := remaining
  sound := sound

theorem lockPut
    {lock : Nat}
    (room : lock + self.pc.inRoom = table.lock + (table.philosophers position).pc.inRoom)
    (first : self.pc.holdsFirst = (table.philosophers position).pc.holdsFirst)
    (second : self.pc.holdsSecond = (table.philosophers position).pc.holdsSecond)
    (remaining : self.remaining + 1 = (table.philosophers position).remaining)
    (sound : (table.philosophers position).Sound → self.Sound) :
    Moves table position self ({ table with lock }.put position self) where
  philosophers := rfl
  lock := room
  forks fork := by
    simp only [Pc.holds, first, second]
    rfl
  remaining := remaining
  sound := sound

theorem forkPut
    {fork : Fin count} {value : Nat}
    (room : self.pc.inRoom = (table.philosophers position).pc.inRoom)
    (moved : value + self.pc.holds position fork =
      table.forks fork + (table.philosophers position).pc.holds position fork)
    (others : ∀ other, other ≠ fork → self.pc.holds position other =
      (table.philosophers position).pc.holds position other)
    (remaining : self.remaining + 1 = (table.philosophers position).remaining)
    (sound : (table.philosophers position).Sound → self.Sound) :
    Moves table position self
      ({ table with forks := Function.update table.forks fork value }.put position self) where
  philosophers := rfl
  lock := congrArg (table.lock + ·) room
  forks other := by
    by_cases same : other = fork
    · subst same
      simpa [Table.put] using moved
    · simp [Table.put, Function.update_of_ne same, others other same]
  remaining := remaining
  sound := sound

theorem firstPut
    {value : Nat}
    (room : self.pc.inRoom = (table.philosophers position).pc.inRoom)
    (first : value + self.pc.holdsFirst =
      table.forks position + (table.philosophers position).pc.holdsFirst)
    (second : self.pc.holdsSecond = (table.philosophers position).pc.holdsSecond)
    (remaining : self.remaining + 1 = (table.philosophers position).remaining)
    (sound : (table.philosophers position).Sound → self.Sound) :
    Moves table position self
      ({ table with forks := Function.update table.forks position value }.put position self) := by
  refine forkPut room ?_ ?_ remaining sound
  · simp only [Pc.holds, if_true, second, ← Nat.add_assoc, first]
  · intro other different
    simp only [Pc.holds, if_neg (Ne.symm different), second]

theorem secondPut
    {value : Nat}
    (room : self.pc.inRoom = (table.philosophers position).pc.inRoom)
    (first : self.pc.holdsFirst = (table.philosophers position).pc.holdsFirst)
    (second : value + self.pc.holdsSecond =
      table.forks (rightOf position) + (table.philosophers position).pc.holdsSecond)
    (remaining : self.remaining + 1 = (table.philosophers position).remaining)
    (sound : (table.philosophers position).Sound → self.Sound) :
    Moves table position self
      ({ table with
        forks := Function.update table.forks (rightOf position) value }.put position self) := by
  refine forkPut room ?_ ?_ remaining sound
  · simp only [Pc.holds, if_true, first]
    rw [Nat.add_left_comm, second, Nat.add_left_comm]
  · intro other different
    simp only [Pc.holds, if_neg (Ne.symm different), first]

end Moves

/-- What a step of a philosopher does, whatever statement it executes. -/
theorem philosopher_moves
    {count : Nat} {table after : Table count} {position : Fin count}
    (stepped : philosopher table position = some after) :
    ∃ self, Moves table position self after := by
  unfold philosopher at stepped
  cases place : (table.philosophers position).pc with
  | loopTest =>
      simp only [place] at stepped
      split at stepped
      case isTrue again =>
        obtain rfl := Option.some.inj stepped
        refine ⟨_, Moves.put ?_ ?_ ?_ ?_ ?_⟩ <;>
          simp_all [Philosopher.remaining, Philosopher.Sound]
      case isFalse ended =>
        obtain rfl := Option.some.inj stepped
        refine ⟨_, Moves.put ?_ ?_ ?_ ?_ ?_⟩
        · simp [place]
        · simp [place]
        · simp [place]
        · simp [Philosopher.remaining, place, Nat.sub_eq_zero_of_le (Nat.le_of_not_lt ended)]
        · simp only [Philosopher.Sound, place]
          omega
  | think =>
      simp only [place, Option.some.injEq] at stepped
      subst stepped
      refine ⟨_, Moves.put ?_ ?_ ?_ ?_ ?_⟩ <;>
        simp [place, Philosopher.remaining, Philosopher.Sound]
  | waitLock =>
      simp only [place, Option.map_eq_some_iff, waitLock_eq_some] at stepped
      obtain ⟨_, ⟨lock, positive, rfl⟩, rfl⟩ := stepped
      refine ⟨_, Moves.lockPut ?_ ?_ ?_ ?_ ?_⟩ <;>
        simp [place, positive, Philosopher.remaining, Philosopher.Sound]
  | waitFirst =>
      simp only [place, Option.map_eq_some_iff, waitFork_eq_some] at stepped
      obtain ⟨_, ⟨value, positive, rfl⟩, rfl⟩ := stepped
      refine ⟨_, Moves.firstPut ?_ ?_ ?_ ?_ ?_⟩ <;>
        simp [place, positive, Philosopher.remaining, Philosopher.Sound]
  | waitSecond =>
      simp only [place, Option.map_eq_some_iff, waitFork_eq_some] at stepped
      obtain ⟨_, ⟨value, positive, rfl⟩, rfl⟩ := stepped
      refine ⟨_, Moves.secondPut ?_ ?_ ?_ ?_ ?_⟩ <;>
        simp [place, positive, Philosopher.remaining, Philosopher.Sound]
  | eat =>
      simp only [place, Option.some.injEq] at stepped
      subst stepped
      refine ⟨_, Moves.put ?_ ?_ ?_ ?_ ?_⟩ <;>
        simp [place, Philosopher.remaining, Philosopher.Sound]
  | postFirst =>
      simp only [place, Option.some.injEq] at stepped
      subst stepped
      refine ⟨_, Moves.firstPut ?_ ?_ ?_ ?_ ?_⟩ <;>
        simp [place, semPost, Philosopher.remaining, Philosopher.Sound]
  | postSecond =>
      simp only [place, Option.some.injEq] at stepped
      subst stepped
      refine ⟨_, Moves.secondPut ?_ ?_ ?_ ?_ ?_⟩ <;>
        simp [place, semPost, Philosopher.remaining, Philosopher.Sound]
  | postLock =>
      simp only [place, Option.some.injEq] at stepped
      subst stepped
      refine ⟨_, Moves.lockPut ?_ ?_ ?_ ?_ ?_⟩ <;>
        simp +contextual [place, semPost, Philosopher.remaining, Philosopher.Sound]
  | thinkAgain =>
      simp only [place, Option.some.injEq] at stepped
      subst stepped
      refine ⟨_, Moves.put ?_ ?_ ?_ ?_ ?_⟩ <;>
        simp [place, Philosopher.remaining, Philosopher.Sound]
  | finished => simp [place] at stepped

end Philosophers

end Tpt
