import Tpt.Lib.Locals
import Tpt.Lib.Progress

/-!
The counter of `condvar.c`: one thread waits on a condition variable until the
others have counted to the limit.

There may be any number of counting threads; the source has two.  A wait may
end without a signal, as POSIX allows.  `count` is an `int` in the source; it
stays within ten for each thread and 100, which fits an `int` for up to
214748354 counting threads.
-/

namespace Tpt

namespace Condvar

universe u

def countLimit : Nat := 12

/-- `tcount`. -/
def turns : Nat := 10

inductive IncrementPc where
  | loopTest
  | lock
  | increment
  | unlock
  | exited
  deriving DecidableEq

structure Incrementer where
  pc : IncrementPc
  i : Nat
  deriving DecidableEq

inductive WatchPc where
  | lock
  | loopTest
  | waiting
  | woken
  | add
  | unlock
  | exited
  deriving DecidableEq

/-- `rounds` counts the waits that have ended, for the specification only. -/
structure Program (Thread : Type u) where
  count : Nat
  mutex : Bool
  incrementers : Thread → Incrementer
  watcher : WatchPc
  rounds : Nat

/-- `main` after it has created the threads. -/
def started (Thread : Type u) : Program Thread :=
  { count := 0, mutex := false, incrementers := fun _ => { pc := .loopTest, i := 0 },
    watcher := .lock, rounds := 0 }

inductive Event (Thread : Type u) where
  | increment (thread : Thread)
  | watch
  | spurious
  deriving DecidableEq

/-- `pthread_cond_signal` reaches the watcher if it waits, and nobody otherwise. -/
def signalled : WatchPc → WatchPc
  | .waiting => .woken
  | pc => pc

variable {Thread : Type u}

def incrementCount [DecidableEq Thread] (program : Program Thread) (thread : Thread) :
    Option (Program Thread) :=
  let self := program.incrementers thread
  let put (self : Incrementer) := Function.update program.incrementers thread self
  match self.pc with
  | .loopTest =>
      if self.i < turns then some { program with incrementers := put { self with pc := .lock } }
      else some { program with incrementers := put { self with pc := .exited } }
  | .lock =>
      if program.mutex then none
      else some { program with mutex := true, incrementers := put { self with pc := .increment } }
  | .increment =>
      some { program with
        count := program.count + 1
        watcher := if program.count + 1 = countLimit then signalled program.watcher
          else program.watcher
        incrementers := put { self with pc := .unlock } }
  | .unlock =>
      some { program with
        mutex := false, incrementers := put { pc := .loopTest, i := self.i + 1 } }
  | .exited => none

def watchCount (program : Program Thread) : Option (Program Thread) :=
  match program.watcher with
  | .lock =>
      if program.mutex then none else some { program with mutex := true, watcher := .loopTest }
  | .loopTest =>
      if program.count < countLimit then
        some { program with mutex := false, watcher := .waiting }
      else some { program with watcher := .unlock }
  | .waiting => none
  | .woken => if program.mutex then none else some { program with mutex := true, watcher := .add }
  | .add =>
      some { program with
        count := program.count + 100, rounds := program.rounds + 1, watcher := .loopTest }
  | .unlock => some { program with mutex := false, watcher := .exited }
  | .exited => none

def step [DecidableEq Thread] (program : Program Thread) : Event Thread → Option (Program Thread)
  | .increment thread => incrementCount program thread
  | .watch => watchCount program
  | .spurious =>
      if program.watcher = .waiting then some { program with watcher := .woken } else none

abbrev Run [DecidableEq Thread] (history : List (Event Thread)) (program : Program Thread) :
    Prop :=
  Trace (fun program => program = started Thread)
    (fun before event after => step before event = some after) history program

/-- The threads hold the mutex between `lock` and `unlock`, but for the wait. -/
def Incrementer.Holds (self : Incrementer) : Prop := self.pc = .increment ∨ self.pc = .unlock

instance holdsDecidable (self : Incrementer) : Decidable self.Holds :=
  inferInstanceAs (Decidable (_ ∨ _))

def WatchPc.Holds (pc : WatchPc) : Prop := pc = .loopTest ∨ pc = .add ∨ pc = .unlock

instance watchHoldsDecidable (pc : WatchPc) : Decidable pc.Holds :=
  inferInstanceAs (Decidable (_ ∨ _))

def Incrementer.made (self : Incrementer) : Nat :=
  self.i + if self.pc = .unlock then 1 else 0

/-- A thread is in a turn of its loop only while turns are left. -/
def Incrementer.Sound (self : Incrementer) : Prop :=
  match self.pc with
  | .loopTest => self.i ≤ turns
  | .exited => self.i = turns
  | _ => self.i < turns

theorem Incrementer.Sound.made_le {self : Incrementer} (sound : self.Sound) :
    self.made ≤ turns := by
  unfold Incrementer.Sound at sound
  unfold Incrementer.made
  cases pc : self.pc <;> simp only [pc] at sound <;> simp <;> omega

/-- Where the watcher is, against the count: it waits below the limit, adds to
the count once at most, and leaves at the limit or above. -/
def WatchPc.Sound (pc : WatchPc) (count rounds : Nat) : Prop :=
  match pc with
  | .lock | .woken | .add => rounds = 0
  | .loopTest => rounds ≤ 1
  | .waiting => rounds = 0 ∧ count < countLimit
  | .unlock | .exited => rounds ≤ 1 ∧ countLimit ≤ count

theorem WatchPc.Sound.rounds_le {pc : WatchPc} {count rounds : Nat}
    (sound : pc.Sound count rounds) : rounds ≤ 1 := by
  unfold WatchPc.Sound at sound
  split at sound <;> omega

theorem WatchPc.Sound.count
    {pc : WatchPc} {count rounds : Nat} (sound : pc.Sound count rounds) :
    (if count + 1 = countLimit then signalled pc else pc).Sound (count + 1) rounds := by
  cases pc with
  | waiting =>
      obtain ⟨first, below⟩ := sound
      split
      · exact first
      next different => exact ⟨first, by simp only [countLimit] at *; omega⟩
  | lock | woken | add | loopTest =>
      split <;> exact sound
  | unlock | exited =>
      have above : countLimit ≤ count + 1 := Nat.le_succ_of_le sound.2
      split <;> exact ⟨sound.1, above⟩

section Invariant

variable [Fintype Thread] [DecidableEq Thread]

structure Sound (program : Program Thread) : Prop where
  incrementers : ∀ thread, (program.incrementers thread).Sound
  watcher : program.watcher.Sound program.count program.rounds
  counted : program.count = total Incrementer.made program.incrementers + 100 * program.rounds
  exclusive : countThreads Incrementer.Holds program.incrementers +
    (if program.watcher.Holds then 1 else 0) = program.mutex.toNat

namespace Sound

variable {program after : Program Thread} {thread : Thread}

omit [DecidableEq Thread] in
theorem start : Sound (started Thread) where
  incrementers _ := by simp [started, Incrementer.Sound]
  watcher := rfl
  counted := by simp [started, total, Incrementer.made]
  exclusive := by simp [started, countThreads, total, Incrementer.Holds, WatchPc.Holds]

/-- One counting thread moves, and the watcher is signalled at most. -/
theorem replace
    (sound : Sound program) {self : Incrementer} {count : Nat} {mutex : Bool} {watcher : WatchPc}
    (selfSound : self.Sound) (watcherSound : watcher.Sound count program.rounds)
    (counted : count + (program.incrementers thread).made = program.count + self.made)
    (watcherHolds : watcher.Holds ↔ program.watcher.Holds)
    (exclusive : mutex.toNat + (if (program.incrementers thread).Holds then 1 else 0) =
      program.mutex.toNat + if self.Holds then 1 else 0) :
    Sound { program with
      count := count
      mutex := mutex
      watcher := watcher
      incrementers := Function.update program.incrementers thread self } := by
  have made := total_update Incrementer.made program.incrementers thread self
  have holds := total_update (fun self : Incrementer => if self.Holds then 1 else 0)
    program.incrementers thread self
  refine ⟨fun other => ?_, watcherSound, ?_, ?_⟩
  · by_cases same : other = thread
    · subst same
      simpa using selfSound
    · simpa [Function.update_of_ne same] using sound.incrementers other
  · have before := sound.counted
    show count = total Incrementer.made (Function.update program.incrementers thread self) +
      100 * program.rounds
    omega
  · have before := sound.exclusive
    simp only [countThreads, watcherHolds] at before ⊢
    omega

omit [DecidableEq Thread] in
theorem locked_of_holds
    (sound : Sound program) (holds : (program.incrementers thread).Holds) :
    program.mutex = true := by
  have one := single_le_total (fun self : Incrementer => if self.Holds then 1 else 0)
    program.incrementers thread
  have exclusive := sound.exclusive
  rw [if_pos holds] at one
  unfold countThreads at exclusive
  by_contra free
  simp only [Bool.not_eq_true] at free
  rw [free, Bool.toNat_false] at exclusive
  omega

theorem increment
    (sound : Sound program) (stepped : incrementCount program thread = some after) :
    Sound after := by
  have self := sound.incrementers thread
  have watcher := sound.watcher
  have exclusive := sound.exclusive
  unfold incrementCount at stepped
  cases pc : (program.incrementers thread).pc with
  | loopTest =>
      simp only [Incrementer.Sound, pc] at self
      simp only [pc] at stepped
      split at stepped
      next more =>
        obtain rfl := Option.some.inj stepped
        refine sound.replace more watcher ?_ Iff.rfl ?_ <;>
          simp [Incrementer.made, Incrementer.Holds, pc]
      next last =>
        obtain rfl := Option.some.inj stepped
        refine sound.replace (by simp only [Incrementer.Sound]; omega) watcher ?_ Iff.rfl ?_ <;>
          simp [Incrementer.made, Incrementer.Holds, pc]
  | lock =>
      simp only [Incrementer.Sound, pc] at self
      simp only [pc, Option.ite_none_left_eq_some, Option.some.injEq] at stepped
      obtain ⟨free, rfl⟩ := stepped
      refine sound.replace self watcher ?_ Iff.rfl ?_ <;>
        simp [Incrementer.made, Incrementer.Holds, pc, free]
  | increment =>
      simp only [Incrementer.Sound, pc] at self
      simp only [pc] at stepped
      obtain rfl := Option.some.inj stepped
      refine sound.replace self watcher.count ?_ ?_ ?_
      · simp [Incrementer.made, pc]
        omega
      · split
        · cases program.watcher <;> simp [signalled, WatchPc.Holds]
        · exact Iff.rfl
      · simp [Incrementer.Holds, pc]
  | unlock =>
      simp only [Incrementer.Sound, pc] at self
      simp only [pc] at stepped
      obtain rfl := Option.some.inj stepped
      have locked : program.mutex = true := sound.locked_of_holds (.inr pc)
      refine sound.replace (by simp only [Incrementer.Sound]; omega) watcher ?_ Iff.rfl ?_ <;>
        simp [Incrementer.made, Incrementer.Holds, pc, locked]
  | exited => simp [pc] at stepped

omit [DecidableEq Thread] in
theorem locked_of_watching (sound : Sound program) (holds : program.watcher.Holds) :
    program.mutex = true := by
  have exclusive := sound.exclusive
  rw [if_pos holds] at exclusive
  by_contra free
  simp only [Bool.not_eq_true] at free
  simp [free] at exclusive

omit [DecidableEq Thread] in
theorem move
    (sound : Sound program) {mutex : Bool} {watcher : WatchPc}
    (watcherSound : watcher.Sound program.count program.rounds)
    (exclusive : mutex.toNat + (if program.watcher.Holds then 1 else 0) =
      program.mutex.toNat + if watcher.Holds then 1 else 0) :
    Sound { program with mutex := mutex, watcher := watcher } := by
  refine ⟨sound.incrementers, watcherSound, sound.counted, ?_⟩
  have before := sound.exclusive
  simp only at before ⊢
  omega

omit [DecidableEq Thread] in
theorem watch (sound : Sound program) (stepped : watchCount program = some after) :
    Sound after := by
  have watcher := sound.watcher
  have exclusive := sound.exclusive
  unfold watchCount at stepped
  split at stepped
  case h_1 pc =>
    rw [pc] at watcher
    simp only [Option.ite_none_left_eq_some, Option.some.injEq] at stepped
    obtain ⟨free, rfl⟩ := stepped
    have first : program.rounds = 0 := watcher
    refine sound.move (by simp [WatchPc.Sound, first]) ?_
    simp [WatchPc.Holds, pc, free]
  case h_2 pc =>
    rw [pc] at watcher
    have locked := sound.locked_of_watching (.inl pc)
    split at stepped
    next below =>
      obtain rfl := Option.some.inj stepped
      have counted := sound.counted
      simp only [countLimit] at below
      refine sound.move ⟨by omega, below⟩ ?_
      simp [WatchPc.Holds, pc, locked]
    next above =>
      obtain rfl := Option.some.inj stepped
      have atMostOnce : program.rounds ≤ 1 := watcher
      have holds : (WatchPc.unlock).Holds := .inr (.inr rfl)
      have heldBefore : program.watcher.Holds := .inl pc
      refine sound.move ⟨atMostOnce, Nat.le_of_not_lt above⟩ ?_
      rw [if_pos holds, if_pos heldBefore]
  case h_3 => contradiction
  case h_4 pc =>
    rw [pc] at watcher
    simp only [Option.ite_none_left_eq_some, Option.some.injEq] at stepped
    obtain ⟨free, rfl⟩ := stepped
    have first : program.rounds = 0 := watcher
    refine sound.move first ?_
    simp [WatchPc.Holds, pc, free]
  case h_5 pc =>
    rw [pc] at watcher
    obtain rfl := Option.some.inj stepped
    have first : program.rounds = 0 := watcher
    have counted := sound.counted
    refine ⟨sound.incrementers, by simp [WatchPc.Sound, first], ?_, ?_⟩
    · simp only
      omega
    · simpa [WatchPc.Holds, pc] using exclusive
  case h_6 pc =>
    rw [pc] at watcher
    obtain rfl := Option.some.inj stepped
    have locked := sound.locked_of_watching (.inr (.inr pc))
    refine sound.move watcher ?_
    simp [WatchPc.Holds, pc, locked]
  case h_7 => contradiction

theorem step
    {event : Event Thread} (sound : Sound program)
    (stepped : Condvar.step program event = some after) : Sound after := by
  cases event with
  | increment thread => exact sound.increment stepped
  | watch => exact sound.watch stepped
  | spurious =>
      simp only [Condvar.step, Option.ite_none_right_eq_some, Option.some.injEq] at stepped
      obtain ⟨pc, rfl⟩ := stepped
      have watcher := sound.watcher
      rw [pc] at watcher
      refine sound.move watcher.1 ?_
      simp [WatchPc.Holds, pc]

theorem run {history : List (Event Thread)} (run : Run history program) : Sound program :=
  run.invariant (fun _ program => Sound program) (by rintro _ rfl; exact start)
    fun sound stepped => sound.step stepped

omit [DecidableEq Thread] in
theorem count_le (sound : Sound program) :
    program.count ≤ Fintype.card Thread * turns + 100 := by
  have made : total Incrementer.made program.incrementers ≤ Fintype.card Thread * turns := by
    rw [← smul_eq_mul, ← Finset.card_univ]
    exact Finset.sum_le_card_nsmul _ _ _ fun thread _ => (sound.incrementers thread).made_le
  have rounds := sound.watcher.rounds_le
  have counted := sound.counted
  omega

omit [DecidableEq Thread] in
theorem count_of_exited
    (sound : Sound program) (exited : ∀ thread, (program.incrementers thread).pc = .exited) :
    program.count = Fintype.card Thread * turns + 100 * program.rounds := by
  have each : ∀ thread, Incrementer.made (program.incrementers thread) = turns := by
    intro thread
    have self := sound.incrementers thread
    simp only [Incrementer.Sound, exited thread] at self
    simp [Incrementer.made, exited thread, self]
  rw [sound.counted]
  simp [total, each]

end Sound

def Stuck (program : Program Thread) : Prop :=
  (∀ thread, incrementCount program thread = none) ∧ watchCount program = none

/-- A stuck program has ended: nobody holds the mutex, and the watcher cannot
wait for a signal that has been sent. -/
theorem Stuck.exited
    {program : Program Thread} (stuck : Stuck program) (sound : Sound program)
    (enough : 2 ≤ Fintype.card Thread) :
    (∀ thread, (program.incrementers thread).pc = .exited) ∧ program.watcher = .exited := by
  obtain ⟨blocked, watchBlocked⟩ := stuck
  have free : program.mutex = false := by
    by_contra locked
    simp only [Bool.not_eq_false] at locked
    have exclusive := sound.exclusive
    rw [locked, Bool.toNat_true] at exclusive
    by_cases holds : program.watcher.Holds
    · rcases holds with pc | pc | pc
      · simp only [watchCount, pc] at watchBlocked
        split at watchBlocked <;> contradiction
      · simp [watchCount, pc] at watchBlocked
      · simp [watchCount, pc] at watchBlocked
    · rw [if_neg holds, Nat.add_zero, countThreads_eq_card] at exclusive
      obtain ⟨thread, member⟩ := Finset.card_pos.mp (by rw [exclusive]; exact Nat.one_pos)
      have noStep := blocked thread
      rcases (Finset.mem_filter.mp member).2 with pc | pc
      · simp [incrementCount, pc] at noStep
      · simp [incrementCount, pc] at noStep
  have exited : ∀ thread, (program.incrementers thread).pc = .exited := by
    intro thread
    have noStep := blocked thread
    unfold incrementCount at noStep
    cases pc : (program.incrementers thread).pc with
    | loopTest =>
        simp only [pc] at noStep
        split at noStep <;> contradiction
    | lock => simp [pc, free] at noStep
    | increment => simp [pc] at noStep
    | unlock => simp [pc] at noStep
    | exited => rfl
  refine ⟨exited, ?_⟩
  have watcher := sound.watcher
  have counted := sound.count_of_exited exited
  cases pc : program.watcher with
  | waiting =>
      rw [pc] at watcher
      have below := watcher.2
      simp only [countLimit, turns] at below counted
      omega
  | loopTest =>
      simp only [watchCount, pc] at watchBlocked
      split at watchBlocked <;> contradiction
  | lock => simp [watchCount, pc, free] at watchBlocked
  | woken => simp [watchCount, pc, free] at watchBlocked
  | add => simp [watchCount, pc] at watchBlocked
  | unlock => simp [watchCount, pc] at watchBlocked
  | exited => rfl

end Invariant

section Progress

def Incrementer.steps (self : Incrementer) : Nat :=
  match self.pc with
  | .loopTest => 4 * (turns - self.i) + 1
  | .lock => 4 * (turns - self.i)
  | .increment => 4 * (turns - self.i) - 1
  | .unlock => 4 * (turns - self.i) - 2
  | .exited => 0

def WatchPc.steps (pc : WatchPc) (count : Nat) : Nat :=
  match pc with
  | .lock => 7
  | .loopTest => if count < countLimit then 6 else 2
  | .waiting => 5
  | .woken => 4
  | .add => 3
  | .unlock => 1
  | .exited => 0

theorem WatchPc.steps_count (pc : WatchPc) (count : Nat) :
    (if count + 1 = countLimit then signalled pc else pc).steps (count + 1) ≤ pc.steps count := by
  cases pc with
  | loopTest =>
      rw [show signalled .loopTest = .loopTest from rfl, ite_self]
      simp only [WatchPc.steps]
      by_cases below : count < countLimit
      · rw [if_pos below]
        split <;> omega
      · rw [if_neg below, if_neg fun next => below (Nat.lt_of_succ_lt next)]
  | waiting => split <;> simp [signalled, WatchPc.steps]
  | lock | woken | add | unlock | exited => simp [signalled, WatchPc.steps]

variable [Fintype Thread] [DecidableEq Thread]

def Program.steps (program : Program Thread) : Nat :=
  total Incrementer.steps program.incrementers + program.watcher.steps program.count

theorem incrementCount_steps
    {program after : Program Thread} {thread : Thread} (sound : Sound program)
    (stepped : incrementCount program thread = some after) : after.steps < program.steps := by
  have self := sound.incrementers thread
  have watcher := program.watcher.steps_count program.count
  have changed := fun self =>
    total_update Incrementer.steps program.incrementers thread self
  unfold incrementCount at stepped
  cases pc : (program.incrementers thread).pc with
  | loopTest =>
      simp only [pc] at stepped
      split at stepped
      · obtain rfl := Option.some.inj stepped
        have fewer := changed { program.incrementers thread with pc := .lock }
        simp only [Incrementer.steps, pc] at fewer
        simp only [Program.steps]
        omega
      · obtain rfl := Option.some.inj stepped
        have fewer := changed { program.incrementers thread with pc := .exited }
        simp only [Incrementer.steps, pc] at fewer
        simp only [Program.steps]
        omega
  | lock =>
      simp only [Incrementer.Sound, pc] at self
      simp only [pc, Option.ite_none_left_eq_some, Option.some.injEq] at stepped
      obtain ⟨_, rfl⟩ := stepped
      have fewer := changed { program.incrementers thread with pc := .increment }
      simp only [Incrementer.steps, pc] at fewer
      simp only [Program.steps]
      omega
  | increment =>
      simp only [Incrementer.Sound, pc] at self
      simp only [pc] at stepped
      obtain rfl := Option.some.inj stepped
      have fewer := changed { program.incrementers thread with pc := .unlock }
      simp only [Incrementer.steps, pc] at fewer
      simp only [Program.steps]
      omega
  | unlock =>
      simp only [Incrementer.Sound, pc] at self
      simp only [pc] at stepped
      obtain rfl := Option.some.inj stepped
      have fewer := changed { pc := .loopTest, i := (program.incrementers thread).i + 1 }
      simp only [Incrementer.steps, pc] at fewer
      simp only [Program.steps]
      omega
  | exited => simp [pc] at stepped

omit [DecidableEq Thread] in
theorem watchCount_steps
    {program after : Program Thread} (stepped : watchCount program = some after) :
    after.steps < program.steps := by
  unfold watchCount at stepped
  split at stepped
  case h_1 pc =>
    simp only [Option.ite_none_left_eq_some, Option.some.injEq] at stepped
    obtain ⟨_, rfl⟩ := stepped
    simp only [Program.steps, WatchPc.steps, pc]
    split <;> omega
  case h_2 pc =>
    split at stepped
    next below =>
      obtain rfl := Option.some.inj stepped
      simp only [Program.steps, WatchPc.steps, pc, if_pos below]
      omega
    next above =>
      obtain rfl := Option.some.inj stepped
      simp only [Program.steps, WatchPc.steps, pc, if_neg above]
      omega
  case h_3 => contradiction
  case h_4 pc =>
    simp only [Option.ite_none_left_eq_some, Option.some.injEq] at stepped
    obtain ⟨_, rfl⟩ := stepped
    simp only [Program.steps, WatchPc.steps, pc]
    omega
  case h_5 pc =>
    obtain rfl := Option.some.inj stepped
    have above : ¬program.count + 100 < countLimit := by
      simp only [countLimit]
      omega
    simp only [Program.steps, WatchPc.steps, pc, if_neg above]
    omega
  case h_6 pc =>
    obtain rfl := Option.some.inj stepped
    simp only [Program.steps, WatchPc.steps, pc]
    omega
  case h_7 => contradiction

theorem step_steps
    {program after : Program Thread} {event : Event Thread} (sound : Sound program)
    (stepped : step program event = some after) : after.steps < program.steps := by
  cases event with
  | increment thread => exact incrementCount_steps sound stepped
  | watch => exact watchCount_steps stepped
  | spurious =>
      simp only [step, Option.ite_none_right_eq_some, Option.some.injEq] at stepped
      obtain ⟨pc, rfl⟩ := stepped
      simp [Program.steps, WatchPc.steps, pc]

/-- With two counting threads or more, every run ends: no run takes more than
41 steps for each of them and 7 for the watcher, and a run in which no thread
can go on, even if no wait ends by itself any more, has joined every thread.
The watcher has then added 100 once at most, whatever signal it missed. -/
theorem counting_completes (enough : 2 ≤ Fintype.card Thread) :
    (∀ history (program : Program Thread), Run history program →
      history.length ≤ 41 * Fintype.card Thread + 7 ∧
        program.count ≤ 10 * Fintype.card Thread + 100) ∧
    (∀ history (program : Program Thread), Run history program → Stuck program →
      (∀ thread, (program.incrementers thread).pc = .exited) ∧ program.watcher = .exited ∧
        program.mutex = false ∧ program.rounds ≤ 1 ∧
        program.count = 10 * Fintype.card Thread + 100 * program.rounds) := by
  constructor
  · intro history program run
    have bounded : Sound program ∧
        history.length + program.steps ≤ 41 * Fintype.card Thread + 7 := by
      refine run.invariant (fun history program => Sound program ∧
        history.length + program.steps ≤ 41 * Fintype.card Thread + 7) ?_ ?_
      · rintro _ rfl
        refine ⟨.start, ?_⟩
        simp [Program.steps, started, total, Incrementer.steps, WatchPc.steps, turns]
        omega
      · rintro history before event after ⟨sound, bound⟩ stepped
        have fewer := step_steps sound stepped
        refine ⟨sound.step stepped, ?_⟩
        rw [List.length_cons]
        omega
    have counted := bounded.1.count_le
    simp only [turns] at counted
    omega
  · intro history program run stuck
    have sound := Sound.run run
    obtain ⟨exited, watcher⟩ := stuck.exited sound enough
    have watcherSound := sound.watcher
    rw [watcher] at watcherSound
    have free : program.mutex = false := by
      have exclusive := sound.exclusive
      have nobody : countThreads Incrementer.Holds program.incrementers = 0 := by
        simp [countThreads, total, Incrementer.Holds, exited]
      rw [nobody, watcher] at exclusive
      simpa [WatchPc.Holds] using exclusive.symm
    refine ⟨exited, watcher, free, watcherSound.1, ?_⟩
    rw [sound.count_of_exited exited, turns, Nat.mul_comm]

end Progress

/-- The two counting threads of the source end at 20, or at 120 if the watcher
waited. -/
theorem counting_completes_two :
    (∀ history (program : Program Bool), Run history program →
      history.length ≤ 89 ∧ program.count ≤ 120) ∧
    ∀ history (program : Program Bool), Run history program → Stuck program →
      program.count = 20 ∨ program.count = 120 := by
  have enough : 2 ≤ Fintype.card Bool := by decide
  have completes := counting_completes enough
  refine ⟨fun history program run => completes.1 history program run, ?_⟩
  intro history program run stuck
  obtain ⟨_, _, _, once, count⟩ := completes.2 history program run stuck
  rw [count, Fintype.card_bool]
  omega

end Condvar

end Tpt
