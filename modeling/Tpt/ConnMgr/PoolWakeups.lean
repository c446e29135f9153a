import Tpt.ConnMgr.Pool

/-!
No wakeup of the pool is lost.

As long as some thread waits unsignalled, every idle connection is matched by
a woken thread that has yet to look at the queue.
-/

namespace Tpt

namespace ConnMgr

universe u v

variable {Conn : Type u} {Thread : Type v}

def Worker.Woken (worker : Worker Conn) : Prop := worker.phase = .woken

instance : DecidablePred (@Worker.Woken Conn) :=
  fun worker => inferInstanceAs (Decidable (worker.phase = .woken))

def SomeWaiting (workers : Thread → Worker Conn) : Prop :=
  ∃ thread, (workers thread).phase = .waiting

/-- The idle connections are covered by woken threads while a thread waits. -/
structure Covered [Fintype Thread] (system : System Thread Conn) (idle : List Conn) : Prop where
  represents : Represents system.pool.queue idle
  cover : SomeWaiting system.workers → idle.length ≤ countThreads Worker.Woken system.workers

theorem Covered.initial
    [Fintype Thread] {system : System Thread Conn} {maxPoolSize : UInt32}
    (begins : Initial maxPoolSize system) : Covered system [] := by
  obtain ⟨memory, rfl⟩ := begins
  exact ⟨represents_init memory, fun _ => Nat.zero_le _⟩

variable [DecidableEq Thread]

theorem SomeWaiting.of_update
    {workers : Thread → Worker Conn} {thread : Thread} {worker : Worker Conn}
    (awake : worker.phase ≠ .waiting)
    (waiting : SomeWaiting (Function.update workers thread worker)) : SomeWaiting workers := by
  obtain ⟨other, waits⟩ := waiting
  by_cases same : other = thread
  · subst same
    rw [Function.update_self] at waits
    exact absurd waits awake
  · rw [Function.update_of_ne same] at waits
    exact ⟨other, waits⟩

theorem woken_wake
    [Fintype Thread] {workers : Thread → Worker Conn} {thread : Thread}
    (waits : (workers thread).phase = .waiting) :
    countThreads Worker.Woken (Function.update workers thread (workers thread).wake) =
      1 + countThreads Worker.Woken workers := by
  apply countThreads_gain
  · simp [Worker.Woken, waits]
  · rfl

namespace Covered

variable [Fintype Thread] {system : System Thread Conn} {idle : List Conn}

/-- A pass that finds a connection uses up at most one woken thread; the other
passes leave the queue empty. -/
theorem pass
    (covered : Covered system idle) {connNew : Option Conn} {outcome : PopOutcome Conn}
    {pool : ConnMgrPool Conn} {left : List Conn} (thread : Thread)
    (spec : PopSpec connNew system.pool idle outcome pool left) :
    Covered (system.endPass thread outcome pool) left := by
  refine ⟨spec.represents, ?_⟩
  intro waiting
  cases spec with
  | @popped conn rest queue represents =>
      have before := covered.cover (waiting.of_update Phase.noConfusion)
      have used : countThreads Worker.Woken system.workers ≤
          countThreads Worker.Woken
            (system.endPass thread (.popped conn) { system.pool with queue }).workers + 1 :=
        countThreads_le_succ
      rw [List.length_cons] at before
      exact Nat.le_of_succ_le_succ (before.trans used)
  | connected => exact Nat.zero_le _
  | refused => exact Nat.zero_le _
  | blocked => exact Nat.zero_le _

theorem wake
    (covered : Covered system idle) {thread : Thread}
    (waits : (system.workers thread).phase = .waiting) :
    Covered
      { system with
        workers := Function.update system.workers thread (system.workers thread).wake }
      idle := by
  refine ⟨covered.represents, ?_⟩
  intro _
  rw [woken_wake waits]
  exact (covered.cover ⟨thread, waits⟩).trans (Nat.le_add_left _ 1)

variable [DecidableEq Conn]

theorem push
    (covered : Covered system idle) {thread : Thread} {conn : Conn} {malloc : Option Nat}
    {signalled : Option Thread}
    (unallocated : ∀ address, malloc = some address → system.pool.queue.items address = none)
    (reaches : SignalReaches system.workers signalled) :
    ∃ idle', Covered (system.push thread conn malloc signalled) idle' := by
  have grown : ∃ idle', Represents (system.push thread conn malloc signalled).pool.queue idle' ∧
      idle'.length ≤ 1 + idle.length := by
    cases malloc with
    | none => exact ⟨idle, covered.represents, Nat.le_add_left _ 1⟩
    | some address =>
        exact ⟨conn :: idle,
          represents_pushHead covered.represents conn (unallocated address rfl),
          by rw [List.length_cons, Nat.add_comm]⟩
  obtain ⟨idle', represents, length⟩ := grown
  refine ⟨idle', represents, ?_⟩
  intro waiting
  have samePhase : ∀ other, (Function.update system.workers thread
      ((system.workers thread).release conn) other).phase = (system.workers other).phase := by
    intro other
    by_cases same : other = thread
    · subst same
      simp [Worker.release]
    · simp [same]
  cases signalled with
  | none =>
      obtain ⟨other, waits⟩ := waiting
      exact absurd ((samePhase other).symm.trans waits) (reaches other)
  | some woken =>
      have released : countThreads Worker.Woken (Function.update system.workers thread
          ((system.workers thread).release conn)) = countThreads Worker.Woken system.workers :=
        countThreads_same Iff.rfl
      have signalledOne := woken_wake ((samePhase woken).trans reaches)
      have before := covered.cover ⟨woken, reaches⟩
      rw [released] at signalledOne
      calc
        idle'.length ≤ 1 + idle.length := length
        _ ≤ 1 + countThreads Worker.Woken system.workers := Nat.add_le_add_left before 1
        _ = countThreads Worker.Woken (system.push thread conn malloc (some woken)).workers :=
          signalledOne.symm

theorem step
    (covered : Covered system idle) {event : Event Thread Conn} {after : System Thread Conn}
    (stepped : Step system event after) : ∃ idle', Covered after idle' := by
  cases stepped with
  | pop outside fresh ran =>
      obtain ⟨left, spec⟩ := connMgrPoolPopPass_cases covered.represents ran
      exact ⟨left, covered.pass _ spec⟩
  | resume woken fresh ran =>
      obtain ⟨left, spec⟩ := connMgrPoolPopPass_cases covered.represents ran
      exact ⟨left, covered.pass _ spec⟩
  | push outside holds unallocated reaches => exact covered.push unallocated reaches
  | spuriousWakeup waits => exact ⟨idle, covered.wake waits⟩

theorem of_run
    {maxPoolSize : UInt32} {history : List (Event Thread Conn)}
    (run : PoolRun maxPoolSize history system) : ∃ idle, Covered system idle := by
  apply run.invariant fun _ system => ∃ idle, Covered system idle
  · intro system begins
    exact ⟨[], initial begins⟩
  · rintro history system event after ⟨idle, covered⟩ stepped
    exact covered.step stepped

end Covered

/-- In every reachable state with a thread blocked unsignalled, the idle
connections do not outnumber the woken threads; so an idle connection and a
blocked thread never meet without a woken thread on its way. -/
theorem pool_no_lost_wakeup
    [Fintype Thread] [DecidableEq Conn] {maxPoolSize : UInt32}
    {history : List (Event Thread Conn)} {system : System Thread Conn}
    (run : PoolRun maxPoolSize history system) :
    ∃ idle : List Conn, Represents system.pool.queue idle ∧
      ¬ ((∃ thread, (system.workers thread).phase = .waiting) ∧
        (Finset.univ.filter fun thread => (system.workers thread).phase = .woken).card <
          idle.length) ∧
      ¬ ((∃ thread, (system.workers thread).phase = .waiting) ∧ idle ≠ [] ∧
        ∀ thread, (system.workers thread).phase ≠ .woken) := by
  obtain ⟨idle, covered⟩ := Covered.of_run run
  have cover : (∃ thread, (system.workers thread).phase = .waiting) →
      idle.length ≤
        (Finset.univ.filter fun thread => (system.workers thread).phase = .woken).card := by
    intro waiting
    have bound := covered.cover waiting
    rw [countThreads_eq_card] at bound
    exact bound
  refine ⟨idle, covered.represents, ?_, ?_⟩
  · rintro ⟨waiting, short⟩
    exact absurd (cover waiting) (Nat.not_le.mpr short)
  · rintro ⟨waiting, nonempty, noneWoken⟩
    have bound := cover waiting
    have noWoken : (Finset.univ.filter fun thread => (system.workers thread).phase = .woken) = ∅ :=
      Finset.filter_eq_empty_iff.mpr fun {thread} _ => noneWoken thread
    rw [noWoken, Finset.card_empty, Nat.le_zero, List.length_eq_zero_iff] at bound
    exact nonempty bound

/-- Two threads wait for the only connection; giving it back wakes one. -/
theorem pool_no_lost_wakeup_two_waiters :
    ∃ system : System (Fin 3) Nat,
      PoolRun 1 [.push 0 7 (some 0) (some 1), .pop 2 none, .pop 1 none, .pop 0 (some 7)] system ∧
        ∃ idle : List Nat, Represents system.pool.queue idle ∧
          ¬ ((∃ thread, (system.workers thread).phase = .waiting) ∧ idle ≠ [] ∧
            ∀ thread, (system.workers thread).phase ≠ .woken) := by
  have first := poolRun_first_pop 1 (by decide) (0 : Fin 3) 7
  have second : PoolRun 1 [.pop 1 none, .pop (0 : Fin 3) (some 7)] _ :=
    .next first (.pop rfl (by simp [Fresh]) rfl)
  have third : PoolRun 1 [.pop 2 none, .pop 1 none, .pop (0 : Fin 3) (some 7)] _ :=
    .next second (.pop rfl (by simp [Fresh]) rfl)
  have fourth : PoolRun 1
      [.push 0 7 (some 0) (some 1), .pop 2 none, .pop 1 none, .pop (0 : Fin 3) (some 7)] _ :=
    .next third (.push rfl (Multiset.mem_singleton_self 7) (fun _ _ => rfl) rfl)
  obtain ⟨idle, represents, _, woken⟩ := pool_no_lost_wakeup fourth
  exact ⟨_, fourth, idle, represents, woken⟩

end ConnMgr

end Tpt
