import Tpt.ConnMgr.PoolAccounting

/-!
The capacity of a pool whose pushes may fail to allocate.

`conn_mgr_queue_push_head` reports nothing when `malloc` fails, so a push can
drop a connection that the size still counts.
-/

namespace Tpt

namespace ConnMgr

universe u v

variable {Conn : Type u} {Thread : Type v}

/-- Every connection that the size counts is idle or held by a thread. -/
def CapacityKept [Fintype Thread] (system : System Thread Conn) : Prop :=
  ∃ idle : List Conn, Represents system.pool.queue idle ∧
    system.pool.size.toNat = idle.length + ∑ thread, (system.workers thread).held.card ∧
    ∀ conn ∈ system.created, conn ∈ idle ∨ ∃ thread, conn ∈ (system.workers thread).held

/-- The pool is at its capacity with no connection anywhere. -/
structure Exhausted (system : System Thread Conn) : Prop where
  full : system.pool.size = system.pool.maxPoolSize
  positive : 0 < system.pool.maxPoolSize
  empty : Represents system.pool.queue []
  unheld : ∀ thread, (system.workers thread).held = 0

theorem CapacityKept.not_exhausted
    [Fintype Thread] {system : System Thread Conn} (kept : CapacityKept system) :
    ¬ Exhausted system := by
  intro exhausted
  obtain ⟨idle, represents, size, _⟩ := kept
  have noIdle : idle = [] := represents.unique exhausted.empty
  have positive : 0 < system.pool.size.toNat := by
    rw [exhausted.full]
    exact UInt32.lt_iff_toNat_lt.mp exhausted.positive
  rw [size, noIdle] at positive
  simp [exhausted.unheld] at positive

variable [DecidableEq Thread] [DecidableEq Conn]

/-- No step leaves the exhausted state: a pop blocks and a push has nothing to
give back. -/
theorem Exhausted.step
    {system after : System Thread Conn} (exhausted : Exhausted system)
    {event : Event Thread Conn} (stepped : Step system event after) : Exhausted after := by
  have pass : ∀ {thread connNew outcome pool},
      connMgrPoolPopPass connNew system.pool = some (outcome, pool) →
      Exhausted (system.endPass thread outcome pool) := by
    intro thread connNew outcome pool ran
    obtain ⟨left, spec⟩ := connMgrPoolPopPass_cases exhausted.empty ran
    cases spec with
    | connected represents room isNew => exact absurd exhausted.full (UInt32.ne_of_lt room)
    | refused represents room => exact absurd exhausted.full (UInt32.ne_of_lt room)
    | blocked represents full =>
        refine ⟨exhausted.full, exhausted.positive, represents, ?_⟩
        intro other
        by_cases same : other = thread
        · subst same
          simp [System.endPass, Worker.endPass, exhausted.unheld]
        · simp [System.endPass, same, exhausted.unheld]
  cases stepped with
  | pop outside fresh ran => exact pass ran
  | resume woken fresh ran => exact pass ran
  | @push thread conn malloc signalled outside holds unallocated reaches =>
      rw [exhausted.unheld] at holds
      exact absurd holds (Multiset.notMem_zero conn)
  | @spuriousWakeup thread waiting =>
      refine ⟨exhausted.full, exhausted.positive, exhausted.empty, ?_⟩
      intro other
      by_cases same : other = thread
      · subst same
        simp [Worker.wake, exhausted.unheld]
      · simp [same, exhausted.unheld]

theorem exhausted_forever
    {history : List (Event Thread Conn)} {system : System Thread Conn}
    (continued : Trace Exhausted Step history system) : Exhausted system := by
  apply continued.invariant fun _ system => Exhausted system
  · intro system exhausted
    exact exhausted
  · intro history system event after exhausted stepped
    exact exhausted.step stepped

/-- The capacity is kept exactly in the runs in which every push finds memory
for its queue item. -/
theorem capacity_kept_iff
    [Fintype Thread] {maxPoolSize : UInt32} {history : List (Event Thread Conn)}
    {system : System Thread Conn} (run : PoolRun maxPoolSize history system) :
    (CapacityKept system ∧ ¬ Exhausted system) ↔
      ∀ event ∈ history, event.allocates = true := by
  obtain ⟨idle, lost, accounting⟩ := Accounting.of_run run
  have size := accounting.size_eq
  rw [← failedPushes_eq_zero_iff]
  constructor
  · rintro ⟨⟨idle', represents, counted, _⟩, _⟩
    have same : idle' = idle := represents.unique accounting.represents
    subst same
    omega
  · intro noFailures
    have noLosses : lost = 0 := Multiset.card_eq_zero.mp (accounting.losses.trans noFailures)
    have kept : CapacityKept system := by
      refine ⟨idle, accounting.represents, ?_, ?_⟩
      · rw [size, noFailures, Nat.add_zero]
      · intro conn membership
        rcases accounting.one_place noLosses membership with ⟨once, _⟩ | ⟨_, thread, once, _⟩
        · exact .inl (List.count_pos_iff.mp (by omega))
        · exact .inr ⟨thread, Multiset.count_pos.mp (by omega)⟩
    exact ⟨kept, kept.not_exhausted⟩

theorem capacity_kept_iff_one_pop :
    ∃ system : System (Fin 2) Nat, PoolRun 3 [.pop 0 (some 7)] system ∧
      CapacityKept system ∧ ¬ Exhausted system := by
  have run := poolRun_first_pop 3 (by decide) (0 : Fin 2) 7
  exact ⟨_, run, (capacity_kept_iff run).mpr (by simp [Event.allocates])⟩

/-- One thread takes the only connection of a pool and gives it back while
`malloc` fails. -/
theorem exhausted_after_failed_push :
    ∃ system : System (Fin 1) Nat,
      PoolRun 1 [.push 0 7 none none, .pop 0 (some 7)] system ∧
        ¬ CapacityKept system ∧ Exhausted system := by
  have popped := poolRun_first_pop 1 (by decide) (0 : Fin 1) 7
  have pushed : PoolRun 1 [.push (0 : Fin 1) 7 none none, .pop 0 (some 7)]
      ((afterFirstPop 1 0 7).push 0 7 none none) :=
    .next popped (.push rfl (by simp) (by simp) (by simp [SignalReaches]))
  have exhausted : Exhausted ((afterFirstPop 1 (0 : Fin 1) 7).push 0 7 none none) := by
    refine ⟨rfl, by decide, represents_init _, ?_⟩
    simp [System.push, signal, Worker.release]
  exact ⟨_, pushed, fun kept => kept.not_exhausted exhausted, exhausted⟩

end ConnMgr

end Tpt
