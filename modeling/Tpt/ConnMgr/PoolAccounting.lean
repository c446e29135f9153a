import Tpt.ConnMgr.Pool

/-!
Where the connections of a pool are.

A connection that `conn_mgr_conn_new` returned is in the idle queue, with a
thread, or was lost by a push whose queue item could not be allocated.
-/

namespace Tpt

namespace ConnMgr

universe u v

variable {Conn : Type u} {Thread : Type v}

def failedPushes (history : List (Event Thread Conn)) : Nat :=
  history.countP fun event => !event.allocates

theorem failedPushes_eq_zero_iff
    {history : List (Event Thread Conn)} :
    failedPushes history = 0 ↔ ∀ event ∈ history, event.allocates = true := by
  simp [failedPushes, List.countP_eq_zero]

/-- Every connection ever created is idle, with a thread, or lost. -/
structure Accounting [Fintype Thread] (maxPoolSize : UInt32)
    (history : List (Event Thread Conn)) (system : System Thread Conn)
    (idle : List Conn) (lost : Multiset Conn) : Prop where
  represents : Represents system.pool.queue idle
  capacity : system.pool.maxPoolSize = maxPoolSize
  bounded : system.pool.size ≤ system.pool.maxPoolSize
  counted : system.pool.size.toNat = system.created.card
  distinct : system.created.Nodup
  placed : system.created = idle + total Worker.held system.workers + lost
  losses : lost.card = failedPushes history

theorem total_held_signal
    [Fintype Thread] [DecidableEq Thread]
    (signalled : Option Thread) (workers : Thread → Worker Conn) :
    total Worker.held (signal signalled workers) = total Worker.held workers := by
  cases signalled with
  | none => rfl
  | some thread => exact total_same rfl

namespace Accounting

variable {maxPoolSize : UInt32} {history : List (Event Thread Conn)}
variable {system : System Thread Conn} {idle : List Conn} {lost : Multiset Conn}

variable [Fintype Thread]

theorem initial
    (begins : Initial maxPoolSize system) :
    Accounting maxPoolSize [] system [] 0 := by
  obtain ⟨memory, rfl⟩ := begins
  refine ⟨represents_init memory, rfl, ?_, rfl, Multiset.nodup_zero, ?_, rfl⟩
  · exact UInt32.zero_le
  · simp [total]

theorem losses_keep
    (accounting : Accounting maxPoolSize history system idle lost)
    {event : Event Thread Conn} (allocates : event.allocates = true) :
    lost.card = failedPushes (event :: history) := by
  rw [accounting.losses, failedPushes, failedPushes, List.countP_cons_of_neg (by simp [allocates])]

theorem size_eq
    (accounting : Accounting maxPoolSize history system idle lost) :
    system.pool.size.toNat =
      idle.length + ∑ thread, (system.workers thread).held.card + failedPushes history := by
  rw [accounting.counted, accounting.placed, Multiset.card_add, Multiset.card_add,
    accounting.losses, total, Multiset.card_sum, Multiset.coe_card]

variable [DecidableEq Thread]

/-- A pass of `conn_mgr_pool_pop` moves a connection from the queue to the
thread, or creates one there, or changes nothing. -/
theorem pass
    (accounting : Accounting maxPoolSize history system idle lost)
    {event : Event Thread Conn} (allocates : event.allocates = true)
    {connNew : Option Conn} {outcome : PopOutcome Conn} {pool : ConnMgrPool Conn}
    {left : List Conn} (thread : Thread) (fresh : Fresh connNew system)
    (spec : PopSpec connNew system.pool idle outcome pool left) :
    Accounting maxPoolSize (event :: history) (system.endPass thread outcome pool) left lost := by
  constructor
  case represents => exact spec.represents
  case capacity => exact spec.capacity.trans accounting.capacity
  case bounded => exact spec.bounded accounting.bounded
  case counted =>
    show pool.size.toNat = (outcome.created + system.created).card
    rw [spec.size_eq, accounting.counted, Multiset.card_add, Nat.add_comm]
  case distinct =>
    show (outcome.created + system.created).Nodup
    rw [Multiset.nodup_add]
    refine ⟨?_, accounting.distinct, ?_⟩
    · cases outcome <;> simp [PopOutcome.created]
    · rw [Multiset.disjoint_left]
      intro conn isNew
      exact fresh conn (spec.created_from isNew)
  case placed =>
    show outcome.created + system.created =
      left + total Worker.held (Function.update system.workers thread _) + lost
    rw [total_gain (Worker.held_endPass _ outcome), ← add_assoc, spec.moves, accounting.placed]
    abel
  case losses => exact accounting.losses_keep allocates

theorem spuriousWakeup
    (accounting : Accounting maxPoolSize history system idle lost) (thread : Thread) :
    Accounting maxPoolSize (.spuriousWakeup thread :: history)
      { system with
        workers := Function.update system.workers thread (system.workers thread).wake }
      idle lost := by
  have kept := total_held_signal (some thread) system.workers
  refine ⟨accounting.represents, accounting.capacity, accounting.bounded, accounting.counted,
    accounting.distinct, ?_, accounting.losses_keep rfl⟩
  exact accounting.placed.trans (by rw [← kept]; rfl)

variable [DecidableEq Conn]

theorem push
    (accounting : Accounting maxPoolSize history system idle lost)
    {thread : Thread} {conn : Conn} (holds : conn ∈ (system.workers thread).held)
    {malloc : Option Nat}
    (unallocated : ∀ address, malloc = some address → system.pool.queue.items address = none)
    (signalled : Option Thread) :
    ∃ idle' lost', Accounting maxPoolSize (.push thread conn malloc signalled :: history)
      (system.push thread conn malloc signalled) idle' lost' := by
  have released : {conn} + total Worker.held (signal signalled (Function.update system.workers
      thread ((system.workers thread).release conn))) = total Worker.held system.workers := by
    rw [total_held_signal]
    apply total_loss
    exact (Multiset.singleton_add conn _).trans (Multiset.cons_erase holds)
  cases malloc with
  | none =>
      refine ⟨idle, {conn} + lost, accounting.represents, accounting.capacity,
        accounting.bounded, accounting.counted, accounting.distinct, ?_, ?_⟩
      · rw [System.push, accounting.placed, ← released]
        abel
      · rw [Multiset.card_add, accounting.losses, failedPushes, failedPushes,
          List.countP_cons_of_pos rfl, Multiset.card_singleton, Nat.add_comm]
  | some address =>
      refine ⟨conn :: idle, lost,
        represents_pushHead accounting.represents conn (unallocated address rfl),
        accounting.capacity, accounting.bounded, accounting.counted, accounting.distinct, ?_,
        accounting.losses_keep rfl⟩
      rw [System.push, accounting.placed, ← released, ← Multiset.cons_coe,
        ← Multiset.singleton_add]
      abel

theorem step
    (accounting : Accounting maxPoolSize history system idle lost)
    {event : Event Thread Conn} {after : System Thread Conn} (stepped : Step system event after) :
    ∃ idle' lost', Accounting maxPoolSize (event :: history) after idle' lost' := by
  cases stepped with
  | pop outside fresh ran =>
      obtain ⟨left, spec⟩ := connMgrPoolPopPass_cases accounting.represents ran
      exact ⟨left, lost, accounting.pass rfl _ fresh spec⟩
  | resume woken fresh ran =>
      obtain ⟨left, spec⟩ := connMgrPoolPopPass_cases accounting.represents ran
      exact ⟨left, lost, accounting.pass rfl _ fresh spec⟩
  | push outside holds unallocated reaches =>
      exact accounting.push holds unallocated _
  | spuriousWakeup waiting =>
      exact ⟨idle, lost, accounting.spuriousWakeup _⟩

theorem of_run
    (run : PoolRun maxPoolSize history system) :
    ∃ idle lost, Accounting maxPoolSize history system idle lost := by
  apply run.invariant fun history system =>
    ∃ idle lost, Accounting maxPoolSize history system idle lost
  · intro system begins
    exact ⟨[], 0, initial begins⟩
  · rintro history system event after ⟨idle, lost, accounting⟩ stepped
    exact accounting.step stepped

theorem one_place
    (accounting : Accounting maxPoolSize history system idle lost) (none_lost : lost = 0)
    {conn : Conn} (membership : conn ∈ system.created) :
    (idle.count conn = 1 ∧ ∀ thread, conn ∉ (system.workers thread).held) ∨
      (conn ∉ idle ∧ ∃ thread, (system.workers thread).held.count conn = 1 ∧
        ∀ other, other ≠ thread → conn ∉ (system.workers other).held) := by
  have once : idle.count conn + ∑ thread, (system.workers thread).held.count conn = 1 := by
    have single := Multiset.count_eq_one_of_mem accounting.distinct membership
    rw [accounting.placed, none_lost, add_zero, Multiset.count_add, Multiset.coe_count, total,
      Multiset.count_sum'] at single
    exact single
  rcases Nat.eq_zero_or_pos (idle.count conn) with notIdle | isIdle
  · right
    rw [notIdle, zero_add] at once
    have somewhere : ∑ thread, (system.workers thread).held.count conn ≠ 0 := by
      rw [once]
      exact Nat.one_ne_zero
    obtain ⟨thread, _, holds⟩ := Finset.exists_ne_zero_of_sum_ne_zero somewhere
    have split := Finset.add_sum_erase Finset.univ
      (fun thread => (system.workers thread).held.count conn) (Finset.mem_univ thread)
    simp only [once] at split
    refine ⟨List.count_eq_zero.mp notIdle, thread, by omega, ?_⟩
    intro other distinct
    have rest : ∑ thread ∈ Finset.univ.erase thread,
        (system.workers thread).held.count conn = 0 := by omega
    exact Multiset.count_eq_zero.mp (Finset.sum_eq_zero_iff.mp rest other
      (Finset.mem_erase.mpr ⟨distinct, Finset.mem_univ other⟩))
  · left
    have elsewhere : ∑ thread, (system.workers thread).held.count conn = 0 := by omega
    refine ⟨by omega, ?_⟩
    intro thread
    exact Multiset.count_eq_zero.mp
      (Finset.sum_eq_zero_iff.mp elsewhere thread (Finset.mem_univ thread))

end Accounting

variable [Fintype Thread] [DecidableEq Thread] [DecidableEq Conn]
variable {maxPoolSize : UInt32} {history : List (Event Thread Conn)}
variable {system : System Thread Conn}

/-- While every push finds memory for its queue item, the size counts the idle
and the held connections, stays within the capacity, and no connection is
lost or shared. -/
theorem pool_connections_accounted
    (run : PoolRun maxPoolSize history system)
    (allocates : ∀ event ∈ history, event.allocates = true) :
    ∃ idle : List Conn, Represents system.pool.queue idle ∧
      system.pool.size.toNat = idle.length + ∑ thread, (system.workers thread).held.card ∧
      system.pool.size ≤ maxPoolSize ∧
      ∀ conn ∈ system.created,
        (idle.count conn = 1 ∧ ∀ thread, conn ∉ (system.workers thread).held) ∨
          (conn ∉ idle ∧ ∃ thread, (system.workers thread).held.count conn = 1 ∧
            ∀ other, other ≠ thread → conn ∉ (system.workers other).held) := by
  obtain ⟨idle, lost, accounting⟩ := Accounting.of_run run
  have noFailures : failedPushes history = 0 := failedPushes_eq_zero_iff.mpr allocates
  have noLosses : lost = 0 := Multiset.card_eq_zero.mp (accounting.losses.trans noFailures)
  refine ⟨idle, accounting.represents, ?_, ?_, ?_⟩
  · rw [accounting.size_eq, noFailures, Nat.add_zero]
  · exact accounting.capacity ▸ accounting.bounded
  · intro conn membership
    exact accounting.one_place noLosses membership

theorem pool_connections_accounted_one_pop :
    ∃ system : System (Fin 2) Nat, PoolRun 3 [.pop 0 (some 7)] system ∧
      ∃ idle : List Nat, Represents system.pool.queue idle ∧
        1 = idle.length + ∑ thread, (system.workers thread).held.card := by
  have run := poolRun_first_pop 3 (by decide) (0 : Fin 2) 7
  obtain ⟨idle, represents, size, _⟩ := pool_connections_accounted run (by simp [Event.allocates])
  exact ⟨_, run, idle, represents, size⟩

end ConnMgr

end Tpt
