import Tpt.ConnMgr.Queue
import Tpt.Lib.Locals
import Tpt.Lib.Trace

/-!
The connection pool, `conn_mgr_pool.c`, under any interleaving of its users.

Every stretch of `conn_mgr_pool_pop` and `conn_mgr_pool_push` between taking
the mutex and giving it up, by unlocking it or by waiting, is one step.  The
outcomes of `malloc`, of `conn_mgr_conn_new` and of the scheduler are part of
the events.
-/

namespace Tpt

namespace ConnMgr

universe u v

variable {Conn : Type u} {Thread : Type v}

structure ConnMgrPool (Conn : Type u) where
  maxPoolSize : UInt32
  size : UInt32
  queue : QueueState Conn

def connMgrPoolNew (maxPoolSize : UInt32) (memory : QueueState Conn) : ConnMgrPool Conn :=
  { maxPoolSize, size := 0, queue := connMgrQueueInit memory }

inductive PopOutcome (Conn : Type u) where
  | popped (conn : Conn)
  | connected (conn : Conn)
  | refused
  | blocked

/-- The loop test of `conn_mgr_pool_pop` and, on an empty queue, the loop body
up to its `break` or its `pthread_cond_wait`; `connNew` is the result of
`conn_mgr_conn_new`. -/
def connMgrPoolPopPass (connNew : Option Conn) (pool : ConnMgrPool Conn) :
    Option (PopOutcome Conn × ConnMgrPool Conn) :=
  match connMgrQueuePopHead pool.queue with
  | none => none
  | some (some conn, queue) => some (.popped conn, { pool with queue })
  | some (none, queue) =>
      if pool.size < pool.maxPoolSize then
        match connNew with
        | some conn => some (.connected conn, { pool with size := pool.size + 1, queue })
        | none => some (.refused, { pool with queue })
      else
        some (.blocked, { pool with queue })

/-- `conn_mgr_pool_push` up to its `pthread_cond_signal`. -/
def connMgrPoolPush (conn : Option Conn) (malloc : Option Nat) (pool : ConnMgrPool Conn) :
    ConnMgrPool Conn :=
  { pool with queue := connMgrQueuePushHead conn malloc pool.queue }

/-- Where a thread stands: outside the pool's functions, blocked in
`pthread_cond_wait`, or woken there and about to take the mutex again. -/
inductive Phase where
  | outside
  | waiting
  | woken
  deriving DecidableEq

structure Worker (Conn : Type u) where
  phase : Phase
  held : Multiset Conn

structure System (Thread : Type v) (Conn : Type u) where
  pool : ConnMgrPool Conn
  workers : Thread → Worker Conn
  created : Multiset Conn

def Worker.wake (worker : Worker Conn) : Worker Conn :=
  { worker with phase := .woken }

def Worker.endPass (worker : Worker Conn) : PopOutcome Conn → Worker Conn
  | .popped conn => { phase := .outside, held := conn ::ₘ worker.held }
  | .connected conn => { phase := .outside, held := conn ::ₘ worker.held }
  | .refused => { worker with phase := .outside }
  | .blocked => { worker with phase := .waiting }

def Worker.release [DecidableEq Conn] (conn : Conn) (worker : Worker Conn) : Worker Conn :=
  { worker with held := worker.held.erase conn }

def PopOutcome.created : PopOutcome Conn → Multiset Conn
  | .popped _ => 0
  | .connected conn => {conn}
  | .refused => 0
  | .blocked => 0

def PopOutcome.taken : PopOutcome Conn → Multiset Conn
  | .popped conn => {conn}
  | .connected conn => {conn}
  | .refused => 0
  | .blocked => 0

@[simp] theorem Worker.held_endPass
    (worker : Worker Conn) (outcome : PopOutcome Conn) :
    (worker.endPass outcome).held = outcome.taken + worker.held := by
  cases outcome with
  | popped conn => rfl
  | connected conn => rfl
  | refused => exact (zero_add worker.held).symm
  | blocked => exact (zero_add worker.held).symm

section Threads

variable [DecidableEq Thread]

def signal (signalled : Option Thread) (workers : Thread → Worker Conn) :
    Thread → Worker Conn :=
  match signalled with
  | none => workers
  | some thread => Function.update workers thread (workers thread).wake

/-- `pthread_cond_signal` wakes one waiting thread and is lost when there is
none. -/
def SignalReaches (workers : Thread → Worker Conn) : Option Thread → Prop
  | none => ∀ thread, (workers thread).phase ≠ .waiting
  | some thread => (workers thread).phase = .waiting

def System.endPass (system : System Thread Conn) (thread : Thread)
    (outcome : PopOutcome Conn) (pool : ConnMgrPool Conn) : System Thread Conn :=
  { pool
    workers := Function.update system.workers thread ((system.workers thread).endPass outcome)
    created := outcome.created + system.created }

def System.push [DecidableEq Conn] (system : System Thread Conn) (thread : Thread)
    (conn : Conn) (malloc : Option Nat) (signalled : Option Thread) : System Thread Conn :=
  { system with
    pool := connMgrPoolPush (some conn) malloc system.pool
    workers := signal signalled
      (Function.update system.workers thread ((system.workers thread).release conn)) }

inductive Event (Thread : Type v) (Conn : Type u) where
  | pop (thread : Thread) (connNew : Option Conn)
  | resume (thread : Thread) (connNew : Option Conn)
  | push (thread : Thread) (conn : Conn) (malloc : Option Nat) (signalled : Option Thread)
  | spuriousWakeup (thread : Thread)

/-- `conn_mgr_conn_new` returns `NULL` or a connection not seen before. -/
def Fresh (connNew : Option Conn) (system : System Thread Conn) : Prop :=
  ∀ conn, connNew = some conn → conn ∉ system.created

inductive Step [DecidableEq Conn] :
    System Thread Conn → Event Thread Conn → System Thread Conn → Prop where
  | pop {system thread connNew outcome pool} :
      (system.workers thread).phase = .outside →
      Fresh connNew system →
      connMgrPoolPopPass connNew system.pool = some (outcome, pool) →
      Step system (.pop thread connNew) (system.endPass thread outcome pool)
  | resume {system thread connNew outcome pool} :
      (system.workers thread).phase = .woken →
      Fresh connNew system →
      connMgrPoolPopPass connNew system.pool = some (outcome, pool) →
      Step system (.resume thread connNew) (system.endPass thread outcome pool)
  | push {system thread conn malloc signalled} :
      (system.workers thread).phase = .outside →
      conn ∈ (system.workers thread).held →
      (∀ address, malloc = some address → system.pool.queue.items address = none) →
      SignalReaches system.workers signalled →
      Step system (.push thread conn malloc signalled)
        (system.push thread conn malloc signalled)
  | spuriousWakeup {system thread} :
      (system.workers thread).phase = .waiting →
      Step system (.spuriousWakeup thread)
        { system with
          workers := Function.update system.workers thread (system.workers thread).wake }

def Initial (maxPoolSize : UInt32) (system : System Thread Conn) : Prop :=
  ∃ memory, system = {
    pool := connMgrPoolNew maxPoolSize memory
    workers := fun _ => { phase := .outside, held := 0 }
    created := 0 }

def PoolRun [DecidableEq Conn] (maxPoolSize : UInt32) :
    List (Event Thread Conn) → System Thread Conn → Prop :=
  Trace (Initial maxPoolSize) Step

def afterFirstPop (maxPoolSize : UInt32) (thread : Thread) (conn : Conn) :
    System Thread Conn :=
  let pool := connMgrPoolNew maxPoolSize
    { items := fun _ => none, queue := { head := none, tail := none } }
  let unused : System Thread Conn :=
    { pool, workers := fun _ => { phase := .outside, held := 0 }, created := 0 }
  unused.endPass thread (.connected conn) { pool with size := 1 }

@[simp] theorem afterFirstPop_worker
    (maxPoolSize : UInt32) (thread : Thread) (conn : Conn) :
    (afterFirstPop maxPoolSize thread conn).workers thread =
      { phase := .outside, held := {conn} } :=
  Function.update_self thread _ _

theorem poolRun_first_pop
    [DecidableEq Conn] (maxPoolSize : UInt32) (room : 0 < maxPoolSize)
    (thread : Thread) (conn : Conn) :
    PoolRun maxPoolSize [.pop thread (some conn)] (afterFirstPop maxPoolSize thread conn) := by
  refine .next (.start ⟨_, rfl⟩) (.pop rfl (fun _ _ => Multiset.notMem_zero _) ?_)
  simp [connMgrPoolPopPass, connMgrPoolNew, connMgrQueuePopHead, connMgrQueueInit, room]

/-- Whether the event is not a push that fails to allocate its queue item. -/
def Event.allocates : Event Thread Conn → Bool
  | .push _ _ none _ => false
  | _ => true

end Threads

/-- One pass through the loop of `conn_mgr_pool_pop`, in terms of the list of
idle connections. -/
inductive PopSpec (connNew : Option Conn) (pool : ConnMgrPool Conn) :
    List Conn → PopOutcome Conn → ConnMgrPool Conn → List Conn → Prop where
  | popped {conn rest queue} :
      Represents queue rest →
      PopSpec connNew pool (conn :: rest) (.popped conn) { pool with queue } rest
  | connected {conn queue} :
      Represents queue [] →
      pool.size < pool.maxPoolSize →
      connNew = some conn →
      PopSpec connNew pool [] (.connected conn) { pool with size := pool.size + 1, queue } []
  | refused {queue} :
      Represents queue [] →
      pool.size < pool.maxPoolSize →
      PopSpec connNew pool [] .refused { pool with queue } []
  | blocked {queue} :
      Represents queue [] →
      ¬ pool.size < pool.maxPoolSize →
      PopSpec connNew pool [] .blocked { pool with queue } []

theorem connMgrPoolPopPass_spec
    {pool : ConnMgrPool Conn} {idle : List Conn} (represents : Represents pool.queue idle)
    (connNew : Option Conn) :
    ∃ outcome after left, connMgrPoolPopPass connNew pool = some (outcome, after) ∧
      PopSpec connNew pool idle outcome after left := by
  obtain ⟨queue, popped, represented⟩ := represents_popHead represents
  cases idle with
  | cons conn rest =>
      refine ⟨.popped conn, { pool with queue }, rest, ?_, .popped represented⟩
      simp only [connMgrPoolPopPass, popped, List.head?_cons]
  | nil =>
      by_cases room : pool.size < pool.maxPoolSize
      · cases connNew with
        | some conn =>
            refine ⟨_, _, _, ?_, .connected represented room rfl⟩
            simp only [connMgrPoolPopPass, popped, List.head?_nil, room, if_true]
        | none =>
            refine ⟨_, _, _, ?_, .refused represented room⟩
            simp only [connMgrPoolPopPass, popped, List.head?_nil, room, if_true]
      · refine ⟨_, _, _, ?_, .blocked represented room⟩
        simp only [connMgrPoolPopPass, popped, List.head?_nil, room, if_false]

theorem connMgrPoolPopPass_cases
    {pool after : ConnMgrPool Conn} {idle : List Conn} {connNew : Option Conn}
    {outcome : PopOutcome Conn} (represents : Represents pool.queue idle)
    (ran : connMgrPoolPopPass connNew pool = some (outcome, after)) :
    ∃ left, PopSpec connNew pool idle outcome after left := by
  obtain ⟨outcome', after', left, ran', spec⟩ := connMgrPoolPopPass_spec represents connNew
  rw [ran'] at ran
  cases ran
  exact ⟨left, spec⟩

namespace PopSpec

variable {connNew : Option Conn} {pool after : ConnMgrPool Conn} {idle left : List Conn}
variable {outcome : PopOutcome Conn}

theorem represents
    (spec : PopSpec connNew pool idle outcome after left) : Represents after.queue left := by
  cases spec <;> assumption

theorem capacity
    (spec : PopSpec connNew pool idle outcome after left) :
    after.maxPoolSize = pool.maxPoolSize := by
  cases spec <;> rfl

theorem moves
    (spec : PopSpec connNew pool idle outcome after left) :
    (left : Multiset Conn) + outcome.taken = idle + outcome.created := by
  cases spec with
  | popped =>
      rw [PopOutcome.taken, PopOutcome.created, add_zero, ← Multiset.cons_coe,
        ← Multiset.singleton_add, add_comm]
  | connected => rfl
  | refused => rfl
  | blocked => rfl

theorem created_from
    (spec : PopSpec connNew pool idle outcome after left) {conn : Conn}
    (membership : conn ∈ outcome.created) : connNew = some conn := by
  cases spec with
  | popped => simp [PopOutcome.created] at membership
  | connected represents room isNew =>
      rw [isNew, Multiset.mem_singleton.mp membership]
  | refused => simp [PopOutcome.created] at membership
  | blocked => simp [PopOutcome.created] at membership

/-- The size counts the connections created, and the room check keeps the
increment from wrapping. -/
theorem size_eq
    (spec : PopSpec connNew pool idle outcome after left) :
    after.size.toNat = pool.size.toNat + outcome.created.card := by
  cases spec with
  | popped => rfl
  | connected represents room isNew =>
      have small : pool.size.toNat < pool.maxPoolSize.toNat := UInt32.lt_iff_toNat_lt.mp room
      have limit := pool.maxPoolSize.toNat_lt
      rw [UInt32.toNat_add, UInt32.toNat_one, Nat.mod_eq_of_lt (by omega)]
      rfl
  | refused => rfl
  | blocked => rfl

theorem bounded
    (spec : PopSpec connNew pool idle outcome after left)
    (within : pool.size ≤ pool.maxPoolSize) : after.size ≤ after.maxPoolSize := by
  have size := spec.size_eq
  cases spec with
  | popped => exact within
  | connected represents room isNew =>
      rw [UInt32.le_iff_toNat_le, size]
      exact UInt32.lt_iff_toNat_lt.mp room
  | refused => exact within
  | blocked => exact within

end PopSpec

end ConnMgr

end Tpt
