import Mathlib.Data.Finset.Option
import Tpt.ConnMgr.Conn
import Tpt.ConnMgr.PoolAccounting

/-!
A pool from `conn_mgr_pool_new` to `conn_mgr_pool_destroy`, with the
descriptors of its process, the heap of its queue items, and the blocks of the
pool and of its connections.

A pass through the loop of `conn_mgr_pool_pop` that reaches `conn_mgr_conn_new`
opens a socket there and closes it again on failure; a connection is its
descriptor, and names the block of its object.  Neither `close` of a descriptor
that is not open has a result, nor `free` of a block that is not allocated, nor
the destruction of a mutex and a condition variable that a thread still uses.
-/

namespace Tpt

namespace ConnMgr

universe v

variable {Thread : Type v}

def closeFd (table : Finset Nat) (fd : Nat) : Option (Finset Nat) :=
  if fd ∈ table then some (table.erase fd) else none

/-- The blocks that `conn_mgr_pool_new` and `conn_mgr_conn_new` allocate. -/
inductive Block where
  | pool
  | conn (fd : Nat)
  deriving DecidableEq

def freeBlock (blocks : Finset Block) (block : Block) : Option (Finset Block) :=
  if block ∈ blocks then some (blocks.erase block) else none

/-- `conn_mgr_conn_errno` before a call of `conn_mgr_conn_new`, and the answers
to its system calls. -/
structure Call where
  connErrno : ConnMgrErr
  outcomes : Outcomes

/-- The kernel numbers a new socket with a descriptor that is not open. -/
def Call.SocketFresh (call : Call) (table : Finset Nat) : Prop :=
  ∀ fd, call.outcomes.socket = some fd → fd ∉ table

def Call.connect (call : Call) (table : Finset Nat) : Option (Option Nat × Finset Nat) :=
  (connMgrConnNew call.outcomes (.start call.connErrno)).bind fun (conn, state) =>
    (state.closed.foldlM closeFd (table ∪ call.outcomes.socket.toFinset)).map fun table =>
      (conn, table)

def PopOutcome.table (before called : Finset Nat) : PopOutcome Nat → Finset Nat
  | .popped _ | .blocked => before
  | .connected _ | .refused => called

def PopOutcome.blocks (before : Finset Block) : PopOutcome Nat → Finset Block
  | .connected fd => insert (.conn fd) before
  | _ => before

structure Process (Thread : Type v) where
  system : System Thread Nat
  table : Finset Nat
  blocks : Finset Block

inductive LifeEvent (Thread : Type v) where
  | pop (thread : Thread) (call : Call)
  | resume (thread : Thread) (call : Call)
  | push (thread : Thread) (fd : Nat) (malloc : Option Nat) (signalled : Option Thread)
  | spuriousWakeup (thread : Thread)

def LifeEvent.allocates : LifeEvent Thread → Bool
  | .push _ _ none _ => false
  | _ => true

def lostPushes (history : List (LifeEvent Thread)) : Nat :=
  history.countP fun event => !event.allocates

section Model

variable [DecidableEq Thread]

inductive LifeStep : Process Thread → LifeEvent Thread → Process Thread → Prop where
  | pop {process thread call conn table outcome pool} :
      (process.system.workers thread).phase = .outside →
      call.SocketFresh process.table →
      call.connect process.table = some (conn, table) →
      connMgrPoolPopPass conn process.system.pool = some (outcome, pool) →
      LifeStep process (.pop thread call)
        { system := process.system.endPass thread outcome pool
          table := outcome.table process.table table
          blocks := outcome.blocks process.blocks }
  | resume {process thread call conn table outcome pool} :
      (process.system.workers thread).phase = .woken →
      call.SocketFresh process.table →
      call.connect process.table = some (conn, table) →
      connMgrPoolPopPass conn process.system.pool = some (outcome, pool) →
      LifeStep process (.resume thread call)
        { system := process.system.endPass thread outcome pool
          table := outcome.table process.table table
          blocks := outcome.blocks process.blocks }
  | push {process thread fd malloc signalled after} :
      Step process.system (.push thread fd malloc signalled) after →
      LifeStep process (.push thread fd malloc signalled) { process with system := after }
  | spuriousWakeup {process thread after} :
      Step process.system (.spuriousWakeup thread) after →
      LifeStep process (.spuriousWakeup thread) { process with system := after }

/-- A new pool in a process with some descriptors open and some heap in use. -/
def LifeInitial (maxPoolSize : UInt32) (inherited : Finset Nat) (memory : Items Nat)
    (process : Process Thread) : Prop :=
  ∃ queue, process = {
    system := {
      pool := connMgrPoolNew maxPoolSize { items := memory, queue }
      workers := fun _ => { phase := .outside, held := 0 }
      created := 0 }
    table := inherited
    blocks := {.pool} }

def LifeRun (maxPoolSize : UInt32) (inherited : Finset Nat) (memory : Items Nat) :
    List (LifeEvent Thread) → Process Thread → Prop :=
  Trace (LifeInitial maxPoolSize inherited memory) LifeStep

end Model

def connMgrConnDestroy (conn : Nat) (table : Finset Nat) (blocks : Finset Block) :
    Option (Finset Nat × Finset Block) :=
  (closeFd table conn).bind fun table =>
    (freeBlock blocks (.conn conn)).map fun blocks => (table, blocks)

/-- The loop of `conn_mgr_pool_destroy`, with at most `fuel` turns: the heap, the
descriptors and the blocks that it leaves. -/
def destroyIdle : Nat → QueueState Nat → Finset Nat → Finset Block →
    Option (Items Nat × Finset Nat × Finset Block)
  | 0, _, _, _ => none
  | fuel + 1, queue, table, blocks =>
      match connMgrQueuePopHead queue with
      | none => none
      | some (none, queue) => some (queue.items, table, blocks)
      | some (some conn, queue) =>
          (connMgrConnDestroy conn table blocks).bind fun (table, blocks) =>
            destroyIdle fuel queue table blocks

def connMgrPoolDestroy [Fintype Thread] (fuel : Nat) (process : Process Thread) :
    Option (Items Nat × Finset Nat × Finset Block) :=
  (destroyIdle fuel process.system.pool.queue process.table process.blocks).bind
    fun (items, table, blocks) =>
      -- the mutex and the condition variable may only be destroyed when no thread is at them
      if ∀ thread, (process.system.workers thread).phase = .outside then
        (freeBlock blocks .pool).map fun blocks => (items, table, blocks)
      else none

/-! A call of `conn_mgr_conn_new` gives its socket away or closes it. -/

theorem connMgrConnNew_closed
    {outcomes : Outcomes} {connErrno : ConnMgrErr} {conn : Option Nat} {state : ConnState}
    (called : connMgrConnNew outcomes (.start connErrno) = some (conn, state)) :
    (conn = none ∧ state.closed = outcomes.socket.toList) ∨
      (∃ fd, conn = some fd ∧ outcomes.socket = some fd ∧ state.closed = []) := by
  unfold connMgrConnNew at called
  cases socket : outcomes.socket with
  | none =>
      rw [socket] at called
      cases called
      exact .inl ⟨rfl, rfl⟩
  | some fd =>
      rw [socket] at called
      obtain ⟨⟨ret, after⟩, tcp, rest⟩ := Option.map_eq_some_iff.mp called
      have untouched : after.closed = [] := by
        cases tcpConnectWithTimeout_returned tcp <;> assumption
      unfold allocateConn at rest
      dsimp only at rest
      split at rest
      · cases rest
        exact .inl ⟨rfl, congrArg (List.cons fd) untouched⟩
      · split at rest
        · cases rest
          exact .inr ⟨fd, rfl, rfl, untouched⟩
        · cases rest
          exact .inl ⟨rfl, congrArg (List.cons fd) untouched⟩

theorem Call.connect_cases
    {call : Call} {conn : Option Nat} {table after : Finset Nat}
    (fresh : call.SocketFresh table) (connected : call.connect table = some (conn, after)) :
    (conn = none ∧ after = table) ∨
      (∃ fd, conn = some fd ∧ fd ∉ table ∧ after = insert fd table) := by
  obtain ⟨⟨conn', state⟩, called, closed⟩ := Option.bind_eq_some_iff.mp connected
  obtain ⟨closedTable, folded, same⟩ := Option.map_eq_some_iff.mp closed
  obtain ⟨rfl, rfl⟩ := Prod.mk.inj same
  rcases connMgrConnNew_closed called with ⟨rfl, released⟩ | ⟨fd, rfl, socket, released⟩
  · refine .inl ⟨rfl, ?_⟩
    rw [released] at folded
    cases socket : call.outcomes.socket with
    | none =>
        rw [socket] at folded
        simpa using folded.symm
    | some fd =>
        have unused := fresh fd socket
        rw [socket] at folded
        simpa [closeFd, Finset.union_comm, unused] using folded.symm
  · refine .inr ⟨fd, rfl, fresh fd socket, ?_⟩
    rw [released, socket] at folded
    simpa [Finset.union_comm] using folded.symm

/-!
The heap: the items of the queue are the blocks that differ from the heap
before the pool.
-/

/-- The chain of the queue runs through cells that were free in `memory`, and
the other cells are as there. -/
structure Grown {α : Type v} (memory : Items α) (state : QueueState α) (addresses : List Nat) :
    Prop where
  chain : Chain id state.items.next state.queue.head addresses
  inside : ∀ address ∈ addresses, memory address = none
  outside : ∀ address, address ∉ addresses → state.items address = memory address

namespace Grown

variable {α : Type v} {memory : Items α} {state after : QueueState α} {addresses : List Nat}
variable {elements : List α} {data : Option α}

theorem init
    (memory : Items α) (queue : ConnMgrQueue) :
    Grown memory (connMgrQueueInit { items := memory, queue }) [] :=
  ⟨.nil rfl, nofun, fun _ _ => rfl⟩

theorem pushHead
    (grown : Grown memory state addresses) (data : α) {item : Nat}
    (unallocated : state.items item = none) (outside : item ∉ addresses) :
    Grown memory (connMgrQueuePushHead (some data) (some item) state) (item :: addresses) := by
  refine ⟨?_, ?_, ?_⟩
  · refine .cons rfl ?_ (Items.chain_update grown.chain outside _)
    simp [connMgrQueuePushHead, Items.next]
  · intro address member
    rcases List.mem_cons.mp member with rfl | member
    · rw [← grown.outside address outside, unallocated]
    · exact grown.inside address member
  · intro address absent
    have different := List.ne_of_not_mem_cons absent
    exact (Function.update_of_ne different _ _).trans
      (grown.outside address (List.not_mem_of_not_mem_cons absent))

theorem popHead
    (grown : Grown memory state addresses) (represents : Represents state elements)
    (popped : connMgrQueuePopHead state = some (data, after)) :
    Grown memory after addresses.tail := by
  unfold connMgrQueuePopHead at popped
  obtain ⟨others, spine⟩ := represents
  obtain rfl := spine.chain.unique grown.chain
  cases grown.chain with
  | nil ends =>
      have empty : state.queue.head = none := ends
      rw [empty] at popped
      cases popped
      exact grown
  | @cons _ first next rest enters follows chain =>
      have head : state.queue.head = some first := enters
      obtain ⟨item, stored, rfl⟩ := Option.map_eq_some_iff.mp follows
      obtain ⟨absent, _⟩ := List.nodup_cons.mp spine.acyclic
      rw [head] at popped
      simp only [stored, Option.some.injEq] at popped
      cases popped
      refine ⟨Items.chain_update chain absent none, ?_, ?_⟩
      · intro address member
        exact grown.inside address (List.mem_cons_of_mem first member)
      · intro address unlisted
        by_cases same : address = first
        · subst same
          rw [grown.inside address List.mem_cons_self]
          exact Function.update_self ..
        · have elsewhere : address ∉ first :: rest :=
            List.not_mem_cons_of_ne_of_not_mem same unlisted
          exact (Function.update_of_ne same _ _).trans (grown.outside address elsewhere)

theorem restored
    (grown : Grown memory state addresses) (represents : Represents state []) :
    state.items = memory := by
  obtain ⟨others, spine⟩ := represents
  obtain rfl := spine.chain.unique grown.chain
  obtain rfl := List.length_eq_zero_iff.mp spine.length_eq
  funext address
  exact grown.outside address List.not_mem_nil

theorem pushed
    (grown : Grown memory state addresses) (represents : Represents state elements) (data : α)
    {malloc : Option Nat}
    (unallocated : ∀ address, malloc = some address → state.items address = none) :
    ∃ addresses, Grown memory (connMgrQueuePushHead (some data) malloc state) addresses := by
  cases malloc with
  | none => exact ⟨addresses, grown⟩
  | some item =>
      obtain ⟨others, spine⟩ := represents
      obtain rfl := spine.chain.unique grown.chain
      have free := unallocated item rfl
      exact ⟨item :: others, grown.pushHead data free (spine.fresh free)⟩

end Grown

theorem destroyIdle_spec
    {memory : Items Nat} {state : QueueState Nat} {addresses : List Nat} {idle : List Nat}
    {table : Finset Nat} {blocks : Finset Block} (represents : Represents state idle)
    (grown : Grown memory state addresses) (distinct : idle.Nodup)
    (live : ∀ fd ∈ idle, fd ∈ table ∧ Block.conn fd ∈ blocks) :
    destroyIdle (idle.length + 1) state table blocks =
      some (memory, table \ idle.toFinset, blocks \ idle.toFinset.image .conn) := by
  induction idle generalizing state addresses table blocks with
  | nil =>
      obtain ⟨after, popped, represents'⟩ := represents_popHead represents
      have restored := (grown.popHead represents popped).restored represents'
      simp only [destroyIdle, popped, List.head?_nil, List.toFinset_nil, Finset.image_empty,
        Finset.sdiff_empty, restored]
  | cons fd idle inductionHypothesis =>
      obtain ⟨after, popped, represents'⟩ := represents_popHead represents
      obtain ⟨absent, distinct⟩ := List.nodup_cons.mp distinct
      obtain ⟨⟨opened, allocated⟩, live⟩ := List.forall_mem_cons.mp live
      have stays : ∀ other ∈ idle,
          other ∈ table.erase fd ∧ Block.conn other ∈ blocks.erase (.conn fd) := by
        intro other member
        have different : other ≠ fd := fun same => absent (same ▸ member)
        exact ⟨Finset.mem_erase.mpr ⟨different, (live other member).1⟩,
          Finset.mem_erase.mpr ⟨fun same => different (Block.conn.inj same),
            (live other member).2⟩⟩
      have destroyed := inductionHypothesis represents' (grown.popHead represents popped)
        distinct stays
      have closed : connMgrConnDestroy fd table blocks =
          some (table.erase fd, blocks.erase (.conn fd)) := by
        simp only [connMgrConnDestroy, closeFd, if_pos opened, freeBlock, if_pos allocated,
          Option.bind_some, Option.map_some]
      rw [List.length_cons, destroyIdle, popped]
      simp only [List.head?_cons, closed, Option.bind_some]
      rw [destroyed, List.toFinset_cons, Finset.image_insert, Finset.sdiff_insert,
        Finset.sdiff_insert, Finset.erase_sdiff_comm, Finset.erase_sdiff_comm]

section Runs

variable {maxPoolSize : UInt32} {inherited : Finset Nat} {memory : Items Nat}
variable {history : List (LifeEvent Thread)} {process after : Process Thread}

/-- The descriptors open are those inherited and the connections created, whose
objects are allocated beside the pool, and the heap has grown by the items of
the queue. -/
structure Tended (inherited : Finset Nat) (memory : Items Nat) (process : Process Thread) :
    Prop where
  table : process.table = inherited ∪ process.system.created.toFinset
  apart : ∀ fd ∈ process.system.created, fd ∉ inherited
  blocks : process.blocks = insert .pool (process.system.created.toFinset.image .conn)
  grown : ∃ addresses, Grown memory process.system.pool.queue addresses

variable [DecidableEq Thread]

theorem connMgrPoolPopPass_pops
    {pool after : ConnMgrPool Nat} {conn : Option Nat} {outcome : PopOutcome Nat}
    (ran : connMgrPoolPopPass conn pool = some (outcome, after)) :
    (∃ data, connMgrQueuePopHead pool.queue = some (data, after.queue)) ∧
      (outcome = .refused → conn = none) := by
  unfold connMgrPoolPopPass at ran
  cases popped : connMgrQueuePopHead pool.queue with
  | none => simp [popped] at ran
  | some result =>
      obtain ⟨_ | idle, queue⟩ := result
      · simp only [popped] at ran
        split at ran
        · cases conn with
          | none =>
              cases ran
              exact ⟨⟨none, rfl⟩, fun _ => rfl⟩
          | some conn =>
              cases ran
              exact ⟨⟨none, rfl⟩, nofun⟩
        · cases ran
          exact ⟨⟨none, rfl⟩, nofun⟩
      · simp only [popped, Option.some.injEq] at ran
        cases ran
        exact ⟨⟨some idle, rfl⟩, nofun⟩

theorem table_of_pass
    {pool after : ConnMgrPool Nat} {conn : Option Nat} {outcome : PopOutcome Nat}
    {idle : List Nat} {before called : Finset Nat} (represents : Represents pool.queue idle)
    (ran : connMgrPoolPopPass conn pool = some (outcome, after))
    (opened : (conn = none ∧ called = before) ∨
      (∃ fd, conn = some fd ∧ fd ∉ before ∧ called = insert fd before)) :
    outcome.table before called = before ∪ outcome.created.toFinset := by
  obtain ⟨left, spec⟩ := connMgrPoolPopPass_cases represents ran
  cases spec with
  | popped => exact (Finset.union_empty before).symm
  | blocked => exact (Finset.union_empty before).symm
  | refused =>
      rcases opened with ⟨_, same⟩ | ⟨fd, isNew, _⟩
      · exact same.trans (Finset.union_empty before).symm
      · cases ((connMgrPoolPopPass_pops ran).2 rfl).symm.trans isNew
  | connected _ _ isNew =>
      rcases opened with ⟨refused, _⟩ | ⟨fd, connected, _, same⟩
      · cases refused.symm.trans isNew
      · obtain rfl := Option.some.inj (connected.symm.trans isNew)
        rw [PopOutcome.table, same, PopOutcome.created, Multiset.toFinset_singleton,
          Finset.insert_eq, Finset.union_comm]

omit [DecidableEq Thread] in
theorem PopOutcome.blocks_eq (before : Finset Block) (outcome : PopOutcome Nat) :
    outcome.blocks before = before ∪ outcome.created.toFinset.image .conn := by
  cases outcome with
  | connected fd =>
      rw [PopOutcome.blocks, PopOutcome.created, Multiset.toFinset_singleton,
        Finset.image_singleton, Finset.union_comm, ← Finset.insert_eq]
  | popped | refused | blocked => exact (Finset.union_empty before).symm

structure Refines (maxPoolSize : UInt32) (history : List (LifeEvent Thread))
    (process : Process Thread) (events : List (Event Thread Nat)) : Prop where
  run : PoolRun maxPoolSize events process.system
  losses : failedPushes events = lostPushes history

theorem LifeRun.initial (begins : LifeInitial maxPoolSize inherited memory process) :
    Tended inherited memory process ∧ Refines maxPoolSize [] process [] := by
  obtain ⟨queue, rfl⟩ := begins
  refine ⟨⟨?_, ?_, ?_, [], .init memory queue⟩, .start ⟨_, rfl⟩, rfl⟩
  · simp
  · simp
  · simp

/-- A pass, whether it pops, connects, fails to connect or waits. -/
theorem Tended.pass
    (thread : Thread) {call : Call} {conn : Option Nat} {table : Finset Nat}
    {outcome : PopOutcome Nat} {pool : ConnMgrPool Nat} {idle : List Nat}
    (tended : Tended inherited memory process)
    (represents : Represents process.system.pool.queue idle)
    (fresh : call.SocketFresh process.table)
    (connected : call.connect process.table = some (conn, table))
    (ran : connMgrPoolPopPass conn process.system.pool = some (outcome, pool)) :
    Tended inherited memory
        { system := process.system.endPass thread outcome pool
          table := outcome.table process.table table
          blocks := outcome.blocks process.blocks } ∧
      Fresh conn process.system := by
  obtain ⟨addresses, grown⟩ := tended.grown
  obtain ⟨⟨data, popped⟩, _⟩ := connMgrPoolPopPass_pops ran
  obtain ⟨left, spec⟩ := connMgrPoolPopPass_cases represents ran
  have opened := Call.connect_cases fresh connected
  have unused : ∀ {fd}, conn = some fd → fd ∉ inherited ∧ fd ∉ process.system.created := by
    rintro fd rfl
    rcases opened with ⟨none, _⟩ | ⟨new, same, absent, _⟩
    · cases none
    · obtain rfl := Option.some.inj same
      rwa [tended.table, Finset.mem_union, not_or, Multiset.mem_toFinset] at absent
  refine ⟨⟨?_, ?_, ?_, addresses.tail, grown.popHead represents popped⟩, fun fd isNew =>
    (unused isNew).2⟩
  · rw [table_of_pass represents ran opened, tended.table, System.endPass, Multiset.toFinset_add,
      Finset.union_assoc, Finset.union_comm outcome.created.toFinset]
  · intro fd member
    rcases Multiset.mem_add.mp member with isNew | earlier
    · exact (unused (spec.created_from isNew)).1
    · exact tended.apart fd earlier
  · rw [PopOutcome.blocks_eq, tended.blocks, System.endPass, Multiset.toFinset_add,
      Finset.image_union, Finset.insert_union, Finset.union_comm]

omit [DecidableEq Thread] in
theorem losses_cons
    {events : List (Event Thread Nat)} {event : Event Thread Nat} {life : LifeEvent Thread}
    (losses : failedPushes events = lostPushes history)
    (same : event.allocates = life.allocates) :
    failedPushes (event :: events) = lostPushes (life :: history) := by
  unfold failedPushes lostPushes at *
  rw [List.countP_cons, List.countP_cons, losses, same]

theorem LifeStep.refines
    {event : LifeEvent Thread} {events : List (Event Thread Nat)} {idle : List Nat}
    (tended : Tended inherited memory process)
    (refines : Refines maxPoolSize history process events)
    (represents : Represents process.system.pool.queue idle)
    (stepped : LifeStep process event after) :
    Tended inherited memory after ∧
      ∃ events, Refines maxPoolSize (event :: history) after events := by
  obtain ⟨run, losses⟩ := refines
  cases stepped with
  | @pop thread call conn table outcome pool outside fresh connected ran =>
      obtain ⟨kept, new⟩ := tended.pass thread represents fresh connected ran
      refine ⟨kept, .pop thread conn :: events, .next run (.pop outside new ran),
        losses_cons losses rfl⟩
  | @resume thread call conn table outcome pool woken fresh connected ran =>
      obtain ⟨kept, new⟩ := tended.pass thread represents fresh connected ran
      refine ⟨kept, .resume thread conn :: events, .next run (.resume woken new ran),
        losses_cons losses rfl⟩
  | @push thread fd malloc signalled system pushed =>
      obtain ⟨addresses, grown⟩ := tended.grown
      refine ⟨?_, .push thread fd malloc signalled :: events, .next run pushed, ?_⟩
      · cases pushed with
        | push outside holds unallocated reaches =>
            exact ⟨tended.table, tended.apart, tended.blocks,
              grown.pushed represents fd unallocated⟩
      · cases malloc <;> exact losses_cons losses rfl
  | @spuriousWakeup thread system woken =>
      refine ⟨?_, .spuriousWakeup thread :: events, .next run woken, losses_cons losses rfl⟩
      cases woken with
      | spuriousWakeup waiting => exact ⟨tended.table, tended.apart, tended.blocks, tended.grown⟩

variable [Fintype Thread]

theorem LifeRun.refines (run : LifeRun maxPoolSize inherited memory history process) :
    Tended inherited memory process ∧ ∃ events, Refines maxPoolSize history process events := by
  refine Trace.invariant (fun history process => Tended inherited memory process ∧
    ∃ events, Refines maxPoolSize history process events) ?_ ?_ run
  · intro process begins
    obtain ⟨tended, refines⟩ := LifeRun.initial begins
    exact ⟨tended, [], refines⟩
  · rintro history process event after ⟨tended, events, refines⟩ stepped
    obtain ⟨idle, _, accounting⟩ := Accounting.of_run refines.run
    exact stepped.refines tended refines accounting.represents

/-- After any use of a pool, when no thread is in a call, `conn_mgr_pool_destroy`
closes no descriptor and frees no block twice, and gives back the pool and all
queue items.  It leaves open the connections that a thread still has or that a
push lost, with their objects. -/
theorem pool_destroy_gives_back
    (run : LifeRun maxPoolSize inherited memory history process)
    (quiet : ∀ thread, (process.system.workers thread).phase = .outside) :
    ∃ fuel table blocks, connMgrPoolDestroy fuel process = some (memory, table, blocks) ∧
      inherited ⊆ table ∧ blocks = (table \ inherited).image .conn ∧
      (table \ inherited).card =
        ∑ thread, (process.system.workers thread).held.card + lostPushes history := by
  obtain ⟨⟨opened, apart, allocated, addresses, grown⟩, events, pool, losses⟩ := run.refines
  obtain ⟨idle, lost, accounting⟩ := Accounting.of_run pool
  have idleCreated : ∀ fd ∈ idle, fd ∈ process.system.created := by
    intro fd member
    rw [accounting.placed, Multiset.mem_add, Multiset.mem_add]
    exact .inl (.inl member)
  have distinct : idle.Nodup := by
    have single := accounting.distinct
    rw [accounting.placed, Multiset.nodup_add, Multiset.nodup_add] at single
    exact single.1.1
  have live : ∀ fd ∈ idle, fd ∈ process.table ∧ Block.conn fd ∈ process.blocks := by
    intro fd member
    have created := Multiset.mem_toFinset.mpr (idleCreated fd member)
    rw [opened, allocated]
    exact ⟨Finset.mem_union_right _ created,
      Finset.mem_insert_of_mem (Finset.mem_image_of_mem _ created)⟩
  have emptied := destroyIdle_spec accounting.represents grown distinct live
  have left : (process.table \ idle.toFinset) \ inherited =
      process.system.created.toFinset \ idle.toFinset := by
    ext fd
    simp only [Finset.mem_sdiff, opened, Finset.mem_union, Multiset.mem_toFinset]
    have elsewhere := apart fd
    tauto
  have freed : freeBlock (process.blocks \ idle.toFinset.image .conn) .pool =
      some ((process.system.created.toFinset \ idle.toFinset).image .conn) := by
    have member : Block.pool ∈ process.blocks \ idle.toFinset.image .conn := by
      simp [allocated]
    rw [freeBlock, if_pos member, allocated]
    refine congrArg some ?_
    ext block
    cases block <;> simp
  refine ⟨idle.length + 1, process.table \ idle.toFinset, _, ?_, ?_, congrArg _ left.symm, ?_⟩
  · simp only [connMgrPoolDestroy, emptied, Option.bind_some, if_pos quiet, freed,
      Option.map_some]
  · intro fd member
    rw [Finset.mem_sdiff, opened, Finset.mem_union, List.mem_toFinset]
    exact ⟨.inl member, fun idle => apart fd (idleCreated fd idle) member⟩
  · have counted : idle.toFinset ⊆ process.system.created.toFinset := by
      intro fd member
      exact Multiset.mem_toFinset.mpr (idleCreated fd (List.mem_toFinset.mp member))
    have sizes := accounting.size_eq
    rw [left, Finset.card_sdiff_of_subset counted,
      Multiset.toFinset_card_of_nodup accounting.distinct, List.toFinset_card_of_nodup distinct,
      ← accounting.counted, sizes, losses]
    omega

def connectsFive : Call where
  connErrno := .success
  outcomes := {
    socket := some 5
    setNonBlocking := ⟨true, true⟩
    connect := .connected
    polls := []
    setBlocking := ⟨true, true⟩
    malloc := true }

/-- The only user of a pool connects, and pushes the connection to the queue. -/
theorem pool_destroy_gives_back_five :
    ∃ process : Process Unit,
      LifeRun 1 {0} (fun _ => none) [.push () 5 (some 0) none, .pop () connectsFive] process ∧
      process.blocks = {.pool, .conn 5} ∧
      ∃ fuel table blocks,
        connMgrPoolDestroy fuel process = some (fun _ => none, table, blocks) ∧
        (table \ {0}).card = 0 ∧ blocks = ∅ := by
  let pool : ConnMgrPool Nat :=
    connMgrPoolNew 1 { items := fun _ => none, queue := { head := none, tail := none } }
  let begins : Process Unit :=
    { system := { pool, workers := fun _ => { phase := .outside, held := 0 }, created := 0 }
      table := {0}
      blocks := {.pool} }
  have fresh : connectsFive.SocketFresh begins.table := by
    rintro fd ⟨⟩
    decide
  let connected : Process Unit :=
    { system := begins.system.endPass () (.connected 5) { pool with size := 1 }
      table := {0, 5}
      blocks := {.conn 5, .pool} }
  have popped : LifeStep begins (.pop () connectsFive) connected :=
    .pop rfl fresh (by rfl : connectsFive.connect begins.table = some (some 5, {0, 5})) rfl
  have pushed : LifeStep connected (.push () 5 (some 0) none) _ :=
    .push (.push rfl (Multiset.mem_cons_self 5 0) (fun _ _ => rfl) (fun _ => nofun))
  have run : LifeRun 1 {0} (fun _ => none) [.push () 5 (some 0) none, .pop () connectsFive] _ :=
    .next (.next (.start ⟨_, rfl⟩) popped) pushed
  obtain ⟨fuel, table, blocks, destroyed, _, objects, left⟩ :=
    pool_destroy_gives_back run fun _ => rfl
  have none : (table \ {0}).card = 0 := left
  refine ⟨_, run, Finset.pair_comm _ _, fuel, table, blocks, destroyed, none, ?_⟩
  rw [objects, Finset.card_eq_zero.mp none, Finset.image_empty]

end Runs

end ConnMgr

end Tpt
