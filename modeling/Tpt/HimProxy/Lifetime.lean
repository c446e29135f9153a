import Mathlib.Data.Finset.Basic
import Mathlib.Tactic
import Tpt.Lib.Locals
import Tpt.Lib.Trace

/-!
The lifetime of a connection of the old himproxy, between the poller thread of
`proxy_poller.c`, the work queue and the workers in `receive_parse_request`.

A connection is one `proxy_info`.  The poller fetches events for registered
connections in batches and goes through a batch one event at a time; closing
the socket takes a connection out of the poller, and freeing it is the step
after.
-/

namespace Tpt

namespace HimProxy

universe u v

/-- What a thread does with a connection: nothing, process it, or free it
after having closed its socket. -/
inductive Task (Conn : Type u) where
  | idle
  | processing (conn : Conn)
  | releasing (conn : Conn)
  deriving DecidableEq

/-- An event of `epoll_wait`, with `EPOLLERR` or `EPOLLHUP` or without. -/
structure EpollEvent (Conn : Type u) where
  conn : Conn
  hangup : Bool
  deriving DecidableEq

/-- The process; `none` is the poller thread among the threads. -/
structure Proxy (Conn : Type u) (Worker : Type v) where
  created : Finset Conn
  registered : Finset Conn
  batch : List (EpollEvent Conn)
  workq : List Conn
  tasks : Option Worker → Task Conn
  closed : Conn → Nat
  freed : Conn → Nat

inductive Event (Conn : Type u) (Worker : Type v) where
  | accepted (conn : Conn)
  | rejected (conn : Conn)
  | polled (events : List (EpollEvent Conn))
  | handled (added : Bool)
  | dequeued (worker : Worker)
  | finished (worker : Worker) (keep : Bool)
  | released (thread : Option Worker)

variable {Conn : Type u} {Worker : Type v}

def initialProxy : Proxy Conn Worker :=
  { created := ∅
    registered := ∅
    batch := []
    workq := []
    tasks := fun _ => .idle
    closed := fun _ => 0
    freed := fun _ => 0 }

def Task.Holds (task : Task Conn) (conn : Conn) : Prop :=
  task = .processing conn ∨ task = .releasing conn

variable [DecidableEq Conn] [DecidableEq Worker]

namespace Proxy

def setTask (proxy : Proxy Conn Worker) (thread : Option Worker) (task : Task Conn) :
    Proxy Conn Worker :=
  { proxy with tasks := Function.update proxy.tasks thread task }

/-- `close(proxy_info->client_sock)`, which also takes it out of the poller. -/
def closeSock (proxy : Proxy Conn Worker) (conn : Conn) : Proxy Conn Worker :=
  { proxy with
    registered := proxy.registered.erase conn
    closed := Function.update proxy.closed conn (proxy.closed conn + 1) }

def freeProxyInfo (proxy : Proxy Conn Worker) (conn : Conn) : Proxy Conn Worker :=
  { proxy with freed := Function.update proxy.freed conn (proxy.freed conn + 1) }

/-- One turn of the loop of `handle_epoll_events`, up to `free_proxy_info`. -/
def handleEpollEvent (proxy : Proxy Conn Worker) (event : EpollEvent Conn)
    (rest : List (EpollEvent Conn)) (added : Bool) : Proxy Conn Worker :=
  if event.hangup then
    { proxy with batch := rest }.closeSock event.conn |>.setTask none (.releasing event.conn)
  else if added then { proxy with batch := rest, workq := proxy.workq ++ [event.conn] }
  else { proxy with batch := rest }

end Proxy

def step (proxy : Proxy Conn Worker) : Event Conn Worker → Option (Proxy Conn Worker)
  | .accepted conn =>
      if conn ∉ proxy.created then
        some { proxy with
          created := insert conn proxy.created
          registered := insert conn proxy.registered }
      else none
  | .rejected conn =>
      if conn ∉ proxy.created then
        some ({ proxy with created := insert conn proxy.created }.freeProxyInfo conn
          |>.closeSock conn)
      else none
  | .polled events =>
      if proxy.batch = [] ∧ proxy.tasks none = .idle ∧
          (∀ event ∈ events, event.conn ∈ proxy.registered) ∧
          (events.map EpollEvent.conn).Nodup then
        some { proxy with batch := events }
      else none
  | .handled added =>
      match proxy.tasks none, proxy.batch with
      | .idle, event :: rest => some (proxy.handleEpollEvent event rest added)
      | _, _ => none
  | .dequeued worker =>
      match proxy.tasks (some worker), proxy.workq with
      | .idle, conn :: rest =>
          some ({ proxy with workq := rest }.setTask (some worker) (.processing conn))
      | _, _ => none
  | .finished worker keep =>
      match proxy.tasks (some worker) with
      | .processing conn =>
          if keep then some (proxy.setTask (some worker) .idle)
          else some (proxy.closeSock conn |>.setTask (some worker) (.releasing conn))
      | _ => none
  | .released thread =>
      match proxy.tasks thread with
      | .releasing conn => some (proxy.freeProxyInfo conn |>.setTask thread .idle)
      | _ => none

def Run : List (Event Conn Worker) → Proxy Conn Worker → Prop :=
  Trace (fun proxy => proxy = initialProxy)
    (fun proxy event after => step proxy event = some after)

/-- What is queued or in the hands of a thread is not freed, and nothing is
freed or closed twice. -/
structure Intact (proxy : Proxy Conn Worker) : Prop where
  queued : ∀ conn, conn ∈ proxy.workq → proxy.freed conn = 0
  held : ∀ thread conn, (proxy.tasks thread).Holds conn → proxy.freed conn = 0
  freed_once : ∀ conn, proxy.freed conn ≤ 1
  closed_once : ∀ conn, proxy.closed conn ≤ 1

/-- No item for the connection is left in the batch or the queue, and no
other thread has one. -/
structure Unshared (proxy : Proxy Conn Worker) (batch : List (EpollEvent Conn))
    (thread : Option Worker) (conn : Conn) : Prop where
  batch : ∀ event, event ∈ batch → event.conn ≠ conn
  workq : conn ∉ proxy.workq
  others : ∀ other, other ≠ thread → ¬ (proxy.tasks other).Holds conn

/-- A thread closes and frees a connection only when it has the last item for
it. -/
def LastUse (proxy : Proxy Conn Worker) : Event Conn Worker → Prop
  | .handled _ => ∀ event rest, proxy.batch = event :: rest → event.hangup = true →
      Unshared proxy rest none event.conn
  | .finished worker keep => ∀ conn, proxy.tasks (some worker) = .processing conn →
      keep = false → Unshared proxy proxy.batch (some worker) conn
  | _ => True

def LastUseRun : List (Event Conn Worker) → Proxy Conn Worker → Prop :=
  Trace (fun proxy => proxy = initialProxy)
    (fun proxy event after => step proxy event = some after ∧ LastUse proxy event)

structure Open (proxy : Proxy Conn Worker) (conn : Conn) : Prop where
  created : conn ∈ proxy.created
  closed : proxy.closed conn = 0
  freed : proxy.freed conn = 0

/-- Every item is for an open connection, except that the thread that closed
one has it alone. -/
structure Owned (proxy : Proxy Conn Worker) : Prop where
  registered : ∀ conn, conn ∈ proxy.registered → Open proxy conn
  batch : ∀ event, event ∈ proxy.batch → Open proxy event.conn
  workq : ∀ conn, conn ∈ proxy.workq → Open proxy conn
  processing : ∀ thread conn, proxy.tasks thread = .processing conn → Open proxy conn
  releasing : ∀ thread conn, proxy.tasks thread = .releasing conn →
    conn ∈ proxy.created ∧ proxy.closed conn = 1 ∧ proxy.freed conn = 0 ∧
      ∀ other, proxy.tasks other = .releasing conn → other = thread
  unknown : ∀ conn, conn ∉ proxy.created → proxy.closed conn = 0 ∧ proxy.freed conn = 0
  freed_once : ∀ conn, proxy.freed conn ≤ 1
  closed_once : ∀ conn, proxy.closed conn ≤ 1

omit [DecidableEq Conn] [DecidableEq Worker] in
theorem Owned.intact {proxy : Proxy Conn Worker} (owned : Owned proxy) : Intact proxy where
  queued conn member := (owned.workq conn member).freed
  held thread conn holds := by
    rcases holds with processes | releases
    · exact (owned.processing thread conn processes).freed
    · exact (owned.releasing thread conn releases).2.2.1
  freed_once := owned.freed_once
  closed_once := owned.closed_once

omit [DecidableEq Conn] [DecidableEq Worker] in
theorem Owned.initial : Owned (initialProxy : Proxy Conn Worker) where
  registered conn member := absurd member (Finset.notMem_empty conn)
  batch event member := absurd member List.not_mem_nil
  workq conn member := absurd member List.not_mem_nil
  processing thread conn processes := by cases processes
  releasing thread conn releases := by cases releases
  unknown _ _ := ⟨rfl, rfl⟩
  freed_once _ := Nat.zero_le 1
  closed_once _ := Nat.zero_le 1

section Steps

variable {proxy after : Proxy Conn Worker} {conn : Conn} {thread : Option Worker}

omit [DecidableEq Conn] in
theorem tasks_setTask
    {task held : Task Conn} {other : Option Worker}
    (holds : (proxy.setTask thread task).tasks other = held) :
    other = thread ∧ task = held ∨ other ≠ thread ∧ proxy.tasks other = held :=
  update_cases holds

theorem counted_once
    {count : Conn → Nat} (never : count conn = 0) (once : ∀ other, count other ≤ 1)
    (other : Conn) : Function.update count conn (count conn + 1) other ≤ 1 := by
  by_cases same : other = conn
  · rw [same, Function.update_self, never]
  · rw [Function.update_of_ne same]
    exact once other

theorem Open.closeSock
    {other : Conn} (opened : Open proxy other) (different : other ≠ conn)
    (task : Task Conn) : Open ((proxy.closeSock conn).setTask thread task) other :=
  ⟨opened.created, (Function.update_of_ne different _ _).trans opened.closed, opened.freed⟩

theorem Open.freeProxyInfo
    {other : Conn} (opened : Open proxy other) (different : other ≠ conn)
    (task : Task Conn) : Open ((proxy.freeProxyInfo conn).setTask thread task) other :=
  ⟨opened.created, opened.closed, (Function.update_of_ne different _ _).trans opened.freed⟩

omit [DecidableEq Conn] [DecidableEq Worker] in
theorem Owned.setBatch
    (owned : Owned proxy) {batch : List (EpollEvent Conn)}
    (opened : ∀ event, event ∈ batch → Open proxy event.conn) : Owned { proxy with batch } := by
  have same : ∀ conn, Open proxy conn → Open { proxy with batch } conn :=
    fun conn opened => ⟨opened.created, opened.closed, opened.freed⟩
  exact ⟨fun conn member => same conn (owned.registered conn member),
    fun event member => same event.conn (opened event member),
    fun conn member => same conn (owned.workq conn member),
    fun thread conn processes => same conn (owned.processing thread conn processes),
    owned.releasing, owned.unknown, owned.freed_once, owned.closed_once⟩

omit [DecidableEq Conn] [DecidableEq Worker] in
theorem Owned.setWorkq
    (owned : Owned proxy) {workq : List Conn}
    (opened : ∀ conn, conn ∈ workq → Open proxy conn) : Owned { proxy with workq } := by
  have same : ∀ conn, Open proxy conn → Open { proxy with workq } conn :=
    fun conn opened => ⟨opened.created, opened.closed, opened.freed⟩
  exact ⟨fun conn member => same conn (owned.registered conn member),
    fun event member => same event.conn (owned.batch event member),
    fun conn member => same conn (opened conn member),
    fun thread conn processes => same conn (owned.processing thread conn processes),
    owned.releasing, owned.unknown, owned.freed_once, owned.closed_once⟩

omit [DecidableEq Conn] in
/-- A thread that is not releasing a connection takes up or drops an open one. -/
theorem Owned.setTask
    (owned : Owned proxy) {task : Task Conn}
    (opened : ∀ conn, task = .processing conn → Open proxy conn)
    (keeps : ∀ conn, task ≠ .releasing conn) : Owned (proxy.setTask thread task) := by
  have same : ∀ conn, Open proxy conn → Open (proxy.setTask thread task) conn :=
    fun conn opened => ⟨opened.created, opened.closed, opened.freed⟩
  refine ⟨fun conn member => same conn (owned.registered conn member),
    fun event member => same event.conn (owned.batch event member),
    fun conn member => same conn (owned.workq conn member), ?_, ?_,
    owned.unknown, owned.freed_once, owned.closed_once⟩
  · intro other conn processes
    rcases tasks_setTask processes with ⟨_, taken⟩ | ⟨_, before⟩
    · exact same conn (opened conn taken)
    · exact same conn (owned.processing other conn before)
  · intro other conn releases
    rcases tasks_setTask releases with ⟨_, taken⟩ | ⟨_, before⟩
    · exact absurd taken (keeps conn)
    · obtain ⟨created, closed, freed, alone⟩ := owned.releasing other conn before
      refine ⟨created, closed, freed, ?_⟩
      intro third third_releases
      rcases tasks_setTask third_releases with ⟨_, taken⟩ | ⟨_, third_before⟩
      · exact absurd taken (keeps conn)
      · exact alone third third_before

theorem Owned.close
    (owned : Owned proxy) (opened : Open proxy conn)
    (unshared : Unshared proxy proxy.batch thread conn) :
    Owned ((proxy.closeSock conn).setTask thread (.releasing conn)) := by
  have unheld : ∀ other held, other ≠ thread → (proxy.tasks other).Holds held → held ≠ conn := by
    rintro other held different holds rfl
    exact unshared.others other different holds
  refine ⟨?_, ?_, ?_, ?_, ?_, ?_, owned.freed_once, ?_⟩
  · intro other member
    exact (owned.registered other (Finset.mem_of_mem_erase member)).closeSock
      (Finset.ne_of_mem_erase member) _
  · intro event member
    exact (owned.batch event member).closeSock (unshared.batch event member) _
  · intro other member
    exact (owned.workq other member).closeSock (ne_of_mem_of_not_mem member unshared.workq) _
  · intro other held processes
    rcases tasks_setTask processes with ⟨_, taken⟩ | ⟨different, before⟩
    · cases taken
    · exact (owned.processing other held before).closeSock
        (unheld other held different (.inl before)) _
  · intro other held releases
    rcases tasks_setTask releases with ⟨rfl, taken⟩ | ⟨different, before⟩
    · cases taken
      refine ⟨opened.created, ?_, opened.freed, ?_⟩
      · exact (Function.update_self conn _ proxy.closed).trans (congrArg (· + 1) opened.closed)
      · intro third third_releases
        rcases tasks_setTask third_releases with ⟨same, _⟩ | ⟨different, before⟩
        · exact same
        · exact absurd rfl (unheld third conn different (.inr before))
    · obtain ⟨created, closed, freed, alone⟩ := owned.releasing other held before
      have apart := unheld other held different (.inr before)
      refine ⟨created, (Function.update_of_ne apart _ _).trans closed, freed, ?_⟩
      intro third third_releases
      rcases tasks_setTask third_releases with ⟨_, taken⟩ | ⟨_, third_before⟩
      · cases taken
        exact absurd rfl apart
      · exact alone third third_before
  · intro other unknown
    obtain ⟨closed, freed⟩ := owned.unknown other unknown
    have different : other ≠ conn := (ne_of_mem_of_not_mem opened.created unknown).symm
    exact ⟨(Function.update_of_ne different _ _).trans closed, freed⟩
  · exact counted_once opened.closed owned.closed_once

theorem Owned.free
    (owned : Owned proxy) (releases : proxy.tasks thread = .releasing conn) :
    Owned ((proxy.freeProxyInfo conn).setTask thread .idle) := by
  obtain ⟨created, closed, freed, alone⟩ := owned.releasing thread conn releases
  have apart : ∀ other, Open proxy other → other ≠ conn := by
    rintro other opened rfl
    exact absurd (opened.closed.symm.trans closed) Nat.zero_ne_one
  have same : ∀ other, Open proxy other →
      Open ((proxy.freeProxyInfo conn).setTask thread .idle) other :=
    fun other opened => opened.freeProxyInfo (apart other opened) _
  refine ⟨fun other member => same other (owned.registered other member),
    fun event member => same event.conn (owned.batch event member),
    fun other member => same other (owned.workq other member), ?_, ?_, ?_, ?_,
    owned.closed_once⟩
  · intro other held processes
    rcases tasks_setTask processes with ⟨_, taken⟩ | ⟨_, before⟩
    · cases taken
    · exact same held (owned.processing other held before)
  · intro other held held_releases
    rcases tasks_setTask held_releases with ⟨_, taken⟩ | ⟨different, before⟩
    · cases taken
    · obtain ⟨held_created, held_closed, held_freed, held_alone⟩ :=
        owned.releasing other held before
      have held_apart : held ≠ conn := by
        rintro rfl
        exact different (alone other before)
      refine ⟨held_created, held_closed, ?_, ?_⟩
      · exact (Function.update_of_ne held_apart _ _).trans held_freed
      · intro third third_releases
        rcases tasks_setTask third_releases with ⟨_, taken⟩ | ⟨_, third_before⟩
        · cases taken
        · exact held_alone third third_before
  · intro other unknown
    obtain ⟨other_closed, other_freed⟩ := owned.unknown other unknown
    have different : other ≠ conn := (ne_of_mem_of_not_mem created unknown).symm
    exact ⟨other_closed, (Function.update_of_ne different _ _).trans other_freed⟩
  · exact counted_once freed owned.freed_once

omit [DecidableEq Worker] in
theorem Owned.accept
    (owned : Owned proxy) (new : conn ∉ proxy.created) :
    Owned { proxy with
      created := insert conn proxy.created
      registered := insert conn proxy.registered } := by
  have same : ∀ other, Open proxy other → Open { proxy with
      created := insert conn proxy.created
      registered := insert conn proxy.registered } other :=
    fun other opened => ⟨Finset.mem_insert_of_mem opened.created, opened.closed, opened.freed⟩
  refine ⟨?_, fun event member => same event.conn (owned.batch event member),
    fun other member => same other (owned.workq other member),
    fun thread other processes => same other (owned.processing thread other processes), ?_, ?_,
    owned.freed_once, owned.closed_once⟩
  · intro other member
    rcases Finset.mem_insert.mp member with rfl | before
    · obtain ⟨closed, freed⟩ := owned.unknown other new
      exact ⟨Finset.mem_insert_self _ _, closed, freed⟩
    · exact same other (owned.registered other before)
  · intro thread other releases
    obtain ⟨created, rest⟩ := owned.releasing thread other releases
    exact ⟨Finset.mem_insert_of_mem created, rest⟩
  · intro other unknown
    exact owned.unknown other fun created => unknown (Finset.mem_insert_of_mem created)

omit [DecidableEq Worker] in
theorem Owned.reject
    (owned : Owned proxy) (new : conn ∉ proxy.created) :
    Owned (({ proxy with created := insert conn proxy.created }.freeProxyInfo conn).closeSock
      conn) := by
  obtain ⟨closedBefore, freedBefore⟩ := owned.unknown conn new
  have same : ∀ other, Open proxy other →
      Open (({ proxy with created := insert conn proxy.created }.freeProxyInfo conn).closeSock
        conn) other := by
    intro other opened
    have different := ne_of_mem_of_not_mem opened.created new
    exact ⟨Finset.mem_insert_of_mem opened.created,
      (Function.update_of_ne different _ _).trans opened.closed,
      (Function.update_of_ne different _ _).trans opened.freed⟩
  refine ⟨fun other member => same other (owned.registered other (Finset.mem_of_mem_erase member)),
    fun event member => same event.conn (owned.batch event member),
    fun other member => same other (owned.workq other member),
    fun thread other processes => same other (owned.processing thread other processes),
    ?_, ?_, ?_, ?_⟩
  · intro thread other releases
    obtain ⟨created, closed, freed, alone⟩ := owned.releasing thread other releases
    have different := ne_of_mem_of_not_mem created new
    exact ⟨Finset.mem_insert_of_mem created, (Function.update_of_ne different _ _).trans closed,
      (Function.update_of_ne different _ _).trans freed, alone⟩
  · intro other unknown
    obtain ⟨different, before⟩ := not_or.mp (mt Finset.mem_insert.mpr unknown)
    obtain ⟨closed, freed⟩ := owned.unknown other before
    exact ⟨(Function.update_of_ne different _ _).trans closed,
      (Function.update_of_ne different _ _).trans freed⟩
  · exact counted_once freedBefore owned.freed_once
  · exact counted_once closedBefore owned.closed_once

theorem Owned.handleEpollEvent
    (owned : Owned proxy) {event : EpollEvent Conn} {rest : List (EpollEvent Conn)}
    (added : Bool) (batch : proxy.batch = event :: rest)
    (last : event.hangup = true → Unshared proxy rest none event.conn) :
    Owned (proxy.handleEpollEvent event rest added) := by
  have opened : Open proxy event.conn := owned.batch event (batch ▸ List.mem_cons_self)
  have moved : Owned { proxy with batch := rest } :=
    owned.setBatch fun other member => owned.batch other (batch ▸ List.mem_cons_of_mem event member)
  unfold Proxy.handleEpollEvent
  split
  case isTrue hangup =>
    have unshared := last hangup
    exact moved.close ⟨opened.created, opened.closed, opened.freed⟩
      ⟨unshared.batch, unshared.workq, unshared.others⟩
  case isFalse =>
    split
    · refine moved.setWorkq ?_
      intro conn member
      rcases List.mem_append.mp member with queued | new
      · exact moved.workq conn queued
      · obtain rfl := List.mem_singleton.mp new
        exact ⟨opened.created, opened.closed, opened.freed⟩
    · exact moved

theorem Owned.step
    {event : Event Conn Worker} (owned : Owned proxy)
    (stepped : HimProxy.step proxy event = some after) (last : LastUse proxy event) :
    Owned after := by
  cases event with
  | accepted conn =>
      obtain ⟨new, same⟩ := Option.ite_none_right_eq_some.mp stepped
      obtain rfl := Option.some.inj same
      exact owned.accept new
  | rejected conn =>
      obtain ⟨new, same⟩ := Option.ite_none_right_eq_some.mp stepped
      obtain rfl := Option.some.inj same
      exact owned.reject new
  | polled events =>
      obtain ⟨⟨_, _, registered, _⟩, same⟩ := Option.ite_none_right_eq_some.mp stepped
      obtain rfl := Option.some.inj same
      exact owned.setBatch fun event member =>
        owned.registered event.conn (registered event member)
  | handled added =>
      simp only [HimProxy.step] at stepped
      split at stepped
      · obtain rfl := Option.some.inj stepped
        exact owned.handleEpollEvent added ‹_› (last _ _ ‹_›)
      · cases stepped
  | dequeued worker =>
      simp only [HimProxy.step] at stepped
      split at stepped
      case h_1 conn rest _ queued =>
        obtain rfl := Option.some.inj stepped
        have opened := owned.workq conn (queued ▸ List.mem_cons_self)
        have moved : Owned { proxy with workq := rest } :=
          owned.setWorkq fun other member =>
            owned.workq other (queued ▸ List.mem_cons_of_mem conn member)
        refine moved.setTask ?_ fun _ taken => by cases taken
        intro other taken
        cases taken
        exact ⟨opened.created, opened.closed, opened.freed⟩
      case h_2 => cases stepped
  | finished worker keep =>
      simp only [HimProxy.step] at stepped
      split at stepped
      case h_1 conn processes =>
        split at stepped
        · obtain rfl := Option.some.inj stepped
          exact owned.setTask (fun _ taken => by cases taken) fun _ taken => by cases taken
        · obtain rfl := Option.some.inj stepped
          exact owned.close (owned.processing _ _ processes)
            (last conn processes (Bool.eq_false_of_not_eq_true ‹_›))
      case h_2 => cases stepped
  | released thread =>
      simp only [HimProxy.step] at stepped
      split at stepped
      case h_1 conn releases =>
        obtain rfl := Option.some.inj stepped
        exact owned.free releases
      case h_2 => cases stepped

/-- As long as a connection is given up by whoever has the last item for it,
no item outlives it and nothing is freed or closed twice. -/
theorem last_use_keeps_intact
    {history : List (Event Conn Worker)} (run : LastUseRun history proxy) : Intact proxy := by
  have owned : Owned proxy := by
    refine Trace.invariant (fun _ proxy => Owned proxy) ?_ ?_ run
    · rintro state rfl
      exact Owned.initial
    · intro history state event after before stepped
      exact before.step stepped.1 stepped.2
  exact owned.intact

end Steps

/-- A readable event is queued, and then the connection hangs up; newest step
first. -/
def hangupWhileQueued : List (Event Nat Nat) :=
  [.released none, .handled true, .polled [⟨7, true⟩], .handled true, .polled [⟨7, false⟩],
    .accepted 7]

theorem freed_while_queued :
    ∃ proxy, Run hangupWhileQueued proxy ∧ ¬ Intact proxy := by
  obtain ⟨proxy, replayed, facts⟩ := Option.map_eq_some_iff.mp
    (by decide : (replay step hangupWhileQueued initialProxy).map
      (fun proxy => (proxy.workq, proxy.freed 7)) = some ([7], 1))
  obtain ⟨queued, freed⟩ := Prod.mk.inj facts
  refine ⟨proxy, Trace.of_replay rfl replayed, ?_⟩
  intro intact
  have live := intact.queued 7 (queued ▸ List.mem_singleton_self 7)
  exact absurd (freed.symm.trans live) Nat.one_ne_zero

/-- A readable event is queued and processed, and then the connection hangs up. -/
theorem last_use_keeps_intact_one_conn :
    ∃ (history : List (Event Nat Unit)) (proxy : Proxy Nat Unit),
      LastUseRun history proxy ∧ .handled true ∈ history ∧ .dequeued () ∈ history ∧
        .finished () true ∈ history ∧ proxy.freed 7 = 1 ∧ Intact proxy := by
  have accepted : @LastUseRun Nat Unit _ _ [.accepted 7] _ := .next (.start rfl) ⟨rfl, trivial⟩
  have polled := accepted.next ⟨(rfl : step _ (.polled [⟨7, false⟩]) = some _), trivial⟩
  have queued := polled.next ⟨(rfl : step _ (.handled true) = some _), fun event rest batch hangs =>
    by cases batch; cases hangs⟩
  have dequeued := queued.next ⟨(rfl : step _ (.dequeued ()) = some _), trivial⟩
  have finished := dequeued.next ⟨(rfl : step _ (.finished () true) = some _), fun _ _ => nofun⟩
  have again := finished.next ⟨(rfl : step _ (.polled [⟨7, true⟩]) = some _), trivial⟩
  have closed := again.next ⟨(rfl : step _ (.handled true) = some _), fun event rest batch _ => by
    cases batch
    refine ⟨fun event member => absurd member List.not_mem_nil, List.not_mem_nil, ?_⟩
    rintro (_ | worker) other
    · exact absurd rfl other
    · rintro (processing | releasing)
      · cases processing
      · cases releasing⟩
  have freed := closed.next ⟨(rfl : step _ (.released none) = some _), trivial⟩
  exact ⟨_, _, freed, by simp, by simp, by simp, rfl, last_use_keeps_intact freed⟩

end HimProxy

end Tpt
