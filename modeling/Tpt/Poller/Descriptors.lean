import Tpt.Lib.Locals
import Tpt.Poller.Model

/-!
The descriptors of the epoll server: which file each is open on, which files
are watched, and what every system call leaves of that.
-/

namespace Tpt

namespace Poller

universe u

variable {Client : Type u}

namespace Kernel

structure Sound (sfd : Nat) (kernel : Kernel Client) : Prop where
  listenerAt : ∀ fd, kernel.files fd = some .listener → fd = sfd
  reserved : ∀ client, kernel.files sfd ≠ some (.connection client)
  oneDescriptor : ∀ fd other client, kernel.files fd = some (.connection client) →
    kernel.files other = some (.connection client) → fd = other
  accepted : ∀ fd client, kernel.files fd = some (.connection client) →
    (kernel.connection client).connected = true ∧
      (kernel.connection client).closed = false ∧ client ∉ kernel.backlog
  queued : ∀ client ∈ kernel.backlog, (kernel.connection client).connected = true ∧
    (kernel.connection client).closed = false
  distinct : kernel.backlog.Nodup
  joined : ∀ client, (kernel.connection client).closed = true →
    (kernel.connection client).connected = true
  watched : ∀ file fd, kernel.epoll.data file = some fd → kernel.files fd = some file
  sockets : kernel.epoll.data .unrelated = none
  listening : kernel.files sfd = some .listener → kernel.epoll.data .listener = some sfd
  genuine : none ∉ kernel.closes
  closedOnce : kernel.closes.Nodup
  closedConnection : ∀ client, some (.connection client) ∈ kernel.closes →
    (kernel.connection client).closed = true
  closedListener : some .listener ∈ kernel.closes → kernel.files sfd ≠ some .listener

variable [DecidableEq Client] {sfd fd : Nat} {kernel after : Kernel Client}

/-- What an arrival leaves as it was, and the one file it notifies. -/
structure Arrives (kernel after : Kernel Client) : Prop where
  files : after.files = kernel.files
  closes : after.closes = kernel.closes
  failed : ∀ file, kernel.failed file = true → after.failed file = true
  notified : ∃ file, after.epoll = kernel.epoll.notify file ∧
    ∀ other, other ≠ file → after.level other = true → kernel.level other = true

theorem update_failed
    {client : Client} {connection : Connection} {file : File Client}
    (mono : (kernel.connection client).failed = true → connection.failed = true)
    (isFailed : kernel.failed file = true) :
    ({ kernel with
      connection := Function.update kernel.connection client connection } : Kernel Client).failed
        file = true := by
  cases file with
  | connection other =>
      by_cases same : other = client
      · subst same
        simpa [Kernel.failed] using mono isFailed
      · simpa [Kernel.failed, Function.update_of_ne same] using isFailed
  | listener => exact isFailed
  | unrelated => exact isFailed

theorem update_level
    {client : Client} {connection : Connection} {file : File Client}
    (different : file ≠ .connection client) :
    ({ kernel with
      connection := Function.update kernel.connection client connection } : Kernel Client).level
        file = kernel.level file := by
  cases file with
  | connection other =>
      have others : other ≠ client := fun same => different (by rw [same])
      simp [level, mask, Function.update_of_ne others]
  | listener => rfl
  | unrelated => rfl

theorem signal_arrives
    {client : Client} {connection : Connection}
    (mono : (kernel.connection client).failed = true → connection.failed = true) :
    kernel.Arrives (kernel.signal client connection) where
  files := rfl
  closes := rfl
  failed _ isFailed := update_failed mono isFailed
  notified :=
    ⟨.connection client, rfl, fun _ different raised => (update_level different).symm.trans raised⟩

theorem arrival_arrives
    {event : Arrival Client} (arrived : kernel.arrival event = some after) :
    kernel.Arrives after := by
  cases event with
  | connect client =>
      simp only [arrival, Option.ite_none_left_eq_some, Option.some.injEq] at arrived
      obtain ⟨_, rfl⟩ := arrived
      refine ⟨rfl, rfl, fun file isFailed => ?_, .listener, rfl, ?_⟩
      · have same : (kernel.connection client).failed = true →
            { kernel.connection client with connected := true : Connection }.failed = true := id
        exact update_failed same isFailed
      · intro other different raised
        cases other with
        | connection other =>
            by_cases same : other = client
            · subst same
              simpa [level, mask] using raised
            · simpa [level, mask, Function.update_of_ne same] using raised
        | listener => exact absurd rfl different
        | unrelated => exact raised
  | send client bytes =>
      simp only [arrival, Option.ite_none_right_eq_some, Option.some.injEq] at arrived
      obtain ⟨_, rfl⟩ := arrived
      exact signal_arrives id
  | finish client =>
      simp only [arrival, Option.ite_none_right_eq_some, Option.some.injEq] at arrived
      obtain ⟨_, rfl⟩ := arrived
      exact signal_arrives id
  | reset client =>
      simp only [arrival, Option.ite_none_right_eq_some, Option.some.injEq] at arrived
      obtain ⟨_, rfl⟩ := arrived
      exact signal_arrives fun _ => rfl
  | failListener =>
      obtain rfl := Option.some.inj arrived
      refine ⟨rfl, rfl, ?_, .listener, rfl, ?_⟩
      · intro file isFailed
        cases file with
        | connection client => exact isFailed
        | listener => rfl
        | unrelated => exact isFailed
      · intro other different raised
        cases other with
        | connection client => exact raised
        | listener => exact absurd rfl different
        | unrelated => exact raised

theorem epollWait_eq_some
    {scanned : List (File Client)} {events : List (EpollEvent Client)} :
    kernel.epollWait scanned = some (after, events) ↔
      (scanned.Nodup ∧ (∀ file ∈ scanned, kernel.epoll.ready file = true) ∧
        (scanned.filterMap kernel.event?).length ≤ maxEvents) ∧
      { kernel with epoll := kernel.epoll.scan scanned } = after ∧
        scanned.filterMap kernel.event? = events := by
  simp only [epollWait, Option.ite_none_right_eq_some, Option.some.injEq, Prod.mk.injEq]

theorem accept_eq_some {infd : Nat} (accepted : kernel.accept sfd infd = some after) :
    ∃ client backlog, kernel.backlog = client :: backlog ∧ kernel.listens sfd ∧
      kernel.files infd = none ∧
      after = { kernel with
        backlog := backlog
        files := Function.update kernel.files infd (some (.connection client)) } := by
  unfold accept at accepted
  split at accepted
  · contradiction
  next client backlog waiting =>
    simp only [Option.ite_none_right_eq_some, Option.some.injEq] at accepted
    obtain ⟨⟨listens, free⟩, rfl⟩ := accepted
    exact ⟨client, backlog, waiting, listens, free, rfl⟩

theorem read_eq_some
    {count : Nat} {client : Client} {buf : List Byte}
    (result : kernel.read fd count = some (after, client, buf)) :
    kernel.files fd = some (.connection client) ∧
      0 < count ∧ count ≤ (kernel.connection client).unread.length ∧
      buf = (kernel.connection client).unread.take count ∧
      after = { kernel with
        connection := Function.update kernel.connection client
          { kernel.connection client with
            unread := (kernel.connection client).unread.drop count } } := by
  unfold read at result
  split at result
  next other opened =>
    simp only [Option.ite_none_right_eq_some, Option.some.injEq, Prod.mk.injEq] at result
    obtain ⟨⟨positive, _, available⟩, rfl, rfl, rfl⟩ := result
    exact ⟨opened, positive, available, rfl, rfl⟩
  · contradiction

theorem close_of_open {file : File Client} (opened : kernel.files fd = some file) :
    kernel.close fd = { kernel with
      connection := fun client =>
        { kernel.connection client with
          closed := (kernel.connection client).closed || decide (file = .connection client) }
      files := Function.update kernel.files fd none
      epoll := kernel.epoll.remove file
      closes := some file :: kernel.closes } := by
  simp only [close, opened]

@[simp]
theorem close_failed (file : File Client) : (kernel.close fd).failed file = kernel.failed file := by
  unfold close
  split <;> cases file <;> rfl

@[simp]
theorem close_level (file : File Client) : (kernel.close fd).level file = kernel.level file := by
  unfold close
  split <;> cases file <;> rfl

namespace Sound

omit [DecidableEq Client] in
theorem frame
    (sound : kernel.Sound sfd)
    (files : after.files = kernel.files) (data : after.epoll.data = kernel.epoll.data)
    (backlog : after.backlog = kernel.backlog) (closes : after.closes = kernel.closes)
    (peers : ∀ client, (after.connection client).connected = (kernel.connection client).connected ∧
      (after.connection client).closed = (kernel.connection client).closed) :
    after.Sound sfd where
  listenerAt := by rw [files]; exact sound.listenerAt
  reserved := by rw [files]; exact sound.reserved
  oneDescriptor := by rw [files]; exact sound.oneDescriptor
  accepted := by
    intro fd client opened
    rw [files] at opened
    rw [(peers client).1, (peers client).2, backlog]
    exact sound.accepted fd client opened
  queued := by
    intro client waiting
    rw [backlog] at waiting
    rw [(peers client).1, (peers client).2]
    exact sound.queued client waiting
  distinct := by rw [backlog]; exact sound.distinct
  joined := by
    intro client
    rw [(peers client).1, (peers client).2]
    exact sound.joined client
  watched := by rw [files, data]; exact sound.watched
  sockets := by rw [data]; exact sound.sockets
  listening := by rw [files, data]; exact sound.listening
  genuine := by rw [closes]; exact sound.genuine
  closedOnce := by rw [closes]; exact sound.closedOnce
  closedConnection := by
    intro client closed
    rw [closes] at closed
    rw [(peers client).2]
    exact sound.closedConnection client closed
  closedListener := by rw [closes, files]; exact sound.closedListener

theorem update
    {client : Client} {connection : Connection} {epoll : EdgeSet (File Client)}
    (sound : kernel.Sound sfd) (data : epoll.data = kernel.epoll.data)
    (connected : connection.connected = (kernel.connection client).connected)
    (closed : connection.closed = (kernel.connection client).closed) :
    ({ kernel with
      connection := Function.update kernel.connection client connection
      epoll := epoll } : Kernel Client).Sound sfd := by
  refine sound.frame rfl data rfl rfl fun other => ?_
  by_cases same : other = client
  · subst same
    simp [connected, closed]
  · simp [Function.update_of_ne same]

theorem connect
    {client : Client} {epoll : EdgeSet (File Client)}
    (sound : kernel.Sound sfd) (data : epoll.data = kernel.epoll.data)
    (fresh : (kernel.connection client).connected = false) :
    ({ kernel with
      backlog := kernel.backlog ++ [client]
      connection := Function.update kernel.connection client
        { kernel.connection client with connected := true }
      epoll := epoll } : Kernel Client).Sound sfd where
  listenerAt := sound.listenerAt
  reserved := sound.reserved
  oneDescriptor := sound.oneDescriptor
  accepted := by
    intro fd other found
    obtain ⟨connected, notClosed, notQueued⟩ := sound.accepted fd other found
    have different : other ≠ client := fun same => by simp [same, fresh] at connected
    simp [connected, notClosed, notQueued, different]
  queued := by
    intro other waiting
    by_cases same : other = client
    · subst same
      have opened : (kernel.connection other).closed ≠ true := fun closed => by
        simp [sound.joined other closed] at fresh
      simp [opened]
    · simp only [Function.update_of_ne same]
      exact sound.queued other (by simpa [same] using waiting)
  distinct := by
    have absent : client ∉ kernel.backlog := fun queued => by
      simp [(sound.queued client queued).1] at fresh
    exact List.nodup_append.mpr ⟨sound.distinct, List.nodup_singleton client,
      fun left member right same => by
        rw [List.mem_singleton.mp same]
        exact fun equal => absent (equal ▸ member)⟩
  joined := by
    intro other closed
    by_cases same : other = client
    · subst same
      simp
    · simp only [Function.update_of_ne same] at closed ⊢
      exact sound.joined other closed
  watched := by rw [data]; exact sound.watched
  sockets := by rw [data]; exact sound.sockets
  listening := by rw [data]; exact sound.listening
  genuine := sound.genuine
  closedOnce := sound.closedOnce
  closedConnection := by
    intro other closed
    have isClosed := sound.closedConnection other closed
    by_cases same : other = client
    · subst same
      simp [isClosed]
    · simpa [Function.update_of_ne same] using isClosed
  closedListener := sound.closedListener

theorem arrival
    {event : Arrival Client} (sound : kernel.Sound sfd)
    (arrived : kernel.arrival event = some after) : after.Sound sfd := by
  cases event with
  | connect client =>
      simp only [Kernel.arrival, Option.ite_none_left_eq_some, not_or, Bool.not_eq_true,
        Option.some.injEq] at arrived
      obtain ⟨⟨fresh, _⟩, rfl⟩ := arrived
      exact sound.connect rfl fresh
  | send client bytes =>
      simp only [Kernel.arrival, Option.ite_none_right_eq_some, Option.some.injEq] at arrived
      obtain ⟨_, rfl⟩ := arrived
      exact sound.update rfl rfl rfl
  | finish client =>
      simp only [Kernel.arrival, Option.ite_none_right_eq_some, Option.some.injEq] at arrived
      obtain ⟨_, rfl⟩ := arrived
      exact sound.update rfl rfl rfl
  | reset client =>
      simp only [Kernel.arrival, Option.ite_none_right_eq_some, Option.some.injEq] at arrived
      obtain ⟨_, rfl⟩ := arrived
      exact sound.update rfl rfl rfl
  | failListener =>
      obtain rfl := Option.some.inj arrived
      exact sound.frame rfl rfl rfl rfl fun _ => ⟨rfl, rfl⟩

theorem accept
    {infd : Nat} (sound : kernel.Sound sfd)
    (accepted : kernel.accept sfd infd = some after) : after.Sound sfd := by
  obtain ⟨client, backlog, waiting, ⟨listening, _⟩, free, rfl⟩ := accept_eq_some accepted
  have queued : client ∈ kernel.backlog := by simp [waiting]
  have distinct := sound.distinct
  rw [waiting, List.nodup_cons] at distinct
  have notListener : sfd ≠ infd := fun same => by simp [same, free] at listening
  have unopened : ∀ fd, kernel.files fd ≠ some (.connection client) :=
    fun fd opened => (sound.accepted fd client opened).2.2 queued
  constructor
  case listenerAt =>
    intro fd opened
    rcases update_cases opened with ⟨_, found⟩ | ⟨_, found⟩
    · simp at found
    · exact sound.listenerAt fd found
  case reserved =>
    intro other
    simpa [Function.update_of_ne notListener] using sound.reserved other
  case oneDescriptor =>
    intro fd fd' other opened opened'
    rcases update_cases opened with ⟨rfl, found⟩ | ⟨_, found⟩ <;>
      rcases update_cases opened' with ⟨rfl, found'⟩ | ⟨_, found'⟩
    · rfl
    · cases found
      exact absurd found' (unopened fd')
    · cases found'
      exact absurd found (unopened fd)
    · exact sound.oneDescriptor fd fd' other found found'
  case accepted =>
    intro fd other opened
    rcases update_cases opened with ⟨_, found⟩ | ⟨_, found⟩
    · cases found
      exact ⟨(sound.queued client queued).1, (sound.queued client queued).2, distinct.1⟩
    · obtain ⟨connected, notClosed, notQueued⟩ := sound.accepted fd other found
      rw [waiting, List.mem_cons, not_or] at notQueued
      exact ⟨connected, notClosed, notQueued.2⟩
  case queued =>
    intro other member
    exact sound.queued other (by simp [waiting, show other ∈ backlog from member])
  case distinct => exact distinct.2
  case joined => exact sound.joined
  case watched =>
    intro file fd watched
    have opened := sound.watched file fd watched
    have different : fd ≠ infd := fun same => by simp [same, free] at opened
    simpa [Function.update_of_ne different] using opened
  case sockets => exact sound.sockets
  case listening => exact fun _ => sound.listening listening
  case genuine => exact sound.genuine
  case closedOnce => exact sound.closedOnce
  case closedConnection => exact sound.closedConnection
  case closedListener => exact fun closed => absurd listening (sound.closedListener closed)

theorem add
    {client : Client} {raised : Bool} (sound : kernel.Sound sfd)
    (opened : kernel.files fd = some (.connection client)) :
    ({ kernel with epoll := kernel.epoll.add (.connection client) fd raised } :
      Kernel Client).Sound sfd where
  listenerAt := sound.listenerAt
  reserved := sound.reserved
  oneDescriptor := sound.oneDescriptor
  accepted := sound.accepted
  queued := sound.queued
  distinct := sound.distinct
  joined := sound.joined
  watched := by
    intro file other watched
    by_cases same : file = .connection client
    · subst same
      rw [EdgeSet.add_data_self] at watched
      cases watched
      exact opened
    · rw [EdgeSet.add_data_of_ne same] at watched
      exact sound.watched file other watched
  sockets := by
    rw [EdgeSet.add_data_of_ne (by simp)]
    exact sound.sockets
  listening := by
    rw [EdgeSet.add_data_of_ne (by simp)]
    exact sound.listening
  genuine := sound.genuine
  closedOnce := sound.closedOnce
  closedConnection := sound.closedConnection
  closedListener := sound.closedListener

theorem read
    {count : Nat} {client : Client} {buf : List Byte} (sound : kernel.Sound sfd)
    (result : kernel.read fd count = some (after, client, buf)) : after.Sound sfd := by
  obtain ⟨_, _, _, _, rfl⟩ := read_eq_some result
  exact sound.update rfl rfl rfl

theorem close
    {file : File Client} (sound : kernel.Sound sfd)
    (watched : kernel.epoll.data file = some fd) : (kernel.close fd).Sound sfd := by
  have opened := sound.watched file fd watched
  rw [close_of_open opened]
  have remains : ∀ {other found}, Function.update kernel.files fd none other = some found →
      other ≠ fd ∧ kernel.files other = some found := by
    intro other found lookup
    rcases update_cases lookup with ⟨_, equal⟩ | found
    · contradiction
    · exact found
  constructor
  case listenerAt => exact fun other found => sound.listenerAt other (remains found).2
  case reserved => exact fun client found => sound.reserved client (remains found).2
  case oneDescriptor =>
    exact fun other other' client found found' =>
      sound.oneDescriptor other other' client (remains found).2 (remains found').2
  case accepted =>
    intro other client found
    obtain ⟨different, found⟩ := remains found
    obtain ⟨connected, notClosed, notQueued⟩ := sound.accepted other client found
    have others : file ≠ .connection client := fun same =>
      different (sound.oneDescriptor other fd client found (same ▸ opened))
    simp [connected, notClosed, notQueued, others]
  case queued =>
    intro client waiting
    obtain ⟨connected, notClosed⟩ := sound.queued client waiting
    have others : file ≠ .connection client := fun same =>
      (sound.accepted fd client (same ▸ opened)).2.2 waiting
    simp [connected, notClosed, others]
  case distinct => exact sound.distinct
  case joined =>
    intro client closed
    rcases Bool.or_eq_true_iff.mp closed with before | now
    · exact sound.joined client before
    · have same := of_decide_eq_true now
      exact (sound.accepted fd client (same ▸ opened)).1
  case watched =>
    intro other found lookup
    by_cases same : other = file
    · subst same
      rw [EdgeSet.remove_data_self] at lookup
      contradiction
    · rw [EdgeSet.remove_data_of_ne same] at lookup
      have found' := sound.watched other found lookup
      have different : found ≠ fd := by
        rintro rfl
        exact same (Option.some.inj (found'.symm.trans opened))
      simpa [Function.update_of_ne different] using found'
  case sockets =>
    have others : (File.unrelated : File Client) ≠ file := by
      rintro rfl
      simp [sound.sockets] at watched
    rw [EdgeSet.remove_data_of_ne others]
    exact sound.sockets
  case listening =>
    intro found
    obtain ⟨different, found⟩ := remains found
    have others : (File.listener : File Client) ≠ file := by
      rintro rfl
      exact different (sound.listenerAt fd opened).symm
    rw [EdgeSet.remove_data_of_ne others]
    exact sound.listening found
  case genuine => simpa using sound.genuine
  case closedOnce =>
    refine List.nodup_cons.mpr ⟨fun again => ?_, sound.closedOnce⟩
    cases file with
    | listener =>
        exact sound.closedListener again (sound.listenerAt fd opened ▸ opened)
    | connection client =>
        have closed := sound.closedConnection client again
        rw [(sound.accepted fd client opened).2.1] at closed
        contradiction
    | unrelated => simp [sound.sockets] at watched
  case closedConnection =>
    intro client closed
    rcases List.mem_cons.mp closed with now | before
    · simp [Option.some.inj now.symm]
    · simp [sound.closedConnection client before]
  case closedListener =>
    intro closed found
    obtain ⟨different, found⟩ := remains found
    rcases List.mem_cons.mp closed with now | before
    · have isListener : File.listener = file := Option.some.inj now
      exact different (sound.listenerAt fd (isListener ▸ opened)).symm
    · exact sound.closedListener before found

end Sound

end Kernel

end Poller

end Tpt
