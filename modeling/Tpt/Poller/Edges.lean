import Tpt.Poller.Descriptors

/-!
No edge of the epoll server is lost: whatever has something to report is on
the ready list of the epoll instance or among the events still to be handled.
-/

namespace Tpt

namespace Poller

universe u

variable {Client : Type u}

/-- The events the server has still to handle, the current one first. -/
def Control.events : Control Client → List (EpollEvent Client)
  | .waiting | .aborted => []
  | .handling rest => rest
  | .accepting event rest | .accepted _ event rest | .adding _ event rest
  | .reading event rest | .writing _ _ event rest => event :: rest

/-- The descriptor that is accepted and not watched yet. -/
def Control.infd : Control Client → Option Nat
  | .accepted infd _ _ | .adding infd _ _ => some infd
  | _ => none

/-- The inner loops run for an event of their own kind of file. -/
def Control.Fits : Control Client → Prop
  | .accepting event _ | .accepted _ event _ | .adding _ event _ => event.file = .listener
  | .reading event _ => ∃ client, event.file = .connection client
  | .writing client _ event _ => event.file = .connection client
  | _ => True

namespace Kernel

/-- The events were reported for files that are still watched, and a
connection that is not watched has just been accepted. -/
structure Tracks (kernel : Kernel Client) (events : List (EpollEvent Client))
    (infd : Option Nat) : Prop where
  reported : ∀ event ∈ events, kernel.epoll.data event.file = some event.fd
  distinct : (events.map EpollEvent.file).Nodup
  readable : ∀ event ∈ events,
    event.events.epollin = true ∨ kernel.failed event.file = true
  broken : ∀ event ∈ events, (event.events.epollerr || event.events.epollhup) = true →
    kernel.failed event.file = true
  newcomer : ∀ fd, infd = some fd → ∃ client,
    kernel.files fd = some (.connection client) ∧ kernel.epoll.data (.connection client) = none
  watches : ∀ fd client, kernel.files fd = some (.connection client) →
    kernel.epoll.data (.connection client) = some fd ∨ infd = some fd

/-- The level of a file, where that of the listening socket no longer counts
once an `accept` has failed. -/
def counted [DecidableEq Client] (kernel : Kernel Client) (lost : Bool) (file : File Client) :
    Bool :=
  kernel.level file && !(lost && decide (file = .listener))

variable [DecidableEq Client] {sfd : Nat} {kernel after : Kernel Client}
variable {event : EpollEvent Client} {events : List (EpollEvent Client)} {infd : Option Nat}

omit [DecidableEq Client] in
theorem failed_congr
    {file : File Client} (connection : after.connection = kernel.connection)
    (listener : after.listenerFailed = kernel.listenerFailed) :
    after.failed file = kernel.failed file := by
  cases file with
  | listener => exact listener
  | connection client => simp only [failed, connection]
  | unrelated => rfl

omit [DecidableEq Client] in
theorem mask_broken
    {file : File Client}
    (broken : ((kernel.mask file).epollerr || (kernel.mask file).epollhup) = true) :
    kernel.failed file = true := by
  cases file with
  | listener => simpa [mask, failed] using broken
  | connection client => simpa [mask, failed] using broken
  | unrelated => simp [mask] at broken

omit [DecidableEq Client] in
theorem mask_readable
    {file : File Client} (raised : kernel.level file = true) :
    (kernel.mask file).epollin = true ∨ kernel.failed file = true := by
  cases file with
  | listener => simpa [level, mask, Mask.raised, failed, or_assoc] using raised
  | connection client =>
      left
      simpa [level, mask, Mask.raised, or_assoc] using raised
  | unrelated => simp [level, mask, Mask.raised] at raised

omit [DecidableEq Client] in
theorem event?_eq_some
    {file : File Client} (reported : kernel.event? file = some event) :
    kernel.level file = true ∧ kernel.epoll.data file = some event.fd ∧
      event.events = kernel.mask file ∧ event.file = file := by
  simp only [event?, Option.ite_none_right_eq_some, Option.map_eq_some_iff] at reported
  obtain ⟨raised, fd, watched, rfl⟩ := reported
  exact ⟨raised, watched, rfl, rfl⟩

omit [DecidableEq Client] in
theorem reported_sublist (scanned : List (File Client)) :
    List.Sublist ((scanned.filterMap kernel.event?).map EpollEvent.file) scanned := by
  induction scanned with
  | nil => exact .slnil
  | cons file scanned inductionHypothesis =>
      rw [List.filterMap_cons]
      split
      · exact .cons file inductionHypothesis
      next event reported =>
        rw [List.map_cons, (event?_eq_some reported).2.2.2]
        exact .cons_cons file inductionHypothesis

namespace Tracks

omit [DecidableEq Client] in
theorem frame
    (tracks : kernel.Tracks events infd)
    (files : after.files = kernel.files) (data : after.epoll.data = kernel.epoll.data)
    (failed : ∀ file, kernel.failed file = true → after.failed file = true) :
    after.Tracks events infd where
  reported := by rw [data]; exact tracks.reported
  distinct := tracks.distinct
  readable event member := (tracks.readable event member).imp_right (failed event.file)
  broken event member mask := failed event.file (tracks.broken event member mask)
  newcomer := by rw [files, data]; exact tracks.newcomer
  watches := by rw [files, data]; exact tracks.watches

omit [DecidableEq Client] in
theorem tail (tracks : kernel.Tracks (event :: events) infd) : kernel.Tracks events infd where
  reported event member := tracks.reported event (List.mem_cons_of_mem _ member)
  distinct := (List.nodup_cons.mp tracks.distinct).2
  readable event member := tracks.readable event (List.mem_cons_of_mem _ member)
  broken event member := tracks.broken event (List.mem_cons_of_mem _ member)
  newcomer := tracks.newcomer
  watches := tracks.watches

theorem close
    (sound : kernel.Sound sfd) (tracks : kernel.Tracks (event :: events) none) :
    (kernel.close event.fd).Tracks events none where
  reported other member := by
    have watched := tracks.reported event List.mem_cons_self
    rw [close_of_open (sound.watched event.file event.fd watched)]
    have different : other.file ≠ event.file := fun same =>
      (List.nodup_cons.mp tracks.distinct).1 (same ▸ List.mem_map_of_mem member)
    exact (EdgeSet.remove_data_of_ne different).trans (tracks.tail.reported other member)
  distinct := tracks.tail.distinct
  readable other member := by
    rw [close_failed]
    exact tracks.tail.readable other member
  broken other member mask := by
    rw [close_failed]
    exact tracks.tail.broken other member mask
  newcomer fd impossible := by contradiction
  watches fd client opened := by
    have watched := tracks.reported event List.mem_cons_self
    have eventOpened := sound.watched event.file event.fd watched
    rw [close_of_open eventOpened] at opened ⊢
    rcases update_cases opened with ⟨_, found⟩ | ⟨different, found⟩
    · contradiction
    have others : File.connection client ≠ event.file := fun same =>
      different (sound.oneDescriptor fd event.fd client found (same ▸ eventOpened))
    left
    exact (EdgeSet.remove_data_of_ne others).trans
      ((tracks.watches fd client found).resolve_right (by simp))

theorem accept
    {fd : Nat} (sound : kernel.Sound sfd) (tracks : kernel.Tracks events none)
    (accepted : kernel.accept sfd fd = some after) : after.Tracks events (some fd) := by
  obtain ⟨client, backlog, waiting, _, free, rfl⟩ := accept_eq_some accepted
  have unopened : ∀ fd, kernel.files fd ≠ some (.connection client) :=
    fun fd opened => (sound.accepted fd client opened).2.2 (by simp [waiting])
  constructor
  case reported => exact tracks.reported
  case distinct => exact tracks.distinct
  case readable =>
    intro event member
    rw [failed_congr rfl rfl]
    exact tracks.readable event member
  case broken =>
    intro event member mask
    rw [failed_congr rfl rfl]
    exact tracks.broken event member mask
  case newcomer =>
    intro other same
    cases same
    refine ⟨client, by simp, ?_⟩
    cases watched : kernel.epoll.data (.connection client) with
    | none => rfl
    | some other => exact absurd (sound.watched _ _ watched) (unopened other)
  case watches =>
    intro other client' opened
    rcases update_cases opened with ⟨rfl, _⟩ | ⟨_, found⟩
    · exact .inr rfl
    · exact .inl ((tracks.watches other client' found).resolve_right (by simp))

theorem add
    {fd : Nat} {client : Client} {raised : Bool} (sound : kernel.Sound sfd)
    (tracks : kernel.Tracks events (some fd))
    (opened : kernel.files fd = some (.connection client))
    (unwatched : kernel.epoll.data (.connection client) = none) :
    ({ kernel with epoll := kernel.epoll.add (.connection client) fd raised } :
      Kernel Client).Tracks events none where
  reported event member := by
    have watched := tracks.reported event member
    have different : event.file ≠ .connection client := fun same => by
      simp [same, unwatched] at watched
    exact (EdgeSet.add_data_of_ne different fd raised).trans watched
  distinct := tracks.distinct
  readable event member := by
    rw [failed_congr rfl rfl]
    exact tracks.readable event member
  broken event member mask := by
    rw [failed_congr rfl rfl]
    exact tracks.broken event member mask
  newcomer fd impossible := by contradiction
  watches other client' found := by
    left
    by_cases same : client' = client
    · subst same
      rw [sound.oneDescriptor other fd client' found opened]
      exact EdgeSet.add_data_self _ _ _ _
    · have different : File.connection client' ≠ .connection client := by simpa using same
      refine (EdgeSet.add_data_of_ne different fd raised).trans ?_
      refine (tracks.watches other client' found).resolve_right fun newcomer => same ?_
      cases newcomer
      simpa [opened] using found.symm

theorem epollWait
    {scanned : List (File Client)} (tracks : kernel.Tracks [] none)
    (result : kernel.epollWait scanned = some (after, events)) : after.Tracks events none := by
  obtain ⟨⟨distinct, _, _⟩, rfl, rfl⟩ := epollWait_eq_some.mp result
  have found : ∀ event ∈ scanned.filterMap kernel.event?, kernel.level event.file = true ∧
      kernel.epoll.data event.file = some event.fd ∧ event.events = kernel.mask event.file := by
    intro event member
    obtain ⟨file, _, reported⟩ := List.mem_filterMap.mp member
    obtain ⟨raised, watched, mask, rfl⟩ := event?_eq_some reported
    exact ⟨raised, watched, mask⟩
  constructor
  case reported => exact fun event member => (found event member).2.1
  case distinct => exact distinct.sublist (reported_sublist scanned)
  case readable =>
    intro event member
    obtain ⟨raised, _, mask⟩ := found event member
    rw [mask, failed_congr rfl rfl]
    exact mask_readable raised
  case broken =>
    intro event member broken
    rw [(found event member).2.2] at broken
    rw [failed_congr rfl rfl]
    exact mask_broken broken
  case newcomer => exact fun fd impossible => by contradiction
  case watches => exact tracks.watches

end Tracks

omit [DecidableEq Client] in
theorem level_congr
    {file : File Client} (connection : after.connection = kernel.connection)
    (backlog : after.backlog = kernel.backlog)
    (listener : after.listenerFailed = kernel.listenerFailed) :
    after.level file = kernel.level file := by
  cases file with
  | listener => simp only [level, mask, backlog, listener]
  | connection client => simp only [level, mask, connection]
  | unrelated => rfl

theorem counted_of_level
    {lost : Bool} (levels : ∀ file, after.level file = true → kernel.level file = true)
    (file : File Client) (raised : after.counted lost file = true) :
    kernel.counted lost file = true := by
  simp only [counted, Bool.and_eq_true] at raised ⊢
  exact ⟨levels file raised.1, raised.2⟩

/-- The covering of the watched files, by those of the events. -/
abbrev Notices (kernel : Kernel Client) (lost : Bool) (events : List (EpollEvent Client)) : Prop :=
  kernel.epoll.Covered (kernel.counted lost) (events.map EpollEvent.file)

namespace Notices

variable {lost : Bool}

theorem arrival
    (notices : kernel.Notices lost events) (arrives : kernel.Arrives after) :
    after.Notices lost events := by
  obtain ⟨file, epoll, others⟩ := arrives.notified
  unfold Notices
  rw [epoll]
  apply notices.raise
  intro other different raised
  simp only [counted, Bool.and_eq_true] at raised ⊢
  exact ⟨others other different raised.1, raised.2⟩

theorem epollWait
    {scanned : List (File Client)} (notices : kernel.Notices lost [])
    (result : kernel.epollWait scanned = some (after, events)) : after.Notices lost events := by
  obtain ⟨_, rfl, rfl⟩ := epollWait_eq_some.mp result
  have reports : ∀ file ∈ scanned, (kernel.epoll.data file).isSome = true →
      kernel.counted lost file = true →
      file ∈ (scanned.filterMap kernel.event?).map EpollEvent.file := by
    intro file member watched raised
    obtain ⟨fd, watched⟩ := Option.isSome_iff_exists.mp watched
    have level := (Bool.and_eq_true_iff.mp raised).1
    have reported : kernel.event? file =
        some { events := kernel.mask file, fd := fd, file := file } := by
      simp only [event?, level, watched, if_true, Option.map_some]
    exact List.mem_map_of_mem (List.mem_filterMap.mpr ⟨file, member, reported⟩)
  have scan := EdgeSet.Covered.scan notices reports
  rw [List.map_nil, List.append_nil] at scan
  exact scan.lower (counted_of_level fun file raised => (level_congr rfl rfl rfl).symm.trans raised)

theorem close
    (notices : kernel.Notices lost (event :: events))
    (opened : kernel.files event.fd = some event.file) :
    (kernel.close event.fd).Notices lost events := by
  have epoll : (kernel.close event.fd).epoll = kernel.epoll.remove event.file := by
    rw [close_of_open opened]
  unfold Notices
  rw [epoll]
  exact (EdgeSet.Covered.remove notices).lower
    (counted_of_level fun file raised => (close_level file).symm.trans raised)

theorem accept
    {sfd fd : Nat} (notices : kernel.Notices lost events)
    (accepted : kernel.accept sfd fd = some after) : after.Notices lost events := by
  obtain ⟨client, backlog, waiting, _, _, rfl⟩ := accept_eq_some accepted
  refine EdgeSet.Covered.lower notices (counted_of_level fun file raised => ?_)
  cases file with
  | listener => simp [level, mask, Mask.raised, waiting]
  | connection other => exact raised
  | unrelated => exact raised

theorem add
    {client : Client} (notices : kernel.Notices lost events) (fd : Nat) :
    ({ kernel with
      epoll := kernel.epoll.add (.connection client) fd (kernel.level (.connection client)) } :
      Kernel Client).Notices lost events := by
  have level : kernel.counted lost (.connection client) = kernel.level (.connection client) := by
    simp [counted]
  have add : (kernel.epoll.add (.connection client) fd
      (kernel.counted lost (.connection client))).Covered (kernel.counted lost)
        (events.map EpollEvent.file) := EdgeSet.Covered.add notices fd
  rw [level] at add
  exact add.lower (counted_of_level fun file raised => (level_congr rfl rfl rfl).symm.trans raised)

theorem read
    {fd count : Nat} {client : Client} {buf : List Byte} (notices : kernel.Notices lost events)
    (result : kernel.read fd count = some (after, client, buf)) : after.Notices lost events := by
  obtain ⟨_, positive, available, _, rfl⟩ := read_eq_some result
  refine EdgeSet.Covered.lower notices (counted_of_level fun file raised => ?_)
  by_cases same : file = .connection client
  · subst same
    have unread : (kernel.connection client).unread ≠ [] :=
      List.ne_nil_of_length_pos (by omega)
    simp [level, mask, Mask.raised, unread]
  · exact (update_level same).symm.trans raised

/-- The level of the file of the first event does not count any more. -/
theorem handled
    (notices : kernel.Notices lost (event :: events))
    (off : kernel.counted lost event.file = false) : kernel.Notices lost events :=
  EdgeSet.Covered.handled notices off

end Notices

end Kernel

/-- Everything the descriptors and the events keep to in a run; `lost` says
that an `accept` has failed. -/
structure Invariant [DecidableEq Client] (sfd : Nat) (lost : Bool) (server : Server Client) :
    Prop where
  sound : server.kernel.Sound sfd
  fits : server.control.Fits
  tracks : server.control ≠ .aborted →
    server.kernel.Tracks server.control.events server.control.infd
  notices : server.control ≠ .aborted →
    server.kernel.Notices lost server.control.events

namespace Invariant

variable [DecidableEq Client] {sfd : Nat} {lost : Bool} {server after : Server Client}

theorem running
    (sound : server.kernel.Sound sfd) (fits : server.control.Fits)
    (tracks : server.kernel.Tracks server.control.events server.control.infd)
    (notices : server.kernel.Notices lost server.control.events) : Invariant sfd lost server :=
  ⟨sound, fits, fun _ => tracks, fun _ => notices⟩

theorem aborted
    (sound : server.kernel.Sound sfd) (control : server.control = .aborted) :
    Invariant sfd lost server := by
  refine ⟨sound, ?_, fun running => absurd control running, fun running => absurd control running⟩
  rw [control]
  trivial

theorem closing
    {event : EpollEvent Client} {rest : List (EpollEvent Client)}
    (sound : server.kernel.Sound sfd) (tracks : server.kernel.Tracks (event :: rest) none)
    (notices : server.kernel.Notices lost (event :: rest)) :
    Invariant sfd lost { server with
      kernel := server.kernel.close event.fd, control := .handling rest } := by
  have watched := tracks.reported event List.mem_cons_self
  exact running (sound.close watched) trivial (tracks.close sound)
    (notices.close (sound.watched event.file event.fd watched))

theorem next
    {event : EpollEvent Client} {rest : List (EpollEvent Client)}
    (sound : server.kernel.Sound sfd) (tracks : server.kernel.Tracks (event :: rest) none)
    (notices : server.kernel.Notices lost (event :: rest))
    (stepped : (if event.events.epollerr || event.events.epollhup || !event.events.epollin then
        some { server with kernel := server.kernel.close event.fd, control := .handling rest }
      else if sfd = event.fd then some { server with control := .accepting event rest }
      else some { server with control := .reading event rest }) = some after) :
    Invariant sfd lost after := by
  have watched := tracks.reported event List.mem_cons_self
  have opened := sound.watched event.file event.fd watched
  split at stepped
  · obtain rfl := Option.some.inj stepped
    exact closing sound tracks notices
  split at stepped
  next listening =>
    obtain rfl := Option.some.inj stepped
    refine running sound ?_ tracks notices
    show event.file = .listener
    cases file : event.file with
    | listener => rfl
    | connection client =>
        rw [file, ← listening] at opened
        exact absurd opened (sound.reserved client)
    | unrelated => simp [file, sound.sockets] at watched
  next different =>
    obtain rfl := Option.some.inj stepped
    refine running sound ?_ tracks notices
    show ∃ client, event.file = .connection client
    cases file : event.file with
    | listener =>
        rw [file] at opened
        exact absurd (sound.listenerAt event.fd opened).symm different
    | connection client => exact ⟨client, rfl⟩
    | unrelated => simp [file, sound.sockets] at watched

theorem proceed
    {reply : Reply Client} (invariant : Invariant sfd lost server)
    (failure : reply = .acceptFailed → lost = true)
    (stepped : server.proceed sfd reply = some after) : Invariant sfd lost after := by
  obtain ⟨sound, fits, tracks, notices⟩ := invariant
  unfold Server.proceed at stepped
  split at stepped
  case h_1 scanned control =>
    rw [control] at tracks notices
    have tracks := tracks (by simp)
    have notices := notices (by simp)
    obtain ⟨⟨kernel, events⟩, waited, rfl⟩ := Option.map_eq_some_iff.mp stepped
    have soundAfter : kernel.Sound sfd := by
      obtain ⟨_, rfl, _⟩ := Kernel.epollWait_eq_some.mp waited
      exact sound.frame rfl rfl rfl rfl fun _ => ⟨rfl, rfl⟩
    exact running soundAfter trivial (tracks.epollWait waited)
      (Kernel.Notices.epollWait notices waited)
  case h_2 control =>
    rw [control] at tracks notices
    obtain rfl := Option.some.inj stepped
    exact running sound trivial (tracks (by simp)) (notices (by simp))
  case h_3 event rest control =>
    rw [control] at tracks notices
    exact next sound (tracks (by simp)) (notices (by simp)) stepped
  case h_4 event rest infd control =>
    rw [control] at fits tracks notices
    obtain ⟨kernel, accepted, rfl⟩ := Option.map_eq_some_iff.mp stepped
    exact running (sound.accept accepted) fits ((tracks (by simp)).accept sound accepted)
      (Kernel.Notices.accept (notices (by simp)) accepted)
  case h_5 event rest control =>
    rw [control] at fits tracks notices
    simp only [Option.ite_none_right_eq_some, Option.some.injEq] at stepped
    obtain ⟨⟨⟨_, alive⟩, empty⟩, rfl⟩ := stepped
    have isListener : event.file = .listener := fits
    refine running sound trivial (tracks (by simp)).tail
      (Kernel.Notices.handled (notices (by simp)) ?_)
    simp [Kernel.counted, isListener, Kernel.level, Kernel.mask, Mask.raised, alive, empty]
  case h_6 event rest control =>
    rw [control] at fits tracks notices
    obtain rfl := Option.some.inj stepped
    have isListener : event.file = .listener := fits
    refine running sound trivial (tracks (by simp)).tail
      (Kernel.Notices.handled (notices (by simp)) ?_)
    simp [Kernel.counted, isListener, failure rfl]
  case h_7 infd event rest flags s control =>
    rw [control] at fits tracks notices
    split at stepped
    · obtain rfl := Option.some.inj stepped
      exact aborted sound rfl
    · obtain rfl := Option.some.inj stepped
      exact running sound fits (tracks (by simp)) (notices (by simp))
  case h_8 infd event rest s control =>
    rw [control] at fits tracks notices
    split at stepped
    · obtain rfl := Option.some.inj stepped
      exact aborted sound rfl
    · obtain ⟨kernel, added, rfl⟩ := Option.map_eq_some_iff.mp stepped
      obtain ⟨file, opened, rfl⟩ := Option.map_eq_some_iff.mp added
      obtain ⟨client, isConnection, unwatched⟩ := (tracks (by simp)).newcomer infd rfl
      obtain rfl := Option.some.inj (opened.symm.trans isConnection)
      exact running (sound.add opened) fits ((tracks (by simp)).add sound opened unwatched)
        (Kernel.Notices.add (notices (by simp)) infd)
  case h_9 event rest count control =>
    rw [control] at fits tracks notices
    obtain ⟨⟨kernel, client, buf⟩, result, rfl⟩ := Option.map_eq_some_iff.mp stepped
    have soundAfter := sound.read result
    have noticesAfter := Kernel.Notices.read (notices (by simp)) result
    obtain ⟨opened, _, _, _, rfl⟩ := Kernel.read_eq_some result
    obtain ⟨other, isConnection⟩ := fits
    have watched := (tracks (by simp)).reported event List.mem_cons_self
    have found := sound.watched event.file event.fd watched
    have same : event.file = .connection client := Option.some.inj (found.symm.trans opened)
    exact running soundAfter same ((tracks (by simp)).frame rfl rfl
      fun file isFailed => Kernel.update_failed id isFailed) noticesAfter
  case h_10 event rest control =>
    rw [control] at fits tracks notices
    simp only [Option.ite_none_right_eq_some, Option.some.injEq] at stepped
    obtain ⟨again, rfl⟩ := stepped
    have watched := (tracks (by simp)).reported event List.mem_cons_self
    refine running sound trivial (tracks (by simp)).tail
      (Kernel.Notices.handled (notices (by simp)) ?_)
    obtain ⟨client, isConnection⟩ := fits
    have opened := sound.watched event.file event.fd watched
    rw [isConnection] at opened ⊢
    simp only [Kernel.readAgain, opened, Bool.and_eq_true, Bool.not_eq_true'] at again
    simp [Kernel.counted, Kernel.level, Kernel.mask, Mask.raised, again]
  case h_11 event rest control =>
    rw [control] at tracks notices
    simp only [Option.ite_none_right_eq_some, Option.some.injEq] at stepped
    obtain ⟨_, rfl⟩ := stepped
    exact closing sound (tracks (by simp)) (notices (by simp))
  case h_12 event rest control =>
    rw [control] at tracks notices
    simp only [Option.ite_none_right_eq_some, Option.some.injEq] at stepped
    obtain ⟨_, rfl⟩ := stepped
    exact closing sound (tracks (by simp)) (notices (by simp))
  case h_13 client buf event rest control =>
    rw [control] at fits tracks notices
    obtain rfl := Option.some.inj stepped
    exact running sound ⟨client, fits⟩ (tracks (by simp)) (notices (by simp))
  case h_14 client buf event rest s control =>
    rw [control] at fits tracks notices
    simp only [Option.ite_none_right_eq_some, Option.some.injEq] at stepped
    obtain ⟨_, rfl⟩ := stepped
    exact running sound ⟨client, fits⟩ (tracks (by simp)) (notices (by simp))
  case h_15 control =>
    obtain rfl := Option.some.inj stepped
    exact aborted sound rfl
  · contradiction

theorem arrival
    {event : Arrival Client} {kernel : Kernel Client} (invariant : Invariant sfd lost server)
    (arrived : server.kernel.arrival event = some kernel) :
    Invariant sfd lost { server with kernel := kernel } := by
  have arrives := Kernel.arrival_arrives arrived
  refine ⟨invariant.sound.arrival arrived, invariant.fits, fun running => ?_, fun running => ?_⟩
  · obtain ⟨file, epoll, _⟩ := arrives.notified
    exact (invariant.tracks running).frame arrives.files (by rw [epoll]; rfl) arrives.failed
  · exact (invariant.notices running).arrival arrives

theorem weaken
    {lost' : Bool} (invariant : Invariant sfd lost server) (weaker : lost = true → lost' = true) :
    Invariant sfd lost' server where
  sound := invariant.sound
  fits := invariant.fits
  tracks := invariant.tracks
  notices running := by
    refine EdgeSet.Covered.lower (invariant.notices running) fun file raised => ?_
    simp only [Kernel.counted, Bool.and_eq_true, Bool.not_eq_true'] at raised ⊢
    refine ⟨raised.1, ?_⟩
    cases lost with
    | false => rfl
    | true => simpa [weaker rfl] using raised.2

theorem starts (started : Started sfd server) : Invariant sfd false server := by
  obtain ⟨raised, epoll, notified⟩ := started.epoll
  have watchesListener : ∀ file fd, server.kernel.epoll.data file = some fd →
      file = .listener ∧ fd = sfd := by
    intro file fd watched
    rw [epoll] at watched
    by_cases same : file = .listener
    · subst same
      rw [EdgeSet.add_data_self] at watched
      exact ⟨rfl, (Option.some.inj watched).symm⟩
    · rw [EdgeSet.add_data_of_ne same] at watched
      contradiction
  have sound : server.kernel.Sound sfd := by
    constructor
    case listenerAt => exact started.once
    case reserved => exact started.noConnection sfd
    case oneDescriptor =>
      exact fun fd _ client opened => absurd opened (started.noConnection fd client)
    case accepted => exact fun fd client opened => absurd opened (started.noConnection fd client)
    case queued =>
      exact fun client queued =>
        ⟨(started.queued client queued).1, (started.queued client queued).2.1⟩
    case distinct => exact started.distinct
    case joined =>
      intro client closed
      by_cases queued : client ∈ server.kernel.backlog
      · exact (started.queued client queued).1
      · simp [started.unused client queued, Connection.unused] at closed
    case watched =>
      intro file fd watched
      obtain ⟨rfl, rfl⟩ := watchesListener file fd watched
      exact started.listening
    case sockets =>
      rw [epoll]
      exact EdgeSet.add_data_of_ne (by simp) sfd raised
    case listening =>
      rw [epoll]
      exact fun _ => EdgeSet.add_data_self _ _ _ _
    all_goals simp [started.closes]
  refine ⟨sound, ?_, fun _ => ?_, fun _ => ?_⟩
  · rw [started.control]
    trivial
  · rw [started.control]
    exact ⟨by simp [Control.events], List.nodup_nil, by simp [Control.events],
      by simp [Control.events], by simp [Control.infd],
      fun fd client opened => absurd opened (started.noConnection fd client)⟩
  · intro file watched level
    obtain ⟨fd, found⟩ := Option.isSome_iff_exists.mp watched
    obtain ⟨rfl, rfl⟩ := watchesListener file fd found
    left
    rw [epoll, EdgeSet.add_ready_self]
    exact notified (Bool.and_eq_true_iff.mp level).1

end Invariant

variable [DecidableEq Client] {sfd : Nat} {server : Server Client}
variable {history : List (Action Client)}

theorem run_invariant (run : Run sfd history server) :
    Invariant sfd (decide (.reply .acceptFailed ∈ history)) server := by
  apply run.invariant fun history server =>
    Invariant sfd (decide (Action.reply .acceptFailed ∈ history)) server
  · exact fun started => (Invariant.starts started).weaken (by simp)
  · intro history before action after invariant stepped
    have weakened :
        Invariant sfd (decide (Action.reply .acceptFailed ∈ action :: history)) before :=
      invariant.weaken fun earlier =>
        decide_eq_true (List.mem_cons_of_mem action (of_decide_eq_true earlier))
    cases action with
    | arrival event =>
        obtain ⟨kernel, arrived, rfl⟩ := Option.map_eq_some_iff.mp stepped
        exact weakened.arrival arrived
    | reply reply =>
        refine weakened.proceed (fun failure => ?_) stepped
        simp [failure]

/-- While the server runs, a connection with bytes, an end of file or an error
to be seen is on the ready list, has an event the server still handles, or is
about to be watched.  The same holds of the listening socket and its backlog,
unless an `accept` has failed. -/
theorem nothing_stalls
    (run : Run sfd history server) (running : server.control ≠ .aborted) :
    (∀ fd client, server.kernel.files fd = some (.connection client) →
      (server.kernel.connection client).unread ≠ [] ∨
        (server.kernel.connection client).shutdown = true ∨
        (server.kernel.connection client).failed = true →
      server.kernel.epoll.ready (.connection client) = true ∨
        (∃ event ∈ server.control.events, event.fd = fd) ∨ server.control.infd = some fd) ∧
    (.reply .acceptFailed ∉ history → server.kernel.files sfd = some .listener →
      server.kernel.backlog ≠ [] →
      server.kernel.epoll.ready .listener = true ∨
        ∃ event ∈ server.control.events, event.fd = sfd) := by
  have invariant := run_invariant run
  have tracks := invariant.tracks running
  have notices := invariant.notices running
  have pending : ∀ {file fd}, server.kernel.epoll.data file = some fd →
      file ∈ server.control.events.map EpollEvent.file →
      ∃ event ∈ server.control.events, event.fd = fd := by
    intro file fd watched member
    obtain ⟨event, inEvents, rfl⟩ := List.mem_map.mp member
    exact ⟨event, inEvents, Option.some.inj ((tracks.reported event inEvents).symm.trans watched)⟩
  constructor
  · intro fd client opened raised
    rcases tracks.watches fd client opened with watched | newcomer
    · have level : server.kernel.level (.connection client) = true := by
        simpa [Kernel.level, Kernel.mask, Mask.raised, or_assoc] using raised
      rcases notices _ (by rw [watched]; rfl) (by simpa [Kernel.counted] using level) with
        ready | waiting
      · exact .inl ready
      · exact .inr (.inl (pending watched waiting))
    · exact .inr (.inr newcomer)
  · intro accepts listening waiting
    have watched := invariant.sound.listening listening
    have level : server.kernel.level .listener = true := by
      simp [Kernel.level, Kernel.mask, Mask.raised, waiting]
    rcases notices .listener (by rw [watched]; rfl)
      (by simpa [Kernel.counted, accepts] using level) with ready | waiting
    · exact .inl ready
    · exact .inr (pending watched waiting)

def idle : Server Bool :=
  { kernel :=
      { backlog := []
        listenerFailed := false
        connection := fun _ => .unused
        files := fun fd => if fd = 3 then some .listener else none
        epoll := EdgeSet.empty.add .listener 3 false
        closes := [] }
    control := .waiting
    output := [] }

theorem idle_started : Started 3 idle where
  control := rfl
  output := rfl
  closes := rfl
  listening := rfl
  once := by
    intro fd found
    by_cases same : fd = 3
    · exact same
    · simp [idle, same] at found
  noConnection := by
    intro fd client found
    by_cases same : fd = 3 <;> simp [idle, same] at found
  epoll :=
    ⟨false, rfl, fun level => by simp [idle, Kernel.level, Kernel.mask, Mask.raised] at level⟩
  distinct := List.nodup_nil
  queued := by simp [idle]
  unused := fun _ _ => rfl

/-- A peer is accepted, and sends two bytes when the server waits again. -/
def twoBytes : List (Action Bool) :=
  [.arrival (.send true [104, 105]), .reply .next, .reply .acceptAgain, .reply (.epollCtl 0),
    .reply (.fcntl 2 0), .reply (.accept 5), .reply .next, .reply (.epollWait [.listener]),
    .arrival (.connect true)]

theorem nothing_stalls_two_bytes :
    ∃ server, Run 3 twoBytes server ∧ (server.kernel.connection true).unread = [104, 105] ∧
      (server.kernel.epoll.ready (.connection true) = true ∨
        (∃ event ∈ server.control.events, event.fd = 5) ∨ server.control.infd = some 5) := by
  obtain ⟨server, replayed, opened, unread, control⟩ : ∃ server,
      replay (Server.step 3) twoBytes idle = some server ∧
      server.kernel.files 5 = some (.connection true) ∧
      (server.kernel.connection true).unread = [104, 105] ∧ server.control = .waiting :=
    ⟨_, rfl, rfl, rfl, rfl⟩
  have run : Run 3 twoBytes server := Trace.of_replay idle_started replayed
  exact ⟨server, run, unread,
    (nothing_stalls run (by simp [control])).1 5 true opened (.inl (by simp [unread]))⟩

/-- Every `close` closes an open file, no file twice, and an event is handled
while its descriptor is open on the file it was reported for: no event reaches
a connection that took over the descriptor of a closed one. -/
theorem events_current (run : Run sfd history server) :
    none ∉ server.kernel.closes ∧ server.kernel.closes.Nodup ∧
      (∀ client, some (.connection client) ∈ server.kernel.closes →
        ∀ fd, server.kernel.files fd ≠ some (.connection client)) ∧
      (∀ event ∈ server.control.events,
        server.kernel.files event.fd = some event.file) ∧
      (server.control.events.map EpollEvent.fd).Nodup := by
  have invariant := run_invariant run
  have sound := invariant.sound
  have current : ∀ event ∈ server.control.events,
      server.kernel.files event.fd = some event.file := by
    intro event member
    have running : server.control ≠ .aborted := fun aborted => by
      simp [aborted, Control.events] at member
    exact sound.watched event.file event.fd ((invariant.tracks running).reported event member)
  refine ⟨sound.genuine, sound.closedOnce, ?_, current, ?_⟩
  · intro client closed fd opened
    have isOpen := (sound.accepted fd client opened).2.1
    rw [sound.closedConnection client closed] at isOpen
    contradiction
  · by_cases aborted : server.control = .aborted
    · rw [aborted]
      exact List.nodup_nil
    · have distinct := List.pairwise_map.mp (invariant.tracks aborted).distinct
      refine List.pairwise_map.mpr (distinct.imp_of_mem fun first second different same => ?_)
      have files := current _ second
      rw [← same, current _ first] at files
      exact different (Option.some.inj files)

/-- A peer resets its connection, and the next peer is accepted under the same
descriptor while the events of one `epoll_wait` are handled. -/
def descriptorReused : List (Action Bool) :=
  [.reply .acceptAgain, .reply (.epollCtl 0), .reply (.fcntl 2 0), .reply (.accept 5),
    .reply .next, .reply .next, .reply (.epollWait [.connection true, .listener]),
    .arrival (.reset true), .arrival (.connect false), .reply .next] ++ twoBytes.drop 2

theorem events_current_descriptor_reused :
    ∃ server, Run 3 descriptorReused server ∧
      server.kernel.files 5 = some (.connection false) ∧
      some (.connection true) ∈ server.kernel.closes ∧ none ∉ server.kernel.closes := by
  obtain ⟨server, replayed, opened, closed⟩ : ∃ server,
      replay (Server.step 3) descriptorReused idle = some server ∧
      server.kernel.files 5 = some (.connection false) ∧
      server.kernel.closes = [some (.connection true)] :=
    ⟨_, rfl, rfl, rfl⟩
  have run : Run 3 descriptorReused server := Trace.of_replay idle_started replayed
  exact ⟨server, run, opened, by simp [closed], (events_current run).1⟩

end Poller

end Tpt
