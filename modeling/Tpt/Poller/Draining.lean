import Mathlib.Tactic.DeriveFintype
import Tpt.Lib.Locals
import Tpt.Lib.Progress
import Tpt.Poller.Streams

/-!
The epoll server between two arrivals: it is never stuck, and what has arrived
keeps it busy for a bounded number of steps only.
-/

namespace Tpt

namespace Poller

universe u

deriving instance Fintype for File

variable {Client : Type u} [DecidableEq Client]

/-- The server's own steps, without the calls of `epoll_wait` that report
nothing. -/
def Serves (sfd : Nat) (before : Server Client) (reply : Reply Client) (after : Server Client) :
    Prop :=
  reply ≠ .epollWait [] ∧ before.proceed sfd reply = some after

def Control.work : Control Client → Nat
  | .waiting | .aborted => 0
  | .handling rest => 1 + 2 * rest.length
  | .accepting _ rest | .reading _ rest => 2 + 2 * rest.length
  | .writing _ _ _ rest => 3 + 2 * rest.length
  | .adding _ _ rest => 7 + 2 * rest.length
  | .accepted _ _ rest => 8 + 2 * rest.length

section Work

variable [Fintype Client]

def Kernel.readyFiles (kernel : Kernel Client) : Finset (File Client) :=
  Finset.univ.filter fun file => kernel.epoll.ready file = true

def Kernel.work (kernel : Kernel Client) : Nat :=
  7 * kernel.backlog.length + 4 * kernel.readyFiles.card +
    2 * total (fun connection : Connection => connection.unread.length) kernel.connection

/-- A bound on the steps the server can take before it has to wait for an
arrival. -/
def Server.work (server : Server Client) : Nat :=
  server.kernel.work + server.control.work

namespace Kernel

variable {sfd fd : Nat} {kernel after : Kernel Client}

theorem epollWait_work
    {scanned : List (File Client)} {events : List (EpollEvent Client)}
    (result : kernel.epollWait scanned = some (after, events)) :
    after.work + 4 * scanned.length = kernel.work ∧ events.length ≤ scanned.length := by
  obtain ⟨⟨distinct, ready, _⟩, rfl, rfl⟩ := epollWait_eq_some.mp result
  refine ⟨?_, List.length_filterMap_le _ _⟩
  have taken : scanned.toFinset ⊆ kernel.readyFiles := by
    intro file member
    exact Finset.mem_filter.mpr ⟨Finset.mem_univ file, ready file (List.mem_toFinset.mp member)⟩
  have rest : ({ kernel with epoll := kernel.epoll.scan scanned } : Kernel Client).readyFiles =
      kernel.readyFiles \ scanned.toFinset := by
    ext file
    simp [readyFiles, EdgeSet.scan]
  have count := Finset.card_sdiff_add_card_eq_card taken
  rw [List.toFinset_card_of_nodup distinct] at count
  simp only [work, rest]
  omega

theorem accept_work
    {infd : Nat} (accepted : kernel.accept sfd infd = some after) :
    after.work + 7 = kernel.work := by
  obtain ⟨client, backlog, waiting, _, _, rfl⟩ := accept_eq_some accepted
  simp only [work, readyFiles, waiting, List.length_cons]
  omega

theorem epollCtlAdd_work
    {infd : Nat} (added : kernel.epollCtlAdd infd = some after) :
    after.work ≤ kernel.work + 4 := by
  obtain ⟨file, _, rfl⟩ := Option.map_eq_some_iff.mp added
  have more : ({ kernel with epoll := kernel.epoll.add file infd (kernel.level file) } :
      Kernel Client).readyFiles ⊆ insert file kernel.readyFiles := by
    intro other member
    have ready := (Finset.mem_filter.mp member).2
    by_cases same : other = file
    · exact Finset.mem_insert.mpr (.inl same)
    · refine Finset.mem_insert_of_mem (Finset.mem_filter.mpr ⟨Finset.mem_univ other, ?_⟩)
      exact (EdgeSet.add_ready_of_ne same infd _).symm.trans ready
  have count := (Finset.card_le_card more).trans (Finset.card_insert_le _ _)
  simp only [work]
  omega

theorem read_work
    {count : Nat} {client : Client} {buf : List Byte}
    (result : kernel.read fd count = some (after, client, buf)) :
    after.work + 2 ≤ kernel.work := by
  obtain ⟨_, positive, available, _, rfl⟩ := read_eq_some result
  have changed := total_update (fun connection : Connection => connection.unread.length)
    kernel.connection client { kernel.connection client with
      unread := (kernel.connection client).unread.drop count }
  simp only [List.length_drop] at changed
  simp only [work, readyFiles]
  omega

theorem close_work (kernel : Kernel Client) (fd : Nat) : (kernel.close fd).work ≤ kernel.work := by
  cases opened : kernel.files fd with
  | none => simp only [close, opened, work, readyFiles, Nat.le_refl]
  | some file =>
      have fewer : (kernel.close fd).readyFiles ⊆ kernel.readyFiles := by
        intro other member
        have ready := (Finset.mem_filter.mp member).2
        rw [close_of_open opened] at ready
        refine Finset.mem_filter.mpr ⟨Finset.mem_univ other, ?_⟩
        by_cases same : other = file
        · rw [same, EdgeSet.remove_ready_self] at ready
          contradiction
        · exact (EdgeSet.remove_ready_of_ne same).symm.trans ready
      have count := Finset.card_le_card fewer
      have backlog : (kernel.close fd).backlog = kernel.backlog := by rw [close_of_open opened]
      have unread : total (fun connection : Connection => connection.unread.length)
          (kernel.close fd).connection =
          total (fun connection : Connection => connection.unread.length) kernel.connection := by
        rw [close_of_open opened]
        rfl
      rw [work, work, backlog, unread]
      omega

end Kernel

theorem Serves.work
    {sfd : Nat} {server after : Server Client} {reply : Reply Client}
    (serves : Serves sfd server reply after) : after.work < server.work := by
  obtain ⟨nonempty, stepped⟩ := serves
  unfold Server.proceed at stepped
  split at stepped
  case h_1 scanned control =>
    obtain ⟨⟨kernel, events⟩, waited, rfl⟩ := Option.map_eq_some_iff.mp stepped
    obtain ⟨work, fewer⟩ := Kernel.epollWait_work waited
    have some_ : scanned.length ≠ 0 := fun empty =>
      nonempty (by rw [List.length_eq_zero_iff.mp empty])
    simp only [Server.work, control, Control.work]
    omega
  case h_2 control =>
    obtain rfl := Option.some.inj stepped
    simp [Server.work, control, Control.work]
  case h_3 event rest control =>
    have closing := Kernel.close_work server.kernel event.fd
    split at stepped
    · obtain rfl := Option.some.inj stepped
      simp only [Server.work, control, Control.work, List.length_cons]
      omega
    split at stepped <;>
    · obtain rfl := Option.some.inj stepped
      simp only [Server.work, control, Control.work, List.length_cons]
      omega
  case h_4 event rest infd control =>
    obtain ⟨kernel, accepted, rfl⟩ := Option.map_eq_some_iff.mp stepped
    have work := Kernel.accept_work accepted
    simp only [Server.work, control, Control.work]
    omega
  case h_5 event rest control =>
    simp only [Option.ite_none_right_eq_some, Option.some.injEq] at stepped
    obtain ⟨_, rfl⟩ := stepped
    simp only [Server.work, control, Control.work]
    omega
  case h_6 event rest control =>
    obtain rfl := Option.some.inj stepped
    simp only [Server.work, control, Control.work]
    omega
  case h_7 infd event rest flags s control =>
    split at stepped <;>
    · obtain rfl := Option.some.inj stepped
      simp only [Server.work, control, Control.work]
      omega
  case h_8 infd event rest s control =>
    split at stepped
    · obtain rfl := Option.some.inj stepped
      simp only [Server.work, control, Control.work]
      omega
    · obtain ⟨kernel, added, rfl⟩ := Option.map_eq_some_iff.mp stepped
      have work := Kernel.epollCtlAdd_work added
      simp only [Server.work, control, Control.work]
      omega
  case h_9 event rest count control =>
    obtain ⟨⟨kernel, client, buf⟩, result, rfl⟩ := Option.map_eq_some_iff.mp stepped
    have work := Kernel.read_work result
    simp only [Server.work, control, Control.work]
    omega
  case h_10 event rest control =>
    simp only [Option.ite_none_right_eq_some, Option.some.injEq] at stepped
    obtain ⟨_, rfl⟩ := stepped
    simp only [Server.work, control, Control.work]
    omega
  case h_11 event rest control =>
    have closing := Kernel.close_work server.kernel event.fd
    simp only [Option.ite_none_right_eq_some, Option.some.injEq] at stepped
    obtain ⟨_, rfl⟩ := stepped
    simp only [Server.work, control, Control.work]
    omega
  case h_12 event rest control =>
    have closing := Kernel.close_work server.kernel event.fd
    simp only [Option.ite_none_right_eq_some, Option.some.injEq] at stepped
    obtain ⟨_, rfl⟩ := stepped
    simp only [Server.work, control, Control.work]
    omega
  case h_13 client buf event rest control =>
    obtain rfl := Option.some.inj stepped
    simp only [Server.work, control, Control.work]
    omega
  case h_14 client buf event rest s control =>
    simp only [Option.ite_none_right_eq_some, Option.some.injEq] at stepped
    obtain ⟨_, rfl⟩ := stepped
    simp only [Server.work, control, Control.work]
    omega
  case h_15 control =>
    obtain rfl := Option.some.inj stepped
    simp only [Server.work, control, Control.work]
    omega
  · contradiction

end Work

variable {sfd : Nat} {server after : Server Client} {history : List (Action Client)}
variable {replies : List (Reply Client)}

/-- The server waits, and `epoll_wait` has nothing to report. -/
def Server.Idle (server : Server Client) : Prop :=
  server.control = .waiting ∧ ∀ file, server.kernel.epoll.ready file = false

/-- The results on which the server calls `abort`. -/
def Reply.aborts : Reply Client → Bool
  | .fcntl flags s => decide (makeSocketNonBlocking flags s = -1)
  | .epollCtl s => decide (s = -1)
  | .writeFailed => true
  | _ => false

theorem goes_on
    {reply : Reply Client} (stepped : server.proceed sfd reply = some after)
    (goesOn : reply.aborts = false) : after.control ≠ .aborted := by
  unfold Server.proceed at stepped
  split at stepped
  case h_3 =>
    split at stepped
    · obtain rfl := Option.some.inj stepped
      nofun
    · split at stepped
      all_goals
        obtain rfl := Option.some.inj stepped
        nofun
  case h_7 | h_8 =>
    rw [if_neg (of_decide_eq_false goesOn)] at stepped
    first
      | obtain ⟨_, _, rfl⟩ := Option.map_eq_some_iff.mp stepped
        nofun
      | obtain rfl := Option.some.inj stepped
        nofun
  case h_15 => cases goesOn
  case h_16 => cases stepped
  all_goals first
    | obtain rfl := Option.some.inj stepped
      nofun
    | obtain ⟨_, _, rfl⟩ := Option.map_eq_some_iff.mp stepped
      nofun
    | obtain ⟨_, same⟩ := Option.ite_none_right_eq_some.mp stepped
      obtain rfl := Option.some.inj same
      nofun

/-- The server can go on without aborting unless it waits with an empty ready
list. -/
theorem idle_of_stuck
    (run : Run sfd history server) (running : server.control ≠ .aborted)
    (aborts : ∀ reply next, Serves sfd server reply next → next.control = .aborted) :
    server.Idle := by
  have stuck : ∀ reply, reply ≠ .epollWait [] →
      reply.aborts = false → server.proceed sfd reply = none := by
    intro reply nonempty goesOn
    by_contra enabled
    obtain ⟨next, stepped⟩ := Option.ne_none_iff_exists'.mp enabled
    exact goes_on stepped goesOn (aborts reply next ⟨nonempty, stepped⟩)
  unfold Server.Idle
  cases control : server.control with
  | waiting =>
      refine ⟨rfl, fun file => ?_⟩
      by_contra ready
      rw [Bool.not_eq_false] at ready
      have blocked := stuck (.epollWait [file]) (by simp) rfl
      have short : ([file].filterMap server.kernel.event?).length ≤ 1 :=
        List.length_filterMap_le _ _
      simp only [Server.proceed, control, Option.map_eq_none_iff, Kernel.epollWait,
        ite_eq_right_iff, reduceCtorEq, imp_false] at blocked
      refine blocked ⟨List.nodup_singleton file, ?_, short.trans (by decide)⟩
      simpa using ready
  | handling rest =>
      have blocked := stuck .next (by simp) rfl
      cases rest with
      | nil => simp [Server.proceed, control] at blocked
      | cons event rest =>
          simp only [Server.proceed, control] at blocked
          split at blocked
          · contradiction
          split at blocked <;> contradiction
  | accepting event rest =>
      have blocked := stuck .acceptFailed (by simp) rfl
      simp [Server.proceed, control] at blocked
  | accepted infd event rest =>
      have blocked := stuck (.fcntl 0 0) (by simp) rfl
      simp only [Server.proceed, control] at blocked
      split at blocked <;> contradiction
  | adding infd event rest =>
      have blocked := stuck (.epollCtl 0) (by simp) rfl
      obtain ⟨client, opened, _⟩ := ((run_invariant run).tracks running).newcomer infd (by
        rw [control, Control.infd])
      simp [Server.proceed, control, Kernel.epollCtlAdd, opened] at blocked
  | reading event rest =>
      have noBytes := stuck (.read 1) (by simp) rfl
      have noAgain := stuck .readAgain (by simp) rfl
      have noEnd := stuck .readEnd (by simp) rfl
      have noError := stuck .readFailed (by simp) rfl
      simp only [Server.proceed, control, Option.map_eq_none_iff, ite_eq_right_iff, reduceCtorEq,
        imp_false, Bool.not_eq_true] at noBytes noAgain noEnd noError
      -- the file is a connection, and one of the four results fits its state
      unfold Kernel.read at noBytes
      unfold Kernel.readAgain at noAgain
      unfold Kernel.readEnd at noEnd
      unfold Kernel.readFails at noError
      split at noError
      next client opened =>
        simp only [opened, noError, Bool.not_false, Bool.and_true, Bool.and_eq_false_iff,
          List.isEmpty_eq_false_iff, Bool.not_eq_false', ite_eq_right_iff, reduceCtorEq,
          imp_false] at noBytes noAgain noEnd
        by_cases empty : (server.kernel.connection client).unread = []
        · simp [empty] at noAgain noEnd
          simp [noAgain] at noEnd
        · have positive := List.length_pos_iff.mpr empty
          exact absurd ⟨Nat.one_pos, by decide, positive⟩ noBytes
      · contradiction
  | writing client buf event rest =>
      have blocked := stuck .write (by simp) rfl
      simp [Server.proceed, control] at blocked
  | aborted => exact absurd control running

theorem Run.serve
    (run : Run sfd history server)
    (served : Trace (fun before => before = server) (Serves sfd) replies after) :
    Run sfd (replies.map .reply ++ history) after := by
  induction served with
  | start same =>
      rw [same]
      exact run
  | next _ stepped inductionHypothesis => exact .next inductionHypothesis stepped.2

def GoesOn (sfd : Nat) (before : Server Client) (reply : Reply Client) (after : Server Client) :
    Prop :=
  Serves sfd before reply after ∧ after.control ≠ .aborted

theorem Server.Idle.final (idle : server.Idle) : Final (Serves sfd) server := by
  rintro reply next ⟨nonempty, stepped⟩
  cases reply with
  | epollWait scanned =>
      simp only [Server.proceed, idle.1] at stepped
      obtain ⟨⟨kernel, events⟩, waited, _⟩ := Option.map_eq_some_iff.mp stepped
      obtain ⟨⟨_, ready, _⟩, _⟩ := Kernel.epollWait_eq_some.mp waited
      refine nonempty (congrArg Reply.epollWait (List.eq_nil_iff_forall_not_mem.mpr ?_))
      intro file member
      exact Bool.noConfusion ((idle.2 file).symm.trans (ready file member))
  | _ => simp [Server.proceed, idle.1] at stepped

theorem exists_idle [Fintype Client] (run : Run sfd history server)
    (running : server.control ≠ .aborted) :
    ∃ replies after, Trace (fun before => before = server) (Serves sfd) replies after ∧
      after.Idle := by
  have ends : ∃ replies after, Trace (fun before => before = server) (GoesOn sfd) replies after ∧
      Final (GoesOn sfd) after := Trace.exists_final (fun goes => goes.1.work) server
  obtain ⟨replies, after, goes, final⟩ := ends
  have served := goes.imp And.left
  have still : after.control ≠ .aborted := by
    refine goes.invariant (fun _ after => after.control ≠ .aborted) ?_ ?_
    · rintro before rfl
      exact running
    · exact fun _ goes => goes.2
  refine ⟨replies, after, served, ?_⟩
  refine idle_of_stuck (run.serve served) still fun reply next serves => ?_
  by_contra goesOn
  exact final reply next ⟨serves, goesOn⟩

/-- From any state of a run the server alone takes a bounded number of steps,
and if it has not aborted it can be taken on until it waits with nothing to
report.  When it can take no more and has not aborted, that is where it is, and
every open connection is read to the end of what has arrived, and finished or
failed connections are closed; the backlog is empty if no `accept` has failed
and the listening socket is still open. -/
theorem server_drains [Fintype Client] (run : Run sfd history server) :
    (∀ replies after, Trace (fun before => before = server) (Serves sfd) replies after →
      replies.length ≤ server.work) ∧
    (server.control ≠ .aborted → ∃ replies after,
      Trace (fun before => before = server) (Serves sfd) replies after ∧ after.Idle) ∧
    (∀ replies after, Trace (fun before => before = server) (Serves sfd) replies after →
      after.control ≠ .aborted → (Final (Serves sfd) after ↔ after.Idle)) ∧
    (∀ replies after, Trace (fun before => before = server) (Serves sfd) replies after →
      after.Idle →
      (∀ fd client, after.kernel.files fd = some (.connection client) →
        (after.kernel.connection client).unread = [] ∧
          (after.kernel.connection client).shutdown = false ∧
          (after.kernel.connection client).failed = false) ∧
      (.reply .acceptFailed ∉ history → .acceptFailed ∉ replies →
        after.kernel.files sfd = some .listener → after.kernel.backlog = [])) := by
  refine ⟨?_, exists_idle run, ?_, ?_⟩
  · intro replies after served
    have bounded : replies.length + after.work ≤ server.work :=
      served.bounded (fun same => le_of_eq (congrArg Server.work same)) fun serves => serves.work
    omega
  · intro replies after served running
    refine ⟨fun final => ?_, Server.Idle.final⟩
    exact idle_of_stuck (run.serve served) running fun reply next serves =>
      absurd serves (final reply next)
  · rintro replies after served ⟨waiting, notReady⟩
    have running : after.control ≠ .aborted := by simp [waiting]
    obtain ⟨connections, listener⟩ := nothing_stalls (run.serve served) running
    rw [waiting] at connections listener
    refine ⟨fun fd client opened => ?_, fun accepts accepts' listening => ?_⟩
    · have quiet := mt (connections fd client opened) (by
        simp [notReady, Control.events, Control.infd])
      simpa [not_or] using quiet
    · by_contra nonempty
      have never : Action.reply .acceptFailed ∉ replies.map .reply ++ history := by
        simpa [accepts] using accepts'
      simpa [notReady, Control.events] using listener never listening nonempty

/-- From `twoBytes` the server takes eight steps at most, and there is a way in
which it then waits with nothing left to do and has read all of what was sent. -/
theorem server_drains_two_bytes :
    ∃ server, Run 3 twoBytes server ∧ (server.kernel.connection true).unread = [104, 105] ∧
      (∀ replies after, Trace (fun before => before = server) (Serves 3) replies after →
        replies.length ≤ 8) ∧
      ∃ replies after, Trace (fun before => before = server) (Serves 3) replies after ∧
        after.Idle ∧
        (∀ fd client, after.kernel.files fd = some (.connection client) →
          (after.kernel.connection client).unread = []) := by
  obtain ⟨server, replayed, backlog, control, ready, unread, others⟩ : ∃ server,
      replay (Server.step 3) twoBytes idle = some server ∧ server.kernel.backlog = [] ∧
      server.control = .waiting ∧
      server.kernel.readyFiles = {.connection true} ∧
      (server.kernel.connection true).unread = [104, 105] ∧
      (server.kernel.connection false).unread = [] :=
    ⟨_, rfl, rfl, rfl, by decide, rfl, rfl⟩
  have run : Run 3 twoBytes server := Trace.of_replay idle_started replayed
  have work : server.work = 8 := by
    simp [Server.work, Kernel.work, control, Control.work, backlog, ready, total, unread, others]
  obtain ⟨bounded, goesOn, _, drained⟩ := server_drains run
  obtain ⟨replies, after, served, idle⟩ := goesOn (by simp [control])
  exact ⟨server, run, unread, fun replies after served => work ▸ bounded replies after served,
    replies, after, served, idle, fun fd client opened =>
      ((drained replies after served idle).1 fd client opened).1⟩

end Poller

end Tpt
