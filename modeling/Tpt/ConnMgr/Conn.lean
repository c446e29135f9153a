import Mathlib.Tactic

/-!
`conn_mgr_conn_new` of `conn_mgr_conn.c`: connecting a socket with a timeout.

The system calls and `malloc` are answered by a record of their outcomes; a
call that is not made leaves its outcome unread.  `poll` is called until it is
not interrupted, so its outcomes are a list.
-/

namespace Tpt

namespace ConnMgr

inductive ConnMgrErr where
  | success
  | errNullParams
  | errMemAlloc
  | connErrSocket
  | connErrSetNonBlocking
  | connErrSetBlocking
  | connErrConnect
  | connErrTimedOut
  | connErrPoll
  | connErrConnecting
  deriving DecidableEq

inductive Errno where
  | eintr
  | einprogress
  | other
  deriving DecidableEq

inductive ConnectOutcome where
  | connected
  | failed (errno : Errno)
  deriving DecidableEq

/-- `poll` fails, times out, or reports `revents` with or without `POLLOUT`. -/
inductive PollOutcome where
  | failed (errno : Errno)
  | timedOut
  | ready (pollout : Bool)
  deriving DecidableEq

structure FcntlOutcome where
  getfl : Bool
  setfl : Bool
  deriving DecidableEq

structure Outcomes where
  socket : Option Nat
  setNonBlocking : FcntlOutcome
  connect : ConnectOutcome
  polls : List PollOutcome
  setBlocking : FcntlOutcome
  malloc : Bool

/-- `conn_mgr_conn_errno`, the mode of the socket, and the descriptors closed
so far. -/
structure ConnState where
  connErrno : ConnMgrErr
  nonBlocking : Bool
  closed : List Nat
  deriving DecidableEq

/-- The body of `set_socket_non_blocking` and `set_socket_blocking`. -/
def setSocketMode (nonBlocking : Bool) (fcntl : FcntlOutcome) (state : ConnState) :
    Int × ConnState :=
  if fcntl.getfl then
    if fcntl.setfl then (0, { state with nonBlocking }) else (-1, state)
  else (-1, state)

def setSocketNonBlocking (fcntl : FcntlOutcome) (state : ConnState) : Int × ConnState :=
  setSocketMode true fcntl state

def setSocketBlocking (fcntl : FcntlOutcome) (state : ConnState) : Int × ConnState :=
  setSocketMode false fcntl state

/-- `poll_for_connect`; there is no result while `poll` is being waited for. -/
def pollForConnect : List PollOutcome → ConnState → Option (Int × ConnState)
  | [], _ => none
  | .failed .eintr :: polls, state => pollForConnect polls state
  | .failed _ :: _, state => some (-1, { state with connErrno := .connErrPoll })
  | .timedOut :: _, state => some (-1, { state with connErrno := .connErrTimedOut })
  | .ready true :: _, state => some (1, state)
  | .ready false :: _, state => some (-1, { state with connErrno := .connErrConnecting })

/-- The end of `tcp_connect_with_timeout`, with the value of `ret` so far. -/
def backToBlocking (setBlocking : FcntlOutcome) (ret : Int) (state : ConnState) :
    Int × ConnState :=
  let (failed, state) := setSocketBlocking setBlocking state
  if failed < 0 then (-1, { state with connErrno := .connErrSetBlocking }) else (ret, state)

def tcpConnectWithTimeout (outcomes : Outcomes) (state : ConnState) :
    Option (Int × ConnState) :=
  let (failed, state) := setSocketNonBlocking outcomes.setNonBlocking state
  if failed < 0 then some (-1, { state with connErrno := .connErrSetNonBlocking })
  else
    match outcomes.connect with
    | .connected => some (backToBlocking outcomes.setBlocking 0 state)
    | .failed .einprogress =>
        (pollForConnect outcomes.polls state).map fun (ret, state) =>
          backToBlocking outcomes.setBlocking ret state
    | .failed _ => some (0, { state with connErrno := .connErrConnect })

/-- The rest of `conn_mgr_conn_new`, with the result of `tcp_connect_with_timeout`. -/
def allocateConn (malloc : Bool) (fd : Nat) (ret : Int) (state : ConnState) :
    Option Nat × ConnState :=
  if ret < 0 then (none, { state with closed := fd :: state.closed })
  else if malloc then (some fd, { state with connErrno := .success })
  else (none, { state with connErrno := .errMemAlloc, closed := fd :: state.closed })

/-- `conn_mgr_conn_new` with an `ip`; a connection is its descriptor. -/
def connMgrConnNew (outcomes : Outcomes) (state : ConnState) :
    Option (Option Nat × ConnState) :=
  match outcomes.socket with
  | none => some (none, { state with connErrno := .connErrSocket })
  | some fd =>
      (tcpConnectWithTimeout outcomes state).map fun (ret, state) =>
        allocateConn outcomes.malloc fd ret state

def ConnState.start (connErrno : ConnMgrErr) : ConnState :=
  { connErrno, nonBlocking := false, closed := [] }

def Outcomes.polled (outcomes : Outcomes) : Option PollOutcome :=
  outcomes.polls.find? (· ≠ .failed .eintr)

def Outcomes.Connected (outcomes : Outcomes) : Prop :=
  outcomes.connect = .connected ∨
    (outcomes.connect = .failed .einprogress ∧ outcomes.polled = some (.ready true))

def FcntlOutcome.Succeeds (fcntl : FcntlOutcome) : Prop :=
  fcntl.getfl = true ∧ fcntl.setfl = true

def Outcomes.Fails (outcomes : Outcomes) : Prop :=
  ¬ outcomes.Connected ∨ ¬ outcomes.setNonBlocking.Succeeds ∨ ¬ outcomes.setBlocking.Succeeds ∨
    outcomes.malloc = false

/-- What a return of `conn_mgr_conn_new` promises. -/
structure Returned (outcomes : Outcomes) (conn : Option Nat) (state : ConnState) : Prop where
  connected : ∀ fd, conn = some fd → outcomes.Connected ∧ outcomes.socket = some fd ∧
    state.nonBlocking = false ∧ state.closed = []
  refused : outcomes.socket = none ∨ outcomes.Fails → conn = none
  reported : conn = none → state.connErrno ≠ .success
  released : conn = none → state.closed = outcomes.socket.toList

/-- The call returns unless `poll` is interrupted for ever, and keeps its
promise. -/
def ConnNewMeets (outcomes : Outcomes) : Prop :=
  ∀ connErrno,
    (outcomes.polled ≠ none → connMgrConnNew outcomes (.start connErrno) ≠ none) ∧
    ∀ conn state, connMgrConnNew outcomes (.start connErrno) = some (conn, state) →
      Returned outcomes conn state

def Outcomes.ConnectFails (outcomes : Outcomes) : Prop :=
  ∃ errno, outcomes.connect = .failed errno ∧ errno ≠ .einprogress

section Calls

variable {outcomes : Outcomes} {state after : ConnState} {ret : Int}

theorem setSocketMode_cases
    (nonBlocking : Bool) (fcntl : FcntlOutcome) (state : ConnState) :
    (fcntl.Succeeds ∧ setSocketMode nonBlocking fcntl state = (0, { state with nonBlocking })) ∨
      (¬ fcntl.Succeeds ∧ setSocketMode nonBlocking fcntl state = (-1, state)) := by
  obtain ⟨getfl, setfl⟩ := fcntl
  unfold FcntlOutcome.Succeeds setSocketMode
  cases getfl <;> cases setfl <;> simp

theorem pollForConnect_returns
    {polls : List PollOutcome} (polled : polls.find? (· ≠ .failed .eintr) ≠ none)
    (state : ConnState) : pollForConnect polls state ≠ none := by
  induction polls with
  | nil => exact absurd rfl polled
  | cons answer polls inductionHypothesis =>
      unfold pollForConnect
      split
      case h_1 same => cases same
      case h_2 same =>
        cases same
        exact inductionHypothesis polled
      all_goals exact Option.some_ne_none _

theorem pollForConnect_cases
    {polls : List PollOutcome} (returned : pollForConnect polls state = some (ret, after)) :
    (polls.find? (· ≠ .failed .eintr) = some (.ready true) ∧ ret = 1 ∧ after = state) ∨
      (polls.find? (· ≠ .failed .eintr) ≠ some (.ready true) ∧ ret = -1 ∧
        ∃ connErrno, connErrno ≠ .success ∧ after = { state with connErrno }) := by
  induction polls with
  | nil => cases returned
  | cons answer polls inductionHypothesis =>
      unfold pollForConnect at returned
      split at returned
      case h_1 same => cases same
      case h_2 same =>
        cases same
        exact inductionHypothesis returned
      case h_3 errno _ interrupted same =>
        cases same
        cases returned
        refine .inr ⟨?_, rfl, _, by decide, rfl⟩
        rw [List.find?_cons_of_pos (by simpa using interrupted)]
        simp
      case h_4 same =>
        cases same
        cases returned
        exact .inr ⟨by simp, rfl, _, by decide, rfl⟩
      case h_5 same =>
        cases same
        cases returned
        exact .inl ⟨by simp, rfl, rfl⟩
      case h_6 same =>
        cases same
        cases returned
        exact .inr ⟨by simp, rfl, _, by decide, rfl⟩

/-- How `tcp_connect_with_timeout` returns: with an error that is reported,
connected and in blocking mode, or with `0` although `connect` failed. -/
inductive TcpReturned (outcomes : Outcomes) (closed : List Nat) (ret : Int)
    (after : ConnState) : Prop where
  | failed : ret < 0 → outcomes.Fails → after.connErrno ≠ .success →
      after.closed = closed → ¬ outcomes.ConnectFails ∨ ¬ outcomes.setNonBlocking.Succeeds →
      TcpReturned outcomes closed ret after
  | connected : 0 ≤ ret → outcomes.Connected → outcomes.setNonBlocking.Succeeds →
      outcomes.setBlocking.Succeeds → after.nonBlocking = false → after.closed = closed →
      TcpReturned outcomes closed ret after
  | unnoticed : 0 ≤ ret → outcomes.ConnectFails → outcomes.setNonBlocking.Succeeds →
      after.nonBlocking = true → after.closed = closed →
      TcpReturned outcomes closed ret after

theorem Outcomes.Connected.not_connectFails (connected : outcomes.Connected) :
    ¬ outcomes.ConnectFails := by
  rintro ⟨errno, failed, different⟩
  rcases connected with connected | ⟨inProgress, _⟩
  · cases connected.symm.trans failed
  · cases inProgress.symm.trans failed
    exact different rfl

theorem backToBlocking_returned
    {result : Int × ConnState} (nonBlocking : outcomes.setNonBlocking.Succeeds)
    (started : ¬ outcomes.ConnectFails) (success : 0 ≤ ret → outcomes.Connected)
    (failure : ret < 0 → ¬ outcomes.Connected ∧ state.connErrno ≠ .success)
    (returned : backToBlocking outcomes.setBlocking ret state = result) :
    TcpReturned outcomes state.closed result.1 result.2 := by
  subst returned
  unfold backToBlocking setSocketBlocking
  rcases setSocketMode_cases false outcomes.setBlocking state with
    ⟨succeeds, same⟩ | ⟨fails, same⟩
  · rw [same]
    rcases lt_or_ge ret 0 with negative | nonnegative
    · obtain ⟨unconnected, reported⟩ := failure negative
      exact .failed negative (.inl unconnected) reported rfl (.inl started)
    · exact .connected nonnegative (success nonnegative) nonBlocking succeeds rfl rfl
  · rw [same]
    have negative : (-1 : Int) < 0 := by decide
    exact .failed negative (.inr (.inr (.inl fails))) ConnMgrErr.noConfusion rfl (.inl started)

theorem tcpConnectWithTimeout_returned
    (returned : tcpConnectWithTimeout outcomes state = some (ret, after)) :
    TcpReturned outcomes state.closed ret after := by
  unfold tcpConnectWithTimeout setSocketNonBlocking at returned
  rcases setSocketMode_cases true outcomes.setNonBlocking state with
    ⟨succeeds, same⟩ | ⟨fails, same⟩
  · rw [same] at returned
    simp only [lt_irrefl, if_false] at returned
    split at returned
    case h_1 connected =>
      refine backToBlocking_returned succeeds ?_ (fun _ => .inl connected) ?_
        (Option.some.inj returned)
      · exact Outcomes.Connected.not_connectFails (.inl connected)
      · intro negative
        exact absurd negative (lt_irrefl 0)
    case h_2 inProgress =>
      obtain ⟨⟨polledRet, polledState⟩, polled, rest⟩ := Option.map_eq_some_iff.mp returned
      have started : ¬ outcomes.ConnectFails := by
        rintro ⟨errno, failed, different⟩
        cases inProgress.symm.trans failed
        exact different rfl
      rcases pollForConnect_cases polled with
        ⟨writable, rfl, rfl⟩ | ⟨unwritable, rfl, connErrno, reported, rfl⟩
      · refine backToBlocking_returned succeeds started
          (fun _ => .inr ⟨inProgress, writable⟩) ?_ rest
        intro (negative : (1 : Int) < 0)
        exact absurd negative (by decide)
      · refine backToBlocking_returned succeeds started ?_ ?_ rest
        · intro (nonnegative : (0 : Int) ≤ -1)
          exact absurd nonnegative (by decide)
        · intro _
          refine ⟨?_, reported⟩
          rintro (connected | ⟨_, writable⟩)
          · cases inProgress.symm.trans connected
          · exact unwritable writable
    case h_3 errno different failed =>
      cases returned
      have refused : outcomes.ConnectFails :=
        ⟨errno, failed, different⟩
      exact .unnoticed (le_refl 0) refused succeeds rfl rfl
  · rw [same] at returned
    cases returned
    have negative : (-1 : Int) < 0 := by decide
    exact .failed negative (.inr (.inl fails)) ConnMgrErr.noConfusion rfl (.inr fails)

theorem tcpConnectWithTimeout_returns
    (polled : outcomes.polled ≠ none) (state : ConnState) :
    tcpConnectWithTimeout outcomes state ≠ none := by
  unfold tcpConnectWithTimeout
  simp only
  split
  · exact Option.some_ne_none _
  · split
    case h_2 => simpa using pollForConnect_returns polled _
    all_goals exact Option.some_ne_none _

theorem connMgrConnNew_returns
    (polled : outcomes.polled ≠ none) (state : ConnState) :
    connMgrConnNew outcomes state ≠ none := by
  unfold connMgrConnNew
  split
  · exact Option.some_ne_none _
  · simpa using tcpConnectWithTimeout_returns polled state

end Calls

section Promise

variable {outcomes : Outcomes} {connErrno : ConnMgrErr} {fd : Nat}

/-- The failure of `connect` reaches the caller only as an allocation failure. -/
def Outcomes.Unnoticed (outcomes : Outcomes) : Prop :=
  outcomes.socket ≠ none ∧ outcomes.setNonBlocking.Succeeds ∧ outcomes.ConnectFails ∧
    outcomes.malloc = true

theorem Outcomes.Unnoticed.returns
    (socket : outcomes.socket = some fd) (unnoticed : outcomes.Unnoticed) :
    connMgrConnNew outcomes (.start connErrno) =
      some (some fd, { connErrno := .success, nonBlocking := true, closed := [] }) := by
  obtain ⟨_, succeeds, ⟨errno, failed, different⟩, malloc⟩ := unnoticed
  have tcp : tcpConnectWithTimeout outcomes (.start connErrno) =
      some (0, { connErrno := .connErrConnect, nonBlocking := true, closed := [] }) := by
    unfold tcpConnectWithTimeout setSocketNonBlocking setSocketMode
    rw [succeeds.1, succeeds.2, failed]
    cases errno
    case einprogress => exact absurd rfl different
    all_goals rfl
  unfold connMgrConnNew
  rw [socket, tcp, malloc]
  rfl

theorem Returned.failure
    {state : ConnState} (socket : outcomes.socket = some fd)
    (reported : state.connErrno ≠ .success) (closed : state.closed = [fd]) :
    Returned outcomes none state where
  connected := nofun
  refused := fun _ => rfl
  reported := fun _ => reported
  released := fun _ => by rw [closed, socket]; rfl

theorem allocateConn_returned
    {ret : Int} {after : ConnState} (socket : outcomes.socket = some fd)
    (noticed : ¬ outcomes.Unnoticed) (tcp : TcpReturned outcomes [] ret after) :
    Returned outcomes (allocateConn outcomes.malloc fd ret after).1
      (allocateConn outcomes.malloc fd ret after).2 := by
  unfold allocateConn
  cases tcp with
  | failed negative fails reported closed cause =>
      rw [if_pos negative]
      exact .failure socket reported (congrArg (List.cons fd) closed)
  | connected nonnegative connected nonBlocking blocking mode closed =>
      rw [if_neg (not_lt.mpr nonnegative)]
      cases malloc : outcomes.malloc with
      | false => exact .failure socket ConnMgrErr.noConfusion (congrArg (List.cons fd) closed)
      | true =>
          refine ⟨?_, ?_, nofun, nofun⟩
          · rintro _ ⟨⟩
            exact ⟨connected, socket, mode, closed⟩
          · rintro (missing | unconnected | fails | fails | exhausted)
            · cases missing.symm.trans socket
            · exact absurd connected unconnected
            · exact absurd nonBlocking fails
            · exact absurd blocking fails
            · cases malloc.symm.trans exhausted
  | unnoticed nonnegative refused nonBlocking mode closed =>
      rw [if_neg (not_lt.mpr nonnegative)]
      cases malloc : outcomes.malloc with
      | false => exact .failure socket ConnMgrErr.noConfusion (congrArg (List.cons fd) closed)
      | true =>
          have present : outcomes.socket ≠ none := by simp [socket]
          exact absurd ⟨present, nonBlocking, refused, malloc⟩ noticed

theorem Returned.without_socket
    (socket : outcomes.socket = none) :
    Returned outcomes none { ConnState.start connErrno with connErrno := .connErrSocket } where
  connected := nofun
  refused := fun _ => rfl
  reported := fun _ => ConnMgrErr.noConfusion
  released := fun _ => by rw [socket]; rfl

/-- A failure of `connect` other than `EINPROGRESS` is taken for success, and
nothing else breaks the promise. -/
theorem conn_new_meets_iff (outcomes : Outcomes) :
    ConnNewMeets outcomes ↔
      ¬ (outcomes.socket ≠ none ∧ outcomes.setNonBlocking.Succeeds ∧ outcomes.ConnectFails ∧
        outcomes.malloc = true) := by
  constructor
  · intro meets unnoticed
    obtain ⟨fd, socket⟩ := Option.ne_none_iff_exists'.mp unnoticed.1
    have returned := (meets .success).2 _ _ (Outcomes.Unnoticed.returns socket unnoticed)
    have connected := (returned.connected fd rfl).1
    exact connected.not_connectFails unnoticed.2.2.1
  · intro noticed connErrno
    refine ⟨fun polled => connMgrConnNew_returns polled _, fun conn state returned => ?_⟩
    cases socket : outcomes.socket with
    | none =>
        unfold connMgrConnNew at returned
        rw [socket] at returned
        cases returned
        exact .without_socket socket
    | some fd =>
        unfold connMgrConnNew at returned
        rw [socket] at returned
        obtain ⟨⟨ret, after⟩, tcp, rest⟩ := Option.map_eq_some_iff.mp returned
        have kept := allocateConn_returned socket noticed (tcpConnectWithTimeout_returned tcp)
        have rest : allocateConn outcomes.malloc fd ret after = (conn, state) := rest
        rwa [rest] at kept

/-- `connect` is refused at once, and a connection is returned all the same. -/
theorem conn_new_ignores_refused_connect :
    ¬ ConnNewMeets
      { socket := some 3
        setNonBlocking := ⟨true, true⟩
        connect := .failed .other
        polls := []
        setBlocking := ⟨true, true⟩
        malloc := true } := by
  intro meets
  have returned := (meets .success).2 (some 3) ⟨.success, true, []⟩ rfl
  have mode := (returned.connected 3 rfl).2.2.1
  cases mode

end Promise

end ConnMgr

end Tpt
