import Tpt.Splice.Close
import Tpt.Splice.Descriptors
import Tpt.Lib.FdTable
import Tpt.Lib.Progress

/-!
The whole proxy: the accept loop of `main`, and one call of
`tunnel_the_request` for each `proxy_info` that the work queue takes, all of
them over one descriptor table.

A session is what an `accept` began.  The work queue gives what it took to
`tunnel_the_request` once, in any order and on any thread.
-/

namespace Tpt

namespace Splice

open FdTable

inductive File where
  | inherited (fd : Nat)
  | listener
  | client (session : Nat)
  | server (session : Nat)
  | pipeOut (session : Nat)
  | pipeIn (session : Nat)
  deriving DecidableEq

/-- The session that opened a file; the others were there before. -/
def File.owner : File → Option Nat
  | inherited _ => none
  | listener => none
  | client session => some session
  | server session => some session
  | pipeOut session => some session
  | pipeIn session => some session

/-- A call at a label, with the file that is meant. -/
inductive Action where
  | close (fd : Nat) (file : File)
  | free
  deriving DecidableEq

inductive Phase where
  | absent
  | accepted
  | refused
  | gone
  | ready
  | unqueued
  | queued
  | entered
  | created (sock : Nat)
  | connected
  | piping
  | tunnel (pipefd : Nat × Nat)
  | leaving (todo : List Action)
  deriving DecidableEq

/-- The `proxy_info` of a session, the sockets that its set-up left open, and
the books of `tunnel_the_request`. -/
structure Session where
  info : ProxyInfo
  phase : Phase
  lost : List Nat
  fds : Descriptors

def Session.absent : Session :=
  { info := { clientSocket := 0, osSocket := 0 }, phase := .absent, lost := [], fds := .start }

/-- The `client_socket` of `accept`, with the zeros of `calloc`. -/
def Session.accepted (clientSocket : Nat) : Session :=
  { Session.absent with info := { clientSocket, osSocket := 0 }, phase := .accepted }

/-- What `main` and `tunnel_the_request` do next, by the outcome of a call. -/
inductive Deed where
  | nonBlocking
  | blocking
  | workQAdd
  | workQError
  | start
  | noSocket
  | socket
  | unconnected
  | connected
  | noPipe
  | pipe
  | transfer
  | returned
  | close
  | free
  deriving DecidableEq

section Labels

variable (session : Nat) (info : ProxyInfo)

def ProxyInfo.atLabel1 : List Action := [.close info.clientSocket (.client session), .free]

def ProxyInfo.atLabel : List Action :=
  [.close info.clientSocket (.client session), .close info.osSocket (.server session), .free]

/-- `label` of `proxy_poll_and_tunnel`, then that of its caller. -/
def ProxyInfo.atPipeLabel (pipefd : Nat × Nat) : List Action :=
  .close pipefd.1 (.pipeOut session) :: .close pipefd.2 (.pipeIn session) :: info.atLabel session

end Labels

/-- One step of a session.  `main` has it until it is refused or handed to the
work queue.  The result of `proxy_poll_and_tunnel` is never positive, so that
`label` follows whenever the call returns. -/
inductive SessionStep (i : Nat) : Session → Deed → FdCall File → Session → Prop where
  | nonBlocking {session} :
      session.phase = .accepted →
      SessionStep i session .nonBlocking (.uses [(session.info.clientSocket, .client i)])
        { session with phase := .ready }
  | blocking {session} :
      session.phase = .accepted →
      SessionStep i session .blocking (.uses [(session.info.clientSocket, .client i)])
        { session with phase := .refused }
  | refuse {session} :
      session.phase = .refused →
      SessionStep i session .close (.closes session.info.clientSocket (.client i))
        { session with phase := .gone }
  | workQAdd {session} :
      session.phase = .ready →
      SessionStep i session .workQAdd (.uses [(session.info.clientSocket, .client i)])
        { session with phase := .queued }
  | workQError {session} :
      session.phase = .ready →
      SessionStep i session .workQError (.uses [(session.info.clientSocket, .client i)])
        { session with phase := .unqueued }
  | start {session} :
      session.phase = .queued →
      SessionStep i session .start (.uses []) { session with phase := .entered }
  | noSocket {session} :
      session.phase = .entered →
      SessionStep i session .noSocket (.uses [])
        { session with phase := .leaving (session.info.atLabel1 i) }
  | socket {session sock} :
      session.phase = .entered →
      SessionStep i session .socket (.opens [(sock, .server i)])
        { session with phase := .created sock, fds := session.fds.create sock }
  | unconnected {session sock} :
      session.phase = .created sock →
      SessionStep i session .unconnected (.uses [(sock, .server i)])
        { session with phase := .leaving (session.info.atLabel1 i), lost := [sock] }
  | connected {session sock} :
      session.phase = .created sock →
      SessionStep i session .connected (.uses [(sock, .server i)])
        { session with phase := .connected, info := { session.info with osSocket := sock } }
  | serverBlocking {session} :
      session.phase = .connected →
      SessionStep i session .blocking (.uses [(session.info.osSocket, .server i)])
        { session with phase := .leaving (session.info.atLabel i) }
  | serverNonBlocking {session} :
      session.phase = .connected →
      SessionStep i session .nonBlocking (.uses [(session.info.osSocket, .server i)])
        { session with phase := .piping }
  | noPipe {session} :
      session.phase = .piping →
      SessionStep i session .noPipe (.uses [])
        { session with phase := .leaving (session.info.atLabel i) }
  | pipe {session pipefd} :
      session.phase = .piping →
      SessionStep i session .pipe (.opens [(pipefd.1, .pipeOut i), (pipefd.2, .pipeIn i)])
        { session with
          phase := .tunnel pipefd
          fds := (session.fds.create pipefd.1).create pipefd.2 }
  | transfer {session pipefd} :
      session.phase = .tunnel pipefd →
      SessionStep i session .transfer
        (.uses [(session.info.clientSocket, .client i), (session.info.osSocket, .server i),
          (pipefd.1, .pipeOut i), (pipefd.2, .pipeIn i)])
        session
  | returned {session pipefd} :
      session.phase = .tunnel pipefd →
      SessionStep i session .returned (.uses [])
        { session with phase := .leaving (session.info.atPipeLabel i pipefd) }
  | close {session fd file todo} :
      session.phase = .leaving (.close fd file :: todo) →
      SessionStep i session .close (.closes fd file)
        { session with phase := .leaving todo, fds := session.fds.close fd }
  | free {session todo} :
      session.phase = .leaving (.free :: todo) →
      SessionStep i session .free (.uses [])
        { session with phase := .leaving todo, fds := session.fds.free }

structure Proxy where
  table : FdTable File
  sessions : Nat → Session
  count : Nat

inductive Event where
  | accept (fd : Nat)
  | acceptError
  | session (i : Nat) (deed : Deed) (call : FdCall File)

/-- Sessions in the hands of `main`, which is at `accept` when there is none. -/
def Phase.AtMain (phase : Phase) : Prop :=
  phase = .accepted ∨ phase = .refused ∨ phase = .ready

inductive Step (process : Process) : Proxy → Event → Proxy → Prop where
  | accept {proxy fd table} :
      (∀ i, ¬ (proxy.sessions i).phase.AtMain) →
      Answers process.limit proxy.table (.opens [(fd, .client proxy.count)]) table →
      Step process proxy (.accept fd)
        { table
          sessions := Function.update proxy.sessions proxy.count (.accepted fd)
          count := proxy.count + 1 }
  | acceptError {proxy} :
      (∀ i, ¬ (proxy.sessions i).phase.AtMain) → Step process proxy .acceptError proxy
  | session {proxy i deed call session table} :
      SessionStep i (proxy.sessions i) deed call session →
      Answers process.limit proxy.table call table →
      Step process proxy (.session i deed call)
        { proxy with table, sessions := Function.update proxy.sessions i session }

/-- The proxy before its first `accept`; the listening socket is
`g_server_socket`. -/
def Proxy.start (process : Process) : Proxy where
  table := process.table .listener .inherited
  sessions _ := .absent
  count := 0

def ProxyRun (process : Process) : List Event → Proxy → Prop :=
  Trace (fun proxy => proxy = .start process) (Step process)

def Event.names (process : Process) : Event → List (Nat × File)
  | accept _ => [(process.listener, .listener)]
  | acceptError => [(process.listener, .listener)]
  | session _ _ call => call.names

def Event.creates : Event → Nat
  | accept _ => 1
  | acceptError => 0
  | session _ _ (.opens created) => created.length
  | session _ _ _ => 0

/-- The steps after which a descriptor is out of reach: `WorkQAdd` fails, or the
set-up of a socket after its creation. -/
def Event.loses : Event → Bool
  | session _ deed _ => deed = .workQError ∨ deed = .unconnected
  | _ => false

def Action.closing : Action → Option (Nat × File)
  | close fd file => some (fd, file)
  | free => none

def Session.holds (i : Nat) (session : Session) : List (Nat × File) :=
  match session.phase with
  | .absent | .gone => []
  | .accepted | .refused | .ready | .unqueued | .queued | .entered =>
      [(session.info.clientSocket, .client i)]
  | .created sock => [(sock, .server i), (session.info.clientSocket, .client i)]
  | .connected | .piping =>
      [(session.info.osSocket, .server i), (session.info.clientSocket, .client i)]
  | .tunnel pipefd =>
      [(pipefd.1, .pipeOut i), (pipefd.2, .pipeIn i), (session.info.osSocket, .server i),
        (session.info.clientSocket, .client i)]
  | .leaving todo => todo.filterMap Action.closing ++ session.lost.map fun sock => (sock, .server i)

def Proxy.holds (process : Process) (proxy : Proxy) : Option Nat → List (Nat × File) :=
  serverBooks (process.opened .listener .inherited) fun i => (proxy.sessions i).holds i

def Session.leaked (session : Session) : Nat :=
  if session.phase = .unqueued then 1 else session.lost.length

def Proxy.leaked (proxy : Proxy) : Nat := ∑ i ∈ Finset.range proxy.count, (proxy.sessions i).leaked

def Phase.Over (phase : Phase) : Prop :=
  phase = .absent ∨ phase = .gone ∨ phase = .unqueued ∨ phase = .leaving []

def Descriptors.act (fds : Descriptors) : Action → Descriptors
  | .close fd _ => fds.close fd
  | .free => fds.free

/-- The books so far; at a label, these and the calls to come are those of some
call of `tunnel_the_request`. -/
def Session.Accounted (gSpliceSize : Nat) (session : Session) : Prop :=
  match session.phase with
  | .leaving todo => ∃ setup script,
      tunnelTheRequest gSpliceSize setup script
        { clientSocket := session.info.clientSocket, osSocket := 0 } =
          some (todo.foldl Descriptors.act session.fds)
  | .tunnel pipefd => session.lost = [] ∧
      session.fds =
        ((Descriptors.start.create session.info.osSocket).create pipefd.1).create pipefd.2
  | .connected | .piping => session.lost = [] ∧
      session.fds = Descriptors.start.create session.info.osSocket
  | .created sock => session.lost = [] ∧ session.fds = Descriptors.start.create sock
  | _ => session.lost = [] ∧ session.fds = .start ∧ session.info.osSocket = 0

structure Sound (process : Process) (gSpliceSize : Nat) (proxy : Proxy) : Prop where
  owned : Owned process.limit File.owner proxy.table (proxy.holds process)
  absent : ∀ i, proxy.count ≤ i → proxy.sessions i = .absent
  accounted : ∀ i, (proxy.sessions i).Accounted gSpliceSize

section Runs

variable {process : Process} {gSpliceSize : Nat} {proxy after : Proxy} {event : Event}
variable {history : List Event} {i : Nat} {session next : Session} {deed : Deed}
variable {call : FdCall File}

/-- The answers to the set-up calls: all of them succeed but those named. -/
def Setup.answers (sock : Option Nat) (connect setfl : Bool) (pipefd : Nat × Nat) : Setup where
  gDestPort := 0
  socket := sock
  reuseAddr := true
  transparent := true
  clientAton := true
  bind := true
  serverAton := true
  connect := connect
  getfl := true
  setfl := setfl
  pipefd := pipefd

theorem SessionStep.accounted
    (stepped : SessionStep i session deed call next) (accounted : session.Accounted gSpliceSize) :
    next.Accounted gSpliceSize := by
  unfold Session.Accounted at accounted ⊢
  cases stepped with
  | nonBlocking place | blocking place | refuse place | workQAdd place | workQError place
  | start place | serverNonBlocking place =>
      rw [place] at accounted
      exact accounted
  | noSocket place =>
      rw [place] at accounted
      obtain ⟨_, fds, _⟩ := accounted
      refine ⟨.answers none true true (0, 0), [], ?_⟩
      rw [fds]
      rfl
  | @socket sock place =>
      rw [place] at accounted
      obtain ⟨lost, fds, _⟩ := accounted
      exact ⟨lost, by rw [fds]⟩
  | @unconnected sock place =>
      rw [place] at accounted
      obtain ⟨_, fds⟩ := accounted
      refine ⟨.answers (some sock) false true (0, 0), [], ?_⟩
      rw [fds]
      rfl
  | connected place =>
      rw [place] at accounted
      exact accounted
  | serverBlocking place =>
      rw [place] at accounted
      obtain ⟨_, fds⟩ := accounted
      refine ⟨.answers (some session.info.osSocket) true false (0, 0), [], ?_⟩
      rw [fds]
      rfl
  | noPipe place =>
      rw [place] at accounted
      obtain ⟨_, fds⟩ := accounted
      refine ⟨.answers (some session.info.osSocket) true true (0, 0), [refusal], ?_⟩
      rw [fds]
      rfl
  | pipe place =>
      rw [place] at accounted
      obtain ⟨lost, fds⟩ := accounted
      exact ⟨lost, by rw [fds]⟩
  | transfer place => exact accounted
  | @returned pipefd place =>
      rw [place] at accounted
      obtain ⟨_, fds⟩ := accounted
      refine ⟨.answers (some session.info.osSocket) true true pipefd,
        [{ refusal with pipe := .ok () }, refusal], ?_⟩
      rw [fds]
      rfl
  | close place | free place =>
      rw [place] at accounted
      exact accounted

theorem Session.Accounted.lost
    (accounted : session.Accounted gSpliceSize) (early : ∀ todo, session.phase ≠ .leaving todo) :
    session.lost = [] := by
  unfold Session.Accounted at accounted
  split at accounted
  next place => exact absurd place (early _)
  all_goals exact accounted.1

theorem SessionStep.books
    (stepped : SessionStep i session deed call next) (accounted : session.Accounted gSpliceSize) :
    Books File.owner (some i) call (session.holds i) (next.holds i) := by
  have lost := accounted.lost
  unfold Session.holds
  cases stepped with
  | nonBlocking place | blocking place | workQAdd place | workQError place | start place
  | serverNonBlocking place =>
      rw [place]
      exact .uses (by simp) (.refl _)
  | transfer place =>
      rw [place]
      exact .uses (by simp) (.refl _)
  | refuse place =>
      rw [place]
      exact .closes (.refl _)
  | noSocket place =>
      rw [place, lost (by rw [place]; nofun)]
      exact .uses (List.nil_subset _) (.refl _)
  | socket place =>
      rw [place]
      exact .opens (List.nodup_singleton _) (by simp [File.owner]) (.refl _)
  | unconnected place =>
      rw [place]
      exact .uses (by simp) (.swap _ _ _)
  | connected place =>
      rw [place]
      exact .uses (by simp) (.refl _)
  | serverBlocking place =>
      rw [place, lost (by rw [place]; nofun)]
      exact .uses (by simp) (.swap _ _ _)
  | noPipe place =>
      rw [place, lost (by rw [place]; nofun)]
      exact .uses (List.nil_subset _) (.swap _ _ _)
  | pipe place =>
      rw [place]
      exact .opens (by simp) (by simp [File.owner]) (.refl _)
  | returned place =>
      rw [place, lost (by rw [place]; nofun)]
      exact .uses (List.nil_subset _) (.cons _ (.cons _ (.swap _ _ _)))
  | close place =>
      rw [place]
      exact .closes (.refl _)
  | free place =>
      rw [place]
      exact .uses (List.nil_subset _) (.refl _)

theorem holds_update
    (process : Process) (proxy : Proxy) (i : Nat) (session : Session) (table : FdTable File)
    (count : Nat) :
    Proxy.holds process
        { table, sessions := Function.update proxy.sessions i session, count } =
      Function.update (proxy.holds process) (some i) (session.holds i) := by
  rw [Proxy.holds, Proxy.holds, ← serverBooks_update]
  congr 1
  funext other
  exact Function.apply_update (fun i => Session.holds i) proxy.sessions i session other

theorem Sound.start (process : Process) (gSpliceSize : Nat) :
    Sound process gSpliceSize (.start process) where
  owned := process.owned (fun _ _ same => File.inherited.inj same) nofun rfl fun _ => rfl
  absent _ _ := rfl
  accounted _ := ⟨rfl, rfl, rfl⟩

theorem Sound.step
    (sound : Sound process gSpliceSize proxy) (stepped : Step process proxy event after) :
    Sound process gSpliceSize after := by
  cases stepped with
  | @accept fd table _ answered =>
      have nothing : proxy.holds process (some proxy.count) = [] := by
        rw [Proxy.holds, serverBooks, sound.absent _ (le_refl _)]
        rfl
      have books : Books File.owner (some proxy.count) (.opens [(fd, .client proxy.count)])
          (proxy.holds process (some proxy.count))
          ((Session.accepted fd).holds proxy.count) := by
        rw [nothing]
        exact .opens (List.nodup_singleton _) (by simp [File.owner]) (.refl _)
      refine ⟨?_, ?_, ?_⟩
      · rw [holds_update]
        exact sound.owned.step answered books
      · intro i later
        dsimp only
        rw [Function.update_of_ne (Nat.ne_of_gt later)]
        exact sound.absent i (Nat.le_of_succ_le later)
      · intro i
        dsimp only
        by_cases same : i = proxy.count
        · subst same
          rw [Function.update_self]
          exact ⟨rfl, rfl, rfl⟩
        · rw [Function.update_of_ne same]
          exact sound.accounted i
  | acceptError => exact sound
  | @session i deed call session table stepped answered =>
      refine ⟨?_, ?_, ?_⟩
      · rw [holds_update]
        exact sound.owned.step answered (stepped.books (sound.accounted i))
      · intro other later
        have different : other ≠ i := by
          rintro rfl
          rw [sound.absent other later] at stepped
          cases stepped <;> contradiction
        dsimp only
        rw [Function.update_of_ne different]
        exact sound.absent other later
      · intro other
        dsimp only
        by_cases same : other = i
        · subst same
          rw [Function.update_self]
          exact stepped.accounted (sound.accounted other)
        · rw [Function.update_of_ne same]
          exact sound.accounted other

theorem ProxyRun.sound (run : ProxyRun process history proxy) (gSpliceSize : Nat) :
    Sound process gSpliceSize proxy := by
  refine Trace.invariant (fun _ proxy => Sound process gSpliceSize proxy) ?_ ?_ run
  · rintro proxy rfl
    exact Sound.start process gSpliceSize
  · intro history proxy event after sound stepped
    exact sound.step stepped

theorem Sound.named
    (sound : Sound process gSpliceSize proxy) (stepped : Step process proxy event after)
    {fd : Nat} {file : File} (named : (fd, file) ∈ event.names process) :
    proxy.table fd = some file := by
  have listening : (process.listener, File.listener) ∈ proxy.holds process none :=
    List.mem_cons_self
  cases stepped with
  | accept | acceptError =>
      rw [Event.names, List.mem_singleton] at named
      cases named
      exact sound.owned.lookup listening
  | session stepped _ => exact sound.owned.named (stepped.books (sound.accounted _)) named

end Runs

end Splice

end Tpt
