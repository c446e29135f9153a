import Tpt.EchoServer.Handler
import Tpt.Lib.FdTable
import Tpt.Lib.Trace

/-!
The whole echo server, `myServer.c`: the accept loop of `main`, and `Handler`
for each connection on a thread of its own, all of them over one descriptor
table.

The kernel finds the file of a call by the number that it is given, and the
bytes that `recv` takes and `send` gives are recorded with that file.  `Handler`
does not look at how many bytes a `send` took, and does not send the others.
-/

namespace Tpt

namespace EchoServer

namespace Service

open FdTable

inductive File where
  | inherited (fd : Nat)
  | listener
  | client (connection : Nat)
  deriving DecidableEq

def File.owner : File → Option Nat
  | inherited _ => none
  | listener => none
  | client connection => some connection

/-- Where a connection stands: in the hands of `main`, before a call of its
`Handler`, or, without a thread, nowhere. -/
inductive Phase where
  | absent
  | accepted
  | checked
  | unstarted
  | recv
  | send (bytes : Nat)
  | close
  | free
  | ended
  deriving DecidableEq

/-- `HandlerData` and the buffer of its thread. -/
structure Connection where
  cliSock : Nat
  buf : List UInt8
  phase : Phase

def Connection.absent : Connection := { cliSock := 0, buf := [], phase := .absent }

structure Server where
  running : Bool
  table : FdTable File
  connections : Nat → Connection
  count : Nat
  received : File → List UInt8
  sent : File → List UInt8

inductive Event where
  | accept (fd : Nat)
  | acceptError
  | checked (i : Nat)
  | unchecked (i : Nat)
  | started (i : Nat)
  | unstarted (i : Nat)
  | recv (i : Nat) (chunk : Chunk)
  | recvEnd (i : Nat)
  | send (i : Nat)
  | sendShort (i count : Nat)
  | sendError (i : Nat)
  | close (i : Nat)
  | free (i : Nat)

/-- `main` is at `accept` while it has no connection in its hands. -/
def Phase.AtMain (phase : Phase) : Prop := phase = .accepted ∨ phase = .checked

def Server.goto (server : Server) (i : Nat) (phase : Phase) : Server :=
  { server with
    connections := Function.update server.connections i { server.connections i with phase } }

def Connection.received (connection : Connection) (chunk : Chunk) : Connection :=
  let buf := EchoServer.recv connection.buf chunk
  { connection with
    buf
    phase := if strncasecmp 3 buf (bye ++ [0]) = 0 then .close else .send chunk.bytes.length }

/-- A step of a process that has not left `main`; when it does, all of its
threads end. -/
inductive Step (process : Process) : Server → Event → Server → Prop where
  | accept {server fd table} :
      server.running = true → (∀ i, ¬ (server.connections i).phase.AtMain) →
      Answers process.limit server.table (.opens [(fd, .client server.count)]) table →
      Step process server (.accept fd)
        { server with
          table
          connections := Function.update server.connections server.count
            { Connection.absent with cliSock := fd, phase := .accepted }
          count := server.count + 1 }
  | acceptError {server} :
      server.running = true → (∀ i, ¬ (server.connections i).phase.AtMain) →
      Step process server .acceptError { server with running := false }
  | checked {server i} :
      server.running = true → (server.connections i).phase = .accepted →
      Step process server (.checked i) (server.goto i .checked)
  | unchecked {server i} :
      server.running = true → (server.connections i).phase = .accepted →
      Step process server (.unchecked i)
        { server.goto i .ended with
          running := false
          table := Function.update server.table (server.connections i).cliSock none }
  | started {server i} :
      server.running = true → (server.connections i).phase = .checked →
      Step process server (.started i)
        { server with
          connections := Function.update server.connections i
            { server.connections i with buf := List.replicate maxLength 0, phase := .recv } }
  | unstarted {server i} :
      server.running = true → (server.connections i).phase = .checked →
      Step process server (.unstarted i) (server.goto i .unstarted)
  | recv {server i chunk file} :
      server.running = true → (server.connections i).phase = .recv →
      server.table (server.connections i).cliSock = some file →
      Step process server (.recv i chunk)
        { server with
          connections := Function.update server.connections i
            ((server.connections i).received chunk)
          received := Function.update server.received file
            (server.received file ++ chunk.bytes) }
  | recvEnd {server i} :
      server.running = true → (server.connections i).phase = .recv →
      Step process server (.recvEnd i) (server.goto i .close)
  | send {server i bytes file} :
      server.running = true → (server.connections i).phase = .send bytes →
      server.table (server.connections i).cliSock = some file →
      Step process server (.send i)
        { server.goto i .recv with
          sent := Function.update server.sent file
            (server.sent file ++ (server.connections i).buf.take bytes) }
  | sendShort {server i bytes count file} :
      server.running = true → (server.connections i).phase = .send bytes → count < bytes →
      server.table (server.connections i).cliSock = some file →
      Step process server (.sendShort i count)
        { server.goto i .recv with
          sent := Function.update server.sent file
            (server.sent file ++ (server.connections i).buf.take count) }
  | sendError {server i bytes} :
      server.running = true → (server.connections i).phase = .send bytes →
      Step process server (.sendError i) (server.goto i .close)
  | close {server i} :
      server.running = true → (server.connections i).phase = .close →
      Step process server (.close i)
        { server.goto i .free with
          table := Function.update server.table (server.connections i).cliSock none }
  | free {server i} :
      server.running = true → (server.connections i).phase = .free →
      Step process server (.free i) (server.goto i .ended)

def Server.start (process : Process) : Server where
  running := true
  table := process.table .listener .inherited
  connections _ := .absent
  count := 0
  received _ := []
  sent _ := []

def ServiceRun (process : Process) : List Event → Server → Prop :=
  Trace (fun server => server = .start process) (Step process)

def Phase.HasSocket : Phase → Bool
  | absent | free | ended => false
  | _ => true

def Connection.holds (i : Nat) (connection : Connection) : List (Nat × File) :=
  if connection.phase.HasSocket then [(connection.cliSock, .client i)] else []

def Server.holds (process : Process) (server : Server) : Option Nat → List (Nat × File) :=
  serverBooks (process.opened .listener .inherited) fun i => (server.connections i).holds i

/-- All that was to be sent is a part of what was received in its order, and all
of it where no `send` was short. -/
def Keeps (whole : Prop) (received sent : List UInt8) : Prop :=
  sent.Sublist received ∧ (whole → sent = received)

def Connection.Echoes (connection : Connection) (whole : Prop) (received sent : List UInt8) :
    Prop :=
  match connection.phase with
  | .recv => connection.buf.length = maxLength ∧ Keeps whole received sent
  | .send bytes => connection.buf.length = maxLength ∧
      Keeps whole received (sent ++ connection.buf.take bytes)
  | .close | .free | .ended => ∃ unsent, Keeps whole received (sent ++ unsent)
  | _ => sent = [] ∧ received = []

def Whole (history : List Event) (i : Nat) : Prop := ∀ count, .sendShort i count ∉ history

structure Sound (process : Process) (whole : Nat → Prop) (server : Server) : Prop where
  owned : server.running = true →
    Owned process.limit File.owner server.table (server.holds process)
  absent : ∀ i, server.count ≤ i → server.connections i = .absent
  echoes : ∀ i, (server.connections i).Echoes (whole i) (server.received (.client i))
    (server.sent (.client i))
  others : ∀ file, File.owner file = none → server.received file = [] ∧ server.sent file = []

section Runs

variable {process : Process} {server after : Server} {event : Event} {history : List Event}
variable {i : Nat} {connection : Connection} {phase : Phase} {chunk : Chunk}
variable {whole whole' : Nat → Prop}

theorem Connection.Echoes.keeps
    {whole : Prop} {received sent : List UInt8} (echoes : connection.Echoes whole received sent) :
    ∃ unsent, Keeps whole received (sent ++ unsent) := by
  unfold Echoes at echoes
  split at echoes
  next => exact ⟨[], (List.append_nil sent).symm ▸ echoes.2⟩
  next => exact ⟨_, echoes.2⟩
  next => exact echoes
  next => exact echoes
  next => exact echoes
  next =>
    rw [echoes.1, echoes.2]
    exact ⟨[], .refl [], fun _ => rfl⟩

theorem Keeps.weaken
    {whole whole' : Prop} {received sent : List UInt8} (keeps : Keeps whole received sent)
    (weaker : whole' → whole) : Keeps whole' received sent :=
  ⟨keeps.1, fun holds => keeps.2 (weaker holds)⟩

theorem Connection.Echoes.weaken
    {whole whole' : Prop} {received sent : List UInt8}
    (echoes : connection.Echoes whole received sent) (weaker : whole' → whole) :
    connection.Echoes whole' received sent := by
  unfold Echoes at echoes ⊢
  split at echoes
  next => exact ⟨echoes.1, echoes.2.weaken weaker⟩
  next => exact ⟨echoes.1, echoes.2.weaken weaker⟩
  next => exact echoes.imp fun _ keeps => keeps.weaken weaker
  next => exact echoes.imp fun _ keeps => keeps.weaken weaker
  next => exact echoes.imp fun _ keeps => keeps.weaken weaker
  next => exact echoes

theorem Sound.weaken
    (sound : Sound process whole server) (weaker : ∀ i, whole' i → whole i) :
    Sound process whole' server :=
  ⟨sound.owned, sound.absent, fun i => (sound.echoes i).weaken (weaker i), sound.others⟩

theorem holds_update
    (process : Process) (server : Server) (i : Nat) (connection : Connection) :
    { server with
        connections := Function.update server.connections i connection }.holds process =
      Function.update (server.holds process) (some i) (connection.holds i) := by
  rw [Server.holds, Server.holds, ← serverBooks_update]
  congr 1
  funext other
  exact Function.apply_update (fun i => Connection.holds i) server.connections i connection other

theorem Sound.start (process : Process) (whole : Nat → Prop) :
    Sound process whole (.start process) where
  owned _ := process.owned (fun _ _ same => File.inherited.inj same) nofun rfl fun _ => rfl
  absent _ _ := rfl
  echoes _ := ⟨rfl, rfl⟩
  others _ _ := ⟨rfl, rfl⟩

theorem Sound.lookup
    (sound : Sound process whole server) (running : server.running = true)
    (socket : (server.connections i).phase.HasSocket = true) :
    server.table (server.connections i).cliSock = some (.client i) := by
  have held : ((server.connections i).cliSock, File.client i) ∈
      server.holds process (some i) := by
    rw [Server.holds, serverBooks, Connection.holds, if_pos socket]
    exact List.mem_cons_self
  exact (sound.owned running).lookup held

theorem Connection.holds_received :
    (connection.received chunk).holds i = [(connection.cliSock, .client i)] := by
  have socket : (connection.received chunk).phase.HasSocket = true := by
    unfold received
    dsimp only
    split_ifs <;> rfl
  rw [holds, if_pos socket]
  rfl

theorem Connection.Echoes.received
    {whole : Prop} {received sent : File → List UInt8}
    (full : connection.buf.length = maxLength)
    (keeps : Keeps whole (received (.client i)) (sent (.client i))) :
    (connection.received chunk).Echoes whole
      (Function.update received (.client i) (received (.client i) ++ chunk.bytes) (.client i))
      (sent (.client i)) := by
  have longer : Keeps whole (received (.client i) ++ chunk.bytes)
      (sent (.client i) ++ chunk.bytes) :=
    ⟨keeps.1.append_right chunk.bytes, fun holds => by rw [keeps.2 holds]⟩
  rw [Function.update_self, Echoes, Connection.received]
  dsimp only
  split_ifs with stops
  · exact ⟨chunk.bytes, longer⟩
  · refine ⟨length_recv full, ?_⟩
    rwa [EchoServer.recv, List.take_left' rfl]

theorem Sound.inside
    (sound : Sound process whole server) (present : (server.connections i).phase ≠ .absent) :
    i < server.count := by
  by_contra outside
  rw [sound.absent i (Nat.le_of_not_lt outside)] at present
  exact present rfl

/-- A move of one connection, with a call that keeps to its own socket. -/
theorem Sound.moved
    (sound : Sound process whole server) {running : Bool} {table : FdTable File}
    {received sent : File → List UInt8} {before : Phase}
    (place : (server.connections i).phase = before) (present : before ≠ .absent)
    (owned : running = true → ∃ call, server.running = true ∧
      Answers process.limit server.table call table ∧
      Books File.owner (some i) call ((server.connections i).holds i) (connection.holds i))
    (echoes : connection.Echoes (whole i) (received (.client i)) (sent (.client i)))
    (same : ∀ file, file ≠ .client i →
      received file = server.received file ∧ sent file = server.sent file) :
    Sound process whole
      { server with
        running, table, received, sent
        connections := Function.update server.connections i connection } where
  owned runs := by
    obtain ⟨call, running, answered, books⟩ := owned runs
    have moved := (sound.owned running).step answered books
    rwa [← holds_update] at moved
  absent other outside := by
    have inside := sound.inside (place.trans_ne present)
    have different : other ≠ i := (Nat.ne_of_lt (inside.trans_le outside)).symm
    exact (Function.update_of_ne different _ _).trans (sound.absent other outside)
  echoes other := by
    by_cases mine : other = i
    · subst mine
      simp only [Function.update_self]
      exact echoes
    · have others := same (.client other) fun equal => mine (File.client.inj equal)
      simp only [Function.update_of_ne mine, others.1, others.2]
      exact sound.echoes other
  others file unowned := by
    have others := same file (by rintro rfl; cases unowned)
    simp only [others.1, others.2]
    exact sound.others file unowned

theorem Sound.goto
    (sound : Sound process whole server) {before : Phase}
    (place : (server.connections i).phase = before) (present : before ≠ .absent)
    (socket : before.HasSocket = phase.HasSocket)
    (echoes : ({ server.connections i with phase } : Connection).Echoes (whole i)
      (server.received (.client i)) (server.sent (.client i))) :
    Sound process whole (server.goto i phase) := by
  refine sound.moved place present ?_ echoes fun _ _ => ⟨rfl, rfl⟩
  intro running
  refine ⟨.uses [], running, .uses, .uses (List.nil_subset _) ?_⟩
  rw [Connection.holds, Connection.holds, place, socket]

theorem Sound.step
    (sound : Sound process whole server) (stepped : Step process server event after)
    (full : ∀ i count, event = .sendShort i count → ¬ whole i) : Sound process whole after := by
  have echo := fun i => sound.echoes i
  unfold Connection.Echoes at echo
  cases stepped with
  | @accept fd table running _ answered =>
      have absent := sound.absent server.count (le_refl _)
      have echo := echo server.count
      rw [absent] at echo
      have nothing : server.holds process (some server.count) = [] := by
        rw [Server.holds, serverBooks, absent]
        rfl
      refine ⟨fun _ => ?_, ?_, ?_, sound.others⟩
      · have books : Books File.owner (some server.count)
            (.opens [(fd, .client server.count)]) (server.holds process (some server.count))
            (({ Connection.absent with cliSock := fd, phase := .accepted } : Connection).holds
              server.count) := by
          rw [nothing]
          exact .opens (List.nodup_singleton _) (by simp [File.owner]) (.refl _)
        have opened := (sound.owned running).step answered books
        rwa [← holds_update] at opened
      · intro i later
        exact (Function.update_of_ne (Nat.ne_of_gt later) _ _).trans
          (sound.absent i (Nat.le_of_succ_le later))
      · intro i
        dsimp only
        by_cases same : i = server.count
        · subst same
          rw [Function.update_self]
          exact echo
        · rw [Function.update_of_ne same]
          exact sound.echoes i
  | acceptError => exact ⟨Bool.noConfusion, sound.absent, sound.echoes, sound.others⟩
  | @checked i running place =>
      have echo := echo i
      rw [place] at echo
      exact sound.goto place Phase.noConfusion rfl echo
  | @unchecked i running place =>
      have echo := echo i
      rw [place] at echo
      have nothing : ∃ unsent, Keeps (whole i) (server.received (.client i))
          (server.sent (.client i) ++ unsent) := by
        rw [echo.1, echo.2]
        exact ⟨[], .refl [], fun _ => rfl⟩
      exact sound.moved place Phase.noConfusion Bool.noConfusion nothing fun _ _ => ⟨rfl, rfl⟩
  | @started i running place =>
      have echo := echo i
      rw [place] at echo
      refine sound.moved place Phase.noConfusion ?_ ?_ fun _ _ => ⟨rfl, rfl⟩
      · intro _
        refine ⟨.uses [], running, .uses, .uses (List.nil_subset _) ?_⟩
        rw [Connection.holds, Connection.holds, place]
        exact .refl _
      · exact ⟨List.length_replicate, by rw [echo.1, echo.2]; exact ⟨.refl [], fun _ => rfl⟩⟩
  | @unstarted i running place =>
      have echo := echo i
      rw [place] at echo
      exact sound.goto place Phase.noConfusion rfl echo
  | @recv i chunk file running place found =>
      have echo := echo i
      rw [place] at echo
      have own := sound.lookup running (i := i) (by rw [place]; rfl)
      cases found.symm.trans own
      refine sound.moved place Phase.noConfusion ?_ (Connection.Echoes.received echo.1 echo.2) ?_
      · intro _
        refine ⟨.uses [], running, .uses, .uses (List.nil_subset _) ?_⟩
        rw [Connection.holds_received, Connection.holds, place]
        exact .refl _
      · exact fun file other => ⟨Function.update_of_ne other _ _, rfl⟩
  | @recvEnd i running place =>
      have echo := echo i
      rw [place] at echo
      refine sound.goto place Phase.noConfusion rfl ?_
      exact ⟨[], (List.append_nil (server.sent (.client i))).symm ▸ echo.2⟩
  | @send i bytes file running place found =>
      have echo := echo i
      rw [place] at echo
      have own := sound.lookup running (i := i) (by rw [place]; rfl)
      cases found.symm.trans own
      refine sound.moved place Phase.noConfusion ?_ ⟨echo.1, ?_⟩ ?_
      · intro _
        refine ⟨.uses [], running, .uses, .uses (List.nil_subset _) ?_⟩
        rw [Connection.holds, Connection.holds, place]
        exact .refl _
      · rw [Function.update_self]
        exact echo.2
      · exact fun file other => ⟨rfl, Function.update_of_ne other _ _⟩
  | @sendShort i bytes count file running place short found =>
      have echo := echo i
      rw [place] at echo
      have own := sound.lookup running (i := i) (by rw [place]; rfl)
      cases found.symm.trans own
      refine sound.moved place Phase.noConfusion ?_ ⟨echo.1, ?_⟩ ?_
      · intro _
        refine ⟨.uses [], running, .uses, .uses (List.nil_subset _) ?_⟩
        rw [Connection.holds, Connection.holds, place]
        exact .refl _
      · rw [Function.update_self]
        have part := (List.take_prefix_take_left (l := (server.connections i).buf) short.le).sublist
        exact ⟨(part.append_left _).trans echo.2.1, fun holds => absurd holds (full i count rfl)⟩
      · exact fun file other => ⟨rfl, Function.update_of_ne other _ _⟩
  | @sendError i bytes running place =>
      have echo := echo i
      rw [place] at echo
      refine sound.goto place Phase.noConfusion rfl ?_
      exact ⟨_, echo.2⟩
  | @close i running place =>
      have echo := echo i
      rw [place] at echo
      refine sound.moved place Phase.noConfusion ?_ echo fun _ _ => ⟨rfl, rfl⟩
      intro _
      refine ⟨.closes (server.connections i).cliSock (.client i), running, .closes, .closes ?_⟩
      rw [Connection.holds, Connection.holds, place]
      exact .refl _
  | @free i running place =>
      have echo := echo i
      rw [place] at echo
      exact sound.goto place Phase.noConfusion rfl echo

theorem ServiceRun.sound (run : ServiceRun process history server) :
    Sound process (Whole history) server := by
  refine Trace.invariant (fun history server => Sound process (Whole history) server) ?_ ?_ run
  · rintro server rfl
    exact Sound.start process _
  · intro history server event after sound stepped
    have earlier : ∀ i, Whole (event :: history) i → Whole history i :=
      fun i whole count member => whole count (List.mem_cons_of_mem event member)
    refine (sound.weaken earlier).step stepped ?_
    rintro i count rfl whole
    exact whole count List.mem_cons_self

/-- Whatever numbers the kernel gives out again, and in whatever order the
threads run: a client is sent a part of what was received from it, in its order.
Where no `send` to it was short this is the beginning, and all of it while its
handler waits for more.  Nothing passes through another file; and the open
descriptors are those from before the loop and one for each connection whose
handler has not closed it. -/
theorem echo_service_isolated
    (run : ServiceRun process history server) :
    (∀ i, (server.sent (.client i)).Sublist (server.received (.client i))) ∧
    (∀ i, (∀ count, .sendShort i count ∉ history) →
      server.sent (.client i) <+: server.received (.client i) ∧
        ((server.connections i).phase = .recv →
          server.sent (.client i) = server.received (.client i))) ∧
    (∀ file, file.owner = none → server.received file = [] ∧ server.sent file = []) ∧
    (server.running = true →
      (∀ i, (server.connections i).phase.HasSocket = true →
        server.table (server.connections i).cliSock = some (.client i)) ∧
      openCount process.limit server.table = process.inherited.length + 1 +
        ((Finset.range server.count).filter fun i =>
          (server.connections i).phase.HasSocket = true).card) := by
  have sound := run.sound
  refine ⟨fun i => ?_, fun i whole => ⟨?_, fun place => ?_⟩, sound.others, fun running => ⟨?_, ?_⟩⟩
  · obtain ⟨unsent, keeps⟩ := (sound.echoes i).keeps
    exact (List.sublist_append_left _ unsent).trans keeps.1
  · obtain ⟨unsent, keeps⟩ := (sound.echoes i).keeps
    exact ⟨unsent, keeps.2 whole⟩
  · have echoes := sound.echoes i
    rw [Connection.Echoes, place] at echoes
    exact echoes.2.2 whole
  · exact fun i socket => sound.lookup running socket
  · rw [(sound.owned running).openCount_server server.count, Process.opened, List.length_cons,
      List.length_map, Finset.card_filter]
    · refine congrArg _ (Finset.sum_congr rfl fun i _ => ?_)
      rw [Connection.holds]
      split_ifs <;> rfl
    · intro i outside
      rw [sound.absent i outside]
      rfl

def small : Process where
  listener := 3
  inherited := [0, 1, 2]
  limit := 8
  distinct := by decide
  within := by decide

theorem small_accepts (history : List Event) (server : Server) (fd : Nat)
    (run : ServiceRun small history server) (running : server.running = true)
    (started : ∀ i < server.count, (server.connections i).phase = .recv)
    (free : fd < 8) (closed : server.table fd = none) :
    ServiceRun small (.accept fd :: history)
      { server with
        table := server.table.install [(fd, .client server.count)]
        connections := Function.update server.connections server.count
          { Connection.absent with cliSock := fd, phase := .accepted }
        count := server.count + 1 } := by
  refine run.next (.accept running (fun i => ?_) (.opens (List.nodup_singleton _) ?_))
  · by_cases inside : i < server.count
    · rintro (place | place) <;> cases (started i inside).symm.trans place
    · rw [run.sound.absent i (Nat.le_of_not_lt inside)]
      rintro (place | place) <;> cases place
  · intro fd member
    cases List.mem_singleton.mp member
    exact ⟨free, closed⟩

/-- The first client gets back one byte of two, and the second one both. -/
theorem echo_service_isolated_two_clients :
    ∃ history server, ServiceRun small history server ∧
      server.received (.client 0) = [97, 98] ∧ server.sent (.client 0) = [97] ∧
      (server.sent (.client 0)).Sublist (server.received (.client 0)) ∧
      server.received (.client 1) = [97, 98] ∧
      server.sent (.client 1) = server.received (.client 1) ∧
      server.table 4 = some (.client 0) ∧ server.table 5 = some (.client 1) ∧
      openCount 8 server.table = 6 := by
  let two : Chunk := ⟨[97, 98], Nat.zero_lt_two, by decide⟩
  have accepted := small_accepts [] (.start small) 4 (.start rfl) rfl nofun (by decide) rfl
  have checked := accepted.next (@Step.checked small _ 0 rfl rfl)
  have started := checked.next (@Step.started small _ 0 rfl rfl)
  have accepted' := small_accepts _ _ 5 started rfl
    (fun i inside => by cases Nat.lt_one_iff.mp inside; rfl) (by decide) rfl
  have checked' := accepted'.next (@Step.checked small _ 1 rfl rfl)
  have started' := checked'.next (@Step.started small _ 1 rfl rfl)
  have received := started'.next (@Step.recv small _ 0 two (.client 0) rfl rfl rfl)
  have received' := received.next (@Step.recv small _ 1 two (.client 1) rfl rfl rfl)
  have shortened := received'.next
    (@Step.sendShort small _ 0 2 1 (.client 0) rfl rfl Nat.one_lt_two rfl)
  have run := shortened.next (@Step.send small _ 1 2 (.client 1) rfl rfl rfl)
  obtain ⟨part, whole, _, sockets⟩ := echo_service_isolated run
  obtain ⟨own, counted⟩ := sockets rfl
  have echoed := (whole 1 fun count member => by simp at member).2 rfl
  exact ⟨_, _, run, rfl, rfl, part 0, rfl, echoed, own 0 rfl, own 1 rfl, counted⟩

end Runs

end Service

end EchoServer

end Tpt
