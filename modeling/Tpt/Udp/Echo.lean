import Mathlib.Tactic
import Tpt.Lib.Trace

/-!
The datagram echo of `udp_server.c` over a network that loses, duplicates and
reorders datagrams.

Any number of servers run `data_rx_tx_loop`, each at its own address.  Whatever
sends from another address is a peer: it sends any datagram at any time and takes
what arrives.  No one sends from an address of someone else.
-/

namespace Tpt

namespace Udp

universe u

def bufSz : Nat := 2048

structure Datagram (Addr : Type u) where
  source : Addr
  target : Addr
  payload : List UInt8
  deriving DecidableEq

def Datagram.echo {Addr : Type u} (datagram : Datagram Addr) : Datagram Addr :=
  { datagram with source := datagram.target, target := datagram.source }

/-- Where `data_rx_tx_loop` stands; `overflown` is past a write behind `buf`. -/
inductive Place (Addr : Type u) where
  | recvfrom
  | sendto (bytes : Nat) (cltAddr : Addr)
  | overflown
  deriving DecidableEq

structure Server (Addr : Type u) where
  buf : List UInt8
  place : Place Addr

structure World (Addr : Type u) where
  servers : Addr → Server Addr
  flight : List (Datagram Addr)

inductive Event (Addr : Type u) where
  | send (datagram : Datagram Addr)
  | lose (datagram : Datagram Addr)
  | duplicate (datagram : Datagram Addr)
  | take (datagram : Datagram Addr)
  | receive (datagram : Datagram Addr)
  | overflow (datagram : Datagram Addr)
  | receiveError (server : Addr)
  | answer (datagram : Datagram Addr) (sent : Bool)
  deriving DecidableEq

/-- The bytes that `recvfrom` counts: what is longer than `buf` is cut off. -/
def received (payload : List UInt8) : List UInt8 := payload.take bufSz

def recvfrom (buf payload : List UInt8) : List UInt8 :=
  received payload ++ buf.drop (received payload).length

variable {Addr : Type u} [DecidableEq Addr]

def World.setServer (world : World Addr) (address : Addr) (server : Server Addr) : World Addr :=
  { world with servers := Function.update world.servers address server }

@[simp] theorem World.servers_setServer_self
    (world : World Addr) (address : Addr) (server : Server Addr) :
    (world.setServer address server).servers address = server := Function.update_self ..

theorem World.servers_setServer_of_ne
    (world : World Addr) (server : Server Addr) {address other : Addr}
    (different : other ≠ address) :
    (world.setServer address server).servers other = world.servers other :=
  Function.update_of_ne different ..

inductive Step (serving : Addr → Bool) : World Addr → Event Addr → World Addr → Prop where
  | send {world datagram} :
      serving datagram.source = false →
      Step serving world (.send datagram) { world with flight := datagram :: world.flight }
  | lose {world datagram} :
      datagram ∈ world.flight →
      Step serving world (.lose datagram) { world with flight := world.flight.erase datagram }
  | duplicate {world datagram} :
      datagram ∈ world.flight →
      Step serving world (.duplicate datagram) { world with flight := datagram :: world.flight }
  | take {world datagram} :
      serving datagram.target = false → datagram ∈ world.flight →
      Step serving world (.take datagram) { world with flight := world.flight.erase datagram }
  | receive {world datagram} :
      serving datagram.target = true → datagram ∈ world.flight →
      (world.servers datagram.target).place = .recvfrom →
      (received datagram.payload).length < bufSz →
      Step serving world (.receive datagram)
        ({ world with flight := world.flight.erase datagram }.setServer datagram.target
          { buf := (recvfrom (world.servers datagram.target).buf datagram.payload).set
              (received datagram.payload).length 0
            place := .sendto (received datagram.payload).length datagram.source })
  | overflow {world datagram} :
      serving datagram.target = true → datagram ∈ world.flight →
      (world.servers datagram.target).place = .recvfrom →
      bufSz ≤ (received datagram.payload).length →
      Step serving world (.overflow datagram)
        ({ world with flight := world.flight.erase datagram }.setServer datagram.target
          { buf := recvfrom (world.servers datagram.target).buf datagram.payload
            place := .overflown })
  | receiveError {world server} :
      serving server = true → (world.servers server).place = .recvfrom →
      Step serving world (.receiveError server) world
  | answer {world server bytes cltAddr datagram sent} :
      serving server = true → (world.servers server).place = .sendto bytes cltAddr →
      datagram =
        { source := server
          target := cltAddr
          payload := (world.servers server).buf.take bytes } →
      Step serving world (.answer datagram sent)
        ({ world with
            flight := if sent then datagram :: world.flight else world.flight }.setServer server
          { world.servers server with place := .recvfrom })

/-- Nothing is on its way, and every server is before its first `recvfrom`. -/
structure Begins (world : World Addr) : Prop where
  flight : world.flight = []
  place : ∀ server, (world.servers server).place = .recvfrom
  buf : ∀ server, (world.servers server).buf.length = bufSz

def EchoRun (serving : Addr → Bool) : List (Event Addr) → World Addr → Prop :=
  Trace Begins (Step serving)

/-- Whether a server has received the datagram and not answered it. -/
def World.answering (world : World Addr) (datagram : Datagram Addr) : Nat :=
  if (world.servers datagram.target).place =
      .sendto datagram.payload.length datagram.source ∧
    (world.servers datagram.target).buf.take datagram.payload.length = datagram.payload then 1
  else 0

def Event.Fits (serving : Addr → Bool) : Event Addr → Prop
  | send datagram => serving datagram.source = false
  | take datagram => serving datagram.target = false
  | receive datagram => serving datagram.target = true ∧ datagram.payload.length < bufSz
  | overflow datagram => serving datagram.target = true ∧ bufSz ≤ datagram.payload.length
  | answer datagram _ => serving datagram.source = true ∧ datagram.payload.length < bufSz
  | _ => True

/-- A server that is about to answer holds the whole of what it received. -/
structure Loaded (world : World Addr) : Prop where
  buf : ∀ server, (world.servers server).buf.length = bufSz
  bytes : ∀ server bytes cltAddr, (world.servers server).place = .sendto bytes cltAddr →
    bytes < bufSz

section Runs

variable {serving : Addr → Bool} {world after : World Addr} {event : Event Addr}
variable {history : List (Event Addr)} {datagram : Datagram Addr}

omit [DecidableEq Addr] in
theorem length_received_lt {payload : List UInt8} :
    (received payload).length < bufSz ↔ payload.length < bufSz := by
  rw [received, List.length_take]
  omega

omit [DecidableEq Addr] in
theorem received_of_lt {payload : List UInt8} (short : payload.length < bufSz) :
    received payload = payload := List.take_of_length_le short.le

omit [DecidableEq Addr] in
theorem length_recvfrom {buf payload : List UInt8} (full : buf.length = bufSz) :
    (recvfrom buf payload).length = bufSz := by
  rw [recvfrom, List.length_append, List.length_drop, full, received, List.length_take]
  omega

omit [DecidableEq Addr] in
theorem take_terminated (buf payload : List UInt8) (short : payload.length < bufSz) :
    ((recvfrom buf payload).set payload.length 0).take payload.length = payload := by
  rw [List.take_set_of_le (le_refl _), recvfrom, received_of_lt short, List.take_left]

omit [DecidableEq Addr] in
theorem Loaded.start (begins : Begins world) : Loaded world where
  buf := begins.buf
  bytes server bytes cltAddr sending := by
    cases (begins.place server).symm.trans sending

theorem Loaded.setServer
    (loaded : Loaded world) (flight : List (Datagram Addr)) (address : Addr)
    {server : Server Addr} (buf : server.buf.length = bufSz)
    (bytes : ∀ bytes cltAddr, server.place = .sendto bytes cltAddr → bytes < bufSz) :
    Loaded ({ world with flight }.setServer address server) where
  buf other := by
    by_cases same : other = address
    · subst same
      rw [World.servers_setServer_self]
      exact buf
    · rw [World.servers_setServer_of_ne _ _ same]
      exact loaded.buf other
  bytes other := by
    by_cases same : other = address
    · subst same
      rw [World.servers_setServer_self]
      exact bytes
    · rw [World.servers_setServer_of_ne _ _ same]
      exact loaded.bytes other

theorem Loaded.step
    (loaded : Loaded world) (stepped : Step serving world event after) : Loaded after := by
  cases stepped with
  | send | lose | duplicate | take | receiveError => exact ⟨loaded.buf, loaded.bytes⟩
  | receive serves arrived place short =>
      refine loaded.setServer _ _ ?_ ?_
      · exact List.length_set.trans (length_recvfrom (loaded.buf _))
      · rintro bytes cltAddr ⟨⟩
        exact short
  | overflow serves arrived place long =>
      exact loaded.setServer _ _ (length_recvfrom (loaded.buf _)) nofun
  | answer serves place same => exact loaded.setServer _ _ (loaded.buf _) nofun

theorem EchoRun.loaded (run : EchoRun serving history world) : Loaded world :=
  Trace.invariant (fun _ world => Loaded world) Loaded.start (fun loaded => loaded.step) run

theorem Step.fits
    (stepped : Step serving world event after) (loaded : Loaded world) : event.Fits serving := by
  cases stepped with
  | send peer => exact peer
  | take peer => exact peer
  | lose | duplicate | receiveError => trivial
  | receive serves arrived place short => exact ⟨serves, length_received_lt.mp short⟩
  | overflow serves arrived place long =>
      refine ⟨serves, ?_⟩
      rw [← Nat.not_lt] at long ⊢
      exact fun short => long (length_received_lt.mpr short)
  | answer serves place same =>
      rw [same]
      exact ⟨serves, (List.length_take_le _ _).trans_lt (loaded.bytes _ _ _ place)⟩

theorem EchoRun.fits (run : EchoRun serving history world) :
    ∀ event ∈ history, event.Fits serving := by
  induction run with
  | start => exact fun _ none => absurd none List.not_mem_nil
  | next run stepped inductionHypothesis =>
      intro other member
      rcases List.mem_cons.mp member with rfl | earlier
      · exact stepped.fits (EchoRun.loaded run)
      · exact inductionHypothesis other earlier

theorem EchoRun.carried
    (run : EchoRun serving history world) (datagram : Datagram Addr) :
    history.count (.send datagram) + history.count (.duplicate datagram) +
        history.count (.answer datagram true) =
      world.flight.count datagram + history.count (.lose datagram) +
        history.count (.take datagram) + history.count (.receive datagram) +
        history.count (.overflow datagram) := by
  induction run with
  | start begins =>
      rw [begins.flight]
      rfl
  | next run stepped inductionHypothesis =>
      have erased : ∀ {flight : List (Datagram Addr)} {other : Datagram Addr}, other ∈ flight →
          flight.count datagram =
            (flight.erase other).count datagram + if other = datagram then 1 else 0 := by
        intro flight other member
        rw [(List.perm_cons_erase member).count_eq, List.count_cons]
        simp only [beq_iff_eq]
      cases stepped with
      | send | duplicate | receiveError =>
          simp only [List.count_cons, beq_iff_eq, Event.send.injEq, Event.duplicate.injEq,
            reduceCtorEq, if_false]
          omega
      | lose arrived | take _ arrived | receive _ arrived | overflow _ arrived =>
          have counted := erased arrived
          simp only [World.setServer, List.count_cons, beq_iff_eq, Event.lose.injEq,
            Event.take.injEq, Event.receive.injEq, Event.overflow.injEq, reduceCtorEq, if_false]
          omega
      | @answer server bytes cltAddr answered sent serves place same =>
          cases sent <;>
            simp only [World.setServer, List.count_cons, beq_iff_eq, Event.answer.injEq, and_true,
              and_false, reduceCtorEq, if_false, if_true, Bool.false_eq_true] <;>
            omega

theorem World.answering_eq_zero
    (away : ∀ bytes cltAddr,
      (world.servers datagram.target).place ≠ .sendto bytes cltAddr) :
    world.answering datagram = 0 := if_neg fun both => away _ _ both.1

theorem Step.answering
    (stepped : Step serving world event after) (loaded : Loaded world)
    (datagram : Datagram Addr) :
    world.answering datagram + (if event = .receive datagram then 1 else 0) =
      after.answering datagram +
        ((if event = .answer datagram.echo true then 1 else 0) +
          if event = .answer datagram.echo false then 1 else 0) := by
  cases stepped with
  | send | lose | duplicate | take | receiveError =>
      simp only [World.answering, reduceCtorEq, if_false]
  | @receive request serves arrived place short =>
      simp only [Event.receive.injEq, reduceCtorEq, if_false, Nat.add_zero]
      by_cases mine : datagram.target = request.target
      · rw [World.answering_eq_zero (by rw [mine, place]; nofun), World.answering, mine,
          World.servers_setServer_self, Nat.zero_add]
        have whole := length_received_lt.mp short
        rw [received_of_lt whole]
        refine if_congr ⟨?_, ?_⟩ rfl rfl
        · rintro rfl
          exact ⟨rfl, take_terminated _ _ whole⟩
        · rintro ⟨sending, taken⟩
          obtain ⟨length, source⟩ := Place.sendto.inj sending
          rw [← length, take_terminated _ _ whole] at taken
          cases request
          cases datagram
          simp_all
      · have other : request ≠ datagram := by
          rintro rfl
          exact mine rfl
        rw [if_neg other, World.answering, World.answering,
          World.servers_setServer_of_ne _ _ mine]
        rfl
  | @overflow request serves arrived place long =>
      simp only [reduceCtorEq, if_false, Nat.add_zero]
      by_cases mine : datagram.target = request.target
      · rw [World.answering_eq_zero (by rw [mine, place]; nofun), World.answering_eq_zero]
        rw [mine, World.servers_setServer_self]
        nofun
      · rw [World.answering, World.answering, World.servers_setServer_of_ne _ _ mine]
  | @answer server bytes cltAddr answered sent serves place same =>
      have either : ((if Event.answer answered sent = .answer datagram.echo true then 1 else 0) +
          if Event.answer answered sent = .answer datagram.echo false then 1 else 0) =
            if answered = datagram.echo then 1 else 0 := by
        cases sent <;> simp
      simp only [either, reduceCtorEq, if_false, Nat.add_zero]
      subst same
      by_cases mine : datagram.target = server
      · subst mine
        have within := loaded.bytes _ _ _ place
        have length : ((world.servers datagram.target).buf.take bytes).length = bytes := by
          rw [List.length_take, loaded.buf]
          exact Nat.min_eq_left within.le
        rw [World.answering, place, World.answering_eq_zero
          (by rw [World.servers_setServer_self]; nofun), Nat.zero_add]
        refine if_congr ⟨?_, ?_⟩ rfl rfl
        · rintro ⟨sending, taken⟩
          obtain ⟨rfl, rfl⟩ := Place.sendto.inj sending
          rw [taken]
          rfl
        · intro same
          obtain ⟨_, source, payload⟩ := Datagram.mk.inj same
          rw [payload] at length
          rw [← length] at payload ⊢
          exact ⟨by rw [source], payload⟩
      · rw [if_neg fun same => mine (congrArg Datagram.source same).symm, World.answering,
          World.answering, World.servers_setServer_of_ne _ _ mine]
        rfl

theorem EchoRun.answered
    (run : EchoRun serving history world) (datagram : Datagram Addr) :
    history.count (.receive datagram) =
      world.answering datagram + (history.count (.answer datagram.echo true) +
        history.count (.answer datagram.echo false)) := by
  induction run with
  | start begins =>
      rw [World.answering, if_neg]
      · rfl
      · rintro ⟨sending, _⟩
        cases (begins.place _).symm.trans sending
  | next run stepped inductionHypothesis =>
      have moved := stepped.answering (EchoRun.loaded run) datagram
      simp only [List.count_cons, beq_iff_eq]
      omega

theorem count_eq_zero
    (fits : ∀ event ∈ history, event.Fits serving) {event : Event Addr}
    (unfit : ¬ event.Fits serving) : history.count event = 0 :=
  List.count_eq_zero_of_not_mem fun member => unfit (fits event member)

/-- A datagram that is in flight, or that was too long for a server, was sent by
a peer or is an answer. -/
theorem EchoRun.origin
    (run : EchoRun serving history world) (datagram : Datagram Addr)
    (arrived : datagram ∈ world.flight ∨ .overflow datagram ∈ history) :
    .send datagram ∈ history ∨ .answer datagram true ∈ history := by
  induction run with
  | start begins =>
      rw [begins.flight] at arrived
      rcases arrived with none | none <;> cases none
  | @next history world event after run stepped inductionHypothesis =>
      have earlier : datagram ∈ world.flight ∨ .overflow datagram ∈ history →
          .send datagram ∈ event :: history ∨ .answer datagram true ∈ event :: history :=
        fun there => (inductionHypothesis there).imp (List.mem_cons_of_mem _)
          (List.mem_cons_of_mem _)
      cases stepped with
      | send peer =>
          simp only [List.mem_cons, reduceCtorEq, false_or] at arrived
          rcases arrived with (rfl | there) | spilt
          · exact .inl List.mem_cons_self
          · exact earlier (.inl there)
          · exact earlier (.inr spilt)
      | duplicate there =>
          simp only [List.mem_cons, reduceCtorEq, false_or] at arrived
          rcases arrived with (rfl | there) | spilt
          · exact earlier (.inl there)
          · exact earlier (.inl there)
          · exact earlier (.inr spilt)
      | lose | take | receive =>
          simp only [List.mem_cons, reduceCtorEq, false_or] at arrived
          exact earlier (arrived.imp_left List.mem_of_mem_erase)
      | overflow _ there =>
          simp only [List.mem_cons, Event.overflow.injEq] at arrived
          rcases arrived with left | rfl | spilt
          · exact earlier (.inl (List.mem_of_mem_erase left))
          · exact earlier (.inl there)
          · exact earlier (.inr spilt)
      | receiveError =>
          simp only [List.mem_cons, reduceCtorEq, false_or] at arrived
          exact earlier arrived
      | @answer server bytes cltAddr answered sent serves place same =>
          simp only [List.mem_cons, reduceCtorEq, false_or] at arrived
          cases sent with
          | false => exact earlier arrived
          | true =>
              rcases arrived with there | spilt
              · rcases List.mem_cons.mp there with rfl | there
                · exact .inr List.mem_cons_self
                · exact earlier (.inl there)
              · exact earlier (.inr spilt)

theorem EchoRun.overflown
    (run : EchoRun serving history world) (server : Addr) :
    (world.servers server).place = .overflown ↔
      ∃ request : Datagram Addr, request.target = server ∧ .overflow request ∈ history := by
  induction run with
  | start begins =>
      rw [begins.place]
      exact iff_of_false nofun (by rintro ⟨_, _, none⟩; cases none)
  | @next history world event after run stepped inductionHypothesis =>
      cases stepped with
      | send | lose | duplicate | take | receiveError =>
          simp only [List.mem_cons, reduceCtorEq, false_or]
          exact inductionHypothesis
      | @receive request serves arrived place short =>
          simp only [List.mem_cons, reduceCtorEq, false_or]
          by_cases mine : server = request.target
          · subst mine
            rw [World.servers_setServer_self, ← inductionHypothesis, place]
            exact iff_of_false nofun nofun
          · rw [World.servers_setServer_of_ne _ _ mine]
            exact inductionHypothesis
      | @overflow request serves arrived place long =>
          by_cases mine : server = request.target
          · subst mine
            rw [World.servers_setServer_self]
            exact iff_of_true rfl ⟨request, rfl, List.mem_cons_self⟩
          · rw [World.servers_setServer_of_ne _ _ mine]
            refine inductionHypothesis.trans (exists_congr fun other => and_congr_right ?_)
            rintro rfl
            rw [List.mem_cons, or_iff_right]
            intro same
            cases same
            exact mine rfl
      | @answer answering bytes cltAddr answered sent serves place same =>
          simp only [List.mem_cons, reduceCtorEq, false_or]
          by_cases mine : server = answering
          · subst mine
            rw [World.servers_setServer_self, ← inductionHypothesis, place]
            exact iff_of_false nofun nofun
          · rw [World.servers_setServer_of_ne _ _ mine]
            exact inductionHypothesis

/-- The account of the datagrams of one kind from a peer to a server: each one
that is sent, and each copy of it or of its echo that the network makes, is taken
by the peer as an echo, lost on the way there or back, not sent back, in flight,
or about to be answered.  No peer sends from a server's address.  A server writes
behind its buffer exactly when it receives a datagram of `BUF_SZ` bytes or more,
which a peer sent to it. -/
theorem echoes_accounted
    (run : EchoRun serving history world) :
    (∀ request : Datagram Addr, serving request.source = false →
      serving request.target = true → request.payload.length < bufSz →
        history.count (.send request) + history.count (.duplicate request) +
            history.count (.duplicate request.echo) =
          history.count (.take request.echo) + history.count (.lose request) +
            history.count (.lose request.echo) + history.count (.answer request.echo false) +
            world.flight.count request + world.flight.count request.echo +
            world.answering request) ∧
    (∀ server, (world.servers server).place = .overflown ↔
      ∃ request, request.target = server ∧ .overflow request ∈ history) ∧
    (∀ request, .overflow request ∈ history →
      .send request ∈ history ∧ bufSz ≤ request.payload.length) := by
  have fits := run.fits
  refine ⟨?_, ?_, ?_⟩
  · intro request peer serves short
    have there := run.carried request
    have back := run.carried request.echo
    have answered := run.answered request
    have silent : ∀ sent, history.count (.answer request sent) = 0 := fun sent =>
      count_eq_zero fits fun fit => Bool.false_ne_true (peer.symm.trans fit.1)
    have untaken : history.count (.take request) = 0 :=
      count_eq_zero fits fun fit => Bool.false_ne_true (Eq.trans (Eq.symm fit) serves)
    have fitting : history.count (.overflow request) = 0 :=
      count_eq_zero fits fun fit => absurd short (Nat.not_lt.mpr fit.2)
    have unsent : history.count (.send request.echo) = 0 :=
      count_eq_zero fits fun fit => Bool.false_ne_true (Eq.trans (Eq.symm fit) serves)
    have unreceived : history.count (.receive request.echo) = 0 :=
      count_eq_zero fits fun fit => Bool.false_ne_true (peer.symm.trans fit.1)
    have unspilt : history.count (.overflow request.echo) = 0 :=
      count_eq_zero fits fun fit => Bool.false_ne_true (peer.symm.trans fit.1)
    have nothing := silent true
    omega
  · exact run.overflown
  · intro request spilt
    have long := (fits _ spilt).2
    refine ⟨?_, long⟩
    rcases run.origin request (.inr spilt) with sent | answered
    · exact sent
    · exact absurd (fits _ answered).2 (Nat.not_lt.mpr long)

def oneByte : Datagram Nat := { source := 1, target := 7, payload := [97] }

/-- The byte goes to the server and comes back. -/
theorem echoes_accounted_one_byte :
    ∃ history world, EchoRun (fun address => address == 7) history world ∧
      history.count (.take oneByte.echo) + world.flight.length = 1 ∧
      (world.servers 7).place ≠ .overflown := by
  let start : World Nat :=
    { servers := fun _ => { buf := List.replicate bufSz 0, place := .recvfrom }, flight := [] }
  have begins : Begins start := ⟨rfl, fun _ => rfl, fun _ => List.length_replicate⟩
  have sent : EchoRun (fun address => address == 7) _ _ :=
    .next (.start begins) (@Step.send Nat _ _ _ oneByte rfl)
  have received := sent.next
    (@Step.receive Nat _ _ _ oneByte rfl List.mem_cons_self rfl (by decide))
  have answered := received.next (@Step.answer Nat _ _ _ 7 1 1 oneByte.echo true rfl rfl rfl)
  have run := answered.next (@Step.take Nat _ _ _ oneByte.echo rfl List.mem_cons_self)
  obtain ⟨account, overflown, _⟩ := echoes_accounted run
  refine ⟨_, _, run, account oneByte rfl rfl (by decide), ?_⟩
  rw [Ne, overflown 7]
  rintro ⟨_, _, spilt⟩
  simp only [List.mem_cons, reduceCtorEq, List.not_mem_nil, or_false] at spilt

end Runs

end Udp

end Tpt
