import Tpt.Splice.Termination

/-!
The two byte streams of the tunnel.

`Flowing unsent` holds at every system call: what came from the client was
sent on, up to `unsent`, and what came from the server was delivered, up to
what the pipe holds.  `Settled` holds whenever the tunnel polls both sockets.
-/

namespace Tpt

namespace Splice

/-- `proxy_recv_and_send` had nothing left to send when it returned 0 or 1. -/
def Forwarded (journal : List Entry) : Prop :=
  ∀ ret upstream, Entry.proxyRecvAndSendReturned ret upstream ∈ journal →
    ret = 0 ∨ ret = 1 → upstream.sent = upstream.received

/-- Every splice out of the pipe moved all that the pipe held. -/
def Drained (journal : List Entry) : Prop :=
  ∀ available moved, Entry.splicedOut available moved ∈ journal → moved = available

/-- `make_splice` left the pipe empty when it returned 1. -/
def ReturnedEmpty (journal : List Entry) : Prop :=
  ∀ pipe, Entry.makeSpliceReturned 1 pipe ∈ journal → pipe = []

structure Flowing (unsent : List Byte) (tunnel : Tunnel) : Prop where
  upstream : tunnel.upstream.received = tunnel.upstream.sent ++ unsent
  downstream : tunnel.downstream.received = tunnel.downstream.delivered ++ tunnel.downstream.pipe
  forwarded : Forwarded tunnel.journal
  returnedEmpty : Drained tunnel.journal → ReturnedEmpty tunnel.journal

def PipeSettled (tunnel : Tunnel) : Prop :=
  Drained tunnel.journal → tunnel.downstream.pipe = []

def Flows (tunnel : Tunnel) : Prop := ∃ unsent, Flowing unsent tunnel

structure Settled (tunnel : Tunnel) : Prop where
  flowing : Flowing [] tunnel
  pipe : PipeSettled tunnel

theorem Drained.of_cons
    {entry : Entry} {journal : List Entry} (drained : Drained (entry :: journal)) :
    Drained journal :=
  fun available moved membership => drained available moved (List.mem_cons_of_mem entry membership)

namespace Flowing

variable {unsent : List Byte} {tunnel : Tunnel}

theorem receive
    (flowing : Flowing unsent tunnel) (data : List Byte) :
    Flowing (unsent ++ data) (tunnel.receive data) := by
  refine ⟨?_, flowing.downstream, flowing.forwarded, flowing.returnedEmpty⟩
  show tunnel.upstream.received ++ data = tunnel.upstream.sent ++ (unsent ++ data)
  rw [flowing.upstream, List.append_assoc]

theorem forward
    (flowing : Flowing unsent tunnel) (count : Nat) :
    Flowing (unsent.drop count) (tunnel.forward (unsent.take count)) := by
  refine ⟨?_, flowing.downstream, flowing.forwarded, flowing.returnedEmpty⟩
  show tunnel.upstream.received =
    (tunnel.upstream.sent ++ unsent.take count) ++ unsent.drop count
  rw [flowing.upstream, List.append_assoc, List.take_append_drop]

theorem fill
    (flowing : Flowing unsent tunnel) (data : List Byte) :
    Flowing unsent (tunnel.fill data) := by
  refine ⟨flowing.upstream, ?_, flowing.forwarded, flowing.returnedEmpty⟩
  show tunnel.downstream.received ++ data =
    tunnel.downstream.delivered ++ (tunnel.downstream.pipe ++ data)
  rw [flowing.downstream, List.append_assoc]

theorem drain
    (flowing : Flowing unsent tunnel) (count : Nat) :
    Flowing unsent (tunnel.drain count) := by
  refine ⟨flowing.upstream, ?_, ?_, ?_⟩
  · show tunnel.downstream.received = (tunnel.downstream.delivered ++
      tunnel.downstream.pipe.take count) ++ tunnel.downstream.pipe.drop count
    rw [flowing.downstream, List.append_assoc, List.take_append_drop]
  · intro ret upstream membership
    apply flowing.forwarded ret upstream
    simpa [Tunnel.drain, Tunnel.note] using membership
  · intro drained pipe membership
    apply flowing.returnedEmpty drained.of_cons pipe
    simpa [Tunnel.drain, Tunnel.note] using membership

theorem note_recvAndSend
    (flowing : Flowing unsent tunnel) {ret : Int} (complete : 0 ≤ ret → unsent = []) :
    Flowing unsent (tunnel.note (.proxyRecvAndSendReturned ret tunnel.upstream)) := by
  refine ⟨flowing.upstream, flowing.downstream, ?_, ?_⟩
  · intro ret' upstream membership succeeded
    rcases List.mem_cons.mp membership with same | earlier
    · cases same
      rw [flowing.upstream, complete (by omega), List.append_nil]
    · exact flowing.forwarded ret' upstream earlier succeeded
  · intro drained pipe membership
    apply flowing.returnedEmpty drained.of_cons pipe
    simpa [Tunnel.note] using membership

theorem note_makeSplice
    (flowing : Flowing unsent tunnel) {ret : Int} (complete : 0 ≤ ret → PipeSettled tunnel) :
    Flowing unsent (tunnel.note (.makeSpliceReturned ret tunnel.downstream.pipe)) := by
  refine ⟨flowing.upstream, flowing.downstream, ?_, ?_⟩
  · intro ret' upstream membership
    apply flowing.forwarded ret' upstream
    simpa [Tunnel.note] using membership
  · intro drained pipe membership
    rcases List.mem_cons.mp membership with same | earlier
    · cases same
      exact complete (by decide) drained.of_cons
    · exact flowing.returnedEmpty drained.of_cons pipe earlier

end Flowing

theorem pipeSettled_drain
    (tunnel : Tunnel) (count : Nat) : PipeSettled (tunnel.drain count) := by
  intro drained
  have all : count = tunnel.downstream.pipe.length :=
    drained tunnel.downstream.pipe.length count (List.mem_cons_self ..)
  show tunnel.downstream.pipe.drop count = []
  rw [all, List.drop_length]

theorem Settled.flows
    {tunnel : Tunnel} (settled : Settled tunnel) : Flows tunnel :=
  ⟨[], settled.flowing⟩

/-- What a transfer leaves behind: a settled tunnel unless it failed. -/
def Ended (ret : Int) (tunnel : Tunnel) : Prop :=
  (0 ≤ ret → Settled tunnel) ∧ Flows tunnel

theorem ended_error
    {tunnel : Tunnel} (flows : Flows tunnel) : Ended (-1) tunnel :=
  ⟨fun nonnegative => absurd nonnegative (by decide), flows⟩

theorem Settled.ended
    {tunnel : Tunnel} (settled : Settled tunnel) (ret : Int) : Ended ret tunnel :=
  ⟨fun _ => settled, settled.flows⟩

theorem triple_poll
    {holds : Tunnel → Prop} (flows : ∀ tunnel, holds tunnel → Flows tunnel) :
    Triple Flows holds poll (fun _ => holds) :=
  Triple.call flows fun _ _ before => before

/-- The tunnel holds `unsent` in its buffer and the pipe is settled. -/
def Sending (unsent : List Byte) (tunnel : Tunnel) : Prop :=
  Flowing unsent tunnel ∧ PipeSettled tunnel

theorem Sending.flows
    {unsent : List Byte} {tunnel : Tunnel} (sending : Sending unsent tunnel) : Flows tunnel :=
  ⟨unsent, sending.1⟩

theorem Sending.settled
    {tunnel : Tunnel} (sending : Sending [] tunnel) : Settled tunnel :=
  ⟨sending.1, sending.2⟩

theorem Ended.note
    {ret : Int} {tunnel : Tunnel} {entry : Entry} (ended : Ended ret tunnel)
    (keeps : ∀ unsent, Flowing unsent tunnel →
      (0 ≤ ret → unsent = [] ∧ PipeSettled tunnel) → Flowing unsent (tunnel.note entry)) :
    Ended ret (tunnel.note entry) := by
  by_cases succeeded : 0 ≤ ret
  · have settled := ended.1 succeeded
    have after : Settled (tunnel.note entry) :=
      ⟨keeps [] settled.flowing fun _ => ⟨rfl, settled.pipe⟩,
        fun drained => settled.pipe drained.of_cons⟩
    exact after.ended ret
  · obtain ⟨unsent, flowing⟩ := ended.2
    exact ⟨fun nonnegative => absurd nonnegative succeeded,
      unsent, keeps unsent flowing fun nonnegative => absurd nonnegative succeeded⟩

theorem triple_noted
    {program : Calls Int} {entry : Int → Tunnel → Entry}
    (transfers : Triple Flows Settled program Ended)
    (keeps : ∀ ret tunnel unsent, Flowing unsent tunnel →
      (0 ≤ ret → unsent = [] ∧ PipeSettled tunnel) →
      Flowing unsent (tunnel.note (entry ret tunnel))) :
    Triple Flows Settled
      (do
        let ret ← program
        Program.modify fun tunnel => tunnel.note (entry ret tunnel)
        pure ret)
      Ended := by
  apply Triple.bind transfers
  intro ret
  have noted : Triple Flows (Ended ret)
      (Program.modify fun tunnel => tunnel.note (entry ret tunnel) : Calls PUnit)
      (fun _ => Ended ret) :=
    Triple.modify fun tunnel ended => ended.note (keeps ret tunnel)
  apply Triple.bind noted
  intro _
  exact Triple.ret fun _ ended => ended

theorem triple_send
    (buf : List Byte) :
    Triple Flows (Sending buf) (send buf) fun answer tunnel =>
      match answer with
      | .failed _ => Sending buf tunnel
      | .ok count => Sending (buf.drop count) tunnel := by
  apply Triple.call
  · intro tunnel sending
    exact sending.flows
  · intro reply tunnel sending
    cases reply.send with
    | failed errno => exact sending
    | ok count => exact ⟨sending.1.forward _, sending.2⟩

theorem triple_tcpSendDataWithPollBody
    (buf : List Byte) (bytesSent : Nat) :
    Triple Flows (Sending (buf.drop bytesSent)) (tcpSendDataWithPollBody buf bytesSent)
      (Sum.elim (fun bytesSent => Sending (buf.drop bytesSent)) Ended) := by
  unfold tcpSendDataWithPollBody
  split
  case isTrue more =>
    apply Triple.bind (triple_poll fun _ => Sending.flows)
    intro polled
    rcases polled with (_ | _ | _) | (_ | ⟨revents, _⟩)
    · exact Triple.ret fun _ sending => ended_error sending.flows
    · exact Triple.ret fun _ sending => sending
    · exact Triple.ret fun _ sending => ended_error sending.flows
    · exact Triple.ret fun _ sending => ended_error sending.flows
    · dsimp only
      split
      · apply Triple.bind (triple_send _)
        intro sent
        rcases sent with (_ | _ | _) | count
        · exact Triple.ret fun _ sending => ended_error (Sending.flows sending)
        · exact Triple.ret fun _ sending => sending
        · exact Triple.ret fun _ sending => ended_error (Sending.flows sending)
        · refine Triple.ret fun tunnel sending => ?_
          have unsent : Sending ((buf.drop bytesSent).drop count) tunnel := sending
          rw [List.drop_drop] at unsent
          exact unsent
      · exact Triple.ret fun _ sending => sending
  case isFalse complete =>
    refine Triple.ret fun tunnel sending => ?_
    rw [List.drop_eq_nil_of_le (Nat.le_of_not_lt complete)] at sending
    exact sending.settled.ended _

theorem triple_tcpSendDataWithPoll
    (buf : List Byte) :
    Triple Flows (Sending buf) (tcpSendDataWithPoll buf) Ended :=
  Triple.loop (triple_tcpSendDataWithPollBody buf) 0

theorem triple_recv :
    Triple Flows Settled recv fun answer tunnel =>
      match answer with
      | .failed _ => Settled tunnel
      | .ok data => Sending data tunnel := by
  apply Triple.call
  · intro tunnel settled
    exact settled.flows
  · intro reply tunnel settled
    cases reply.recv with
    | failed errno => exact settled
    | ok data => exact ⟨settled.flowing.receive _, settled.pipe⟩

theorem triple_proxyRecvAndSendBody :
    Triple Flows Settled proxyRecvAndSendBody (Sum.elim (fun _ => Settled) Ended) := by
  apply Triple.bind triple_recv
  intro received
  rcases received with (_ | _ | _) | data
  · exact Triple.ret fun _ settled => Settled.ended settled 1
  · exact Triple.ret fun _ settled => ended_error (Settled.flows settled)
  · exact Triple.ret fun _ settled => ended_error (Settled.flows settled)
  · dsimp only
    split
    case isTrue closed =>
      subst closed
      exact Triple.ret fun _ sending => (Sending.settled sending).ended 0
    case isFalse =>
      apply Triple.bind (triple_tcpSendDataWithPoll data)
      intro ret
      split
      case isTrue => exact Triple.ret fun _ ended => ended
      case isFalse succeeded =>
        exact Triple.ret fun _ ended => ended.1 (Int.not_lt.mp succeeded)

theorem triple_proxyRecvAndSend :
    Triple Flows Settled proxyRecvAndSend Ended := by
  apply triple_noted
  · exact Triple.loop (fun _ => triple_proxyRecvAndSendBody) ()
  · intro ret tunnel unsent flowing complete
    exact flowing.note_recvAndSend fun succeeded => (complete succeeded).1

theorem triple_spliceIn
    (len : Nat) :
    Triple Flows Settled (spliceIn len) fun answer tunnel =>
      match answer with
      | .failed _ => Settled tunnel
      | .ok count => Flowing [] tunnel ∧ (count = 0 → Settled tunnel) := by
  apply Triple.call
  · intro tunnel settled
    exact settled.flows
  · intro reply tunnel settled
    cases reply.spliceIn with
    | failed errno => exact settled
    | ok data =>
        refine ⟨settled.flowing.fill _, fun closed => ⟨settled.flowing.fill _, ?_⟩⟩
        intro drained
        show tunnel.downstream.pipe ++ data.take len = []
        rw [settled.pipe drained, List.length_eq_zero_iff.mp closed]
        rfl

theorem triple_spliceOut
    (len : Nat) :
    Triple Flows (Flowing []) (spliceOut len) fun answer tunnel =>
      match answer with
      | .failed _ => Flowing [] tunnel
      | .ok _ => Settled tunnel := by
  apply Triple.call
  · intro tunnel flowing
    exact ⟨[], flowing⟩
  · intro reply tunnel flowing
    cases reply.spliceOut with
    | failed errno => exact flowing
    | ok count => exact ⟨flowing.drain _, pipeSettled_drain tunnel _⟩

theorem triple_spliceWithPollBody
    (len : Nat) :
    Triple Flows (Flowing []) (spliceWithPollBody len)
      (Sum.elim (fun _ => Flowing []) Ended) := by
  apply Triple.bind (triple_poll fun _ flowing => ⟨[], flowing⟩)
  intro polled
  rcases polled with (_ | _ | _) | (_ | ⟨revents, _⟩)
  · exact Triple.ret fun _ flowing => ended_error ⟨[], flowing⟩
  · exact Triple.ret fun _ flowing => flowing
  · exact Triple.ret fun _ flowing => ended_error ⟨[], flowing⟩
  · exact Triple.ret fun _ flowing => ended_error ⟨[], flowing⟩
  · dsimp only
    split
    · apply Triple.bind (triple_spliceOut len)
      intro spliced
      cases spliced with
      | failed errno => exact Triple.ret fun _ flowing => ended_error ⟨[], flowing⟩
      | ok count => exact Triple.ret fun _ settled => Settled.ended settled count
    · exact Triple.ret fun _ flowing => flowing

theorem triple_spliceWithPoll
    (len : Nat) : Triple Flows (Flowing []) (spliceWithPoll len) Ended :=
  Triple.loop (fun _ => triple_spliceWithPollBody len) ()

theorem triple_makeSpliceBody
    (len : Nat) :
    Triple Flows Settled (makeSpliceBody len) (Sum.elim (fun _ => Settled) Ended) := by
  apply Triple.bind (triple_spliceIn len)
  intro spliced
  rcases spliced with (_ | _ | _) | count
  · exact Triple.ret fun _ settled => Settled.ended settled 1
  · exact Triple.ret fun _ settled => ended_error (Settled.flows settled)
  · exact Triple.ret fun _ settled => ended_error (Settled.flows settled)
  · dsimp only
    split
    case isTrue closed =>
      exact Triple.ret fun _ filled => (filled.2 closed).ended 0
    case isFalse =>
      apply Triple.bind ((triple_spliceWithPoll len).weaken (fun _ filled => filled.1)
        fun _ _ ended => ended)
      intro ret
      split
      case isTrue => exact Triple.ret fun _ ended => ended_error ended.2
      case isFalse succeeded =>
        have nonnegative : 0 ≤ ret := Int.not_lt.mp succeeded
        split
        case isTrue => exact Triple.ret fun _ ended => (ended.1 nonnegative).ended 0
        case isFalse => exact Triple.ret fun _ ended => ended.1 nonnegative

theorem triple_makeSplice
    (len : Nat) : Triple Flows Settled (makeSplice len) Ended := by
  apply triple_noted
  · exact Triple.loop (fun _ => triple_makeSpliceBody len) ()
  · intro ret tunnel unsent flowing complete
    exact flowing.note_makeSplice fun succeeded => (complete succeeded).2

theorem Ended.afterTransfer
    {ret : Int} {tunnel : Tunnel} (ended : Ended ret tunnel) :
    Sum.elim (fun _ => Settled) Ended (afterTransfer ret) tunnel := by
  unfold Splice.afterTransfer
  split
  case isTrue => exact ended_error ended.2
  case isFalse succeeded =>
    have settled := ended.1 (Int.not_lt.mp succeeded)
    split
    case isTrue => exact settled.ended ret
    case isFalse => exact settled

theorem triple_proxyPollAndTunnelBody
    (gSpliceSize : Nat) :
    Triple Flows Settled (proxyPollAndTunnelBody gSpliceSize)
      (Sum.elim (fun _ => Settled) Ended) := by
  apply Triple.bind (triple_poll fun _ => Settled.flows)
  intro polled
  rcases polled with errno | (_ | ⟨client, os⟩)
  · exact Triple.ret fun _ settled => ended_error settled.flows
  · exact Triple.ret fun _ settled => ended_error settled.flows
  · dsimp only
    split
    · apply Triple.bind triple_proxyRecvAndSend
      intro ret
      exact Triple.ret fun _ ended => ended.afterTransfer
    · split
      · apply Triple.bind (triple_makeSplice gSpliceSize)
        intro ret
        exact Triple.ret fun _ ended => ended.afterTransfer
      · exact Triple.ret fun _ settled => settled

theorem triple_proxyPollAndTunnel
    (gSpliceSize : Nat) :
    Triple Flows Settled (proxyPollAndTunnel gSpliceSize) Ended := by
  have piped : Triple Flows Settled pipe (fun _ => Settled) :=
    Triple.call (fun _ => Settled.flows) fun _ _ before => before
  apply Triple.bind piped
  intro answer
  cases answer with
  | failed errno => exact Triple.ret fun _ settled => ended_error settled.flows
  | ok _ => exact Triple.loop (fun _ => triple_proxyPollAndTunnelBody gSpliceSize) ()

theorem settled_start : Settled Tunnel.start := by
  refine ⟨⟨rfl, rfl, ?_, ?_⟩, fun _ => rfl⟩
  · intro ret upstream membership
    cases membership
  · intro _ pipe membership
    cases membership

/-- For every script, the tunnel reaches a state in which what was sent to the
server is a prefix of what came from the client, and what was delivered to the
client followed by the contents of the pipe is what came from the server; and
`proxy_recv_and_send` never returned 0 or 1 with bytes left to send.  The
states reached on the prefixes of a script are all the states of its run. -/
theorem tunnel_streams_intact
    (gSpliceSize : Nat) (script : List Reply) :
    ∃ tunnel, (proxyPollAndTunnel gSpliceSize script Tunnel.start).state? = some tunnel ∧
      tunnel.upstream.sent <+: tunnel.upstream.received ∧
      tunnel.downstream.delivered ++ tunnel.downstream.pipe = tunnel.downstream.received ∧
      ∀ ret upstream, Entry.proxyRecvAndSendReturned ret upstream ∈ tunnel.journal →
        ret = 0 ∨ ret = 1 → upstream.sent = upstream.received := by
  obtain ⟨tunnel, reached, unsent, flowing⟩ :
      ∃ tunnel, (proxyPollAndTunnel gSpliceSize script Tunnel.start).state? = some tunnel ∧
        Flows tunnel :=
    (triple_proxyPollAndTunnel gSpliceSize).reaches (ends_proxyPollAndTunnel gSpliceSize)
      (fun _ _ ended => ended.2) script settled_start
  exact ⟨tunnel, reached, ⟨unsent, flowing.upstream.symm⟩, flowing.downstream.symm,
    flowing.forwarded⟩

end Splice

end Tpt
