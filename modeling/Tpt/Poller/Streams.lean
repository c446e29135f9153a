import Tpt.Poller.Edges

/-!
What the epoll server writes to its standard output of the bytes each peer
sends, and when it closes a connection.
-/

namespace Tpt

namespace Poller

universe u

variable {Client : Type u} [DecidableEq Client]

def printed (output : List (Client × List Byte)) (client : Client) : List Byte :=
  (output.filter fun chunk => decide (chunk.1 = client)).flatMap Prod.snd

/-- The bytes of one peer that are read and not written yet. -/
def Control.buffered (control : Control Client) (client : Client) : List Byte :=
  match control with
  | .writing writer buf _ _ => if writer = client then buf else []
  | _ => []

theorem printed_append (output : List (Client × List Byte)) (writer client : Client)
    (bytes : List Byte) :
    printed (output ++ [(writer, bytes)]) client =
      printed output client ++ if writer = client then bytes else [] := by
  by_cases same : writer = client <;>
    simp [printed, List.filter_append, same]

namespace Server

variable {sfd : Nat} {lost : Bool} {server after : Server Client}

inductive Effect (reply : Reply Client) (server after : Server Client) : Prop where
  | quiet (connection : after.kernel.connection = server.kernel.connection)
      (output : after.output = server.output)
      (before : server.control.buffered = fun _ => [])
      (afterwards : after.control.buffered = fun _ => [])
  | closes (fd : Nat)
      (opened : ∃ file, server.kernel.files fd = some file)
      (reason : ∀ client, server.kernel.files fd = some (.connection client) →
        (server.kernel.connection client).failed = true ∨
          (server.kernel.connection client).shutdown = true ∧
            (server.kernel.connection client).unread = [])
      (kernel : after.kernel = server.kernel.close fd)
      (output : after.output = server.output)
      (before : server.control.buffered = fun _ => [])
      (afterwards : after.control.buffered = fun _ => [])
  | reads (client : Client) (count : Nat)
      (connection : after.kernel.connection =
        Function.update server.kernel.connection client
          { server.kernel.connection client with
            unread := (server.kernel.connection client).unread.drop count })
      (output : after.output = server.output)
      (before : server.control.buffered = fun _ => [])
      (afterwards : after.control.buffered = fun other =>
        if client = other then (server.kernel.connection client).unread.take count else [])
  | writes (client : Client) (buf : List Byte) (s : Nat)
      (complete : (∀ count, reply ≠ .writeShort count) → buf.take s = buf)
      (kernel : after.kernel = server.kernel)
      (output : after.output = server.output ++ [(client, buf.take s)])
      (before : server.control.buffered = fun other => if client = other then buf else [])
      (afterwards : after.control.buffered = fun _ => [])
  | drops (client : Client)
      (opened : (server.kernel.connection client).closed = false)
      (kernel : after.kernel = server.kernel)
      (output : after.output = server.output)
      (before : ∀ other, other ≠ client → server.control.buffered other = [])
      (afterwards : after.control = .aborted)

omit [DecidableEq Client] in
theorem closed_reason
    {event : EpollEvent Client} {rest : List (EpollEvent Client)}
    (sound : server.kernel.Sound sfd) (tracks : server.kernel.Tracks (event :: rest) none)
    (broken : (event.events.epollerr || event.events.epollhup || !event.events.epollin) = true)
    (client : Client) (opened : server.kernel.files event.fd = some (.connection client)) :
    (server.kernel.connection client).failed = true := by
  have watched := tracks.reported event List.mem_cons_self
  have found := sound.watched event.file event.fd watched
  have same : event.file = .connection client := Option.some.inj (found.symm.trans opened)
  have failed : server.kernel.failed event.file = true := by
    rcases Bool.or_eq_true_iff.mp broken with mask | unreadable
    · exact tracks.broken event List.mem_cons_self mask
    · refine (tracks.readable event List.mem_cons_self).resolve_left fun readable => ?_
      simp [readable] at unreadable
  simpa [same, Kernel.failed] using failed

theorem proceed_effect
    {reply : Reply Client} (invariant : Invariant sfd lost server)
    (stepped : server.proceed sfd reply = some after) : Effect reply server after := by
  obtain ⟨sound, fits, tracks, notices⟩ := invariant
  unfold Server.proceed at stepped
  split at stepped
  case h_1 scanned control =>
    obtain ⟨⟨kernel, events⟩, waited, rfl⟩ := Option.map_eq_some_iff.mp stepped
    obtain ⟨_, rfl, _⟩ := Kernel.epollWait_eq_some.mp waited
    exact .quiet rfl rfl (by rw [control]; rfl) rfl
  case h_2 control =>
    obtain rfl := Option.some.inj stepped
    exact .quiet rfl rfl (by rw [control]; rfl) rfl
  case h_3 event rest control =>
    rw [control] at tracks
    have tracks := tracks (by simp)
    split at stepped
    next broken =>
      obtain rfl := Option.some.inj stepped
      have opened := sound.watched event.file event.fd (tracks.reported event List.mem_cons_self)
      exact .closes event.fd ⟨event.file, opened⟩
        (fun client found => .inl (closed_reason sound tracks broken client found)) rfl rfl
        (by rw [control]; rfl) rfl
    split at stepped
    · obtain rfl := Option.some.inj stepped
      exact .quiet rfl rfl (by rw [control]; rfl) rfl
    · obtain rfl := Option.some.inj stepped
      exact .quiet rfl rfl (by rw [control]; rfl) rfl
  case h_4 event rest infd control =>
    obtain ⟨kernel, accepted, rfl⟩ := Option.map_eq_some_iff.mp stepped
    obtain ⟨_, _, _, _, _, rfl⟩ := Kernel.accept_eq_some accepted
    exact .quiet rfl rfl (by rw [control]; rfl) rfl
  case h_5 event rest control =>
    simp only [Option.ite_none_right_eq_some, Option.some.injEq] at stepped
    obtain ⟨_, rfl⟩ := stepped
    exact .quiet rfl rfl (by rw [control]; rfl) rfl
  case h_6 event rest control =>
    obtain rfl := Option.some.inj stepped
    exact .quiet rfl rfl (by rw [control]; rfl) rfl
  case h_7 infd event rest flags s control =>
    split at stepped
    · obtain rfl := Option.some.inj stepped
      exact .quiet rfl rfl (by rw [control]; rfl) rfl
    · obtain rfl := Option.some.inj stepped
      exact .quiet rfl rfl (by rw [control]; rfl) rfl
  case h_8 infd event rest s control =>
    split at stepped
    · obtain rfl := Option.some.inj stepped
      exact .quiet rfl rfl (by rw [control]; rfl) rfl
    · obtain ⟨kernel, added, rfl⟩ := Option.map_eq_some_iff.mp stepped
      obtain ⟨file, _, rfl⟩ := Option.map_eq_some_iff.mp added
      exact .quiet rfl rfl (by rw [control]; rfl) rfl
  case h_9 event rest count control =>
    obtain ⟨⟨kernel, client, buf⟩, result, rfl⟩ := Option.map_eq_some_iff.mp stepped
    obtain ⟨_, _, _, rfl, rfl⟩ := Kernel.read_eq_some result
    exact .reads client count rfl rfl (by rw [control]; rfl) rfl
  case h_10 event rest control =>
    simp only [Option.ite_none_right_eq_some, Option.some.injEq] at stepped
    obtain ⟨_, rfl⟩ := stepped
    exact .quiet rfl rfl (by rw [control]; rfl) rfl
  case h_11 event rest control =>
    rw [control] at tracks
    simp only [Option.ite_none_right_eq_some, Option.some.injEq] at stepped
    obtain ⟨ended, rfl⟩ := stepped
    have watched := (tracks (by simp)).reported event List.mem_cons_self
    refine .closes event.fd ⟨event.file, sound.watched event.file event.fd watched⟩
      (fun client opened => .inr ?_) rfl rfl (by rw [control]; rfl) rfl
    simp only [Kernel.readEnd, opened, Bool.and_eq_true, List.isEmpty_iff] at ended
    exact ended.symm
  case h_12 event rest control =>
    rw [control] at tracks
    simp only [Option.ite_none_right_eq_some, Option.some.injEq] at stepped
    obtain ⟨fails, rfl⟩ := stepped
    have watched := (tracks (by simp)).reported event List.mem_cons_self
    refine .closes event.fd ⟨event.file, sound.watched event.file event.fd watched⟩
      (fun client opened => .inl ?_) rfl rfl (by rw [control]; rfl) rfl
    simpa only [Kernel.readFails, opened] using fails
  case h_13 client buf event rest control =>
    obtain rfl := Option.some.inj stepped
    exact .writes client buf buf.length (fun _ => List.take_length) rfl (by rw [List.take_length])
      (by rw [control]; rfl) rfl
  case h_14 client buf event rest s control =>
    simp only [Option.ite_none_right_eq_some, Option.some.injEq] at stepped
    obtain ⟨_, rfl⟩ := stepped
    exact .writes client buf s (fun complete => absurd rfl (complete s)) rfl rfl
      (by rw [control]; rfl) rfl
  case h_15 client buf event rest control =>
    rw [control] at tracks fits
    obtain rfl := Option.some.inj stepped
    have watched := (tracks (by simp)).reported event List.mem_cons_self
    have isConnection : event.file = .connection client := fits
    have opened := sound.watched event.file event.fd watched
    rw [isConnection] at opened
    refine .drops client (sound.accepted event.fd client opened).2.1 rfl rfl ?_ rfl
    intro other different
    rw [control]
    exact if_neg different.symm
  · contradiction

def flow (server : Server Client) (client : Client) : List Byte :=
  printed server.output client ++ server.control.buffered client ++
    (server.kernel.connection client).unread

/-- Nothing is missing between the output and the receive buffer of one peer,
but for a buffer whose `write` failed and ended the server. -/
def Kept (server : Server Client) (client : Client) (bytes : List Byte) : Prop :=
  ∃ dropped, printed server.output client ++ dropped ++ server.control.buffered client ++
      (server.kernel.connection client).unread = bytes ∧
    (dropped ≠ [] → server.control = .aborted ∧ (server.kernel.connection client).closed = false)

theorem Kept.of_flow {client : Client} {bytes : List Byte} (same : server.flow client = bytes) :
    server.Kept client bytes := by
  refine ⟨[], ?_, fun nonempty => absurd rfl nonempty⟩
  rw [List.append_nil]
  exact same

theorem Kept.flow
    {client : Client} {bytes : List Byte} (kept : server.Kept client bytes)
    (running : server.control ≠ .aborted) : server.flow client = bytes := by
  obtain ⟨dropped, together, aborted⟩ := kept
  have nothing : dropped = [] := by
    by_contra nonempty
    exact running (aborted nonempty).1
  rwa [nothing, List.append_nil] at together

theorem Effect.arrived
    {reply : Reply Client} (effect : Effect reply server after) (client : Client) :
    (after.kernel.connection client).arrived = (server.kernel.connection client).arrived := by
  cases effect with
  | quiet connection => rw [connection]
  | closes fd opened _ kernel =>
      obtain ⟨file, opened⟩ := opened
      rw [kernel, Kernel.close_of_open opened]
  | reads reader count connection =>
      rw [connection]
      by_cases same : client = reader
      · subst same
        rw [Function.update_self]
      · rw [Function.update_of_ne same]
  | writes _ _ _ _ kernel => rw [kernel]
  | drops _ _ kernel => rw [kernel]

theorem Effect.unread_close
    {fd : Nat} (client : Client) :
    ((server.kernel.close fd).connection client).unread =
      (server.kernel.connection client).unread := by
  unfold Kernel.close
  split <;> rfl

theorem Effect.sublist
    {reply : Reply Client} (effect : Effect reply server after) (client : Client) :
    (after.flow client).Sublist (server.flow client) := by
  cases effect with
  | quiet connection output before afterwards =>
      simp only [Server.flow, connection, output, before, afterwards]
      exact .refl _
  | closes fd _ _ kernel output before afterwards =>
      simp only [Server.flow, kernel, output, before, afterwards, unread_close]
      exact .refl _
  | reads reader count connection output before afterwards =>
      simp only [Server.flow, connection, output, before, afterwards]
      by_cases same : client = reader
      · subst same
        simp
      · simp [Function.update_of_ne same, Ne.symm same]
  | writes writer buf s _ kernel output before afterwards =>
      simp only [Server.flow, kernel, output, before, afterwards, printed_append]
      refine List.Sublist.append ?_ (.refl _)
      rw [List.append_nil]
      refine List.Sublist.append (.refl _) ?_
      split
      · exact List.take_sublist s buf
      · exact .refl _
  | drops writer _ kernel output before afterwards =>
      simp only [Server.flow, kernel, output, afterwards]
      refine List.Sublist.append (List.Sublist.append (.refl _) ?_) (.refl _)
      exact List.nil_sublist _

theorem Effect.kept
    {reply : Reply Client} (effect : Effect reply server after)
    (complete : ∀ count, reply ≠ .writeShort count) (client : Client) :
    after.Kept client (server.flow client) := by
  cases effect with
  | quiet connection output before afterwards =>
      apply Kept.of_flow
      simp only [Server.flow, connection, output, before, afterwards]
  | closes fd _ _ kernel output before afterwards =>
      apply Kept.of_flow
      simp only [Server.flow, kernel, output, before, afterwards, unread_close]
  | reads reader count connection output before afterwards =>
      apply Kept.of_flow
      simp only [Server.flow, connection, output, before, afterwards]
      by_cases same : client = reader
      · subst same
        simp
      · simp [Function.update_of_ne same, Ne.symm same]
  | writes writer buf s whole kernel output before afterwards =>
      apply Kept.of_flow
      simp only [Server.flow, kernel, output, before, afterwards, printed_append,
        whole complete, List.append_nil]
  | drops writer opened kernel output before afterwards =>
      refine ⟨server.control.buffered client, ?_, fun nonempty => ⟨afterwards, ?_⟩⟩
      · rw [kernel, output, afterwards]
        simp [Server.flow, Control.buffered]
      · by_cases same : client = writer
        · rw [kernel, same]
          exact opened
        · exact absurd (before client same) nonempty

/-- A closed connection had failed, or its peer had finished and everything
was read. -/
def Reasoned (connection : Connection) : Prop :=
  connection.closed = true →
    connection.failed = true ∨ connection.shutdown = true ∧ connection.unread = []

theorem Effect.reasoned
    {reply : Reply Client} (effect : Effect reply server after) (client : Client)
    (reasoned : Reasoned (server.kernel.connection client)) :
    Reasoned (after.kernel.connection client) := by
  cases effect with
  | quiet connection =>
      rw [connection]
      exact reasoned
  | closes fd opened reason kernel =>
      obtain ⟨file, opened⟩ := opened
      rw [kernel, Kernel.close_of_open opened]
      intro closed
      rcases Bool.or_eq_true_iff.mp closed with before | now
      · exact reasoned before
      · obtain rfl := of_decide_eq_true now
        exact reason client opened
  | reads reader count connection =>
      rw [connection]
      by_cases same : client = reader
      · subst same
        rw [Function.update_self]
        intro closed
        rcases reasoned closed with failed | ⟨shutdown, empty⟩
        · exact .inl failed
        · exact .inr ⟨shutdown, by simp [empty]⟩
      · rw [Function.update_of_ne same]
        exact reasoned
  | writes _ _ _ _ kernel =>
      rw [kernel]
      exact reasoned
  | drops _ _ kernel =>
      rw [kernel]
      exact reasoned

end Server

structure Gains (before after : Connection) : Prop where
  closed : after.closed = before.closed
  fixed : before.closed = true → after = before
  bytes : ∃ bytes, after.arrived = before.arrived ++ bytes ∧ after.unread = before.unread ++ bytes

theorem Gains.refl (connection : Connection) : Gains connection connection :=
  ⟨rfl, fun _ => rfl, [], by simp⟩

theorem Gains.update
    {connection : Client → Connection} {changed : Client} {value : Connection}
    (gains : Gains (connection changed) value) (client : Client) :
    Gains (connection client) (Function.update connection changed value client) := by
  by_cases same : client = changed
  · subst same
    rwa [Function.update_self]
  · rw [Function.update_of_ne same]
    exact .refl _

theorem arrival_gains
    {sfd : Nat} {kernel after : Kernel Client} {event : Arrival Client}
    (sound : kernel.Sound sfd) (arrived : kernel.arrival event = some after) (client : Client) :
    Gains (kernel.connection client) (after.connection client) := by
  cases event with
  | connect newcomer =>
      simp only [Kernel.arrival, Option.ite_none_left_eq_some, not_or, Bool.not_eq_true,
        Option.some.injEq] at arrived
      obtain ⟨⟨fresh, _⟩, rfl⟩ := arrived
      refine Gains.update ?_ client
      refine ⟨rfl, fun closed => ?_, [], by simp⟩
      simp [sound.joined newcomer closed] at fresh
  | send sender bytes =>
      simp only [Kernel.arrival, Option.ite_none_right_eq_some, Option.some.injEq] at arrived
      obtain ⟨sends, rfl⟩ := arrived
      refine Gains.update ?_ client
      refine ⟨rfl, fun closed => ?_, bytes, rfl, rfl⟩
      simp [Connection.sends, closed] at sends
  | finish sender =>
      simp only [Kernel.arrival, Option.ite_none_right_eq_some, Option.some.injEq] at arrived
      obtain ⟨sends, rfl⟩ := arrived
      refine Gains.update ?_ client
      refine ⟨rfl, fun closed => ?_, [], by simp⟩
      simp [Connection.sends, closed] at sends
  | reset sender =>
      simp only [Kernel.arrival, Option.ite_none_right_eq_some, Option.some.injEq] at arrived
      obtain ⟨alive, rfl⟩ := arrived
      refine Gains.update ?_ client
      refine ⟨rfl, fun closed => ?_, [], by simp⟩
      simp [closed] at alive
  | failListener =>
      obtain rfl := Option.some.inj arrived
      exact .refl _

/-- What holds of the bytes of one peer; `short` says that a `write` was short. -/
structure Delivery (short : Bool) (server : Server Client) (client : Client) : Prop where
  sublist : (server.flow client).Sublist (server.kernel.connection client).arrived
  kept : short = false → server.Kept client (server.kernel.connection client).arrived
  reasoned : Server.Reasoned (server.kernel.connection client)

section Run

variable {sfd : Nat} {server : Server Client} {history : List (Action Client)}

theorem Delivery.starts (started : Started sfd server) (client : Client) :
    Delivery false server client := by
  have flow : server.flow client = (server.kernel.connection client).arrived := by
    have unread : (server.kernel.connection client).unread =
        (server.kernel.connection client).arrived := by
      by_cases queued : client ∈ server.kernel.backlog
      · exact (started.queued client queued).2.2
      · rw [started.unused client queued]
        rfl
    rw [Server.flow, started.output, started.control, unread]
    rfl
  refine ⟨flow ▸ .refl _, fun _ => .of_flow flow, fun closed => ?_⟩
  by_cases queued : client ∈ server.kernel.backlog
  · rw [(started.queued client queued).2.1] at closed
    contradiction
  · rw [started.unused client queued] at closed
    contradiction

theorem Delivery.weaken
    {short : Bool} {client : Client} (delivery : Delivery false server client) :
    Delivery short server client :=
  ⟨delivery.sublist, fun _ => delivery.kept rfl, delivery.reasoned⟩

theorem Invariant.buffered_open
    {lost : Bool} {client : Client} (invariant : Invariant sfd lost server)
    (closed : (server.kernel.connection client).closed = true) :
    server.control.buffered client = [] := by
  cases control : server.control with
  | writing writer buf event rest =>
      simp only [Control.buffered]
      split
      next same =>
        subst same
        have tracks := invariant.tracks (by simp [control])
        have fits := invariant.fits
        rw [control] at tracks fits
        have isConnection : event.file = .connection writer := fits
        have watched := tracks.reported event List.mem_cons_self
        have opened := invariant.sound.watched event.file event.fd watched
        rw [isConnection] at opened
        rw [(invariant.sound.accepted event.fd writer opened).2.1] at closed
        contradiction
      · rfl
  | _ => rfl

theorem Delivery.arrival
    {short : Bool} {event : Arrival Client} {kernel : Kernel Client} {client : Client}
    (delivery : Delivery short server client) (sound : server.kernel.Sound sfd)
    (arrived : server.kernel.arrival event = some kernel) :
    Delivery short { server with kernel := kernel } client := by
  have gains := arrival_gains sound arrived client
  obtain ⟨bytes, arrivedMore, unread⟩ := gains.bytes
  refine ⟨?_, fun exact_ => ?_, fun closed => ?_⟩
  · rw [Server.flow, unread, arrivedMore, ← List.append_assoc]
    exact delivery.sublist.append (.refl _)
  · obtain ⟨dropped, together, aborted⟩ := delivery.kept exact_
    refine ⟨dropped, ?_, fun nonempty => ⟨(aborted nonempty).1, ?_⟩⟩
    · rw [unread, arrivedMore, ← List.append_assoc, together]
    · rw [gains.closed]
      exact (aborted nonempty).2
  · rw [gains.closed] at closed
    rw [gains.fixed closed]
    exact delivery.reasoned closed

theorem Delivery.proceed
    {short : Bool} {reply : Reply Client} {after : Server Client} {client : Client}
    (delivery : Delivery short server client)
    (effect : Server.Effect reply server after) (running : server.control ≠ .aborted)
    (shortWrite : (∃ count, reply = .writeShort count) → short = true) :
    Delivery short after client := by
  refine ⟨?_, fun exact_ => ?_, effect.reasoned client delivery.reasoned⟩
  · rw [effect.arrived client]
    exact (effect.sublist client).trans delivery.sublist
  · have complete : ∀ count, reply ≠ .writeShort count := by
      intro count isShort
      rw [shortWrite ⟨count, isShort⟩] at exact_
      contradiction
    rw [effect.arrived client, ← (delivery.kept exact_).flow running]
    exact effect.kept complete client

theorem proceed_running
    {reply : Reply Client} {after : Server Client}
    (stepped : server.proceed sfd reply = some after) : server.control ≠ .aborted := by
  intro aborted
  simp [Server.proceed, aborted] at stepped

theorem run_delivery
    {short : Bool} (run : Run sfd history server) (client : Client)
    (shortWrite : (∃ count, Action.reply (.writeShort count) ∈ history) → short = true) :
    Delivery short server client := by
  induction run with
  | start started => exact (Delivery.starts started client).weaken
  | @next history server action after earlier stepped inductionHypothesis =>
      have delivery := inductionHypothesis fun ⟨count, member⟩ =>
        shortWrite ⟨count, List.mem_cons_of_mem action member⟩
      have invariant := run_invariant earlier
      cases action with
      | arrival event =>
          obtain ⟨kernel, arrived, rfl⟩ := Option.map_eq_some_iff.mp stepped
          exact delivery.arrival invariant.sound arrived
      | reply reply =>
          refine delivery.proceed (Server.proceed_effect invariant stepped)
            (proceed_running stepped) fun ⟨count, isShort⟩ => shortWrite ⟨count, ?_⟩
          rw [isShort]
          exact List.mem_cons_self

/-- What is written of a peer's bytes is in order, whatever the `write` calls
return.  Without a short `write` it is a prefix of what the peer sent, nothing
is missing between it and the receive buffer while the server runs, and a
connection closed without an error has been written in full. -/
theorem output_in_order (run : Run sfd history server) (client : Client) :
    (printed server.output client).Sublist (server.kernel.connection client).arrived ∧
      ((∀ count, .reply (.writeShort count) ∉ history) →
        printed server.output client <+: (server.kernel.connection client).arrived ∧
        (server.control ≠ .aborted →
          printed server.output client ++ server.control.buffered client ++
            (server.kernel.connection client).unread =
              (server.kernel.connection client).arrived) ∧
        ((server.kernel.connection client).closed = true →
          (server.kernel.connection client).failed = true ∨
          (server.kernel.connection client).shutdown = true ∧
            printed server.output client = (server.kernel.connection client).arrived)) := by
  have any : Delivery true server client := run_delivery run client fun _ => rfl
  refine ⟨?_, fun complete => ?_⟩
  · refine List.Sublist.trans ?_ any.sublist
    rw [Server.flow, List.append_assoc]
    exact List.sublist_append_left _ _
  have delivery : Delivery false server client :=
    run_delivery run client fun ⟨count, member⟩ => absurd member (complete count)
  have kept := delivery.kept rfl
  refine ⟨?_, kept.flow, fun closed => ?_⟩
  · obtain ⟨dropped, together, _⟩ := kept
    rw [← together, List.append_assoc, List.append_assoc]
    exact List.prefix_append _ _
  · refine (delivery.reasoned closed).imp_right fun ⟨shutdown, empty⟩ => ⟨shutdown, ?_⟩
    obtain ⟨dropped, together, aborted⟩ := kept
    have nothing : dropped = [] := by
      by_contra nonempty
      simp [(aborted nonempty).2] at closed
    simpa [nothing, empty, (run_invariant run).buffered_open closed] using together

def readToEnd : List (Action Bool) :=
  [.reply .readEnd, .reply .write, .reply (.read 2), .reply .next,
    .reply (.epollWait [.connection true]), .arrival (.finish true)] ++ twoBytes

end Run

theorem output_in_order_read_to_end :
    ∃ server, Run 3 readToEnd server ∧ printed server.output true = [104, 105] ∧
      (server.kernel.connection true).arrived = [104, 105] := by
  obtain ⟨server, replayed, closed, failed, output⟩ : ∃ server,
      replay (Server.step 3) readToEnd idle = some server ∧
      (server.kernel.connection true).closed = true ∧
      (server.kernel.connection true).failed = false ∧
      printed server.output true = [104, 105] :=
    ⟨_, rfl, rfl, rfl, rfl⟩
  have run : Run 3 readToEnd server := Trace.of_replay idle_started replayed
  have whole := ((output_in_order run true).2 (by simp [readToEnd, twoBytes])).2.2 closed
  rw [failed] at whole
  exact ⟨server, run, output, ((whole.resolve_left (by simp)).2.symm.trans output)⟩

end Poller

end Tpt
