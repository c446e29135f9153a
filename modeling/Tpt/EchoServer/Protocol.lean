import Tpt.EchoServer.Handler
import Tpt.Lib.Progress

/-!
A client, `main` of `myClient.c`, against a handler, `Handler` of
`myServer.c`, over two byte streams of bounded size.

The client sends each line with its terminating zero byte, and takes one `recv`
for the echo, whatever part of it has arrived.  The streams hand on what they
hold in pieces of any size; a `send` blocks until all of its bytes are taken.
No call fails while both ends are open.
-/

namespace Tpt

namespace EchoServer

/-- `MAX_LENGTH` of the client. -/
def clientLength : Nat := 2048

/-- The line that `fgets` reads, with its newline. -/
def fgetsLine (stdin : List UInt8) : List UInt8 :=
  stdin.take (min (clientLength - 1) ((stdin.takeWhile (· ≠ 10)).length + 1))

/-- The `strlen(buf) + 1` bytes that are sent for a line. -/
def message (line : List UInt8) : List UInt8 := line.takeWhile (· ≠ 0) ++ [0]

theorem fgetsLine_ne_nil {stdin : List UInt8} (more : stdin ≠ []) :
    0 < (fgetsLine stdin).length := by
  have some_left := List.length_pos_iff.mpr more
  rw [fgetsLine, List.length_take, clientLength]
  omega

def messages (stdin : List UInt8) : List UInt8 :=
  if stdin = [] then []
  else message (fgetsLine stdin) ++ messages (stdin.drop (fgetsLine stdin).length)
termination_by stdin.length
decreasing_by
  rename_i more
  have read := fgetsLine_ne_nil more
  have some_left := List.length_pos_iff.mpr more
  rw [List.length_drop]
  omega

/-- Where an end stands: the client before `fgets`, with bytes still to be
taken by `send`, before `recv`, or gone. -/
inductive Control where
  | fgets
  | send (rest : List UInt8)
  | recv
  | closed
  deriving DecidableEq

/-- The two ends and the bytes between them; `sent` and `received` are those
that the client's calls took and gave so far. -/
structure Pair where
  stdin : List UInt8
  client : Control
  forward : List UInt8
  server : Control
  buf : List UInt8
  back : List UInt8
  sent : List UInt8
  received : List UInt8

inductive Event where
  | fgets
  | endOfInput
  | clientSend
  | clientRecv
  | clientEnd
  | serverRecv
  | serverSend
  | serverEnd
  deriving DecidableEq

def Control.sending (rest : List UInt8) : Control := if rest = [] then .recv else .send rest

/-- The handler after `recv`: at its `break` for `bye`, or before `send`. -/
def afterRecv (buf : List UInt8) (count : Nat) : Control :=
  if strncasecmp 3 buf (bye ++ [0]) = 0 then .closed else .send (buf.take count)

/-- One step, with room for so many bytes in each direction. -/
inductive Step (forwardSize backSize : Nat) : Pair → Event → Pair → Prop where
  | fgets {pair} :
      pair.client = .fgets → pair.stdin ≠ [] →
      Step forwardSize backSize pair .fgets
        { pair with
          stdin := pair.stdin.drop (fgetsLine pair.stdin).length
          client := .send (message (fgetsLine pair.stdin)) }
  | endOfInput {pair} :
      pair.client = .fgets → pair.stdin = [] →
      Step forwardSize backSize pair .endOfInput { pair with client := .closed }
  | clientSend {pair piece rest} :
      pair.client = .send (piece ++ rest) → piece ≠ [] →
      pair.forward.length + piece.length ≤ forwardSize →
      Step forwardSize backSize pair .clientSend
        { pair with
          client := .sending rest
          forward := pair.forward ++ piece
          sent := pair.sent ++ piece }
  | clientRecv {pair piece rest} :
      pair.client = .recv → pair.back = piece ++ rest → piece ≠ [] →
      piece.length ≤ clientLength →
      Step forwardSize backSize pair .clientRecv
        { pair with client := .fgets, back := rest, received := pair.received ++ piece }
  | clientEnd {pair} :
      pair.client = .recv ∨ (∃ rest, pair.client = .send rest) → pair.server = .closed →
      Step forwardSize backSize pair .clientEnd { pair with client := .closed }
  | serverRecv {pair chunk rest} :
      pair.server = .recv → pair.forward = chunk.bytes ++ rest →
      Step forwardSize backSize pair .serverRecv
        { pair with
          server := afterRecv (recv pair.buf chunk) chunk.bytes.length
          forward := rest
          buf := recv pair.buf chunk }
  | serverSend {pair piece rest} :
      pair.server = .send (piece ++ rest) → piece ≠ [] →
      pair.back.length + piece.length ≤ backSize →
      Step forwardSize backSize pair .serverSend
        { pair with server := .sending rest, back := pair.back ++ piece }
  | serverEnd {pair} :
      pair.client = .closed →
      (pair.server = .recv ∧ pair.forward = []) ∨ (∃ rest, pair.server = .send rest) →
      Step forwardSize backSize pair .serverEnd { pair with server := .closed }

def connected (stdin : List UInt8) : Pair where
  stdin := stdin
  client := .fgets
  forward := []
  server := .recv
  buf := List.replicate maxLength 0
  back := []
  sent := []
  received := []

def PairRun (forwardSize backSize : Nat) (stdin : List UInt8) : List Event → Pair → Prop :=
  Trace (fun pair => pair = connected stdin) (Step forwardSize backSize)

def Control.unsent : Control → List UInt8
  | .send rest => rest
  | _ => []

/-- Both ends are in `send`, and neither direction has room. -/
structure Pair.Jammed (forwardSize backSize : Nat) (pair : Pair) : Prop where
  client : ∃ rest, pair.client = .send rest
  server : ∃ rest, pair.server = .send rest
  forward : forwardSize ≤ pair.forward.length
  back : backSize ≤ pair.back.length

structure Flows (input : List UInt8) (pair : Pair) : Prop where
  conserved : pair.server ≠ .closed →
    pair.received ++ pair.back ++ pair.server.unsent ++ pair.forward = pair.sent
  echoed : pair.received ++ pair.back ++ pair.server.unsent <+: pair.sent
  remaining : pair.client ≠ .closed →
    pair.sent ++ pair.client.unsent ++ messages pair.stdin = messages input
  sent : pair.sent <+: messages input
  waits : pair.client = .recv → pair.received.length < pair.sent.length
  client : ∀ rest, pair.client = .send rest → rest ≠ []
  server : ∀ rest, pair.server = .send rest → rest ≠ []
  serves : pair.server ≠ .fgets
  full : pair.buf.length = maxLength

section Runs

variable {forwardSize backSize : Nat} {input : List UInt8} {pair after : Pair} {event : Event}
variable {history : List Event}

@[simp] theorem Control.unsent_send (rest : List UInt8) : (Control.send rest).unsent = rest := rfl

@[simp] theorem Control.unsent_recv : Control.recv.unsent = [] := rfl

@[simp] theorem Control.unsent_closed : Control.closed.unsent = [] := rfl

@[simp] theorem Control.unsent_sending (rest : List UInt8) :
    (Control.sending rest).unsent = rest := by
  unfold sending
  split
  next done => exact done.symm
  next => rfl

theorem Control.sending_cases (rest : List UInt8) :
    (rest = [] ∧ Control.sending rest = .recv) ∨
      (rest ≠ [] ∧ Control.sending rest = .send rest) := by
  unfold sending
  split
  next done => exact .inl ⟨done, rfl⟩
  next more => exact .inr ⟨more, rfl⟩

theorem afterRecv_cases (buf : List UInt8) (chunk : Chunk) :
    afterRecv (recv buf chunk) chunk.bytes.length = .closed ∨
      afterRecv (recv buf chunk) chunk.bytes.length = .send chunk.bytes := by
  have sent : (recv buf chunk).take chunk.bytes.length = chunk.bytes := List.take_left' rfl
  rw [afterRecv, sent]
  split
  next => exact .inl rfl
  next => exact .inr rfl

theorem Flows.start (input : List UInt8) : Flows input (connected input) where
  conserved _ := rfl
  echoed := List.prefix_rfl
  remaining _ := rfl
  sent := List.nil_prefix
  waits := nofun
  client := nofun
  server := nofun
  serves := nofun
  full := List.length_replicate

theorem Flows.step
    (flows : Flows input pair) (stepped : Step forwardSize backSize pair event after) :
    Flows input after := by
  obtain ⟨conserved, echoed, remaining, sent, waits, client, server, serves, full⟩ := flows
  cases stepped with
  | fgets at_fgets more =>
      refine ⟨conserved, echoed, ?_, sent, nofun, ?_, server, serves, full⟩
      · intro _
        have all := remaining (by rw [at_fgets]; exact Control.noConfusion)
        rw [at_fgets, messages, if_neg more] at all
        rw [← all]
        simp [Control.unsent]
      · rintro rest ⟨⟩
        exact List.append_ne_nil_of_right_ne_nil _ (List.cons_ne_nil 0 [])
  | endOfInput at_fgets ended =>
      exact ⟨conserved, echoed, fun up => absurd rfl up, sent, nofun, nofun, server, serves, full⟩
  | @clientSend piece rest sending taken room =>
      have all := remaining (by rw [sending]; exact Control.noConfusion)
      rw [sending, Control.unsent] at all
      refine ⟨?_, echoed.trans (List.prefix_append _ _), ?_, ?_, ?_, ?_, server, serves, full⟩
      · intro up
        rw [← conserved up, List.append_assoc _ pair.forward piece]
      · intro _
        rw [Control.unsent_sending, ← all]
        simp only [List.append_assoc]
      · exact ⟨rest ++ messages pair.stdin, by rw [← all]; simp only [List.append_assoc]⟩
      · intro _
        have before := echoed.length_le
        have some_left := List.length_pos_iff.mpr taken
        simp only [List.length_append] at before ⊢
        omega
      · intro left sends
        rcases Control.sending_cases rest with ⟨_, same⟩ | ⟨more, same⟩
        · cases same.symm.trans sends
        · cases same.symm.trans sends
          exact more
  | @clientRecv piece rest receiving arrived taken fits =>
      rw [receiving] at remaining
      rw [arrived] at conserved echoed
      refine ⟨?_, ?_, fun _ => remaining Control.noConfusion, sent, nofun, nofun, server, serves,
        full⟩
      · intro up
        rw [← conserved up]
        simp only [List.append_assoc]
      · rw [← List.append_assoc] at echoed
        exact echoed
  | clientEnd _ closed =>
      exact ⟨conserved, echoed, fun up => absurd rfl up, sent, nofun, nofun, server, serves, full⟩
  | @serverRecv chunk rest receiving arrived =>
      have all := conserved (by rw [receiving]; exact Control.noConfusion)
      rw [receiving, arrived, Control.unsent_recv, List.append_nil, ← List.append_assoc] at all
      rw [receiving, Control.unsent_recv, List.append_nil] at echoed
      have long : (recv pair.buf chunk).length = maxLength := length_recv full
      rcases afterRecv_cases pair.buf chunk with closes | sends
      · refine ⟨fun up => absurd closes up, ?_, remaining, sent, waits, client, ?_, ?_, long⟩
        · rw [closes, Control.unsent_closed, List.append_nil]
          exact echoed
        · intro left sends
          cases closes.symm.trans sends
        · rw [closes]
          exact Control.noConfusion
      · refine ⟨?_, ?_, remaining, sent, waits, client, ?_, ?_, long⟩
        · intro _
          rw [sends]
          exact all
        · rw [sends]
          exact ⟨rest, all⟩
        · intro left same
          cases sends.symm.trans same
          exact List.length_pos_iff.mp chunk.notEmpty
        · rw [sends]
          exact Control.noConfusion
  | @serverSend piece rest sending taken room =>
      have all := conserved (by rw [sending]; exact Control.noConfusion)
      rw [sending, Control.unsent] at all echoed
      refine ⟨?_, ?_, remaining, sent, waits, client, ?_, ?_, full⟩
      · intro _
        rw [Control.unsent_sending, ← all]
        simp only [List.append_assoc]
      · rw [Control.unsent_sending]
        simpa only [List.append_assoc] using echoed
      · intro left sends
        rcases Control.sending_cases rest with ⟨_, same⟩ | ⟨more, same⟩
        · cases same.symm.trans sends
        · cases same.symm.trans sends
          exact more
      · rcases Control.sending_cases rest with ⟨_, same⟩ | ⟨_, same⟩ <;> rw [same] <;>
          exact Control.noConfusion
  | serverEnd gone idle =>
      refine ⟨fun up => absurd rfl up, ?_, remaining, sent, waits, client, nofun,
        Control.noConfusion, full⟩
      rw [Control.unsent_closed, List.append_nil]
      exact (List.prefix_append _ _).trans echoed

theorem PairRun.flows (run : PairRun forwardSize backSize input history pair) :
    Flows input pair := by
  refine Trace.invariant (fun _ pair => Flows input pair) ?_ ?_ run
  · rintro pair rfl
    exact Flows.start input
  · intro history pair event after flows stepped
    exact flows.step stepped

/-! Every step uses up work: bytes go on towards the client, or an end closes. -/

def Control.up : Control → Nat
  | .closed => 0
  | _ => 1

/-- Each byte of the input becomes two at most, and each of these is handed on
four times. -/
def Pair.work (pair : Pair) : Nat :=
  11 * pair.stdin.length + 5 * pair.client.unsent.length + 4 * pair.forward.length +
    3 * pair.server.unsent.length + 2 * pair.back.length + pair.client.up + pair.server.up

theorem Control.up_sending (rest : List UInt8) : (Control.sending rest).up = 1 := by
  rcases sending_cases rest with ⟨_, same⟩ | ⟨_, same⟩ <;> rw [same] <;> rfl

theorem Control.up_send (rest : List UInt8) : (Control.send rest).up = 1 := rfl

theorem length_message (line : List UInt8) : (message line).length ≤ line.length + 1 := by
  rw [message, List.length_append, List.length_singleton]
  exact Nat.add_le_add_right (List.takeWhile_prefix _).length_le 1

theorem Step.work (stepped : Step forwardSize backSize pair event after) :
    after.work < pair.work := by
  unfold Pair.work
  cases stepped with
  | fgets at_fgets more =>
      have read := fgetsLine_ne_nil more
      have added := length_message (fgetsLine pair.stdin)
      have within : (fgetsLine pair.stdin).length ≤ pair.stdin.length := by
        rw [fgetsLine, List.length_take]
        exact Nat.min_le_right _ _
      simp only [at_fgets, Control.unsent, Control.up, List.length_drop, List.length_nil]
      omega
  | endOfInput at_fgets ended =>
      simp only [at_fgets, Control.unsent, Control.up]
      omega
  | clientSend sending taken room =>
      have some_left := List.length_pos_iff.mpr taken
      simp only [sending, Control.unsent_sending, Control.up_sending, Control.unsent_send,
        Control.up_send, List.length_append]
      omega
  | clientRecv receiving arrived taken fits =>
      have some_left := List.length_pos_iff.mpr taken
      simp only [receiving, arrived, Control.unsent, Control.up, List.length_append]
      omega
  | clientEnd waiting closed =>
      rcases waiting with receiving | ⟨rest, sending⟩
      · simp only [receiving, Control.unsent, Control.up]
        omega
      · simp only [sending, Control.unsent, Control.up, List.length_nil]
        omega
  | @serverRecv chunk rest receiving arrived =>
      have some_left := chunk.notEmpty
      simp only [receiving, arrived, Control.unsent_recv, List.length_append, List.length_nil,
        Control.up]
      rcases afterRecv_cases pair.buf chunk with closes | sends
      · simp only [closes, Control.unsent, List.length_nil]
        omega
      · simp only [sends, Control.unsent]
        omega
  | serverSend sending taken room =>
      have some_left := List.length_pos_iff.mpr taken
      simp only [sending, Control.unsent_sending, Control.up_sending, Control.unsent_send,
        Control.up_send, List.length_append]
      omega
  | serverEnd gone idle =>
      rcases idle with ⟨receiving, _⟩ | ⟨rest, sending⟩
      · simp only [receiving, Control.unsent, Control.up]
        omega
      · simp only [sending, Control.unsent, Control.up, List.length_nil]
        omega

theorem Pair.final
    (stopped : (pair.client = .closed ∧ pair.server = .closed) ∨
      pair.Jammed forwardSize backSize) : Final (Step forwardSize backSize) pair := by
  intro event after stepped
  rcases stopped with ⟨client, server⟩ | ⟨⟨left, client⟩, ⟨held, server⟩, forward, back⟩
  · cases stepped with
    | clientEnd waiting _ =>
        rcases waiting with receiving | ⟨_, sending⟩
        · cases client.symm.trans receiving
        · cases client.symm.trans sending
    | serverEnd _ idle =>
        rcases idle with ⟨receiving, _⟩ | ⟨_, sending⟩
        · cases server.symm.trans receiving
        · cases server.symm.trans sending
    | fgets place | endOfInput place | clientSend place | clientRecv place =>
        cases client.symm.trans place
    | serverRecv place | serverSend place => cases server.symm.trans place
  · cases stepped with
    | clientSend _ taken room =>
        have some_left := List.length_pos_iff.mpr taken
        omega
    | serverSend _ taken room =>
        have some_left := List.length_pos_iff.mpr taken
        omega
    | clientEnd _ closed => cases server.symm.trans closed
    | fgets place | endOfInput place | clientRecv place | serverEnd place =>
        cases client.symm.trans place
    | serverRecv place => cases server.symm.trans place

theorem exists_piece {bytes : List UInt8} (some_left : bytes ≠ []) :
    ∃ first rest, bytes = [first] ++ rest := by
  obtain ⟨first, rest, rfl⟩ := List.exists_cons_of_ne_nil some_left
  exact ⟨first, rest, rfl⟩

/-- With nothing to do, both ends are gone or in `send`.  Bytes that a client in
`recv` waits for are before the handler, with it, or before the client, unless the
handler has closed the connection. -/
theorem Flows.stopped
    (flows : Flows input pair) (forwardRoom : 0 < forwardSize) (backRoom : 0 < backSize)
    (final : Final (Step forwardSize backSize) pair) :
    (pair.client = .closed ∧ pair.server = .closed) ∨ pair.Jammed forwardSize backSize := by
  have forwards : pair.server = .recv → pair.forward = [] := by
    intro receiving
    by_contra some_left
    obtain ⟨first, rest, arrived⟩ := exists_piece some_left
    let chunk : Chunk := ⟨[first], Nat.one_pos, by rw [List.length_singleton]; decide⟩
    have arrived : pair.forward = chunk.bytes ++ rest := arrived
    exact final _ _ (.serverRecv receiving arrived)
  have backs : (∃ rest, pair.server = .send rest) → backSize ≤ pair.back.length := by
    rintro ⟨rest, sending⟩
    obtain ⟨first, rest, rfl⟩ := exists_piece (flows.server rest sending)
    by_contra room
    exact final _ _ (.serverSend sending (List.cons_ne_nil first [])
      (by rw [List.length_singleton]; omega))
  cases client : pair.client with
  | fgets =>
      by_cases more : pair.stdin = []
      · exact (final _ _ (.endOfInput client more)).elim
      · exact (final _ _ (.fgets client more)).elim
  | closed =>
      left
      cases server : pair.server with
      | fgets => exact absurd server flows.serves
      | closed => exact ⟨rfl, rfl⟩
      | recv => exact (final _ _ (.serverEnd client (.inl ⟨server, forwards server⟩))).elim
      | send rest => exact (final _ _ (.serverEnd client (.inr ⟨rest, server⟩))).elim
  | recv =>
      exfalso
      have nothing : pair.back = [] := by
        by_contra some_left
        obtain ⟨first, rest, arrived⟩ := exists_piece some_left
        exact final _ _ (.clientRecv client arrived (List.cons_ne_nil first [])
          (by rw [List.length_singleton]; decide))
      cases server : pair.server with
      | fgets => exact flows.serves server
      | closed => exact final _ _ (.clientEnd (.inl client) server)
      | recv =>
          have all := flows.conserved (by rw [server]; exact Control.noConfusion)
          have owed := flows.waits client
          rw [nothing, server, forwards server, Control.unsent_recv, List.append_nil,
            List.append_nil, List.append_nil] at all
          rw [all] at owed
          exact Nat.lt_irrefl _ owed
      | send rest =>
          have full := backs ⟨rest, server⟩
          rw [nothing, List.length_nil] at full
          omega
  | send rest =>
      right
      have full : forwardSize ≤ pair.forward.length := by
        obtain ⟨first, rest, rfl⟩ := exists_piece (flows.client rest client)
        by_contra room
        exact final _ _ (.clientSend client (List.cons_ne_nil first [])
          (by rw [List.length_singleton]; omega))
      cases server : pair.server with
      | fgets => exact absurd server flows.serves
      | closed => exact (final _ _ (.clientEnd (.inr ⟨rest, client⟩) server)).elim
      | recv =>
          rw [forwards server, List.length_nil] at full
          omega
      | send held => exact ⟨⟨rest, client⟩, ⟨held, server⟩, full, backs ⟨held, server⟩⟩

theorem Flows.length_of_jammed
    (flows : Flows input pair) (jammed : pair.Jammed forwardSize backSize) :
    forwardSize + backSize + 2 ≤ (messages input).length := by
  obtain ⟨⟨left, client⟩, ⟨held, server⟩, forward, back⟩ := jammed
  have all := flows.conserved (by rw [server]; exact Control.noConfusion)
  have total := flows.remaining (by rw [client]; exact Control.noConfusion)
  have leftSome := List.length_pos_iff.mpr (flows.client left client)
  have heldSome := List.length_pos_iff.mpr (flows.server held server)
  rw [← total, ← all, server, client]
  simp only [Control.unsent, List.length_append]
  omega

/-- Whatever the pieces in which the bytes travel, the client receives in order
what it sent, and the pair stops: with both ends gone, or with both of them in
`send`, each with no room, for input of more than that room. -/
theorem echo_pair_stops
    (run : PairRun forwardSize backSize input history pair)
    (forwardRoom : 0 < forwardSize) (backRoom : 0 < backSize) :
    pair.received <+: messages input ∧
    history.length ≤ 11 * input.length + 2 ∧
    (Final (Step forwardSize backSize) pair ↔
      (pair.client = .closed ∧ pair.server = .closed) ∨ pair.Jammed forwardSize backSize) ∧
    (pair.Jammed forwardSize backSize → forwardSize + backSize + 2 ≤ (messages input).length) := by
  have flows := run.flows
  refine ⟨?_, ?_, ⟨flows.stopped forwardRoom backRoom, Pair.final⟩, flows.length_of_jammed⟩
  · have received : pair.received <+: pair.sent := by
      refine List.IsPrefix.trans ?_ flows.echoed
      rw [List.append_assoc]
      exact List.prefix_append _ _
    exact received.trans flows.sent
  · have bounded : history.length + pair.work ≤ 11 * input.length + 2 := by
      refine run.bounded ?_ fun stepped => stepped.work
      rintro pair rfl
      exact Nat.le_refl _
    omega

/-- A session of one line, each message in one piece. -/
theorem echo_pair_stops_one_line :
    ∃ history pair, PairRun 8 8 [97, 10] history pair ∧ pair.received = [97, 10, 0] ∧
      pair.received <+: messages [97, 10] ∧ Final (Step 8 8) pair := by
  let text : List UInt8 := [97, 10, 0]
  let chunk : Chunk := ⟨text, by decide, by decide⟩
  have taken : text ≠ [] := by decide
  let begins : Pair := { connected [97, 10] with stdin := [] }
  let there : Pair := { begins with sent := text }
  let held : Pair := { there with buf := recv there.buf chunk }
  let back : Pair := { held with received := text }
  have read : PairRun 8 8 [97, 10] _ { begins with client := .send (text ++ []) } :=
    .next (.start rfl) (.fgets rfl (by decide))
  have sent : PairRun 8 8 [97, 10] _ { there with client := .recv, forward := text ++ [] } :=
    read.next (@Step.clientSend 8 8 _ text [] rfl taken (Nat.le_add_left 3 5))
  have arrived : PairRun 8 8 [97, 10] _
      { held with client := .recv, server := .send (text ++ []) } :=
    sent.next (@Step.serverRecv 8 8 _ chunk [] rfl rfl)
  have echoed : PairRun 8 8 [97, 10] _ { held with client := .recv, back := text ++ [] } :=
    arrived.next (@Step.serverSend 8 8 _ text [] rfl taken (Nat.le_add_left 3 5))
  have received : PairRun 8 8 [97, 10] _ back :=
    echoed.next (@Step.clientRecv 8 8 _ text [] rfl rfl taken (Nat.le_add_left 3 2045))
  have ended : PairRun 8 8 [97, 10] _ { back with client := .closed } :=
    received.next (.endOfInput rfl rfl)
  have run : PairRun 8 8 [97, 10] _ { back with client := .closed, server := .closed } :=
    ended.next (.serverEnd rfl (.inl ⟨rfl, rfl⟩))
  obtain ⟨echo, _, final, _⟩ := echo_pair_stops run (by decide) (by decide)
  exact ⟨_, _, run, rfl, echo, final.mpr (.inl ⟨rfl, rfl⟩)⟩

end Runs

end EchoServer

end Tpt
