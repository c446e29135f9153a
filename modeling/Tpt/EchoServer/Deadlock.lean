import Tpt.EchoServer.Protocol

/-!
The client and the handler blocked in `send`, whatever room the connection has.

The client sends two bytes for an empty line and may take one byte of the echo
for it, so each line can leave one byte more between the two.
-/

namespace Tpt

namespace EchoServer

/-- An input of empty lines, with bytes before the handler that begin no `bye`;
the handler has taken one byte at a time. -/
structure EmptyLines (forwardSize backSize lines : Nat) (pair : Pair) : Prop where
  stdin : pair.stdin = List.replicate lines 10
  forward : ∀ byte ∈ pair.forward, byte = 10 ∨ byte = 0
  server : pair.server = .recv ∨ ∃ byte, pair.server = .send [byte]
  forwardRoom : pair.forward.length ≤ forwardSize
  backRoom : pair.back.length ≤ backSize

def Settled (backSize : Nat) (pair : Pair) : Prop :=
  (pair.server = .recv ∧ pair.forward = []) ∨
    ((∃ byte, pair.server = .send [byte]) ∧ pair.back.length = backSize)

/-- The client's side of a pair, which the handler's steps leave alone. -/
structure SameClient (pair after : Pair) : Prop where
  client : after.client = pair.client
  sent : after.sent = pair.sent
  received : after.received = pair.received

theorem fgetsLine_newline (lines : Nat) :
    fgetsLine (List.replicate (lines + 1) 10) = [10] := by
  rw [fgetsLine, List.replicate_succ, List.takeWhile_cons_of_neg (by decide)]
  rfl

theorem afterRecv_plain
    {buf : List UInt8} {byte : UInt8} (plain : byte = 10 ∨ byte = 0) :
    afterRecv (byte :: buf) 1 = .send [byte] := by
  have text : bye = [98, 121, 101] := by decide
  have other : strncasecmp 3 (byte :: buf) (bye ++ [0]) ≠ 0 := by
    rw [text]
    change ¬ strncasecmp 3 _ (98 :: 121 :: 101 :: [0]) = 0
    rw [strncasecmp_cons (by decide)]
    rintro ⟨same, _⟩
    rcases plain with rfl | rfl <;> exact absurd same (by decide)
  rw [afterRecv, if_neg other]
  rfl

section Runs

variable {forwardSize backSize lines : Nat} {input : List UInt8} {pair : Pair}

def Reached (forwardSize backSize : Nat) (input : List UInt8) (pair : Pair) : Prop :=
  ∃ history, PairRun forwardSize backSize input history pair

theorem Reached.next
    {event : Event} {after : Pair} (reached : Reached forwardSize backSize input pair)
    (stepped : Step forwardSize backSize pair event after) :
    Reached forwardSize backSize input after := by
  obtain ⟨history, run⟩ := reached
  exact ⟨event :: history, run.next stepped⟩

theorem Reached.between
    (reached : Reached forwardSize backSize input pair) (up : pair.server ≠ .closed) :
    pair.received.length + pair.back.length + pair.server.unsent.length + pair.forward.length =
      pair.sent.length := by
  obtain ⟨history, run⟩ := reached
  rw [← run.flows.conserved up]
  simp only [List.length_append]

theorem EmptyLines.up (empty : EmptyLines forwardSize backSize lines pair) :
    pair.server ≠ .closed := by
  rcases empty.server with server | ⟨byte, server⟩ <;> rw [server] <;> exact Control.noConfusion

theorem SameClient.trans
    {between after : Pair} (first : SameClient pair between) (second : SameClient between after) :
    SameClient pair after :=
  ⟨second.client.trans first.client, second.sent.trans first.sent,
    second.received.trans first.received⟩

theorem Reached.flush
    (reached : Reached forwardSize backSize input pair)
    (empty : EmptyLines forwardSize backSize lines pair) :
    ∃ after, Reached forwardSize backSize input after ∧
      EmptyLines forwardSize backSize lines after ∧ SameClient pair after ∧
      after.forward = pair.forward ∧ (after.server = .recv ∨ Settled backSize after) := by
  rcases empty.server with server | ⟨byte, server⟩
  · exact ⟨pair, reached, empty, ⟨rfl, rfl, rfl⟩, rfl, .inl server⟩
  · by_cases room : pair.back.length < backSize
    · have grown : (pair.back ++ [byte]).length ≤ backSize := by
        rw [List.length_append, List.length_singleton]
        exact room
      have stepped : Step forwardSize backSize pair .serverSend
          { pair with server := .recv, back := pair.back ++ [byte] } :=
        @Step.serverSend forwardSize backSize pair [byte] [] server (List.cons_ne_nil byte []) room
      exact ⟨_, reached.next stepped, ⟨empty.stdin, empty.forward, .inl rfl, empty.forwardRoom,
        grown⟩, ⟨rfl, rfl, rfl⟩, rfl, .inl rfl⟩
    · have within := empty.backRoom
      exact ⟨pair, reached, empty, ⟨rfl, rfl, rfl⟩, rfl, .inr (.inr ⟨⟨byte, server⟩, by omega⟩)⟩

theorem Reached.settle
    (reached : Reached forwardSize backSize input pair)
    (empty : EmptyLines forwardSize backSize lines pair) :
    ∃ after, Reached forwardSize backSize input after ∧
      EmptyLines forwardSize backSize lines after ∧ SameClient pair after ∧
      Settled backSize after := by
  induction bytes : pair.forward generalizing pair with
  | nil =>
      obtain ⟨after, reached, empty, same, forward, idle⟩ := reached.flush empty
      refine ⟨after, reached, empty, same, ?_⟩
      rcases idle with server | settled
      · exact .inl ⟨server, forward.trans bytes⟩
      · exact settled
  | cons byte rest inductionHypothesis =>
      obtain ⟨between, reached, empty, same, forward, idle⟩ := reached.flush empty
      rw [bytes] at forward
      rcases idle with server | settled
      · let chunk : Chunk := ⟨[byte], Nat.one_pos, by rw [List.length_singleton]; decide⟩
        have plain := empty.forward byte (by rw [forward]; exact List.mem_cons_self)
        have holds : afterRecv (recv between.buf chunk) chunk.bytes.length = .send [byte] :=
          afterRecv_plain plain
        have stepped :=
          @Step.serverRecv forwardSize backSize between chunk rest server forward
        rw [holds] at stepped
        have roomLeft := empty.forwardRoom
        rw [forward, List.length_cons] at roomLeft
        obtain ⟨after, reached, empty, same', settled⟩ :=
          inductionHypothesis (reached.next stepped)
            ⟨empty.stdin, fun other member => empty.forward other
              (by rw [forward]; exact List.mem_cons_of_mem byte member),
              .inr ⟨byte, rfl⟩, Nat.le_of_succ_le roomLeft, empty.backRoom⟩ rfl
        have unchanged : SameClient between after :=
          ⟨same'.client, same'.sent, same'.received⟩
        exact ⟨after, reached, empty, same.trans unchanged, settled⟩
      · exact ⟨between, reached, empty, same, settled⟩

/-- A client with one more line to send, and so many bytes on their way. -/
structure Owed (forwardSize backSize lines owed : Nat) (pair : Pair) : Prop where
  reached : ∃ total, Reached forwardSize backSize (List.replicate total 10) pair
  empty : EmptyLines forwardSize backSize lines pair
  sent : pair.sent.length = pair.received.length + owed

/-- A settled pair has no byte before the handler, or the way back is full. -/
theorem Owed.settled
    {owed : Nat} (state : Owed forwardSize backSize lines owed pair)
    (settled : Settled backSize pair) :
    (pair.forward = [] ∧ pair.back.length = owed) ∨
      (pair.back.length = backSize ∧ pair.forward.length + backSize + 1 = owed ∧
        ∃ byte, pair.server = .send [byte]) := by
  obtain ⟨_, reached⟩ := state.reached
  have between := reached.between state.empty.up
  have sent := state.sent
  rcases settled with ⟨server, forward⟩ | ⟨⟨byte, server⟩, back⟩
  · rw [server, forward, Control.unsent_recv, List.length_nil] at between
    exact .inl ⟨forward, by omega⟩
  · rw [server, Control.unsent_send, List.length_singleton] at between
    exact .inr ⟨back, by omega, byte, server⟩

theorem Owed.settle
    {owed : Nat} (state : Owed forwardSize backSize lines owed pair) :
    ∃ after, Owed forwardSize backSize lines owed after ∧ after.client = pair.client ∧
      Settled backSize after := by
  obtain ⟨⟨total, reached⟩, empty, sent⟩ := state
  obtain ⟨after, reached, empty, same, settled⟩ := reached.settle empty
  refine ⟨after, ⟨⟨total, reached⟩, empty, ?_⟩, same.client, settled⟩
  rw [same.sent, same.received, sent]

theorem Owed.send
    {owed : Nat} {byte : UInt8} {rest : List UInt8}
    (state : Owed forwardSize backSize lines owed pair) (room : pair.forward.length < forwardSize)
    (client : pair.client = .send (byte :: rest)) (plain : byte = 10 ∨ byte = 0) :
    ∃ after, Owed forwardSize backSize lines (owed + 1) after ∧
      after.client = .sending rest ∧ after.forward.length = pair.forward.length + 1 ∧
      after.server = pair.server ∧ after.back = pair.back := by
  obtain ⟨⟨total, reached⟩, empty, sent⟩ := state
  have stepped :=
    @Step.clientSend forwardSize backSize pair [byte] rest client (List.cons_ne_nil byte []) room
  refine ⟨_, ⟨⟨total, reached.next stepped⟩, ⟨empty.stdin, ?_, empty.server, ?_, empty.backRoom⟩,
    ?_⟩, rfl, List.length_append, rfl, rfl⟩
  · intro other member
    rcases List.mem_append.mp member with earlier | added
    · exact empty.forward other earlier
    · rw [List.mem_singleton.mp added]
      exact plain
  · rw [List.length_append, List.length_singleton]
    exact room
  · dsimp only
    rw [List.length_append, sent, List.length_singleton, Nat.add_assoc]

theorem Owed.read
    {owed : Nat} (state : Owed forwardSize backSize (lines + 1) owed pair)
    (client : pair.client = .fgets) :
    ∃ after, Owed forwardSize backSize lines owed after ∧ after.client = .send [10, 0] ∧
      after.forward = pair.forward ∧ after.server = pair.server ∧ after.back = pair.back := by
  obtain ⟨⟨total, reached⟩, empty, sent⟩ := state
  have line : fgetsLine pair.stdin = [10] := by rw [empty.stdin, fgetsLine_newline]
  have more : pair.stdin ≠ [] := by
    rw [empty.stdin]
    exact List.cons_ne_nil _ _
  have stepped : Step forwardSize backSize pair .fgets _ := .fgets client more
  rw [line] at stepped
  refine ⟨_, ⟨⟨total, reached.next stepped⟩, ⟨?_, empty.forward, empty.server,
    empty.forwardRoom, empty.backRoom⟩, sent⟩, rfl, rfl, rfl, rfl⟩
  dsimp only
  rw [empty.stdin]
  rfl

theorem Owed.recv
    {owed : Nat} (state : Owed forwardSize backSize lines (owed + 1) pair)
    (client : pair.client = .recv) (arrived : pair.back ≠ []) :
    ∃ after, Owed forwardSize backSize lines owed after ∧ after.client = .fgets := by
  obtain ⟨⟨total, reached⟩, empty, sent⟩ := state
  obtain ⟨byte, rest, back⟩ := exists_piece arrived
  have stepped := @Step.clientRecv forwardSize backSize pair [byte] rest client back
    (List.cons_ne_nil byte []) (Nat.le_add_left 1 2047)
  have room := empty.backRoom
  rw [back, List.length_append] at room
  refine ⟨_, ⟨⟨total, reached.next stepped⟩, ⟨empty.stdin, empty.forward, empty.server,
    empty.forwardRoom, Nat.le_of_add_left_le room⟩, ?_⟩, rfl⟩
  dsimp only
  rw [sent, List.length_append, List.length_singleton, Nat.add_assoc, Nat.add_comm 1]

/-- A line leaves one more byte on its way while there is room for it. -/
theorem Owed.line
    {owed : Nat} (state : Owed forwardSize backSize (lines + 1) owed pair)
    (client : pair.client = .fgets) (forwardRoom : 0 < forwardSize) (backRoom : 0 < backSize)
    (few : owed + 1 ≤ forwardSize + backSize) :
    ∃ after, Owed forwardSize backSize lines (owed + 1) after ∧ after.client = .fgets := by
  obtain ⟨pair, state, sending, _⟩ := state.read client
  obtain ⟨pair, state, same, settled⟩ := state.settle
  have room : pair.forward.length < forwardSize := by
    rcases state.settled settled with ⟨forward, _⟩ | ⟨_, counted, _⟩
    · rw [forward]
      exact forwardRoom
    · omega
  obtain ⟨pair, state, sending, _⟩ := state.send room (same.trans sending) (.inl rfl)
  obtain ⟨pair, state, same, settled⟩ := state.settle
  have room : pair.forward.length < forwardSize := by
    rcases state.settled settled with ⟨forward, _⟩ | ⟨_, counted, _⟩
    · rw [forward]
      exact forwardRoom
    · omega
  obtain ⟨pair, state, receiving, _⟩ := state.send room (same.trans sending) (.inr rfl)
  obtain ⟨pair, state, same, settled⟩ := state.settle
  have arrived : pair.back ≠ [] := by
    apply List.length_pos_iff.mp
    rcases state.settled settled with ⟨_, back⟩ | ⟨back, _⟩ <;> omega
  exact state.recv (same.trans receiving) arrived

theorem exists_owed
    (forwardRoom : 0 < forwardSize) (backRoom : 0 < backSize) (lines owed : Nat)
    (few : owed ≤ forwardSize + backSize) :
    ∃ pair, Owed forwardSize backSize lines owed pair ∧ pair.client = .fgets := by
  induction owed generalizing lines with
  | zero =>
      refine ⟨connected (List.replicate lines 10), ⟨⟨lines, [], .start rfl⟩,
        ⟨rfl, nofun, .inl rfl, Nat.zero_le _, Nat.zero_le _⟩, rfl⟩, rfl⟩
  | succ owed inductionHypothesis =>
      obtain ⟨pair, state, client⟩ := inductionHypothesis (lines + 1) (Nat.le_of_succ_le few)
      exact state.line client forwardRoom backRoom few

/-- Whatever room there is in both directions, some input and some pieces end
with client and handler in `send` for ever. -/
theorem echo_pair_jams
    (forwardSize backSize : Nat) (forwardRoom : 0 < forwardSize) (backRoom : 0 < backSize) :
    ∃ input history pair, PairRun forwardSize backSize input history pair ∧
      pair.Jammed forwardSize backSize ∧ Final (Step forwardSize backSize) pair := by
  obtain ⟨pair, state, client⟩ := exists_owed forwardRoom backRoom 1 (forwardSize + backSize)
    (Nat.le_refl _)
  obtain ⟨pair, state, same, settled⟩ := state.settle
  have within := state.empty.backRoom
  rcases state.settled settled with ⟨_, all⟩ | ⟨full, counted, byte, server⟩
  · omega
  · obtain ⟨pair', state, sending, forward, server', back⟩ := state.read (same.trans client)
    have room : pair'.forward.length < forwardSize := by
      rw [forward]
      omega
    obtain ⟨jammed, state, client, forward', server'', back'⟩ :=
      state.send room sending (.inl rfl)
    obtain ⟨⟨total, history, run⟩, _, _⟩ := state
    have blocked : jammed.Jammed forwardSize backSize := by
      refine ⟨⟨[0], client⟩, ⟨[byte], (server''.trans server').trans server⟩, ?_, ?_⟩
      · rw [forward', forward]
        omega
      · rw [back', back, full]
    exact ⟨_, history, jammed, run, blocked, Pair.final (.inr blocked)⟩

theorem echo_pair_jams_one_byte :
    ∃ input history pair, PairRun 1 1 input history pair ∧ pair.Jammed 1 1 ∧
      Final (Step 1 1) pair :=
  echo_pair_jams 1 1 (by decide) (by decide)

end Runs

end EchoServer

end Tpt
