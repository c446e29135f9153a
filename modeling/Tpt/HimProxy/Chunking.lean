import Tpt.HimProxy.Receiving

/-!
The requests of a connection do not depend on how the kernel cuts its stream
into pieces and rounds, and a run in which no call fails can always go on.
-/

namespace Tpt

namespace HimProxy

open Memory

def clientBytes (conn : Connection) : Option (List UInt8) :=
  match conn.info.clientBuf with
  | some block => conn.heap.read? ⟨block, 0⟩ conn.info.clientBufCurrLen.toNat
  | none => some []

/-- No allocation fails, and the client neither fails nor closes. -/
def Smooth : ConnEvent → Prop
  | .round => True
  | .realloc result => result ≠ none
  | .recv .failed => False
  | .recv (.data bytes) => bytes ≠ []
  | .recv _ => True
  | .parse calloc => calloc ≠ none

section Chunks

variable (httpParseRequest : List UInt8 → ParseResult)

structure Settled (conn : Connection) : Prop where
  bytes : clientBytes conn = some conn.received
  currLen : conn.info.clientBufCurrLen = conn.received.length
  nonnegative : 0 ≤ conn.info.clientBufParsedLen
  parsed : conn.info.clientBufParsedLen ≤ conn.info.clientBufCurrLen
  fits : conn.info.clientBufCurrLen ≤ conn.info.clientBufSize
  tiles : Tiles httpParseRequest conn.received 0 (headers httpParseRequest conn.received)
    conn.info.clientBufParsedLen.toNat
  listed : ∃ requests, Listed conn requests ∧
    requests.map requestSpan = (headers httpParseRequest conn.received).map headerSpan

/-- The parser does not report an error behind complete headers. -/
def ErrorFree (stream : List UInt8) : Prop :=
  ∀ entries last, Tiles httpParseRequest stream 0 entries last →
    httpParseRequest (stream.drop last) ≠ .error

/-- Whatever a successful call answers, the run goes on; the turns of
`parse_request_buffer` end after at most one for every byte left. -/
structure GoesOn (history : List ConnEvent) (conn : Connection) : Prop where
  stays : conn.control ≠ .closed
  round : conn.control = .idle → ∃ after, ConnRun httpParseRequest (.round :: history) after
  realloc : conn.control = .alloc → ∀ block fill,
    conn.info.clientBuf = some block ∨ conn.heap block = none →
    ∃ after remLen, ConnRun httpParseRequest (.realloc (some (block, fill)) :: history) after ∧
      after.control = .recv remLen
  interrupted : ∀ remLen, conn.control = .recv remLen →
    ∃ after, ConnRun httpParseRequest (.recv .interrupted :: history) after ∧
      after.control = .alloc
  again : ∀ remLen, conn.control = .recv remLen →
    ∃ after, ConnRun httpParseRequest (.recv .again :: history) after ∧ after.control = .parse
  recv : ∀ remLen, conn.control = .recv remLen → ∀ bytes : List UInt8, bytes ≠ [] →
    bytes.length ≤ remLen →
    ∃ after, ConnRun httpParseRequest (.recv (.data bytes) :: history) after ∧
      after.control = .alloc ∧ after.received = conn.received ++ bytes
  parse : conn.control = .parse → ∀ supply : List Nat, supply.Nodup →
    (∀ node ∈ supply, conn.nodes node = none) →
    conn.info.clientBufCurrLen - conn.info.clientBufParsedLen < supply.length →
    ∃ used after, used <+: supply ∧
      ConnRun httpParseRequest
        ((used.map fun node => ConnEvent.parse (some node)).reverse ++ history) after ∧
      after.control = .idle ∧ after.received = conn.received

variable {httpParseRequest} {conn after : Connection} {history : List ConnEvent}

theorem Holds.length_le
    {heap : Heap} {received : List UInt8} {clientBuf : Option Nat} {size : Int}
    (holds : Holds heap received clientBuf size) : received.length ≤ size := by
  cases holds with
  | empty nothing => simp [nothing]
  | block _ _ _ fits _ => exact Int.ofNat_le.mpr fits

theorem Sound.settled
    (parser : Parser httpParseRequest) (sound : Sound httpParseRequest conn)
    (idle : conn.control = .idle) : Settled httpParseRequest conn := by
  obtain ⟨entries, parsedLen, requests, position, tiles, listed, spans⟩ := sound.parsed
  have ends : ∀ length, httpParseRequest (conn.received.drop parsedLen) ≠ .complete length := by
    have atControl := sound.control
    rwa [AtControl, idle, position, Int.toNat_natCast] at atControl
  have all : headers httpParseRequest conn.received = entries := tiles.eq_headers parser ends
  have inside : parsedLen ≤ conn.received.length := tiles.last_le parser (Nat.zero_le _)
  have holds := sound.holds
  refine ⟨?_, sound.currLen, ?_, ?_, ?_, ?_, requests, listed, ?_⟩
  · unfold clientBytes
    rw [sound.currLen, Int.toNat_natCast]
    cases client : conn.info.clientBuf with
    | none =>
        rw [client] at holds
        generalize conn.info.clientBufSize = size at holds
        cases holds with
        | empty nothing => rw [nothing]
    | some id =>
        rw [client] at holds
        refine (holds.read (Nat.zero_add _).le).trans ?_
        rw [List.drop_zero, List.take_length]
  · rw [position]
    exact Int.natCast_nonneg parsedLen
  · rw [position, sound.currLen]
    exact Int.ofNat_le.mpr inside
  · rw [sound.currLen]
    exact holds.length_le
  · rw [all, position, Int.toNat_natCast]
    exact tiles
  · rw [all, spans]

theorem ConnStep.stays
    {event : ConnEvent} (stepped : ConnStep httpParseRequest conn event after)
    (smooth : Smooth event) : after.control ≠ .closed := by
  cases stepped with
  | round _ => exact Control.noConfusion
  | allocFailed _ => exact absurd rfl smooth
  | allocated _ _ _ _ => exact Control.noConfusion
  | interrupted _ => exact Control.noConfusion
  | again _ => exact Control.noConfusion
  | failed _ => cases smooth
  | ended _ => exact absurd rfl smooth
  | received _ _ _ _ _ => exact Control.noConfusion
  | parseError control _ _ =>
      rw [control]
      exact Control.noConfusion
  | handled control _ _ handled =>
      rw [handleRequest_control handled, control]
      exact Control.noConfusion
  | incomplete _ _ _ => exact Control.noConfusion

theorem ConnRun.stays
    (run : ConnRun httpParseRequest history conn) (smooth : ∀ event ∈ history, Smooth event) :
    conn.control ≠ .closed := by
  cases run with
  | start begins =>
      rw [begins]
      exact Control.noConfusion
  | next _ stepped => exact (connStep_inversion stepped).stays (smooth _ List.mem_cons_self)

theorem Sound.parsedLen_le
    (parser : Parser httpParseRequest) (sound : Sound httpParseRequest conn) :
    conn.info.clientBufParsedLen ≤ conn.info.clientBufCurrLen := by
  obtain ⟨entries, parsedLen, _, position, tiles, _, _⟩ := sound.parsed
  rw [position, sound.currLen]
  exact Int.ofNat_le.mpr (tiles.last_le parser (Nat.zero_le _))

theorem ConnRun.open_sound
    (parser : Parser httpParseRequest) (run : ConnRun httpParseRequest history conn)
    (stays : conn.control ≠ .closed) : Sound httpParseRequest conn := by
  rcases run.consistent parser with ⟨earlier, rfl⟩ | sound
  · exact absurd rfl stays
  · exact sound

theorem ConnRun.parse_ends
    {supply : List Nat} (parser : Parser httpParseRequest)
    (run : ConnRun httpParseRequest history conn) (control : conn.control = .parse)
    (errorFree : ErrorFree httpParseRequest conn.received) (distinct : supply.Nodup)
    (unused : ∀ node ∈ supply, conn.nodes node = none)
    (enough : conn.info.clientBufCurrLen - conn.info.clientBufParsedLen < supply.length) :
    ∃ used after, used <+: supply ∧
      ConnRun httpParseRequest
        ((used.map fun node => ConnEvent.parse (some node)).reverse ++ history) after ∧
      after.control = .idle ∧ after.received = conn.received := by
  induction supply generalizing conn history with
  | nil =>
      have sound := run.open_sound parser (control ▸ Control.noConfusion)
      have inside := sound.parsedLen_le parser
      simp only [List.length_nil, Nat.cast_zero] at enough
      omega
  | cons node supply inductionHypothesis =>
      have sound := run.open_sound parser (control ▸ Control.noConfusion)
      obtain ⟨nodeOutside, distinct⟩ := List.nodup_cons.mp distinct
      obtain ⟨entries, parsedLen, requests, position, tiles, listed, spans⟩ := sound.parsed
      have allocated := sound.parsing control
      have given := sound.unparsed parser allocated position tiles
      cases parsed : httpParseRequest (conn.received.drop parsedLen) with
      | error => exact absurd parsed (errorFree entries parsedLen tiles)
      | incomplete =>
          have turn : ConnStep httpParseRequest conn (.parse (some node)) _ :=
            .incomplete control given parsed
          exact ⟨[node], _, ⟨supply, rfl⟩, .next run turn.connStep, rfl, rfl⟩
      | complete length =>
          obtain ⟨block, client⟩ := Option.ne_none_iff_exists'.mp allocated
          obtain ⟨passed, handled, ⟨currReq, lastReq, nodes, rfl⟩, unchanged, _⟩ :=
            handleRequest_spec listed (unused node List.mem_cons_self) client length
          have turn := ConnStep.handled control given parsed handled
          have positive := (parser.inside _ _ parsed).1
          have left : conn.info.clientBufCurrLen - (conn.info.clientBufParsedLen + length) <
              supply.length := by
            rw [List.length_cons] at enough
            omega
          obtain ⟨used, after, isPrefix, continued, idle, received⟩ :=
            inductionHypothesis (.next run turn.connStep) control errorFree distinct
              (fun other member => unchanged other
                (fun same => nodeOutside (same ▸ member))
                (unused other (List.mem_cons_of_mem node member))) left
          refine ⟨node :: used, after, ?_, ?_, idle, received⟩
          · exact List.cons_prefix_cons.mpr ⟨rfl, isPrefix⟩
          · rwa [List.map_cons, List.reverse_cons, List.append_assoc]

theorem ConnRun.goes_on
    (parser : Parser httpParseRequest) (run : ConnRun httpParseRequest history conn)
    (smooth : ∀ event ∈ history, Smooth event) (short : conn.received.length ≤ 2 ^ 29)
    (errorFree : ErrorFree httpParseRequest conn.received) :
    GoesOn httpParseRequest history conn := by
  have stays := run.stays smooth
  have sound := run.open_sound parser stays
  refine ⟨stays, ?_, ?_, ?_, ?_, ?_, ?_⟩
  · intro idle
    exact ⟨_, .next run (ConnStep.round idle).connStep⟩
  · intro control block fill available
    obtain ⟨size, remLen, request⟩ :
        ∃ size remLen, clientBufRequest conn.info = (size, remLen) := ⟨_, _, rfl⟩
    have nonnegative := sound.clientBufRequest_nonneg request short
    have step : ConnStep httpParseRequest conn (.realloc (some (block, fill))) _ :=
      .allocated control request nonnegative available
    exact ⟨_, remLen, .next run step.connStep, rfl⟩
  · intro remLen control
    exact ⟨_, .next run (ConnStep.interrupted control).connStep, rfl⟩
  · intro remLen control
    exact ⟨_, .next run (ConnStep.again control).connStep, rfl⟩
  · intro remLen control bytes nonempty fits
    obtain ⟨id, client⟩ := Option.ne_none_iff_exists'.mp (sound.receiving control).1
    obtain ⟨heap, write, _⟩ := sound.write control fits client
    exact ⟨_, .next run (ConnStep.received control nonempty fits client write).connStep, rfl, rfl⟩
  · intro control supply distinct unused enough
    exact run.parse_ends parser control errorFree distinct unused enough

/-- Every `recv` asks for some bytes; after any rounds the buffer holds the
stream and the list names its headers, however the stream was cut; and while no
call fails, a stream of up to 2^29 bytes can always be received and parsed. -/
theorem chunking_independent
    (parser : Parser httpParseRequest) (run : ConnRun httpParseRequest history conn) :
    (∀ remLen, conn.control = .recv remLen → 0 < remLen) ∧
      (conn.control = .idle → Settled httpParseRequest conn) ∧
      (∀ otherHistory other requests others, ConnRun httpParseRequest otherHistory other →
        conn.control = .idle → other.control = .idle → other.received = conn.received →
        Listed conn requests → Listed other others →
        others.map requestSpan = requests.map requestSpan) ∧
      ((∀ event ∈ history, Smooth event) → conn.received.length ≤ 2 ^ 29 →
        ErrorFree httpParseRequest conn.received → GoesOn httpParseRequest history conn) := by
  have settled : ∀ {history conn}, ConnRun httpParseRequest history conn →
      conn.control = .idle → Settled httpParseRequest conn := by
    intro history conn run idle
    exact (run.open_sound parser (idle ▸ Control.noConfusion)).settled parser idle
  refine ⟨?_, settled run, ?_, run.goes_on parser⟩
  · intro remLen control
    exact ((run.open_sound parser (control ▸ Control.noConfusion)).receiving control).2.2
  · intro otherHistory other requests others otherRun idle otherIdle same listed otherListed
    obtain ⟨requests', listed', spans⟩ := (settled run idle).listed
    obtain ⟨others', otherListed', otherSpans⟩ := (settled otherRun otherIdle).listed
    rw [listed.unique listed', otherListed.unique otherListed', spans, otherSpans, same]

end Chunks

def twoPieces : List ConnEvent :=
  [.parse (some 1), .parse (some 0), .recv .again, .realloc (some (0, fun _ => 0)),
    .recv (.data [84, 84, 80, 47, 49, 46, 48, 13, 10, 13, 10]),
    .realloc (some (0, fun _ => 0)), .round,
    .parse (some 0), .recv .again, .realloc (some (0, fun _ => 0)),
    .recv (.data [71, 69, 84, 32, 47, 32, 72]), .realloc (some (0, fun _ => 0)), .round]

theorem chunking_independent_two_pieces :
    ∃ conn, ConnRun headerEnd twoPieces conn ∧ Settled headerEnd conn ∧
      GoesOn headerEnd twoPieces conn := by
  obtain ⟨conn, replayed, facts⟩ := Option.map_eq_some_iff.mp
    (by decide : (replay (connStep headerEnd) twoPieces Connection.start).map
      (fun conn => (conn.control, conn.received.length)) = some (.idle, 18))
  obtain ⟨idle, length⟩ := Prod.mk.inj facts
  have run : ConnRun headerEnd twoPieces conn := Trace.of_replay rfl replayed
  obtain ⟨_, settled, _, goesOn⟩ := chunking_independent parser_headerEnd run
  refine ⟨conn, run, settled idle, goesOn ?_ ?_ ?_⟩
  · simp [twoPieces, Smooth]
  · rw [length]
    decide
  · intro entries last _
    exact headerEndFrom_ne_error _ 0

end HimProxy

end Tpt
