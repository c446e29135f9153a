import Tpt.HimProxy.Receiving

/-!
Whether the listed requests outlive the block that they point into.

`alloc_client_buf` calls `realloc` before every `recv`, and `req_buf` is not
adjusted when the block moves.
-/

namespace Tpt

namespace HimProxy

open Memory

def requestText (received : List UInt8) (request : Ptr × Int) : List UInt8 :=
  (received.drop request.1.offset).take request.2.toNat

/-- A block that `realloc` returns while requests are listed is the old one. -/
def KeepsBlock (conn : Connection) : ConnEvent → Prop
  | .realloc (some (block, _)) => conn.info.currReq ≠ none → conn.info.clientBuf = some block
  | _ => True

section Queue

variable (httpParseRequest : List UInt8 → ParseResult)

/-- The listed requests are the headers parsed so far; they point into the
client buffer and hold their headers, and printing them reads live memory. -/
def QueueValid (conn : Connection) : Prop :=
  ∃ requests entries, Listed conn requests ∧
    Tiles httpParseRequest conn.received 0 entries conn.info.clientBufParsedLen.toNat ∧
    requests.map requestSpan = entries.map headerSpan ∧
    (∀ request ∈ requests, conn.info.clientBuf = some request.1.block ∧
      conn.heap.read? request.1 request.2.toNat = some (requestText conn.received request)) ∧
    proxyRequestListPrint conn requests.length conn.info.currReq =
      some (requests.map (requestText conn.received))

def KeptRun : List ConnEvent → Connection → Prop :=
  Trace (fun conn => conn = Connection.start)
    (fun conn event after => connStep httpParseRequest conn event = some after ∧
      KeepsBlock conn event)

variable {httpParseRequest} {conn after : Connection} {history : List ConnEvent}

def Current (conn : Connection) : Prop :=
  ∃ requests, Listed conn requests ∧
    ∀ request ∈ requests, conn.info.clientBuf = some request.1.block

theorem current_start : Current Connection.start :=
  ⟨[], listed_start, fun _ member => absurd member List.not_mem_nil⟩

theorem current_cleanup (conn : Connection) : Current conn.cleanup := by
  obtain ⟨requests, listed, inside⟩ := current_start
  exact ⟨requests, listed.congr rfl rfl rfl, inside⟩

theorem Current.congr
    (current : Current conn) (nodes : after.nodes = conn.nodes)
    (currReq : after.info.currReq = conn.info.currReq)
    (lastReq : after.info.lastReq = conn.info.lastReq)
    (clientBuf : after.info.clientBuf = conn.info.clientBuf) : Current after := by
  obtain ⟨requests, listed, inside⟩ := current
  exact ⟨requests, listed.congr nodes currReq lastReq,
    fun request member => clientBuf.trans (inside request member)⟩

theorem Current.handled
    {calloc : Option Nat} {length : Nat} (current : Current conn)
    (handled : handleRequest calloc length conn = some after) : Current after := by
  obtain ⟨requests, listed, inside⟩ := current
  rcases handleRequest_cases listed handled with
    rfl | ⟨block, currReq, lastReq, nodes, client, rfl, listed'⟩
  · exact ⟨requests, listed, inside⟩
  · refine ⟨_, listed', ?_⟩
    intro request member
    rcases List.mem_append.mp member with before | new
    · exact inside request before
    · obtain rfl := List.mem_singleton.mp new
      exact client

theorem Current.step
    {event : ConnEvent} (current : Current conn)
    (stepped : ConnStep httpParseRequest conn event after) (kept : KeepsBlock conn event) :
    Current after := by
  cases stepped with
  | round _ => exact current.congr rfl rfl rfl rfl
  | allocFailed _ => exact current_cleanup conn
  | allocated _ _ _ _ =>
      obtain ⟨requests, listed, inside⟩ := current
      refine ⟨requests, listed.congr rfl rfl rfl, ?_⟩
      intro request member
      by_cases empty : conn.info.currReq = none
      · rw [listed.currReq_eq_none_iff.mp empty] at member
        cases member
      · exact (kept empty).symm.trans (inside request member)
  | interrupted _ => exact current.congr rfl rfl rfl rfl
  | again _ => exact current.congr rfl rfl rfl rfl
  | failed _ => exact current_cleanup conn
  | ended _ => exact current_cleanup conn
  | received _ _ _ _ _ => exact current.congr rfl rfl rfl rfl
  | parseError _ _ _ => exact current
  | handled _ _ _ handled => exact current.handled handled
  | incomplete _ _ _ => exact current.congr rfl rfl rfl rfl

theorem print_of_chain
    {link : Option Nat} {addresses : List Nat} {requests : List (Ptr × Int)}
    {text : Ptr × Int → List UInt8} (chain : Chain id (nodeNext conn.nodes) link addresses)
    (contents : addresses.map (nodeRequest conn.nodes) = requests.map some)
    (reads : ∀ request ∈ requests,
      conn.heap.read? request.1 request.2.toNat = some (text request)) :
    proxyRequestListPrint conn requests.length link = some (requests.map text) := by
  induction chain generalizing requests with
  | nil ends =>
      obtain rfl := List.map_eq_nil_iff.mp contents.symm
      obtain rfl := ends
      rfl
  | @cons link address next addresses enters follows _ inductionHypothesis =>
      obtain ⟨request, requests, rfl⟩ : ∃ request rest, requests = request :: rest :=
        List.exists_cons_of_ne_nil fun empty => by simp [empty] at contents
      obtain ⟨stored, later⟩ := List.cons.inj contents
      obtain ⟨node, live, rfl⟩ := Option.map_eq_some_iff.mp stored
      obtain rfl := enters
      have linked : node.next = next := by simpa [nodeNext, live] using follows
      have printed := inductionHypothesis later
        fun request member => reads request (List.mem_cons_of_mem _ member)
      have text := reads _ List.mem_cons_self
      simp only [List.length_cons, proxyRequestListPrint, live, Option.bind_some, text, linked,
        printed, Option.map_some, List.map_cons]

theorem Sound.queueValid
    (parser : Parser httpParseRequest) (sound : Sound httpParseRequest conn)
    (current : Current conn) : QueueValid httpParseRequest conn := by
  obtain ⟨entries, parsedLen, requests, position, tiles, listed, spans⟩ := sound.parsed
  obtain ⟨others, listed', inside⟩ := current
  obtain rfl := listed.unique listed'
  have reads : ∀ request ∈ requests, conn.info.clientBuf = some request.1.block ∧
      conn.heap.read? request.1 request.2.toNat = some (requestText conn.received request) := by
    intro request member
    have client := inside request member
    have holds := sound.holds
    rw [client] at holds
    have named : requestSpan request ∈ entries.map headerSpan := spans ▸ List.mem_map_of_mem member
    obtain ⟨entry, found, same⟩ := List.mem_map.mp named
    obtain ⟨offset, length⟩ := Prod.mk.inj same
    refine ⟨client, holds.read ?_⟩
    rw [← offset, ← length, Int.toNat_natCast]
    exact tiles.entry_le parser (Nat.zero_le _) found
  refine ⟨requests, entries, listed, ?_, spans, reads, ?_⟩
  · rwa [position, Int.toNat_natCast]
  · obtain ⟨addresses, linked⟩ := listed
    exact print_of_chain linked.chain linked.contents fun request member => (reads request member).2

theorem queueValid_cleanup (conn : Connection) : QueueValid httpParseRequest conn.cleanup :=
  ⟨[], [], listed_start.congr rfl rfl rfl, .nil, rfl,
    fun _ member => absurd member List.not_mem_nil, rfl⟩

/-- As long as the block does not move while requests are listed, they stay
valid. -/
theorem kept_block_keeps_queue
    (parser : Parser httpParseRequest) (run : KeptRun httpParseRequest history conn) :
    QueueValid httpParseRequest conn := by
  have invariant : Consistent httpParseRequest conn ∧ Current conn := by
    refine Trace.invariant
      (fun _ conn => Consistent httpParseRequest conn ∧ Current conn) ?_ ?_ run
    · intro state begins
      rw [begins]
      exact ⟨Or.inr (Sound.start parser), current_start⟩
    · intro history state event after before stepped
      exact ⟨before.1.step parser stepped.1,
        before.2.step (connStep_inversion stepped.1) stepped.2⟩
  obtain ⟨⟨earlier, rfl⟩ | sound, current⟩ := invariant
  · exact queueValid_cleanup earlier
  · exact sound.queueValid parser current

/-- A block that moves while requests are listed leaves them behind. -/
theorem moved_block_breaks_queue
    {block : Nat} {fill : Bytes} (valid : QueueValid httpParseRequest conn)
    (stepped : ConnStep httpParseRequest conn (.realloc (some (block, fill))) after)
    (queued : conn.info.currReq ≠ none) (moved : conn.info.clientBuf ≠ some block) :
    ¬ QueueValid httpParseRequest after := by
  obtain ⟨requests, _, listed, _, _, inside, _⟩ := valid
  cases stepped with
  | allocated _ _ _ _ =>
      intro validAfter
      obtain ⟨others, _, listedAfter, _, _, insideAfter, _⟩ := validAfter
      obtain rfl := (listed.congr rfl rfl rfl).unique listedAfter
      have nonempty : requests ≠ [] := mt listed.currReq_eq_none_iff.mpr queued
      obtain ⟨request, member⟩ := List.exists_mem_of_ne_nil requests nonempty
      exact moved ((inside request member).1.trans (insideAfter request member).1.symm)

end Queue

/-- A request is queued, the client buffer moves in the next round, and the
list is printed; newest event first. -/
def movedBuffer : List ConnEvent :=
  [.parse (some 1), .recv .again, .realloc (some (1, fun _ => 0)), .recv (.data [71, 69, 84]),
    .realloc (some (1, fun _ => 0)), .round,
    .parse (some 1), .parse (some 0), .recv .again, .realloc (some (0, fun _ => 0)),
    .recv (.data [71, 69, 84, 32, 47, 32, 72, 84, 84, 80, 47, 49, 46, 48, 13, 10, 13, 10]),
    .realloc (some (0, fun _ => 0)), .round]

theorem moved_buffer_dangles :
    ∃ conn, ConnRun headerEnd movedBuffer conn ∧ conn.control = .idle ∧
      ¬ QueueValid headerEnd conn ∧
      ∀ fuel, proxyRequestListPrint conn fuel conn.info.currReq = none := by
  obtain ⟨conn, replayed, facts⟩ := Option.map_eq_some_iff.mp
    (by decide : (replay (connStep headerEnd) movedBuffer Connection.start).map
      (fun conn => (conn.control, conn.info.currReq, conn.nodes 0, conn.heap.read? ⟨0, 0⟩ 18)) =
        some (.idle, some 0, some ⟨⟨0, 0⟩, 18, none⟩, none))
  simp only [Prod.mk.injEq] at facts
  obtain ⟨idle, currReq, node, dead⟩ := facts
  have prints : ∀ fuel, proxyRequestListPrint conn fuel conn.info.currReq = none := by
    intro fuel
    rw [currReq]
    cases fuel with
    | zero => rfl
    | succ fuel => simp [proxyRequestListPrint, node, dead]
  refine ⟨conn, Trace.of_replay rfl replayed, idle, ?_, prints⟩
  intro valid
  obtain ⟨requests, entries, _, _, _, _, printed⟩ := valid
  cases (prints requests.length).symm.trans printed

def keptBuffer : List ConnEvent :=
  [.realloc (some (0, fun _ => 0)), .round, .parse (some 1), .parse (some 0), .recv .again,
    .realloc (some (0, fun _ => 0)),
    .recv (.data [71, 69, 84, 32, 47, 32, 72, 84, 84, 80, 47, 49, 46, 48, 13, 10, 13, 10]),
    .realloc (some (0, fun _ => 0)), .round]

theorem kept_block_keeps_queue_second_round :
    ∃ conn, KeptRun headerEnd keptBuffer conn ∧ QueueValid headerEnd conn := by
  have round : KeptRun headerEnd [.round] _ := .next (.start rfl) ⟨rfl, trivial⟩
  have allocated : KeptRun headerEnd (keptBuffer.drop 7) _ :=
    .next round ⟨rfl, fun listed => absurd rfl listed⟩
  have received : KeptRun headerEnd (keptBuffer.drop 6) _ := .next allocated ⟨rfl, trivial⟩
  have reallocated : KeptRun headerEnd (keptBuffer.drop 5) _ :=
    .next received ⟨rfl, fun listed => absurd rfl listed⟩
  have parsing : KeptRun headerEnd (keptBuffer.drop 4) _ := .next reallocated ⟨rfl, trivial⟩
  have queued : KeptRun headerEnd (keptBuffer.drop 3) _ := .next parsing ⟨rfl, trivial⟩
  have parsed : KeptRun headerEnd (keptBuffer.drop 2) _ := .next queued ⟨rfl, trivial⟩
  have secondRound : KeptRun headerEnd (keptBuffer.drop 1) _ := .next parsed ⟨rfl, trivial⟩
  have kept : KeptRun headerEnd keptBuffer _ := .next secondRound ⟨rfl, fun _ => rfl⟩
  exact ⟨_, kept, kept_block_keeps_queue parser_headerEnd kept⟩

end HimProxy

end Tpt
