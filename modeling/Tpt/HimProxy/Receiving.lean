import Tpt.HimProxy.RequestList

/-!
What holds of an open connection at every point of a round: the buffer, the
parse position and the request list are determined by the bytes received.
-/

namespace Tpt

namespace HimProxy

open Memory

/-- The client buffer of the given size begins with the received bytes. -/
inductive Holds (heap : Heap) (received : List UInt8) : Option Nat → Int → Prop where
  | empty : received = [] → Holds heap received none 0
  | block {id block} :
      heap id = some block →
      requestBufSize ≤ block.size →
      (block.size : Int) < 2 ^ 31 →
      received.length ≤ block.size →
      slice block.bytes 0 received.length = received →
      Holds heap received (some id) block.size

def requestSpan (request : Ptr × Int) : Nat × Int := (request.1.offset, request.2)

def headerSpan (header : Nat × Nat) : Nat × Int := (header.1, header.2)

section Rounds

variable {httpParseRequest : List UInt8 → ParseResult} {conn after : Connection}

def AtControl (httpParseRequest : List UInt8 → ParseResult) (conn : Connection) : Prop :=
  match conn.control with
  | .idle => ∀ length,
      httpParseRequest (conn.received.drop conn.info.clientBufParsedLen.toNat) ≠ .complete length
  | .recv remLen => conn.info.clientBuf ≠ none ∧
      remLen = conn.info.clientBufSize - conn.info.clientBufCurrLen ∧ 0 < remLen
  | .parse => conn.info.clientBuf ≠ none
  | _ => True

/-- The request list names the headers that end at the parse position. -/
def Parsed (httpParseRequest : List UInt8 → ParseResult) (conn : Connection) : Prop :=
  ∃ headers parsedLen requests, conn.info.clientBufParsedLen = (parsedLen : Nat) ∧
    Tiles httpParseRequest conn.received 0 headers parsedLen ∧
    Listed conn requests ∧ requests.map requestSpan = headers.map headerSpan

structure Sound (httpParseRequest : List UInt8 → ParseResult) (conn : Connection) : Prop where
  currLen : conn.info.clientBufCurrLen = conn.received.length
  holds : Holds conn.heap conn.received conn.info.clientBuf conn.info.clientBufSize
  grown : conn.info.clientBufSize ≤ requestBufSize ∨
    conn.info.clientBufSize < 2 * (conn.received.length + reallocLimit)
  parsed : Parsed httpParseRequest conn
  control : AtControl httpParseRequest conn

theorem Sound.start (parser : Parser httpParseRequest) :
    Sound httpParseRequest Connection.start := by
  refine ⟨rfl, .empty rfl, Or.inl (by decide), ⟨[], 0, [], rfl, .nil, listed_start, rfl⟩, ?_⟩
  intro length complete
  obtain ⟨positive, fits⟩ := parser.inside _ _ complete
  exact absurd (Nat.le_trans positive fits) (by decide)

/-- Doubling a buffer size overflows from 2^30 bytes on, and the result is then
negative. -/
theorem int32_double
    {size : Int} (nonnegative : 0 ≤ size) (bounded : size < 2 ^ 31) :
    (size < 2 ^ 30 ∧ int32 (size * 2) = size * 2) ∨
      (2 ^ 30 ≤ size ∧ int32 (size * 2) < 0) := by
  simp only [int32, Int.bmod]
  split
  · omega
  · omega

/-- `alloc_client_buf` asks for a first buffer, for twice the size when little
room is left, and for the same size else. -/
theorem Sound.clientBufRequest_cases
    {size remLen : Int} (sound : Sound httpParseRequest conn)
    (request : clientBufRequest conn.info = (size, remLen)) :
    remLen = size - conn.received.length ∧
      ((conn.info.clientBufSize = 0 ∧ conn.received.length = 0 ∧ size = requestBufSize) ∨
        (requestBufSize ≤ conn.info.clientBufSize ∧ conn.info.clientBufSize < 2 ^ 31 ∧
          ((conn.info.clientBufSize < conn.received.length + reallocLimit ∧
              conn.received.length ≤ conn.info.clientBufSize ∧
              size = int32 (conn.info.clientBufSize * 2)) ∨
            (conn.received.length + reallocLimit ≤ conn.info.clientBufSize ∧
              size = conn.info.clientBufSize)))) := by
  have holds := sound.holds
  simp only [clientBufRequest, sound.currLen] at request
  generalize conn.info.clientBuf = clientBuf at holds request
  generalize conn.info.clientBufSize = bufSize at holds request ⊢
  cases holds with
  | empty nothing =>
      obtain ⟨rfl, rfl⟩ := Prod.mk.inj request
      rw [nothing]
      exact ⟨rfl, Or.inl ⟨rfl, rfl, rfl⟩⟩
  | @block id block live least bounded fits _ =>
      have positive : (block.size : Int) ≠ 0 := by
        unfold requestBufSize at least
        omega
      rw [if_neg positive] at request
      split at request
      · obtain ⟨rfl, rfl⟩ := Prod.mk.inj request
        exact ⟨rfl, Or.inr ⟨least, bounded, Or.inl ⟨by omega, Int.ofNat_le.mpr fits, rfl⟩⟩⟩
      case isFalse roomy =>
        obtain ⟨rfl, rfl⟩ := Prod.mk.inj request
        simp only [ne_eq, reduceCtorEq, not_false_eq_true, and_true] at roomy
        exact ⟨rfl, Or.inr ⟨least, bounded, Or.inr ⟨by omega, rfl⟩⟩⟩

theorem Sound.clientBufRequest_spec
    {size remLen : Int} (sound : Sound httpParseRequest conn)
    (request : clientBufRequest conn.info = (size, remLen)) (nonnegative : 0 ≤ size) :
    requestBufSize ≤ size ∧ size < 2 ^ 31 ∧ conn.info.clientBufSize ≤ size ∧
      conn.received.length < size ∧
      (size ≤ requestBufSize ∨ size < 2 * (conn.received.length + reallocLimit)) := by
  have grown := sound.grown
  obtain ⟨_, first | ⟨least, bounded, doubled | same⟩⟩ := sound.clientBufRequest_cases request
  · unfold requestBufSize at *
    omega
  · have double := int32_double (Int.le_trans (by decide) least) bounded
    unfold requestBufSize reallocLimit at *
    omega
  · unfold requestBufSize reallocLimit at *
    omega

/-- Up to 2^29 bytes the size does not overflow. -/
theorem Sound.clientBufRequest_nonneg
    {size remLen : Int} (sound : Sound httpParseRequest conn)
    (request : clientBufRequest conn.info = (size, remLen))
    (short : conn.received.length ≤ 2 ^ 29) : 0 ≤ size := by
  obtain ⟨_, first | ⟨least, bounded, doubled | same⟩⟩ := sound.clientBufRequest_cases request
  · unfold requestBufSize at first
    omega
  · have double := int32_double (Int.le_trans (by decide) least) bounded
    unfold requestBufSize reallocLimit at *
    omega
  · unfold requestBufSize at least
    omega

theorem Parsed.congr
    (parsed : Parsed httpParseRequest conn) (received : after.received = conn.received)
    (parsedLen : after.info.clientBufParsedLen = conn.info.clientBufParsedLen)
    (nodes : after.nodes = conn.nodes) (currReq : after.info.currReq = conn.info.currReq)
    (lastReq : after.info.lastReq = conn.info.lastReq) : Parsed httpParseRequest after := by
  obtain ⟨headers, last, requests, position, tiles, listed, spans⟩ := parsed
  exact ⟨headers, last, requests, parsedLen.trans position, received ▸ tiles,
    listed.congr nodes currReq lastReq, spans⟩

theorem Parsed.append
    (parser : Parser httpParseRequest) (parsed : Parsed httpParseRequest conn)
    (more : List UInt8) (received : after.received = conn.received ++ more)
    (parsedLen : after.info.clientBufParsedLen = conn.info.clientBufParsedLen)
    (nodes : after.nodes = conn.nodes) (currReq : after.info.currReq = conn.info.currReq)
    (lastReq : after.info.lastReq = conn.info.lastReq) : Parsed httpParseRequest after := by
  obtain ⟨headers, last, requests, position, tiles, listed, spans⟩ := parsed
  refine ⟨headers, last, requests, parsedLen.trans position, ?_,
    listed.congr nodes currReq lastReq, spans⟩
  rw [received]
  exact tiles.append parser (Nat.zero_le _) more

theorem Sound.round
    (sound : Sound httpParseRequest conn) :
    Sound httpParseRequest { conn with control := .alloc } where
  currLen := sound.currLen
  holds := sound.holds
  grown := sound.grown
  parsed := sound.parsed.congr rfl rfl rfl rfl rfl
  control := trivial

theorem Holds.bounds
    {heap : Heap} {received : List UInt8} {clientBuf : Option Nat} {size : Int}
    (holds : Holds heap received clientBuf size) (allocated : size ≠ 0) :
    clientBuf ≠ none ∧ requestBufSize ≤ size ∧ size < 2 ^ 31 ∧ received.length ≤ size := by
  cases holds with
  | empty _ => exact absurd rfl allocated
  | block _ least bounded fits _ =>
      exact ⟨Option.some_ne_none _, least, bounded, Int.ofNat_le.mpr fits⟩

theorem Holds.unset
    {heap : Heap} {received : List UInt8} {clientBuf : Option Nat} {size : Int}
    (holds : Holds heap received clientBuf size) (unset : size = 0) :
    clientBuf = none ∧ received = [] := by
  cases holds with
  | empty nothing => exact ⟨rfl, nothing⟩
  | block _ least _ _ _ => exact absurd (unset ▸ least) (by decide)

theorem Holds.reallocate
    {heap : Heap} {received : List UInt8} {clientBuf : Option Nat} {bufSize : Int} {size : Nat}
    (holds : Holds heap received clientBuf bufSize) (least : requestBufSize ≤ size)
    (bounded : (size : Int) < 2 ^ 31) (grows : bufSize ≤ size) (block : Nat) (fill : Bytes) :
    Holds (heap.reallocate clientBuf block size fill) received (some block) size := by
  cases holds with
  | empty nothing =>
      rw [nothing]
      exact .block (Heap.reallocate_none heap block size fill) least bounded
        (Nat.zero_le size) rfl
  | block live _ _ fits held =>
      obtain ⟨bytes, allocated, kept⟩ := Heap.reallocate_some live block size fill
      refine .block allocated least bounded (Nat.le_trans fits (Int.ofNat_le.mp grows)) ?_
      exact (kept _ fits).trans held

theorem Sound.allocated
    {size remLen : Int} {block : Nat} (fill : Bytes) (sound : Sound httpParseRequest conn)
    (request : clientBufRequest conn.info = (size, remLen)) (nonnegative : 0 ≤ size) :
    Sound httpParseRequest { conn with
      control := .recv remLen
      info := { conn.info with clientBuf := some block, clientBufSize := size }
      heap := conn.heap.reallocate conn.info.clientBuf block size.toNat fill } := by
  obtain ⟨least, bounded, grows, space, grown⟩ := sound.clientBufRequest_spec request nonnegative
  have rest := (sound.clientBufRequest_cases request).1
  obtain ⟨size, rfl⟩ := Int.eq_ofNat_of_zero_le nonnegative
  refine ⟨sound.currLen, sound.holds.reallocate least bounded grows _ _, grown, ?_, ?_⟩
  · exact sound.parsed.congr rfl rfl rfl rfl rfl
  · refine ⟨Option.some_ne_none _, ?_, ?_⟩
    · rw [rest, sound.currLen]
    · rw [rest]
      exact Int.sub_pos_of_lt space

theorem Holds.read
    {heap : Heap} {received : List UInt8} {id offset length : Nat} {size : Int}
    (holds : Holds heap received (some id) size) (inside : offset + length ≤ received.length) :
    heap.read? ⟨id, offset⟩ length = some ((received.drop offset).take length) := by
  cases holds with
  | @block _ block live _ _ fits held =>
      have dropped : received.drop offset =
          slice block.bytes (0 + offset) (received.length - offset) := by
        rw [← drop_slice _ (Nat.le_of_add_right_le inside), held]
      rw [Heap.read?_of_live live (Nat.le_trans inside fits), dropped, Nat.zero_add,
        take_slice _ (Nat.le_sub_of_add_le' inside)]

theorem Holds.write
    {heap : Heap} {received bytes : List UInt8} {id : Nat} {size : Int}
    (holds : Holds heap received (some id) size) (fits : received.length + bytes.length ≤ size) :
    ∃ heap', heap.write? ⟨id, received.length⟩ bytes = some heap' ∧
      Holds heap' (received ++ bytes) (some id) size := by
  cases holds with
  | @block _ block live least bounded _ held =>
      have inside : received.length + bytes.length ≤ block.size := Int.ofNat_le.mp fits
      refine ⟨_, Heap.write?_of_live live inside, ?_⟩
      refine @Holds.block _ _ _ { block with bytes := overlay block.bytes received.length bytes }
        (Function.update_self ..) least bounded (by rwa [List.length_append]) ?_
      rw [List.length_append, slice_overlay_append, held]

theorem Sound.receiving
    {remLen : Int} (sound : Sound httpParseRequest conn) (control : conn.control = .recv remLen) :
    conn.info.clientBuf ≠ none ∧
      remLen = conn.info.clientBufSize - conn.info.clientBufCurrLen ∧ 0 < remLen := by
  have atControl := sound.control
  rwa [AtControl, control] at atControl

theorem Sound.parsing
    (sound : Sound httpParseRequest conn) (control : conn.control = .parse) :
    conn.info.clientBuf ≠ none := by
  have atControl := sound.control
  rwa [AtControl, control] at atControl

/-- What `recv` returns fits behind the bytes already held. -/
theorem Sound.write
    {remLen : Int} {block : Nat} {bytes : List UInt8} (sound : Sound httpParseRequest conn)
    (control : conn.control = .recv remLen) (fits : bytes.length ≤ remLen)
    (client : conn.info.clientBuf = some block) :
    ∃ heap, conn.heap.write? ⟨block, conn.info.clientBufCurrLen.toNat⟩ bytes = some heap ∧
      Holds heap (conn.received ++ bytes) (some block) conn.info.clientBufSize := by
  have currLen := sound.currLen
  have holds := sound.holds
  have rest := (sound.receiving control).2.1
  rw [client] at holds
  have room : conn.received.length + bytes.length ≤ conn.info.clientBufSize := by omega
  rw [currLen, Int.toNat_natCast]
  exact holds.write room

theorem Sound.received
    {remLen : Int} {block : Nat} {heap : Heap} {bytes : List UInt8}
    (parser : Parser httpParseRequest) (sound : Sound httpParseRequest conn)
    (control : conn.control = .recv remLen) (fits : bytes.length ≤ remLen)
    (client : conn.info.clientBuf = some block)
    (write : conn.heap.write? ⟨block, conn.info.clientBufCurrLen.toNat⟩ bytes = some heap) :
    Sound httpParseRequest { conn with
      control := .alloc
      info := { conn.info with clientBufCurrLen := conn.info.clientBufCurrLen + bytes.length }
      heap
      received := conn.received ++ bytes } := by
  obtain ⟨heap', write', holds⟩ := sound.write control fits client
  obtain rfl := Option.some.inj (write.symm.trans write')
  refine ⟨?_, ?_, ?_, sound.parsed.append parser bytes rfl rfl rfl rfl rfl, trivial⟩
  · simp [sound.currLen]
  · simpa only [client] using holds
  · have grown := sound.grown
    simp only [List.length_append, Nat.cast_add]
    omega

theorem Holds.unparsed
    {received : List UInt8} {parsedLen : Nat}
    (holds : Holds conn.heap received conn.info.clientBuf conn.info.clientBufSize)
    (allocated : conn.info.clientBuf ≠ none)
    (currLen : conn.info.clientBufCurrLen = received.length)
    (position : conn.info.clientBufParsedLen = parsedLen) (inside : parsedLen ≤ received.length) :
    HimProxy.unparsed conn = some (received.drop parsedLen) := by
  obtain ⟨id, client⟩ := Option.ne_none_iff_exists'.mp allocated
  rw [client] at holds
  unfold HimProxy.unparsed
  rw [client, position, currLen, Option.bind_some, Int.toNat_natCast, Int.toNat_sub,
    holds.read (Nat.add_sub_cancel' inside).le, List.take_of_length_le List.length_drop.le]

theorem Sound.unparsed
    {parsedLen : Nat} {headers : List (Nat × Nat)} (parser : Parser httpParseRequest)
    (sound : Sound httpParseRequest conn) (allocated : conn.info.clientBuf ≠ none)
    (position : conn.info.clientBufParsedLen = parsedLen)
    (tiles : Tiles httpParseRequest conn.received 0 headers parsedLen) :
    HimProxy.unparsed conn = some (conn.received.drop parsedLen) :=
  sound.holds.unparsed allocated sound.currLen position (tiles.last_le parser (Nat.zero_le _))

theorem Parsed.snoc
    {block parsedLen length : Nat} {headers : List (Nat × Nat)} {requests : List (Ptr × Int)}
    (tiles : Tiles httpParseRequest conn.received 0 headers parsedLen)
    (spans : requests.map requestSpan = headers.map headerSpan)
    (complete : httpParseRequest (conn.received.drop parsedLen) = .complete length)
    (received : after.received = conn.received)
    (position : after.info.clientBufParsedLen = parsedLen + length)
    (listed : Listed after (requests ++ [(Ptr.mk block parsedLen, (length : Int))])) :
    Parsed httpParseRequest after := by
  refine ⟨headers ++ [(parsedLen, length)], parsedLen + length, _, position, ?_, listed, ?_⟩
  · rw [received]
    exact tiles.snoc complete
  · rw [List.map_append, spans, List.map_append]
    rfl

theorem Sound.handled
    {calloc : Option Nat} {length : Nat} {bytes : List UInt8} (parser : Parser httpParseRequest)
    (sound : Sound httpParseRequest conn) (control : conn.control = .parse)
    (given : HimProxy.unparsed conn = some bytes)
    (complete : httpParseRequest bytes = .complete length)
    (handled : handleRequest calloc length conn = some after) :
    Sound httpParseRequest after := by
  obtain ⟨headers, parsedLen, requests, position, tiles, listed, spans⟩ := sound.parsed
  rw [sound.unparsed parser (sound.parsing control) position tiles] at given
  obtain rfl := Option.some.inj given
  rcases handleRequest_cases listed handled with
    rfl | ⟨block, currReq, lastReq, nodes, _, rfl, listed'⟩
  · exact sound
  · rw [position] at listed'
    refine ⟨sound.currLen, sound.holds, sound.grown, ?_, ?_⟩
    · exact .snoc tiles spans complete rfl (congrArg (· + (length : Int)) position) listed'
    · have atControl := sound.control
      simpa only [AtControl, control] using atControl

theorem Sound.incomplete
    {bytes : List UInt8} (parser : Parser httpParseRequest)
    (sound : Sound httpParseRequest conn) (control : conn.control = .parse)
    (given : HimProxy.unparsed conn = some bytes)
    (incomplete : httpParseRequest bytes = .incomplete) :
    Sound httpParseRequest { conn with control := .idle } := by
  obtain ⟨headers, parsedLen, requests, position, tiles, _, _⟩ := sound.parsed
  rw [sound.unparsed parser (sound.parsing control) position tiles] at given
  obtain rfl := Option.some.inj given
  refine ⟨sound.currLen, sound.holds, sound.grown,
    sound.parsed.congr rfl rfl rfl rfl rfl, ?_⟩
  intro length complete
  rw [position, Int.toNat_natCast, incomplete] at complete
  cases complete

/-- What holds of every connection: it is sound, or closed and cleaned up. -/
def Consistent (httpParseRequest : List UInt8 → ParseResult) (conn : Connection) : Prop :=
  (∃ earlier : Connection, conn = earlier.cleanup) ∨ Sound httpParseRequest conn

theorem Sound.step
    {event : ConnEvent} (parser : Parser httpParseRequest) (sound : Sound httpParseRequest conn)
    (stepped : ConnStep httpParseRequest conn event after) :
    Consistent httpParseRequest after := by
  cases stepped with
  | round _ => exact Or.inr sound.round
  | allocFailed _ => exact Or.inl ⟨conn, rfl⟩
  | allocated _ request nonnegative _ =>
      exact Or.inr (sound.allocated _ request nonnegative)
  | interrupted _ => exact Or.inr sound.round
  | again control =>
      exact Or.inr ⟨sound.currLen, sound.holds, sound.grown,
        sound.parsed.congr rfl rfl rfl rfl rfl,
        (sound.receiving control).1⟩
  | failed _ => exact Or.inl ⟨conn, rfl⟩
  | ended _ => exact Or.inl ⟨conn, rfl⟩
  | received control _ fits client write =>
      exact Or.inr (sound.received parser control fits client write)
  | parseError _ _ _ => exact Or.inr sound
  | handled control given complete handled =>
      exact Or.inr (sound.handled parser control given complete handled)
  | incomplete control given incomplete =>
      exact Or.inr (sound.incomplete parser control given incomplete)

theorem connStep_closed
    (closed : conn.control = .closed) (event : ConnEvent) :
    connStep httpParseRequest conn event = none := by
  cases event <;> simp [connStep, closed]

theorem Consistent.step
    {event : ConnEvent} (parser : Parser httpParseRequest)
    (consistent : Consistent httpParseRequest conn)
    (stepped : connStep httpParseRequest conn event = some after) :
    Consistent httpParseRequest after := by
  rcases consistent with ⟨earlier, rfl⟩ | sound
  · cases (connStep_closed rfl event).symm.trans stepped
  · exact sound.step parser (connStep_inversion stepped)

theorem ConnRun.consistent
    {history : List ConnEvent} (parser : Parser httpParseRequest)
    (run : ConnRun httpParseRequest history conn) : Consistent httpParseRequest conn := by
  refine Trace.invariant (fun _ conn => Consistent httpParseRequest conn) ?_ ?_ run
  · intro state begins
    rw [begins]
    exact Or.inr (Sound.start parser)
  · intro history state event after before stepped
    exact before.step parser stepped

end Rounds

end HimProxy

end Tpt
