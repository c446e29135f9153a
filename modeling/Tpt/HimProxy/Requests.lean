import Tpt.Lib.Chain
import Tpt.Lib.Slice
import Tpt.Lib.Trace

/-!
Receiving and parsing pipelined requests, `proxy_request_handler.c`.

One connection goes through rounds of `receive_parse_request`.  Each turn of
the loops of `recv_client_data` and `parse_request_buffer` is made of steps
that end where the kernel or the allocator answers; the answers are the
events.  A step that would touch memory outside a live block has no result.
-/

namespace Tpt

namespace HimProxy

open Memory

def requestBufSize : Int := 8192

def reallocLimit : Int := 128

/-- An `int` computed by a multiplication. -/
def int32 (value : Int) : Int := Int.bmod value (2 ^ 32)

inductive ParseResult where
  | error
  | complete (headerLength : Nat)
  | incomplete
  deriving DecidableEq

/-- What `http_parse_request` promises: a complete answer names a header inside
its bytes, and is the same when bytes follow. -/
structure Parser (httpParseRequest : List UInt8 → ParseResult) : Prop where
  inside : ∀ bytes length, httpParseRequest bytes = .complete length →
    1 ≤ length ∧ length ≤ bytes.length
  stable : ∀ bytes length more, httpParseRequest bytes = .complete length →
    httpParseRequest (bytes ++ more) = .complete length

structure ProxyReqInfo where
  reqBuf : Ptr
  reqBufLen : Int
  next : Option Nat
  deriving DecidableEq

/-- The client section of `struct proxy_info`. -/
structure ProxyInfo where
  clientBuf : Option Nat
  clientBufSize : Int
  clientBufCurrLen : Int
  clientBufParsedLen : Int
  currReq : Option Nat
  lastReq : Option Nat
  deriving DecidableEq

/-- Where a connection stands: between rounds, at the top of the loop of
`recv_client_data`, in its `recv`, at the top of the loop of
`parse_request_buffer`, or closed and freed. -/
inductive Control where
  | idle
  | alloc
  | recv (remLen : Int)
  | parse
  | closed
  deriving DecidableEq

/-- A connection; `received` are the bytes that its `recv` calls returned. -/
structure Connection where
  control : Control
  info : ProxyInfo
  heap : Heap
  nodes : Nat → Option ProxyReqInfo
  received : List UInt8

inductive RecvResult where
  | interrupted
  | again
  | failed
  | data (bytes : List UInt8)

/-- A round begins, or a call is answered: `realloc` with a block and what it
holds beyond the old bytes, `recv`, or the `calloc` of a turn of the parser. -/
inductive ConnEvent where
  | round
  | realloc (result : Option (Nat × Bytes))
  | recv (result : RecvResult)
  | parse (calloc : Option Nat)

def Connection.start : Connection :=
  { control := .idle
    info := {
      clientBuf := none
      clientBufSize := 0
      clientBufCurrLen := 0
      clientBufParsedLen := 0
      currReq := none
      lastReq := none }
    heap := fun _ => none
    nodes := fun _ => none
    received := [] }

/-- `cleanup_exit` of `receive_parse_request`. -/
def Connection.cleanup (conn : Connection) : Connection :=
  { Connection.start with control := .closed, received := conn.received }

/-- The size and `rem_len` with which `alloc_client_buf` calls `realloc`. -/
def clientBufRequest (info : ProxyInfo) : Int × Int :=
  let remLen := info.clientBufSize - info.clientBufCurrLen
  if info.clientBufSize = 0 then (requestBufSize, requestBufSize)
  else if remLen < reallocLimit ∧ info.clientBuf ≠ none then
    (int32 (info.clientBufSize * 2), int32 (info.clientBufSize * 2) - info.clientBufCurrLen)
  else (info.clientBufSize, remLen)

/-- `alloc_client_buf`; a negative size is more than `realloc` can give. -/
def allocClientBuf (result : Option (Nat × Bytes)) (conn : Connection) : Option Connection :=
  let (size, remLen) := clientBufRequest conn.info
  match result with
  | none => some conn.cleanup
  | some (block, fill) =>
      if 0 ≤ size ∧ (conn.info.clientBuf = some block ∨ conn.heap block = none) then
        some { conn with
          control := .recv remLen
          info := { conn.info with clientBuf := some block, clientBufSize := size }
          heap := conn.heap.reallocate conn.info.clientBuf block size.toNat fill }
      else none

/-- The rest of a turn of the loop of `recv_client_data`. -/
def recvClientData (remLen : Int) (result : RecvResult) (conn : Connection) : Option Connection :=
  match result with
  | .interrupted => some { conn with control := .alloc }
  | .again => some { conn with control := .parse }
  | .failed => some conn.cleanup
  | .data [] => some conn.cleanup
  | .data bytes =>
      if bytes.length ≤ remLen then
        conn.info.clientBuf.bind fun block =>
          (conn.heap.write? ⟨block, conn.info.clientBufCurrLen.toNat⟩ bytes).map fun heap =>
            { conn with
              control := .alloc
              info := { conn.info with
                clientBufCurrLen := conn.info.clientBufCurrLen + bytes.length }
              heap
              received := conn.received ++ bytes }
      else none

def proxyRequestListAdd (node : Nat) (reqBuf : Ptr) (reqBufLen : Int) (conn : Connection) :
    Option Connection :=
  let nodes := Function.update conn.nodes node (some { reqBuf, reqBufLen, next := none })
  match conn.info.currReq with
  | none =>
      some { conn with
        info := { conn.info with currReq := some node, lastReq := some node }
        nodes }
  | some _ =>
      conn.info.lastReq.bind fun last =>
        (nodes last).map fun info =>
          { conn with
            info := { conn.info with lastReq := some node }
            nodes := Function.update nodes last (some { info with next := some node }) }

/-- `handle_request` and `add_to_request_list`; a failed `calloc` leaves the
connection as it was, and a new node is not in use. -/
def handleRequest (calloc : Option Nat) (headerLength : Nat) (conn : Connection) :
    Option Connection :=
  match calloc with
  | none => some conn
  | some node =>
      if conn.nodes node = none then
        conn.info.clientBuf.bind fun block =>
          (proxyRequestListAdd node ⟨block, conn.info.clientBufParsedLen.toNat⟩ headerLength
            conn).map fun conn =>
            { conn with
              info := { conn.info with
                clientBufParsedLen := conn.info.clientBufParsedLen + headerLength } }
      else none

def unparsed (conn : Connection) : Option (List UInt8) :=
  conn.info.clientBuf.bind fun block =>
    conn.heap.read? ⟨block, conn.info.clientBufParsedLen.toNat⟩
      (conn.info.clientBufCurrLen - conn.info.clientBufParsedLen).toNat

section Steps

variable (httpParseRequest : List UInt8 → ParseResult)

/-- One turn of the loop of `parse_request_buffer`, which goes on after an
error; leaving it ends the round. -/
def parseRequestBuffer (calloc : Option Nat) (conn : Connection) : Option Connection :=
  (unparsed conn).bind fun bytes =>
    match httpParseRequest bytes with
    | .error => some conn
    | .complete headerLength => handleRequest calloc headerLength conn
    | .incomplete => some { conn with control := .idle }

def connStep (conn : Connection) : ConnEvent → Option Connection
  | .round => if conn.control = .idle then some { conn with control := .alloc } else none
  | .realloc result => if conn.control = .alloc then allocClientBuf result conn else none
  | .recv result =>
      match conn.control with
      | .recv remLen => recvClientData remLen result conn
      | _ => none
  | .parse calloc =>
      if conn.control = .parse then parseRequestBuffer httpParseRequest calloc conn else none

def ConnRun : List ConnEvent → Connection → Prop :=
  Trace (fun conn => conn = Connection.start)
    (fun conn event after => connStep httpParseRequest conn event = some after)

inductive ConnStep (conn : Connection) : ConnEvent → Connection → Prop where
  | round :
      conn.control = .idle →
      ConnStep conn .round { conn with control := .alloc }
  | allocFailed :
      conn.control = .alloc →
      ConnStep conn (.realloc none) conn.cleanup
  | allocated {size remLen block fill} :
      conn.control = .alloc →
      clientBufRequest conn.info = (size, remLen) →
      0 ≤ size →
      conn.info.clientBuf = some block ∨ conn.heap block = none →
      ConnStep conn (.realloc (some (block, fill))) { conn with
        control := .recv remLen
        info := { conn.info with clientBuf := some block, clientBufSize := size }
        heap := conn.heap.reallocate conn.info.clientBuf block size.toNat fill }
  | interrupted {remLen} :
      conn.control = .recv remLen →
      ConnStep conn (.recv .interrupted) { conn with control := .alloc }
  | again {remLen} :
      conn.control = .recv remLen →
      ConnStep conn (.recv .again) { conn with control := .parse }
  | failed {remLen} :
      conn.control = .recv remLen →
      ConnStep conn (.recv .failed) conn.cleanup
  | ended {remLen} :
      conn.control = .recv remLen →
      ConnStep conn (.recv (.data [])) conn.cleanup
  | received {remLen block heap} {bytes : List UInt8} :
      conn.control = .recv remLen →
      bytes ≠ [] →
      bytes.length ≤ remLen →
      conn.info.clientBuf = some block →
      conn.heap.write? ⟨block, conn.info.clientBufCurrLen.toNat⟩ bytes = some heap →
      ConnStep conn (.recv (.data bytes)) { conn with
        control := .alloc
        info := { conn.info with clientBufCurrLen := conn.info.clientBufCurrLen + bytes.length }
        heap
        received := conn.received ++ bytes }
  | parseError {calloc bytes} :
      conn.control = .parse →
      unparsed conn = some bytes →
      httpParseRequest bytes = .error →
      ConnStep conn (.parse calloc) conn
  | handled {calloc bytes headerLength after} :
      conn.control = .parse →
      unparsed conn = some bytes →
      httpParseRequest bytes = .complete headerLength →
      handleRequest calloc headerLength conn = some after →
      ConnStep conn (.parse calloc) after
  | incomplete {calloc bytes} :
      conn.control = .parse →
      unparsed conn = some bytes →
      httpParseRequest bytes = .incomplete →
      ConnStep conn (.parse calloc) { conn with control := .idle }

variable {httpParseRequest}

theorem connStep_inversion
    {conn after : Connection} {event : ConnEvent}
    (stepped : connStep httpParseRequest conn event = some after) :
    ConnStep httpParseRequest conn event after := by
  cases event with
  | round =>
      obtain ⟨control, same⟩ := Option.ite_none_right_eq_some.mp stepped
      obtain rfl := Option.some.inj same
      exact .round control
  | realloc result =>
      obtain ⟨control, allocated⟩ := Option.ite_none_right_eq_some.mp stepped
      cases result with
      | none =>
          obtain rfl := Option.some.inj allocated
          exact .allocFailed control
      | some answer =>
          obtain ⟨⟨nonnegative, available⟩, same⟩ := Option.ite_none_right_eq_some.mp allocated
          obtain rfl := Option.some.inj same
          exact .allocated control rfl nonnegative available
  | recv result =>
      simp only [connStep] at stepped
      split at stepped
      case h_2 => cases stepped
      case h_1 remLen control =>
        unfold recvClientData at stepped
        split at stepped
        case h_1 =>
          obtain rfl := Option.some.inj stepped
          exact .interrupted control
        case h_2 =>
          obtain rfl := Option.some.inj stepped
          exact .again control
        case h_3 =>
          obtain rfl := Option.some.inj stepped
          exact .failed control
        case h_4 =>
          obtain rfl := Option.some.inj stepped
          exact .ended control
        case h_5 bytes nonempty =>
          obtain ⟨fits, stored⟩ := Option.ite_none_right_eq_some.mp stepped
          obtain ⟨block, client, written⟩ := Option.bind_eq_some_iff.mp stored
          obtain ⟨heap, write, rfl⟩ := Option.map_eq_some_iff.mp written
          refine .received control ?_ fits client write
          rintro rfl
          exact nonempty rfl
  | parse calloc =>
      obtain ⟨control, turned⟩ := Option.ite_none_right_eq_some.mp stepped
      obtain ⟨bytes, given, parsed⟩ := Option.bind_eq_some_iff.mp turned
      split at parsed
      case h_1 wrong =>
        obtain rfl := Option.some.inj parsed
        exact .parseError control given wrong
      case h_2 complete => exact .handled control given complete parsed
      case h_3 incomplete =>
        obtain rfl := Option.some.inj parsed
        exact .incomplete control given incomplete

theorem ConnStep.connStep
    {conn after : Connection} {event : ConnEvent}
    (stepped : ConnStep httpParseRequest conn event after) :
    HimProxy.connStep httpParseRequest conn event = some after := by
  cases stepped with
  | received control nonempty fits client write =>
      obtain ⟨byte, bytes, rfl⟩ := List.exists_cons_of_ne_nil nonempty
      simp only [HimProxy.connStep, control, recvClientData, if_pos fits, client, Option.bind_some,
        write, Option.map_some]
  | _ => simp_all [HimProxy.connStep, allocClientBuf, recvClientData, parseRequestBuffer]

end Steps

/-- At most `fuel` turns of the loop of `proxy_request_list_print`; the bytes
that it prints for each node. -/
def proxyRequestListPrint (conn : Connection) : Nat → Option Nat → Option (List (List UInt8))
  | _, none => some []
  | 0, some _ => none
  | fuel + 1, some address =>
      (conn.nodes address).bind fun node =>
        (conn.heap.read? node.reqBuf node.reqBufLen.toNat).bind fun text =>
          (proxyRequestListPrint conn fuel node.next).map (text :: ·)

end HimProxy

end Tpt
