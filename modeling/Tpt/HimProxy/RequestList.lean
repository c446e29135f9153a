import Tpt.HimProxy.Requests

/-!
The headers of a byte stream, and the list of requests that
`proxy_request_list_add` builds.
-/

namespace Tpt

namespace HimProxy

open Memory

section Tiling

variable {httpParseRequest : List UInt8 → ParseResult} {bytes : List UInt8}

/-- Consecutive complete headers from one offset to another, as pairs of
offset and length. -/
inductive Tiles (httpParseRequest : List UInt8 → ParseResult) (bytes : List UInt8) :
    Nat → List (Nat × Nat) → Nat → Prop where
  | nil {offset} : Tiles httpParseRequest bytes offset [] offset
  | cons {offset length rest last} :
      httpParseRequest (bytes.drop offset) = .complete length →
      Tiles httpParseRequest bytes (offset + length) rest last →
      Tiles httpParseRequest bytes offset ((offset, length) :: rest) last

/-- The complete headers from an offset on, at most `fuel` of them. -/
def headersFrom (httpParseRequest : List UInt8 → ParseResult) (bytes : List UInt8) :
    Nat → Nat → List (Nat × Nat)
  | 0, _ => []
  | fuel + 1, offset =>
      match httpParseRequest (bytes.drop offset) with
      | .complete length =>
          (offset, length) :: headersFrom httpParseRequest bytes fuel (offset + length)
      | _ => []

def headers (httpParseRequest : List UInt8 → ParseResult) (bytes : List UInt8) :
    List (Nat × Nat) :=
  headersFrom httpParseRequest bytes bytes.length 0

theorem next_le
    (inside : ∀ bytes length, httpParseRequest bytes = .complete length →
      1 ≤ length ∧ length ≤ bytes.length)
    {offset length : Nat} (bounded : offset ≤ bytes.length)
    (complete : httpParseRequest (bytes.drop offset) = .complete length) :
    1 ≤ length ∧ offset + length ≤ bytes.length := by
  obtain ⟨positive, fits⟩ := inside _ _ complete
  rw [List.length_drop] at fits
  exact ⟨positive, by omega⟩

theorem Parser.next_le
    (parser : Parser httpParseRequest) {offset length : Nat} (bounded : offset ≤ bytes.length)
    (complete : httpParseRequest (bytes.drop offset) = .complete length) :
    1 ≤ length ∧ offset + length ≤ bytes.length :=
  HimProxy.next_le parser.inside bounded complete

namespace Tiles

theorem snoc
    {offset last length : Nat} {entries : List (Nat × Nat)}
    (tiles : Tiles httpParseRequest bytes offset entries last)
    (complete : httpParseRequest (bytes.drop last) = .complete length) :
    Tiles httpParseRequest bytes offset (entries ++ [(last, length)]) (last + length) := by
  induction tiles with
  | nil => exact .cons complete .nil
  | cons found _ inductionHypothesis => exact .cons found (inductionHypothesis complete)

theorem last_le
    {offset last : Nat} {entries : List (Nat × Nat)} (parser : Parser httpParseRequest)
    (tiles : Tiles httpParseRequest bytes offset entries last) (inside : offset ≤ bytes.length) :
    last ≤ bytes.length := by
  induction tiles with
  | nil => exact inside
  | cons found _ inductionHypothesis =>
      exact inductionHypothesis (parser.next_le inside found).2

theorem entry_le
    {offset last : Nat} {entries : List (Nat × Nat)} (parser : Parser httpParseRequest)
    (tiles : Tiles httpParseRequest bytes offset entries last) (inside : offset ≤ bytes.length)
    {entry : Nat × Nat} (member : entry ∈ entries) : entry.1 + entry.2 ≤ bytes.length := by
  induction tiles with
  | nil => cases member
  | cons found _ inductionHypothesis =>
      have next := (parser.next_le inside found).2
      rcases List.mem_cons.mp member with rfl | later
      · exact next
      · exact inductionHypothesis next later

/-- Bytes that follow do not change the headers found so far. -/
theorem append
    {offset last : Nat} {entries : List (Nat × Nat)} (parser : Parser httpParseRequest)
    (tiles : Tiles httpParseRequest bytes offset entries last) (inside : offset ≤ bytes.length)
    (more : List UInt8) : Tiles httpParseRequest (bytes ++ more) offset entries last := by
  induction tiles with
  | nil => exact .nil
  | cons found _ inductionHypothesis =>
      refine .cons ?_ (inductionHypothesis (parser.next_le inside found).2)
      rw [List.drop_append_of_le_length inside]
      exact parser.stable _ _ more found

theorem eq_headersFrom
    {offset last fuel : Nat} {entries : List (Nat × Nat)} (parser : Parser httpParseRequest)
    (tiles : Tiles httpParseRequest bytes offset entries last) (inside : offset ≤ bytes.length)
    (ends : ∀ length, httpParseRequest (bytes.drop last) ≠ .complete length)
    (enough : bytes.length ≤ offset + fuel) :
    headersFrom httpParseRequest bytes fuel offset = entries := by
  induction tiles generalizing fuel with
  | @nil offset =>
      cases fuel with
      | zero => rfl
      | succ fuel =>
          rw [headersFrom]
          split
          · exact absurd ‹_› (ends _)
          · rfl
  | @cons offset length rest last found _ inductionHypothesis =>
      obtain ⟨positive, next⟩ := parser.next_le inside found
      cases fuel with
      | zero => omega
      | succ fuel =>
          have reaches : bytes.length ≤ offset + length + fuel := by omega
          simp only [headersFrom, found, inductionHypothesis next ends reaches]

theorem eq_headers
    {last : Nat} {entries : List (Nat × Nat)} (parser : Parser httpParseRequest)
    (tiles : Tiles httpParseRequest bytes 0 entries last)
    (ends : ∀ length, httpParseRequest (bytes.drop last) ≠ .complete length) :
    headers httpParseRequest bytes = entries :=
  tiles.eq_headersFrom parser (Nat.zero_le _) ends (Nat.le_add_left _ _)

end Tiles

end Tiling

section HeaderEnd

/-- The answer of a parser that only looks for the empty line at the end of a
header. -/
def headerEndFrom : List UInt8 → Nat → ParseResult
  | [], _ => .incomplete
  | byte :: rest, count =>
      if (byte :: rest).take 4 = [13, 10, 13, 10] then .complete (count + 4)
      else headerEndFrom rest (count + 1)

def headerEnd (bytes : List UInt8) : ParseResult := headerEndFrom bytes 0

theorem headerEndFrom_inside
    {bytes : List UInt8} {count length : Nat}
    (complete : headerEndFrom bytes count = .complete length) :
    count + 4 ≤ length ∧ length ≤ count + bytes.length := by
  induction bytes generalizing count with
  | nil => cases complete
  | cons byte rest inductionHypothesis =>
      rw [headerEndFrom] at complete
      split at complete
      case isTrue found =>
        obtain rfl := ParseResult.complete.inj complete
        have four := congrArg List.length found
        simp only [List.length_take, List.length_cons, List.length_nil] at four ⊢
        omega
      case isFalse =>
        have later := inductionHypothesis complete
        simp only [List.length_cons]
        omega

theorem headerEndFrom_stable
    {bytes : List UInt8} {count length : Nat}
    (complete : headerEndFrom bytes count = .complete length)
    (more : List UInt8) : headerEndFrom (bytes ++ more) count = .complete length := by
  induction bytes generalizing count with
  | nil => cases complete
  | cons byte rest inductionHypothesis =>
      have enough : 4 ≤ (byte :: rest).length := by
        have inside := headerEndFrom_inside complete
        omega
      rw [headerEndFrom] at complete
      rw [List.cons_append, headerEndFrom, ← List.cons_append, List.take_append_of_le_length enough]
      split at complete
      · rwa [if_pos ‹_›]
      · rw [if_neg ‹_›]
        exact inductionHypothesis complete

theorem parser_headerEnd : Parser headerEnd where
  inside bytes length complete := by
    have inside := headerEndFrom_inside complete
    omega
  stable bytes length more complete := headerEndFrom_stable complete more

theorem headerEndFrom_ne_error (bytes : List UInt8) (count : Nat) :
    headerEndFrom bytes count ≠ .error := by
  induction bytes generalizing count with
  | nil => exact ParseResult.noConfusion
  | cons byte rest inductionHypothesis =>
      rw [headerEndFrom]
      split
      · exact ParseResult.noConfusion
      · exact inductionHypothesis (count + 1)

end HeaderEnd

def nodeNext (nodes : Nat → Option ProxyReqInfo) (address : Nat) : Option (Option Nat) :=
  (nodes address).map ProxyReqInfo.next

def nodeRequest (nodes : Nat → Option ProxyReqInfo) (address : Nat) : Option (Ptr × Int) :=
  (nodes address).map fun node => (node.reqBuf, node.reqBufLen)

/-- The nodes from `curr_req` to `last_req` hold `requests`, as pairs of
`req_buf` and `req_buf_len`. -/
def Listed (conn : Connection) (requests : List (Ptr × Int)) : Prop :=
  ∃ addresses, Linked (nodeNext conn.nodes) (nodeRequest conn.nodes) conn.info.currReq
    conn.info.lastReq addresses requests

theorem listed_start : Listed Connection.start [] :=
  ⟨[], .nil rfl, List.nodup_nil, rfl, rfl⟩

theorem Listed.congr
    {conn after : Connection} {requests : List (Ptr × Int)} (listed : Listed conn requests)
    (nodes : after.nodes = conn.nodes) (currReq : after.info.currReq = conn.info.currReq)
    (lastReq : after.info.lastReq = conn.info.lastReq) : Listed after requests := by
  unfold Listed
  rw [nodes, currReq, lastReq]
  exact listed

theorem Listed.currReq_eq_none_iff
    {conn : Connection} {requests : List (Ptr × Int)} (listed : Listed conn requests) :
    conn.info.currReq = none ↔ requests = [] := by
  obtain ⟨addresses, linked⟩ := listed
  exact linked.head_eq_none_iff

theorem Listed.unique
    {conn : Connection} {requests others : List (Ptr × Int)} (listed : Listed conn requests)
    (other : Listed conn others) : requests = others := by
  obtain ⟨addresses, linked⟩ := listed
  obtain ⟨addresses', linked'⟩ := other
  exact linked.unique linked'

theorem linked_relink
    {nodes : Nat → Option ProxyReqInfo} {head last : Option Nat} {front : List Nat}
    {tail node : Nat} {info : ProxyReqInfo} {requests : List (Ptr × Int)}
    (linked : Linked (nodeNext nodes) (nodeRequest nodes) head last (front ++ [tail]) requests)
    (live : nodes tail = some info) (outside : node ∉ front ++ [tail]) (reqBuf : Ptr)
    (reqBufLen : Int) {nodes' : Nat → Option ProxyReqInfo}
    (relinked : nodes' = Function.update
      (Function.update nodes node (some { reqBuf, reqBufLen, next := none })) tail
      (some { info with next := some node })) :
    Linked (nodeNext nodes') (nodeRequest nodes') head (some node) (front ++ [tail, node])
      (requests ++ [(reqBuf, reqBufLen)]) := by
  have distinct : node ≠ tail := by
    rintro rfl
    exact outside (List.mem_append_right front (List.mem_singleton_self node))
  rw [relinked]
  refine linked.snoc outside ?_ ?_ ?_ ?_ ?_
  · intro address notTail notNode
    simp [nodeNext, notTail, notNode]
  · simp [nodeNext]
  · simp [nodeNext, distinct]
  · intro address notNode
    by_cases isTail : address = tail
    · subst isTail
      simp [nodeRequest, live]
    · simp [nodeRequest, isTail, notNode]
  · simp [nodeRequest, distinct]

theorem proxyRequestListAdd_spec
    {conn : Connection} {requests : List (Ptr × Int)} (listed : Listed conn requests)
    {node : Nat} (unused : conn.nodes node = none) (reqBuf : Ptr) (reqBufLen : Int) :
    ∃ after, proxyRequestListAdd node reqBuf reqBufLen conn = some after ∧
      (∃ currReq lastReq nodes, after =
        { conn with info := { conn.info with currReq, lastReq }, nodes }) ∧
      (∀ other, other ≠ node → conn.nodes other = none → after.nodes other = none) ∧
      Listed after (requests ++ [(reqBuf, reqBufLen)]) := by
  obtain ⟨addresses, linked⟩ := listed
  unfold proxyRequestListAdd
  rcases List.eq_nil_or_concat addresses with rfl | ⟨front, tail, rfl⟩
  · have none_before : requests = [] := List.length_eq_zero_iff.mp linked.length_eq.symm
    have empty : conn.info.currReq = none := linked.head_eq_none_iff.mpr none_before
    rw [empty, none_before]
    refine ⟨_, rfl, ⟨_, _, _, rfl⟩, ?_, [node], ?_⟩
    · intro other different free
      exact (Function.update_of_ne different _ _).trans free
    · apply Linked.single
      · simp [nodeNext]
      · simp [nodeRequest]
  · rw [List.concat_eq_append] at linked
    have outside : node ∉ front ++ [tail] := by
      intro member
      obtain ⟨request, _, stored⟩ := linked.live member
      simp [nodeRequest, unused] at stored
    have tailMember : tail ∈ front ++ [tail] :=
      List.mem_append_right front (List.mem_singleton_self tail)
    have distinct : tail ≠ node := ne_of_mem_of_not_mem tailMember outside
    obtain ⟨request, listed, stored⟩ := linked.live tailMember
    obtain ⟨info, live, rfl⟩ := Option.map_eq_some_iff.mp stored
    have head : conn.info.currReq ≠ none :=
      mt linked.head_eq_none_iff.mp (List.ne_nil_of_mem listed)
    obtain ⟨first, currReq⟩ := Option.ne_none_iff_exists'.mp head
    have lastReq : conn.info.lastReq = some tail := by simpa using linked.last
    rw [currReq, lastReq]
    simp only [Option.bind_some, Function.update_of_ne distinct, live, Option.map_some]
    refine ⟨_, rfl, ⟨_, _, _, rfl⟩, ?_, front ++ [tail, node],
      linked_relink linked live outside reqBuf reqBufLen rfl⟩
    intro other different free
    have notTail : other ≠ tail := by
      rintro rfl
      cases live.symm.trans free
    refine (Function.update_of_ne notTail _ _).trans ?_
    exact (Function.update_of_ne different _ _).trans free

theorem handleRequest_control
    {conn after : Connection} {calloc : Option Nat} {length : Nat}
    (handled : handleRequest calloc length conn = some after) :
    after.control = conn.control := by
  cases calloc with
  | none =>
      obtain rfl := Option.some.inj handled
      rfl
  | some node =>
      obtain ⟨_, stored⟩ := Option.ite_none_right_eq_some.mp handled
      obtain ⟨block, _, moved⟩ := Option.bind_eq_some_iff.mp stored
      obtain ⟨added, adds, rfl⟩ := Option.map_eq_some_iff.mp moved
      unfold proxyRequestListAdd at adds
      split at adds
      · obtain rfl := Option.some.inj adds
        rfl
      · obtain ⟨last, _, linked⟩ := Option.bind_eq_some_iff.mp adds
        obtain ⟨info, _, rfl⟩ := Option.map_eq_some_iff.mp linked
        rfl

theorem handleRequest_spec
    {conn : Connection} {requests : List (Ptr × Int)} (listed : Listed conn requests)
    {node block : Nat} (unused : conn.nodes node = none)
    (client : conn.info.clientBuf = some block) (length : Nat) :
    ∃ after, handleRequest (some node) length conn = some after ∧
      (∃ currReq lastReq nodes, after = { conn with
        info := { conn.info with
          currReq, lastReq, clientBufParsedLen := conn.info.clientBufParsedLen + length }
        nodes }) ∧
      (∀ other, other ≠ node → conn.nodes other = none → after.nodes other = none) ∧
      Listed after
        (requests ++ [(Ptr.mk block conn.info.clientBufParsedLen.toNat, (length : Int))]) := by
  obtain ⟨added, adds, ⟨currReq, lastReq, nodes, rfl⟩, unchanged, listed'⟩ :=
    proxyRequestListAdd_spec listed unused ⟨block, conn.info.clientBufParsedLen.toNat⟩ length
  refine ⟨_, ?_, ⟨currReq, lastReq, nodes, rfl⟩, unchanged, listed'.congr rfl rfl rfl⟩
  simp only [handleRequest, unused, if_true, client, Option.bind_some, adds, Option.map_some]

theorem handleRequest_cases
    {conn after : Connection} {requests : List (Ptr × Int)} (listed : Listed conn requests)
    {calloc : Option Nat} {length : Nat}
    (handled : handleRequest calloc length conn = some after) :
    after = conn ∨ ∃ block currReq lastReq nodes, conn.info.clientBuf = some block ∧
      after = { conn with
        info := { conn.info with
          currReq, lastReq, clientBufParsedLen := conn.info.clientBufParsedLen + length }
        nodes } ∧
      Listed after
        (requests ++ [(Ptr.mk block conn.info.clientBufParsedLen.toNat, (length : Int))]) := by
  cases calloc with
  | none => exact Or.inl (Option.some.inj handled).symm
  | some node =>
      obtain ⟨unused, stored⟩ := Option.ite_none_right_eq_some.mp handled
      obtain ⟨block, client, _⟩ := Option.bind_eq_some_iff.mp stored
      obtain ⟨after', handled', ⟨currReq, lastReq, nodes, shape⟩, _, listed'⟩ :=
        handleRequest_spec listed unused client length
      obtain rfl := Option.some.inj (handled.symm.trans handled')
      exact Or.inr ⟨block, currReq, lastReq, nodes, client, shape, listed'⟩

end HimProxy

end Tpt
