import Tpt.HimProxy.Chunking

/-!
The loop of `parse_request_buffer` as a whole: when it ends, and what it
returns to `receive_parse_request`.
-/

namespace Tpt

namespace HimProxy

open Memory

section Loop

variable (httpParseRequest : List UInt8 → ParseResult)

/-- At most `fuel` turns of the loop of `parse_request_buffer`; `callocs` are
the results of `calloc` in turn, and a positive answer of the parser is 1. -/
def parseRequestLoop : Nat → (Nat → Option Nat) → Connection → Option (Int × Connection)
  | 0, _, _ => none
  | fuel + 1, callocs, conn =>
      (unparsed conn).bind fun bytes =>
        match httpParseRequest bytes with
        | .error => parseRequestLoop fuel callocs conn
        | .complete headerLength =>
            (handleRequest (callocs 0) headerLength conn).bind fun conn =>
              parseRequestLoop fuel (fun call => callocs (call + 1)) conn
        | .incomplete => some (1, conn)

/-- The rest of `receive_parse_request`, with the result of
`parse_request_buffer`. -/
def receiveParseRequest (ret : Int) (conn : Connection) : Connection :=
  if ret < 0 then conn.cleanup else { conn with control := .idle }

/-- Complete headers from an offset on, each with a node of its own. -/
def Queued (callocs : Nat → Option Nat) (bytes : List UInt8) (offset : Nat)
    (entries : List (Nat × Nat)) (last : Nat) : Prop :=
  Tiles httpParseRequest bytes offset entries last ∧
    ∀ call, call < entries.length → callocs call ≠ none

/-- Behind queued headers a request is malformed or cannot be queued. -/
def Rejected (callocs : Nat → Option Nat) (bytes : List UInt8) (offset : Nat) : Prop :=
  ∃ entries last, Queued httpParseRequest callocs bytes offset entries last ∧
    (httpParseRequest (bytes.drop last) = .error ∨
      ∃ length, httpParseRequest (bytes.drop last) = .complete length ∧
        callocs entries.length = none)

def Accepted (callocs : Nat → Option Nat) (bytes : List UInt8) (offset : Nat) : Prop :=
  ∃ entries last, Queued httpParseRequest callocs bytes offset entries last ∧
    httpParseRequest (bytes.drop last) = .incomplete

/-- The loop ends, and a rejected request closes the connection. -/
def ParseMeets (callocs : Nat → Option Nat) (bytes : List UInt8) (offset : Nat)
    (conn : Connection) : Prop :=
  ∃ fuel ret after, parseRequestLoop httpParseRequest fuel callocs conn = some (ret, after) ∧
    (Rejected httpParseRequest callocs bytes offset →
      ret < 0 ∧ (receiveParseRequest ret after).control = .closed)

end Loop

/-- What `recv_client_data` and `calloc` leave to the loop: a buffer that holds
`bytes`, parsed up to `offset`, a list of requests, and new nodes. -/
structure Parsable (callocs : Nat → Option Nat) (bytes : List UInt8) (offset : Nat)
    (conn : Connection) : Prop where
  client : conn.info.clientBuf ≠ none
  holds : Holds conn.heap bytes conn.info.clientBuf conn.info.clientBufSize
  currLen : conn.info.clientBufCurrLen = bytes.length
  parsedLen : conn.info.clientBufParsedLen = offset
  inside : offset ≤ bytes.length
  listed : ∃ requests, Listed conn requests
  unused : ∀ call node, callocs call = some node → conn.nodes node = none
  distinct : ∀ call later node, callocs call = some node → callocs later = some node →
    call = later

section Turns

variable {httpParseRequest : List UInt8 → ParseResult} {callocs : Nat → Option Nat}
  {bytes : List UInt8} {offset last length : Nat} {entries : List (Nat × Nat)}
  {conn after : Connection} {fuel : Nat} {ret : Int}

theorem Parsable.unparsed
    (parsable : Parsable callocs bytes offset conn) :
    HimProxy.unparsed conn = some (bytes.drop offset) :=
  parsable.holds.unparsed parsable.client parsable.currLen parsable.parsedLen parsable.inside

theorem Parsable.handled
    {node : Nat} (parsable : Parsable callocs bytes offset conn) (calloc : callocs 0 = some node)
    (fits : offset + length ≤ bytes.length) :
    ∃ after, handleRequest (some node) length conn = some after ∧
      Parsable (fun call => callocs (call + 1)) bytes (offset + length) after := by
  obtain ⟨requests, listed⟩ := parsable.listed
  obtain ⟨block, client⟩ := Option.ne_none_iff_exists'.mp parsable.client
  obtain ⟨after, handled, ⟨currReq, lastReq, nodes, rfl⟩, unchanged, listed'⟩ :=
    handleRequest_spec listed (parsable.unused 0 node calloc) client length
  refine ⟨_, handled, parsable.client, parsable.holds, parsable.currLen, ?_, fits, ⟨_, listed'⟩,
    ?_, ?_⟩
  · simp [parsable.parsedLen]
  · intro call other found
    refine unchanged other ?_ (parsable.unused (call + 1) other found)
    rintro rfl
    exact absurd (parsable.distinct (call + 1) 0 other found calloc) (Nat.succ_ne_zero call)
  · intro call later other found again
    exact Nat.succ.inj (parsable.distinct (call + 1) (later + 1) other found again)

theorem Queued.cons
    (complete : httpParseRequest (bytes.drop offset) = .complete length)
    (calloc : callocs 0 ≠ none)
    (queued : Queued httpParseRequest (fun call => callocs (call + 1)) bytes (offset + length)
      entries last) :
    Queued httpParseRequest callocs bytes offset ((offset, length) :: entries) last := by
  refine ⟨.cons complete queued.1, fun call bound => ?_⟩
  cases call with
  | zero => exact calloc
  | succ call => exact queued.2 call (Nat.lt_of_succ_lt_succ bound)

theorem Queued.nil : Queued httpParseRequest callocs bytes offset [] offset :=
  ⟨.nil, fun _ bound => absurd bound (Nat.not_lt_zero _)⟩

/-- An error of the parser is met again in every turn. -/
theorem parseRequestLoop_malformed
    (parsable : Parsable callocs bytes offset conn)
    (malformed : httpParseRequest (bytes.drop offset) = .error) (fuel : Nat) :
    parseRequestLoop httpParseRequest fuel callocs conn = none := by
  induction fuel with
  | zero => rfl
  | succ fuel inductionHypothesis =>
      simp only [parseRequestLoop, parsable.unparsed, Option.bind_some, malformed,
        inductionHypothesis]

theorem parseRequestLoop_ret
    (returned : parseRequestLoop httpParseRequest fuel callocs conn = some (ret, after)) :
    ret = 1 := by
  induction fuel generalizing callocs conn with
  | zero => cases returned
  | succ fuel inductionHypothesis =>
      obtain ⟨given, _, turned⟩ := Option.bind_eq_some_iff.mp returned
      split at turned
      case h_1 => exact inductionHypothesis turned
      case h_2 =>
        obtain ⟨next, _, rest⟩ := Option.bind_eq_some_iff.mp turned
        exact inductionHypothesis rest
      case h_3 =>
        cases turned
        rfl

/-- A loop that returns has read either an incomplete request or one that it
should have rejected. -/
theorem parseRequestLoop_returned
    (inside : ∀ bytes length, httpParseRequest bytes = .complete length →
      1 ≤ length ∧ length ≤ bytes.length)
    (parsable : Parsable callocs bytes offset conn)
    (returned : parseRequestLoop httpParseRequest fuel callocs conn = some (ret, after)) :
    Accepted httpParseRequest callocs bytes offset ∨
      Rejected httpParseRequest callocs bytes offset := by
  induction fuel generalizing callocs offset conn with
  | zero => cases returned
  | succ fuel inductionHypothesis =>
      simp only [parseRequestLoop, parsable.unparsed, Option.bind_some] at returned
      split at returned
      case h_1 malformed => exact .inr ⟨[], offset, .nil, .inl malformed⟩
      case h_2 length complete =>
        cases calloc : callocs 0 with
        | none => exact .inr ⟨[], offset, .nil, .inr ⟨length, complete, calloc⟩⟩
        | some node =>
            have queueable : callocs 0 ≠ none := by simp [calloc]
            have fits := (next_le inside parsable.inside complete).2
            obtain ⟨next, handled, parsable'⟩ := parsable.handled calloc fits
            rw [calloc, handled] at returned
            rcases inductionHypothesis parsable' returned with
              ⟨entries, last, queued, incomplete⟩ | ⟨entries, last, queued, rejected⟩
            · exact .inl ⟨_, last, queued.cons complete queueable, incomplete⟩
            · exact .inr ⟨_, last, queued.cons complete queueable, rejected⟩
      case h_3 incomplete => exact .inl ⟨[], offset, .nil, incomplete⟩

theorem Accepted.returns
    (inside : ∀ bytes length, httpParseRequest bytes = .complete length →
      1 ≤ length ∧ length ≤ bytes.length)
    (parsable : Parsable callocs bytes offset conn)
    (accepted : Accepted httpParseRequest callocs bytes offset) :
    ∃ fuel after, parseRequestLoop httpParseRequest fuel callocs conn = some (1, after) := by
  obtain ⟨entries, last, ⟨tiles, callocated⟩, incomplete⟩ := accepted
  induction tiles generalizing callocs conn with
  | nil =>
      refine ⟨1, conn, ?_⟩
      simp only [parseRequestLoop, parsable.unparsed, Option.bind_some, incomplete]
  | @cons offset length rest last complete _ inductionHypothesis =>
      obtain ⟨node, calloc⟩ := Option.ne_none_iff_exists'.mp
        (callocated 0 (Nat.zero_lt_succ _))
      have fits := (next_le inside parsable.inside complete).2
      obtain ⟨next, handled, parsable'⟩ := parsable.handled calloc fits
      obtain ⟨fuel, after, returned⟩ := inductionHypothesis parsable' incomplete
        (fun call bound => callocated (call + 1) (Nat.succ_lt_succ bound))
      refine ⟨fuel + 1, after, ?_⟩
      simp only [parseRequestLoop, parsable.unparsed, Option.bind_some, complete, calloc, handled,
        returned]

theorem Accepted.not_rejected
    (accepted : Accepted httpParseRequest callocs bytes offset) :
    ¬ Rejected httpParseRequest callocs bytes offset := by
  obtain ⟨entries, last, ⟨tiles, callocated⟩, incomplete⟩ := accepted
  induction tiles generalizing callocs with
  | nil =>
      rintro ⟨others, otherLast, ⟨otherTiles, _⟩, wrong⟩
      cases otherTiles with
      | nil =>
          rcases wrong with malformed | ⟨length, complete, _⟩
          · cases incomplete.symm.trans malformed
          · cases incomplete.symm.trans complete
      | cons complete _ => cases incomplete.symm.trans complete
  | @cons offset length rest last complete _ inductionHypothesis =>
      rintro ⟨others, otherLast, ⟨otherTiles, otherCallocs⟩, wrong⟩
      cases otherTiles with
      | nil =>
          rcases wrong with malformed | ⟨_, _, exhausted⟩
          · cases complete.symm.trans malformed
          · exact callocated 0 (Nat.zero_lt_succ _) exhausted
      | @cons _ otherLength others _ otherComplete tiles =>
          cases complete.symm.trans otherComplete
          refine @inductionHypothesis (fun call => callocs (call + 1)) incomplete ?_ ?_
          · exact fun call bound => callocated (call + 1) (Nat.succ_lt_succ bound)
          · exact ⟨others, otherLast, ⟨tiles, fun call bound =>
              otherCallocs (call + 1) (Nat.succ_lt_succ bound)⟩, wrong⟩

/-- The loop does what it should exactly when it has nothing to reject: an
error of the parser is met again for ever, and a request that was not queued is
tried again. -/
theorem parse_meets_iff
    (inside : ∀ bytes length, httpParseRequest bytes = .complete length →
      1 ≤ length ∧ length ≤ bytes.length)
    (parsable : Parsable callocs bytes offset conn) :
    ParseMeets httpParseRequest callocs bytes offset conn ↔
      ∃ entries last, Tiles httpParseRequest bytes offset entries last ∧
        httpParseRequest (bytes.drop last) = .incomplete ∧
        ∀ call, call < entries.length → callocs call ≠ none := by
  constructor
  · rintro ⟨fuel, ret, after, returned, closes⟩
    have positive := parseRequestLoop_ret returned
    rcases parseRequestLoop_returned inside parsable returned with
      ⟨entries, last, ⟨tiles, callocated⟩, incomplete⟩ | rejected
    · exact ⟨entries, last, tiles, incomplete, callocated⟩
    · have negative := (closes rejected).1
      omega
  · rintro ⟨entries, last, tiles, incomplete, callocated⟩
    have accepted : Accepted httpParseRequest callocs bytes offset :=
      ⟨entries, last, ⟨tiles, callocated⟩, incomplete⟩
    obtain ⟨fuel, after, returned⟩ := accepted.returns inside parsable
    exact ⟨fuel, 1, after, returned, fun rejected => absurd rejected accepted.not_rejected⟩

theorem ConnRun.parse_loop
    {history : List ConnEvent} (run : ConnRun httpParseRequest history conn)
    (control : conn.control = .parse)
    (returned : parseRequestLoop httpParseRequest fuel callocs conn = some (ret, after)) :
    ∃ turns, ConnRun httpParseRequest (turns ++ history) (receiveParseRequest ret after) := by
  induction fuel generalizing callocs conn history with
  | zero => cases returned
  | succ fuel inductionHypothesis =>
      obtain ⟨bytes, given, turned⟩ := Option.bind_eq_some_iff.mp returned
      split at turned
      case h_1 malformed => exact inductionHypothesis run control turned
      case h_2 length complete =>
        obtain ⟨next, handled, rest⟩ := Option.bind_eq_some_iff.mp turned
        have turn := ConnStep.handled control given complete handled
        obtain ⟨turns, continued⟩ := inductionHypothesis (.next run turn.connStep)
          ((handleRequest_control handled).trans control) rest
        exact ⟨turns ++ [.parse (callocs 0)], by simpa using continued⟩
      case h_3 incomplete =>
        cases turned
        have turn : ConnStep httpParseRequest after (.parse none) _ :=
          .incomplete control given incomplete
        exact ⟨[.parse none], .next run turn.connStep⟩

theorem ConnRun.parsable
    {history : List ConnEvent} (parser : Parser httpParseRequest)
    (run : ConnRun httpParseRequest history conn) (control : conn.control = .parse)
    (unused : ∀ call node, callocs call = some node → conn.nodes node = none)
    (distinct : ∀ call later node, callocs call = some node → callocs later = some node →
      call = later) :
    Parsable callocs conn.received conn.info.clientBufParsedLen.toNat conn := by
  have sound := run.open_sound parser (control ▸ Control.noConfusion)
  obtain ⟨headers, parsedLen, requests, position, tiles, listed, _⟩ := sound.parsed
  refine ⟨sound.parsing control, sound.holds, sound.currLen, ?_, ?_, ⟨requests, listed⟩, unused,
    distinct⟩
  · rw [position, Int.toNat_natCast]
  · rw [position, Int.toNat_natCast]
    exact tiles.last_le parser (Nat.zero_le _)

end Turns

def zeroIsError (bytes : List UInt8) : ParseResult :=
  if bytes.head? = some 0 then .error else headerEnd bytes

theorem parser_zeroIsError : Parser zeroIsError where
  inside bytes length complete := by
    unfold zeroIsError at complete
    split at complete
    · cases complete
    · exact parser_headerEnd.inside bytes length complete
  stable bytes length more complete := by
    unfold zeroIsError at complete ⊢
    split at complete
    · cases complete
    case isFalse nonzero =>
      have positive := parser_headerEnd.inside bytes length complete
      have nonempty : bytes ≠ [] := List.length_pos_iff.mp (positive.1.trans positive.2)
      rw [List.head?_append_of_ne_nil _ nonempty, if_neg nonzero]
      exact parser_headerEnd.stable bytes length more complete

def firstRound (bytes : List UInt8) : List ConnEvent :=
  [.recv .again, .realloc (some (0, fun _ => 0)), .recv (.data bytes),
    .realloc (some (0, fun _ => 0)), .round]

def callocOnce (call : Nat) : Option Nat := if call = 0 then some 0 else none

theorem callocOnce_eq_some {call node : Nat} (found : callocOnce call = some node) :
    call = 0 ∧ node = 0 := by
  obtain ⟨first, same⟩ := Option.ite_none_right_eq_some.mp found
  exact ⟨first, (Option.some.inj same).symm⟩

theorem firstRound_parsable
    {bytes : List UInt8}
    (replayed : (replay (connStep zeroIsError) (firstRound bytes) Connection.start).map
      (fun conn => (conn.control, conn.received, conn.info.clientBufParsedLen, conn.nodes 0)) =
        some (.parse, bytes, 0, none)) :
    ∃ conn, ConnRun zeroIsError (firstRound bytes) conn ∧ Parsable callocOnce bytes 0 conn := by
  obtain ⟨conn, replayed, facts⟩ := Option.map_eq_some_iff.mp replayed
  obtain ⟨control, received, parsedLen, unused⟩ : conn.control = .parse ∧
      conn.received = bytes ∧ conn.info.clientBufParsedLen = 0 ∧ conn.nodes 0 = none := by
    simpa using facts
  have run : ConnRun zeroIsError (firstRound bytes) conn := Trace.of_replay rfl replayed
  refine ⟨conn, run, ?_⟩
  have parsable : Parsable callocOnce conn.received conn.info.clientBufParsedLen.toNat conn := by
    refine run.parsable parser_zeroIsError control ?_ ?_
    · intro call node found
      rw [(callocOnce_eq_some found).2]
      exact unused
    · intro call later node found again
      rw [(callocOnce_eq_some found).1, (callocOnce_eq_some again).1]
  rwa [received, parsedLen] at parsable

/-- One header arrives and is queued. -/
theorem parse_meets_iff_one_header :
    ∃ conn, Parsable callocOnce [13, 10, 13, 10] 0 conn ∧
      ParseMeets zeroIsError callocOnce [13, 10, 13, 10] 0 conn := by
  obtain ⟨conn, _, parsable⟩ := @firstRound_parsable [13, 10, 13, 10] (by decide)
  refine ⟨conn, parsable, (parse_meets_iff parser_zeroIsError.inside parsable).mpr ?_⟩
  refine ⟨[(0, 4)], 4, .cons rfl .nil, rfl, ?_⟩
  intro call bound
  rw [Nat.lt_one_iff.mp bound]
  exact Option.some_ne_none 0

/-- A client that sends a zero byte keeps the loop turning for ever. -/
theorem malformed_request_hangs :
    ∃ conn, ConnRun zeroIsError (firstRound [0]) conn ∧ Parsable callocOnce [0] 0 conn ∧
      (∀ fuel, parseRequestLoop zeroIsError fuel callocOnce conn = none) ∧
      ¬ ParseMeets zeroIsError callocOnce [0] 0 conn := by
  obtain ⟨conn, run, parsable⟩ := @firstRound_parsable [0] (by decide)
  have hangs : ∀ fuel, parseRequestLoop zeroIsError fuel callocOnce conn = none :=
    fun fuel => parseRequestLoop_malformed parsable rfl fuel
  refine ⟨conn, run, parsable, hangs, ?_⟩
  rintro ⟨fuel, ret, after, returned, _⟩
  cases (hangs fuel).symm.trans returned

end HimProxy

end Tpt
