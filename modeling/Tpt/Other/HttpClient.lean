import Mathlib.Tactic
import Tpt.Lib.Script

/-!
`http_client.c`: a client that sends its standard input to a server, four bytes
at a time.

A reply of the script says how the kernel answers a `read` and a `send` at that
point.  Where a `send` raises `SIGPIPE`, the script ends.
-/

namespace Tpt

namespace HttpClient

inductive Errno where
  | eintr
  | other
  deriving DecidableEq

structure Reply where
  read : Except Errno (List UInt8)
  send : Except Errno Nat

/-- The bytes taken from standard input, those sent to the server, and how
often `Error in tcp_send_data` was printed. -/
structure Client where
  read : List UInt8
  sent : List UInt8
  errors : Nat

abbrev Calls := Program Reply Client

def Client.start : Client where
  read := []
  sent := []
  errors := 0

def bufSize : Nat := 4

/-- `read` from standard input; an empty result is its end. -/
def read : Calls (Except Errno (List UInt8)) :=
  .call fun reply client =>
    match reply.read with
    | .error errno => (.error errno, client)
    | .ok data => (.ok (data.take bufSize), { client with read := client.read ++ data.take bufSize })

def send (buf : List UInt8) : Calls (Except Errno Nat) :=
  .call fun reply client =>
    match reply.send with
    | .error errno => (.error errno, client)
    | .ok count =>
        (.ok (min count buf.length),
          { client with sent := client.sent ++ buf.take (min count buf.length) })

def tcpSendDataBody (buf : List UInt8) (bytesSent : Nat) : Calls (Nat ⊕ Int) :=
  if bytesSent < buf.length then do
    match ← send (buf.drop bytesSent) with
    | .error .eintr => pure (.inl bytesSent)
    | .error .other => pure (.inr (-1))
    | .ok ret => pure (.inl (bytesSent + ret))
  else
    pure (.inr 0)

def tcpSendData (buf : List UInt8) : Calls Int := Program.loop (tcpSendDataBody buf) 0

def mainBody : Calls (Unit ⊕ Unit) := do
  match ← read with
  | .error _ => pure (.inr ())
  | .ok data =>
      if data = [] then
        pure (.inr ())
      else do
        let ret ← tcpSendData data
        if ret < 0 then do
          Program.modify fun client => { client with errors := client.errors + 1 }
          pure (.inl ())
        else
          pure (.inl ())

def main : Calls Unit := Program.loop (fun _ => mainBody) ()

/-- The chunks that were read, each as what was sent of it and what was not;
one that was not sent whole was reported. -/
structure Forwarded (chunks : List (List UInt8 × List UInt8)) (sent unsent : List UInt8)
    (client : Client) : Prop where
  reads : client.read = chunks.flatMap (fun chunk => chunk.1 ++ chunk.2) ++ (sent ++ unsent)
  sends : client.sent = chunks.flatMap Prod.fst ++ sent
  reports : client.errors = chunks.countP (·.2 ≠ [])
  small : ∀ chunk ∈ chunks, (chunk.1 ++ chunk.2).length ≤ bufSize
  last : (sent ++ unsent).length ≤ bufSize

def Forwarding (client : Client) : Prop :=
  ∃ chunks sent unsent, Forwarded chunks sent unsent client

def AtRest (client : Client) : Prop := ∃ chunks, Forwarded chunks [] [] client

def Sending (buf : List UInt8) (bytesSent : Nat) (client : Client) : Prop :=
  ∃ chunks, Forwarded chunks (buf.take bytesSent) (buf.drop bytesSent) client

/-- `tcp_send_data` fails if and only if it leaves something unsent. -/
def Sent (ret : Int) (client : Client) : Prop :=
  ∃ chunks sent unsent, Forwarded chunks sent unsent client ∧ (ret < 0 ↔ unsent ≠ [])

section Runs

variable {chunks : List (List UInt8 × List UInt8)} {sent unsent : List UInt8} {client : Client}

theorem AtRest.start : AtRest .start :=
  ⟨[], rfl, rfl, rfl, fun _ member => (List.not_mem_nil member).elim, Nat.zero_le _⟩

theorem AtRest.forwarding (rests : AtRest client) : Forwarding client := by
  obtain ⟨chunks, forwarded⟩ := rests
  exact ⟨chunks, [], [], forwarded⟩

theorem Forwarded.finish
    (forwarded : Forwarded chunks sent unsent client) (errors : Nat)
    (reported : errors = client.errors + if unsent ≠ [] then 1 else 0) :
    AtRest { client with errors } := by
  refine ⟨chunks ++ [(sent, unsent)], ?_, ?_, ?_, ?_, Nat.zero_le _⟩
  · rw [List.flatMap_append, List.flatMap_singleton, List.append_nil, List.append_nil]
    exact forwarded.reads
  · rw [List.flatMap_append, List.flatMap_singleton, List.append_nil]
    exact forwarded.sends
  · rw [List.countP_append, List.countP_singleton, ← forwarded.reports, reported]
    simp only [decide_eq_true_eq]
  · intro chunk member
    rcases List.mem_append.mp member with earlier | last
    · exact forwarded.small chunk earlier
    · rw [List.mem_singleton.mp last]
      exact forwarded.last

theorem triple_send
    (buf : List UInt8) (bytesSent : Nat) :
    Triple Forwarding (Sending buf bytesSent) (send (buf.drop bytesSent)) fun answer =>
      match answer with
      | .error _ => Sending buf bytesSent
      | .ok count => Sending buf (bytesSent + count) := by
  apply Triple.call
  · rintro client ⟨chunks, forwarded⟩
    exact ⟨chunks, _, _, forwarded⟩
  · rintro reply client ⟨chunks, forwarded⟩
    cases reply.send with
    | error errno => exact ⟨chunks, forwarded⟩
    | ok count =>
        have whole : ∀ sent, buf.take sent ++ buf.drop sent = buf := fun sent =>
          List.take_append_drop sent buf
        refine ⟨chunks, ?_, ?_, forwarded.reports, forwarded.small, ?_⟩
        · rw [whole, ← whole bytesSent]
          exact forwarded.reads
        · rw [List.take_add, ← List.append_assoc, ← forwarded.sends]
        · rw [whole, ← whole bytesSent]
          exact forwarded.last

theorem triple_tcpSendData
    (buf : List UInt8) :
    Triple Forwarding (Sending buf 0) (tcpSendData buf) Sent := by
  apply Triple.loop
  intro bytesSent
  unfold tcpSendDataBody
  split
  case isTrue more =>
    apply Triple.bind (triple_send buf bytesSent)
    intro answer
    rcases answer with (_ | _) | count
    · exact Triple.ret fun _ sending => sending
    · apply Triple.ret
      rintro client ⟨chunks, forwarded⟩
      refine ⟨chunks, _, _, forwarded, fun _ => ?_, fun _ => by decide⟩
      rw [ne_eq, List.drop_eq_nil_iff]
      exact Nat.not_le.mpr more
    · exact Triple.ret fun _ sending => sending
  case isFalse complete =>
    apply Triple.ret
    rintro client ⟨chunks, forwarded⟩
    refine ⟨chunks, _, _, forwarded, fun failed => absurd failed (by decide), fun left => ?_⟩
    exact absurd (List.drop_eq_nil_of_le (Nat.le_of_not_lt complete)) left

theorem triple_read :
    Triple Forwarding AtRest read fun answer =>
      match answer with
      | .error _ => AtRest
      | .ok data => Sending data 0 := by
  apply Triple.call
  · exact fun client => AtRest.forwarding
  · rintro reply client ⟨chunks, forwarded⟩
    cases reply.read with
    | error errno => exact ⟨chunks, forwarded⟩
    | ok data =>
        refine ⟨chunks, ?_, forwarded.sends, forwarded.reports, forwarded.small, ?_⟩
        · have before := forwarded.reads
          rw [List.append_nil, List.append_nil] at before
          exact congrArg (· ++ data.take bufSize) before
        · exact List.length_take_le bufSize data

theorem triple_mainBody :
    Triple Forwarding AtRest mainBody (Sum.elim (fun _ => AtRest) fun _ => AtRest) := by
  apply Triple.bind triple_read
  intro answer
  cases answer with
  | error errno => exact Triple.ret fun _ rests => rests
  | ok data =>
      dsimp only
      split
      case isTrue ended =>
        subst ended
        exact Triple.ret fun _ sending => sending
      case isFalse =>
        apply Triple.bind (triple_tcpSendData data)
        intro ret
        split
        case isTrue failed =>
          have reported : Triple Forwarding (Sent ret)
              (Program.modify fun client => { client with errors := client.errors + 1 } :
                Calls PUnit)
              fun _ => AtRest := by
            apply Triple.modify
            rintro client ⟨chunks, sent, unsent, forwarded, fails⟩
            refine forwarded.finish _ ?_
            rw [if_pos (fails.mp failed)]
          apply Triple.bind reported
          exact fun _ => Triple.ret fun _ rests => rests
        case isFalse succeeded =>
          apply Triple.ret
          rintro client ⟨chunks, sent, unsent, forwarded, fails⟩
          refine forwarded.finish client.errors ?_
          rw [if_neg (mt fails.mpr succeeded), Nat.add_zero]

theorem triple_main : Triple Forwarding AtRest main fun _ => AtRest :=
  Triple.loop (fun _ => triple_mainBody) ()

theorem ends_tcpSendData
    (buf : List UInt8) : Consumes (fun _ => False) (tcpSendData buf) := by
  apply Consumes.loop
  intro bytesSent
  unfold tcpSendDataBody
  split
  · apply Consumes.call_bind
    intro answer
    rcases answer with (_ | _) | count <;> exact Consumes.ends_ret _
  · exact Consumes.ret id

theorem ends_main : Consumes (fun _ => False) main := by
  apply Consumes.loop
  intro _
  apply Consumes.call_bind
  intro answer
  cases answer with
  | error errno => exact Consumes.ends_ret _
  | ok data =>
      dsimp only
      split
      · exact Consumes.ends_ret _
      · apply Consumes.ends_bind (ends_tcpSendData data)
        intro ret
        split
        · exact Consumes.ends_bind (Consumes.modify _) fun _ => Consumes.ends_ret _
        · exact Consumes.ends_ret _

theorem sent_sublist (chunks : List (List UInt8 × List UInt8)) :
    (chunks.flatMap Prod.fst).Sublist (chunks.flatMap fun chunk => chunk.1 ++ chunk.2) := by
  induction chunks with
  | nil => exact List.Sublist.refl _
  | cons chunk chunks inductionHypothesis =>
      rw [List.flatMap_cons, List.flatMap_cons]
      exact (List.sublist_append_left _ _).append inductionHypothesis

theorem length_unsent_le
    (small : ∀ chunk ∈ chunks, (chunk.1 ++ chunk.2).length ≤ bufSize) :
    (chunks.flatMap fun chunk => chunk.1 ++ chunk.2).length ≤
      (chunks.flatMap Prod.fst).length + bufSize * chunks.countP (·.2 ≠ []) := by
  induction chunks with
  | nil => exact Nat.le_refl _
  | cons chunk chunks inductionHypothesis =>
      have rest := inductionHypothesis fun other member =>
        small other (List.mem_cons_of_mem _ member)
      have own := small chunk List.mem_cons_self
      rw [List.flatMap_cons, List.flatMap_cons, List.countP_cons, List.length_append,
        List.length_append, Nat.mul_add]
      rw [List.length_append] at own ⊢
      split_ifs with whole
      · omega
      · have nothing : chunk.2 = [] := by simpa using whole
        rw [nothing, List.length_nil]
        omega

theorem sent_all
    (none : chunks.countP (·.2 ≠ []) = 0) :
    (chunks.flatMap fun chunk => chunk.1 ++ chunk.2) = chunks.flatMap Prod.fst := by
  refine List.flatMap_congr fun chunk member => ?_
  have nothing := List.countP_eq_zero.mp none chunk member
  rw [decide_eq_true_eq, not_not] at nothing
  rw [nothing, List.append_nil]

theorem Forwarded.sublist
    (forwarded : Forwarded chunks sent unsent client) : client.sent.Sublist client.read := by
  rw [forwarded.reads, forwarded.sends]
  exact (sent_sublist chunks).append (List.sublist_append_left _ _)

theorem Forwarded.length_le
    (forwarded : Forwarded chunks sent unsent client) :
    client.read.length ≤
      client.sent.length + bufSize * client.errors + unsent.length := by
  have lost := length_unsent_le forwarded.small
  rw [forwarded.reads, forwarded.sends, forwarded.reports, List.length_append,
    List.length_append, List.length_append]
  omega

theorem Forwarded.whole
    (forwarded : Forwarded chunks sent unsent client) (none : client.errors = 0) :
    client.read = client.sent ++ unsent := by
  rw [forwarded.reports] at none
  rw [forwarded.reads, forwarded.sends, sent_all none, List.append_assoc]

/-- Whatever pieces the input comes in, and however much of them each `send`
takes: the server is sent what was read, less at most four bytes for every error
that is printed and those that are being sent; while there is no error it is
sent exactly what was read, up to those. -/
theorem client_forwards (script : List Reply) :
    ∃ client, (main script .start).state? = some client ∧ client.sent.Sublist client.read ∧
      client.read.length ≤ client.sent.length + bufSize * (client.errors + 1) ∧
      (client.errors = 0 → client.sent <+: client.read) ∧
      ∀ rest, main script .start = .done () client rest →
        client.read.length ≤ client.sent.length + bufSize * client.errors ∧
          (client.errors = 0 → client.sent = client.read) := by
  obtain ⟨client, ran, chunks, sent, unsent, forwarded⟩ :=
    triple_main.reaches ends_main (fun _ _ => AtRest.forwarding) script AtRest.start
  refine ⟨client, ran, forwarded.sublist, ?_, ?_, ?_⟩
  · have lost := forwarded.length_le
    have last := forwarded.last
    rw [List.length_append] at last
    rw [Nat.mul_add]
    omega
  · intro none
    rw [forwarded.whole none]
    exact List.prefix_append _ _
  · intro rest done
    have met := triple_main script .start AtRest.start
    rw [done] at met
    obtain ⟨chunks, forwarded⟩ := met
    refine ⟨forwarded.length_le, fun none => ?_⟩
    rw [forwarded.whole none, List.append_nil]

end Runs

end HttpClient

end Tpt
