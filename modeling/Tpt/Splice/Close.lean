import Tpt.Splice.Streams

/-!
Closing the tunnel.

`make_splice` follows each splice into the pipe with a single splice out of
it.  A short splice out leaves bytes in the pipe, and nothing but a further
splice in brings the tunnel back to them.
-/

namespace Tpt

namespace Splice

/-- As long as every splice out of the pipe moves all that is in it, the
tunnel closes with every byte passed on, and `make_splice` returns to polling
with an empty pipe only. -/
theorem tunnel_drained_on_close
    {gSpliceSize : Nat} {script : List Reply} {tunnel : Tunnel}
    (reached : (proxyPollAndTunnel gSpliceSize script Tunnel.start).state? = some tunnel)
    (drained : ∀ available moved,
      Entry.splicedOut available moved ∈ tunnel.journal → moved = available) :
    (∀ rest, proxyPollAndTunnel gSpliceSize script Tunnel.start = .done 0 tunnel rest →
      tunnel.downstream.pipe = [] ∧
        tunnel.downstream.delivered = tunnel.downstream.received ∧
        tunnel.upstream.sent = tunnel.upstream.received) ∧
      ∀ pipe, Entry.makeSpliceReturned 1 pipe ∈ tunnel.journal → pipe = [] := by
  constructor
  · intro rest returned
    have met := triple_proxyPollAndTunnel gSpliceSize script Tunnel.start settled_start
    rw [returned] at met
    have settled : Settled tunnel := met.1 (Int.le_refl 0)
    have emptied : tunnel.downstream.pipe = [] := settled.pipe drained
    refine ⟨emptied, ?_, ?_⟩
    · rw [settled.flowing.downstream, emptied, List.append_nil]
    · rw [settled.flowing.upstream, List.append_nil]
  · obtain ⟨after, reached', unsent, flowing⟩ :=
      (triple_proxyPollAndTunnel gSpliceSize).reaches (ends_proxyPollAndTunnel gSpliceSize)
        (fun _ _ ended => ended.2) script settled_start
    have same : after = tunnel := Option.some.inj (reached'.symm.trans reached)
    subst same
    exact flowing.returnedEmpty drained

def refusal : Reply :=
  { pipe := .failed .other
    poll := .failed .other
    recv := .failed .other
    send := .failed .other
    spliceIn := .failed .other
    spliceOut := .failed .other }

def twoBytesThenClose (count : Nat) : List Reply :=
  let quiet : Revents := { pollin := false, pollpri := false, pollout := false }
  [ { refusal with pipe := .ok () },
    { refusal with poll := .ok (.ready quiet { quiet with pollin := true }) },
    { refusal with spliceIn := .ok [1, 2] },
    { refusal with poll := .ok (.ready { quiet with pollout := true } quiet) },
    { refusal with spliceOut := .ok count },
    { refusal with spliceIn := .ok [] } ]

theorem tunnel_drained_on_close_two_bytes :
    ∃ tunnel, proxyPollAndTunnel 4096 (twoBytesThenClose 2) Tunnel.start = .done 0 tunnel [] ∧
      tunnel.downstream.received = [1, 2] ∧ tunnel.downstream.pipe = [] ∧
      tunnel.downstream.delivered = tunnel.downstream.received := by
  let tunnel : Tunnel :=
    { upstream := { received := [], sent := [] }
      downstream := { received := [1, 2], delivered := [1, 2], pipe := [] }
      journal := [.makeSpliceReturned 0 [], .splicedOut 2 2] }
  have returned : proxyPollAndTunnel 4096 (twoBytesThenClose 2) Tunnel.start =
      .done 0 tunnel [] := rfl
  have drained : ∀ available moved,
      Entry.splicedOut available moved ∈ tunnel.journal → moved = available := by
    intro available moved membership
    simp only [tunnel, List.mem_cons, List.not_mem_nil, or_false, reduceCtorEq, false_or,
      Entry.splicedOut.injEq] at membership
    rw [membership.1, membership.2]
  have closed := (tunnel_drained_on_close (by rw [returned]; rfl) drained).1 [] returned
  exact ⟨tunnel, returned, rfl, closed.1, closed.2.1⟩

/-- One byte stays in the pipe when the tunnel closes. -/
theorem byte_lost_on_close :
    ∃ tunnel, proxyPollAndTunnel 4096 (twoBytesThenClose 1) Tunnel.start = .done 0 tunnel [] ∧
      tunnel.downstream.pipe = [2] ∧
      tunnel.downstream.received = [1, 2] ∧ tunnel.downstream.delivered = [1] :=
  ⟨_, rfl, rfl, rfl, rfl⟩

end Splice

end Tpt
