import Tpt.Splice.Model

/-!
The tunnel makes a system call in every turn of every loop, so it can only be
waiting for a reply or have returned.
-/

namespace Tpt

namespace Splice

theorem ends_tcpSendDataWithPoll
    (buf : List Byte) : Consumes (fun _ => False) (tcpSendDataWithPoll buf) := by
  apply Consumes.loop
  intro bytesSent
  unfold tcpSendDataWithPollBody
  split
  · apply Consumes.call_bind
    intro polled
    split
    · exact Consumes.ends_ret _
    · exact Consumes.ends_ret _
    · exact Consumes.ends_ret _
    · split
      · apply Consumes.call_bind
        intro sent
        split <;> exact Consumes.ends_ret _
      · exact Consumes.ends_ret _
  · exact Consumes.ret id

theorem ends_proxyRecvAndSend :
    Consumes (fun _ => False) proxyRecvAndSend := by
  apply Consumes.ends_bind
  · apply Consumes.loop
    intro _
    apply Consumes.call_bind
    intro received
    split
    · exact Consumes.ends_ret _
    · exact Consumes.ends_ret _
    · split
      · exact Consumes.ends_ret _
      · apply Consumes.ends_bind (ends_tcpSendDataWithPoll _)
        intro ret
        split <;> exact Consumes.ends_ret _
  · intro ret
    exact Consumes.ends_bind (Consumes.modify _) fun _ => Consumes.ends_ret ret

theorem ends_spliceWithPoll
    (len : Nat) : Consumes (fun _ => False) (spliceWithPoll len) := by
  apply Consumes.loop
  intro _
  apply Consumes.call_bind
  intro polled
  split
  · exact Consumes.ends_ret _
  · exact Consumes.ends_ret _
  · exact Consumes.ends_ret _
  · split
    · apply Consumes.call_bind
      intro spliced
      split <;> exact Consumes.ends_ret _
    · exact Consumes.ends_ret _

theorem ends_makeSplice
    (len : Nat) : Consumes (fun _ => False) (makeSplice len) := by
  apply Consumes.ends_bind
  · apply Consumes.loop
    intro _
    apply Consumes.call_bind
    intro spliced
    split
    · exact Consumes.ends_ret _
    · exact Consumes.ends_ret _
    · split
      · exact Consumes.ends_ret _
      · apply Consumes.ends_bind (ends_spliceWithPoll len)
        intro ret
        split
        · exact Consumes.ends_ret _
        · split <;> exact Consumes.ends_ret _
  · intro ret
    exact Consumes.ends_bind (Consumes.modify _) fun _ => Consumes.ends_ret ret

theorem ends_proxyPollAndTunnel
    (gSpliceSize : Nat) : Consumes (fun _ => False) (proxyPollAndTunnel gSpliceSize) := by
  apply Consumes.call_bind
  intro piped
  split
  · exact Consumes.ends_ret _
  · apply Consumes.loop
    intro _
    apply Consumes.call_bind
    intro polled
    split
    · exact Consumes.ends_ret _
    · exact Consumes.ends_ret _
    · split
      · exact Consumes.ends_bind ends_proxyRecvAndSend fun ret => Consumes.ends_ret _
      · split
        · exact Consumes.ends_bind (ends_makeSplice gSpliceSize) fun ret => Consumes.ends_ret _
        · exact Consumes.ends_ret _

end Splice

end Tpt
