import Tpt.Lib.Script

/-!
The splice tunnel: `proxy_poll_and_tunnel` of `sproxy_core.c` and what it calls
in `sproxy_splice.c` and `sproxy_net.c`.

Every system call is answered by the next reply of a script, which says how
the kernel would answer each kind of call at that point.  Counts and data are
clipped to what the call can move, so every script is possible.
-/

namespace Tpt

namespace Splice

abbrev Byte := UInt8

inductive Errno where
  | eagain
  | eintr
  | other
  deriving DecidableEq

/-- The result of a call that fails with `-1` and `errno`, or succeeds. -/
inductive Answer (α : Type) where
  | failed (errno : Errno)
  | ok (value : α)
  deriving DecidableEq

structure Revents where
  pollin : Bool
  pollpri : Bool
  pollout : Bool
  deriving DecidableEq

/-- A `poll` that did not fail: it timed out, or reports the events of its
first and, if it has one, second descriptor. -/
inductive PollResult where
  | timedOut
  | ready (first second : Revents)
  deriving DecidableEq

structure Reply where
  pipe : Answer Unit
  poll : Answer PollResult
  recv : Answer (List Byte)
  send : Answer Nat
  spliceIn : Answer (List Byte)
  spliceOut : Answer Nat

/-- The bytes taken from the client and those sent on to the origin server. -/
structure Upstream where
  received : List Byte
  sent : List Byte
  deriving DecidableEq

/-- The bytes taken from the origin server, those given to the client, and
those in the pipe between the two. -/
structure Downstream where
  received : List Byte
  delivered : List Byte
  pipe : List Byte
  deriving DecidableEq

/-- A record of what happened, kept for the specification only. -/
inductive Entry where
  | proxyRecvAndSendReturned (ret : Int) (upstream : Upstream)
  | makeSpliceReturned (ret : Int) (pipe : List Byte)
  | splicedOut (available moved : Nat)
  deriving DecidableEq

structure Tunnel where
  upstream : Upstream
  downstream : Downstream
  journal : List Entry
  deriving DecidableEq

abbrev Calls := Program Reply Tunnel

def maxLength : Nat := 8192

def Tunnel.note (tunnel : Tunnel) (entry : Entry) : Tunnel :=
  { tunnel with journal := entry :: tunnel.journal }

def Tunnel.receive (tunnel : Tunnel) (data : List Byte) : Tunnel :=
  { tunnel with
    upstream := { tunnel.upstream with received := tunnel.upstream.received ++ data } }

def Tunnel.forward (tunnel : Tunnel) (data : List Byte) : Tunnel :=
  { tunnel with upstream := { tunnel.upstream with sent := tunnel.upstream.sent ++ data } }

def Tunnel.fill (tunnel : Tunnel) (data : List Byte) : Tunnel :=
  { tunnel with
    downstream := { tunnel.downstream with
      received := tunnel.downstream.received ++ data
      pipe := tunnel.downstream.pipe ++ data } }

/-- The pipe is first in, first out. -/
def Tunnel.drain (tunnel : Tunnel) (count : Nat) : Tunnel :=
  let tunnel' : Tunnel := { tunnel with
    downstream := { tunnel.downstream with
      delivered := tunnel.downstream.delivered ++ tunnel.downstream.pipe.take count
      pipe := tunnel.downstream.pipe.drop count } }
  tunnel'.note (.splicedOut tunnel.downstream.pipe.length count)

def pipe : Calls (Answer Unit) :=
  .call fun reply tunnel => (reply.pipe, tunnel)

def poll : Calls (Answer PollResult) :=
  .call fun reply tunnel => (reply.poll, tunnel)

/-- `recv` on the client socket; an empty result is an orderly shutdown. -/
def recv : Calls (Answer (List Byte)) :=
  .call fun reply tunnel =>
    match reply.recv with
    | .failed errno => (.failed errno, tunnel)
    | .ok data => (.ok (data.take maxLength), tunnel.receive (data.take maxLength))

def send (buf : List Byte) : Calls (Answer Nat) :=
  .call fun reply tunnel =>
    match reply.send with
    | .failed errno => (.failed errno, tunnel)
    | .ok count => (.ok (min count buf.length), tunnel.forward (buf.take (min count buf.length)))

/-- `splice` from the server socket into the pipe. -/
def spliceIn (len : Nat) : Calls (Answer Nat) :=
  .call fun reply tunnel =>
    match reply.spliceIn with
    | .failed errno => (.failed errno, tunnel)
    | .ok data => (.ok (data.take len).length, tunnel.fill (data.take len))

/-- `splice` from the pipe to the client socket. -/
def spliceOut (len : Nat) : Calls (Answer Nat) :=
  .call fun reply tunnel =>
    match reply.spliceOut with
    | .failed errno => (.failed errno, tunnel)
    | .ok count =>
        let moved := min count (min len tunnel.downstream.pipe.length)
        (.ok moved, tunnel.drain moved)

def tcpSendDataWithPollBody (buf : List Byte) (bytesSent : Nat) : Calls (Nat ⊕ Int) :=
  if bytesSent < buf.length then do
    match ← poll with
    | .failed .eintr => pure (.inl bytesSent)
    | .failed _ => pure (.inr (-1))
    | .ok .timedOut => pure (.inr (-1))
    | .ok (.ready revents _) =>
        if revents.pollout then do
          match ← send (buf.drop bytesSent) with
          | .failed .eintr => pure (.inl bytesSent)
          | .failed _ => pure (.inr (-1))
          | .ok ret => pure (.inl (bytesSent + ret))
        else
          pure (.inl bytesSent)
  else
    pure (.inr bytesSent)

def tcpSendDataWithPoll (buf : List Byte) : Calls Int :=
  Program.loop (tcpSendDataWithPollBody buf) 0

def proxyRecvAndSendBody : Calls (Unit ⊕ Int) := do
  match ← recv with
  | .failed .eagain => pure (.inr 1)
  | .failed _ => pure (.inr (-1))
  | .ok data =>
      if data = [] then
        pure (.inr 0)
      else do
        let ret ← tcpSendDataWithPoll data
        if ret < 0 then pure (.inr ret) else pure (.inl ())

def proxyRecvAndSend : Calls Int := do
  let ret ← Program.loop (fun _ => proxyRecvAndSendBody) ()
  Program.modify fun tunnel => tunnel.note (.proxyRecvAndSendReturned ret tunnel.upstream)
  pure ret

def spliceWithPollBody (len : Nat) : Calls (Unit ⊕ Int) := do
  match ← poll with
  | .failed .eintr => pure (.inl ())
  | .failed _ => pure (.inr (-1))
  | .ok .timedOut => pure (.inr (-1))
  | .ok (.ready revents _) =>
      if revents.pollout then do
        match ← spliceOut len with
        | .failed _ => pure (.inr (-1))
        | .ok ret => pure (.inr ret)
      else
        pure (.inl ())

def spliceWithPoll (len : Nat) : Calls Int :=
  Program.loop (fun _ => spliceWithPollBody len) ()

def makeSpliceBody (len : Nat) : Calls (Unit ⊕ Int) := do
  match ← spliceIn len with
  | .failed .eagain => pure (.inr 1)
  | .failed _ => pure (.inr (-1))
  | .ok ret =>
      if ret = 0 then
        pure (.inr 0)
      else do
        let ret ← spliceWithPoll len
        if ret < 0 then pure (.inr (-1))
        else if ret = 0 then pure (.inr 0)
        else pure (.inl ())

def makeSplice (len : Nat) : Calls Int := do
  let ret ← Program.loop (fun _ => makeSpliceBody len) ()
  Program.modify fun tunnel => tunnel.note (.makeSpliceReturned ret tunnel.downstream.pipe)
  pure ret

/-- What the loop of `proxy_poll_and_tunnel` does with the result of a transfer:
leave on an error and on a close, else poll again. -/
def afterTransfer (ret : Int) : Unit ⊕ Int :=
  if ret < 0 then .inr (-1) else if ret = 0 then .inr ret else .inl ()

def proxyPollAndTunnelBody (gSpliceSize : Nat) : Calls (Unit ⊕ Int) := do
  match ← poll with
  | .failed _ => pure (.inr (-1))
  | .ok .timedOut => pure (.inr (-1))
  | .ok (.ready client os) =>
      if client.pollin || client.pollpri then do
        let ret ← proxyRecvAndSend
        pure (afterTransfer ret)
      else if os.pollin || os.pollpri then do
        let ret ← makeSplice gSpliceSize
        pure (afterTransfer ret)
      else
        pure (.inl ())

def proxyPollAndTunnel (gSpliceSize : Nat) : Calls Int := do
  match ← pipe with
  | .failed _ => pure (-1)
  | .ok _ => Program.loop (fun _ => proxyPollAndTunnelBody gSpliceSize) ()

def Tunnel.start : Tunnel :=
  { upstream := { received := [], sent := [] }
    downstream := { received := [], delivered := [], pipe := [] }
    journal := [] }

end Splice

end Tpt
