import Tpt.Lib.Locals
import Tpt.Lib.Trace

/-!
The echo server of `myServer.c`: the accept loop of `main` and the threads of
`clientHandler`, which all read their socket through the one cell `cliSock`.

Every load of the cell, every store to it and every system call is a step of
its own.  Connections are numbered in the order in which they are accepted; a
descriptor is open on at most one of them.
-/

namespace Tpt

namespace UnixSock

/-- Where a handler stands: before the load for `recv`, in `recv`, before the
load for `send`, in `send`, before the load for `close`, in `close`, before
`g_ClientCount--`, or at its end. -/
inductive Place where
  | beforeRecv
  | recv (fd : Int)
  | beforeSend (len : Nat)
  | send (fd : Int) (len : Nat)
  | beforeClose
  | close (fd : Int)
  | uncount
  | finished
  deriving DecidableEq

/-- A thread in `clientHandler`; `conn` is the connection it was created for,
none if `accept` had failed. -/
structure Handler where
  conn : Option Nat
  place : Place
  buf : List UInt8
  deriving DecidableEq

inductive MainPlace where
  | accept
  | store (fd : Int) (conn : Option Nat)
  | create (conn : Option Nat)
  | count
  deriving DecidableEq

inductive OpKind where
  | recv
  | send
  | close
  deriving DecidableEq

structure Op where
  handler : Nat
  kind : OpKind
  target : Option Nat
  deriving DecidableEq

/-- The process; `fds` says on which connection a descriptor is open, and
`journal` lists the calls made by handlers, newest first. -/
structure Server where
  cliSock : Int
  main : MainPlace
  fds : Int → Option Nat
  accepted : Nat
  handlers : Nat → Option Handler
  created : Nat
  clientCount : Int
  journal : List Op

/-- What `recv` and `send` answer; `none` and `false` are `-1`. -/
structure Answers where
  recv : Option (List UInt8)
  send : Bool

/-- A step of `main`, where `accept` is answered with a descriptor or fails and
`pthread_create` succeeds or not, or of a handler. -/
inductive Event where
  | accept (result : Option Int)
  | store
  | create (succeeds : Bool)
  | count
  | handler (index : Nat) (answers : Answers)

def Server.start : Server :=
  { cliSock := 0
    main := .accept
    fds := fun _ => none
    accepted := 0
    handlers := fun _ => none
    created := 0
    clientCount := 0
    journal := [] }

def bufSize : Nat := 128

/-- `strncasecmp(buf, "bye", 3) == 0`. -/
def isBye (buf : List UInt8) : Bool :=
  (buf.take 3).map (fun byte => if 65 ≤ byte ∧ byte ≤ 90 then byte + 32 else byte) = [98, 121, 101]

/-- The descriptor that `accept` returned, or `-1`. -/
def Server.acceptReturned (server : Server) (result : Option Int) : Option Server :=
  match result with
  | none => some { server with main := .store (-1) none }
  | some fd =>
      if 0 ≤ fd ∧ server.fds fd = none then
        some { server with
          main := .store fd (some server.accepted)
          fds := Function.update server.fds fd (some server.accepted)
          accepted := server.accepted + 1 }
      else none

/-- `pthread_create`, whose result is not checked. -/
def Server.pthreadCreate (server : Server) (conn : Option Nat) (succeeds : Bool) : Server :=
  if succeeds then
    { server with
      main := .count
      handlers := Function.update server.handlers server.created
        (some { conn, place := .beforeRecv, buf := List.replicate bufSize 0 })
      created := server.created + 1 }
  else { server with main := .count }

def Server.setPlace (server : Server) (index : Nat) (handler : Handler) (place : Place) : Server :=
  { server with handlers := Function.update server.handlers index (some { handler with place }) }

def Server.log (server : Server) (index : Nat) (kind : OpKind) (fd : Int) : Server :=
  { server with journal := ⟨index, kind, server.fds fd⟩ :: server.journal }

/-- `recv` on a descriptor that is not open fails. -/
def Server.recvReturned (server : Server) (index : Nat) (handler : Handler) (fd : Int)
    (result : Option (List UInt8)) : Server :=
  match (server.fds fd).bind fun _ => result with
  | none => (server.log index .recv fd).setPlace index handler .beforeClose
  | some data =>
      let data := data.take bufSize
      let handler := { handler with buf := data ++ handler.buf.drop data.length }
      if isBye handler.buf then (server.log index .recv fd).setPlace index handler .beforeClose
      else (server.log index .recv fd).setPlace index handler (.beforeSend data.length)

def Server.sendReturned (server : Server) (index : Nat) (handler : Handler) (fd : Int)
    (succeeds : Bool) : Server :=
  if server.fds fd ≠ none ∧ succeeds then
    (server.log index .send fd).setPlace index handler .beforeRecv
  else (server.log index .send fd).setPlace index handler .beforeClose

def Server.closeReturned (server : Server) (index : Nat) (handler : Handler) (fd : Int) : Server :=
  { (server.log index .close fd).setPlace index handler .uncount with
    fds := Function.update server.fds fd none }

def clientHandler (server : Server) (index : Nat) (handler : Handler) (answers : Answers) :
    Option Server :=
  match handler.place with
  | .beforeRecv => some (server.setPlace index handler (.recv server.cliSock))
  | .recv fd => some (server.recvReturned index handler fd answers.recv)
  | .beforeSend len => some (server.setPlace index handler (.send server.cliSock len))
  | .send fd _ => some (server.sendReturned index handler fd answers.send)
  | .beforeClose => some (server.setPlace index handler (.close server.cliSock))
  | .close fd => some (server.closeReturned index handler fd)
  | .uncount =>
      some { server.setPlace index handler .finished with clientCount := server.clientCount - 1 }
  | .finished => none

def serverStep (server : Server) : Event → Option Server
  | .accept result =>
      if server.main = .accept then server.acceptReturned result else none
  | .store =>
      match server.main with
      | .store fd conn => some { server with cliSock := fd, main := .create conn }
      | _ => none
  | .create succeeds =>
      match server.main with
      | .create conn => some (server.pthreadCreate conn succeeds)
      | _ => none
  | .count =>
      if server.main = .count then
        some { server with main := .accept, clientCount := server.clientCount + 1 }
      else none
  | .handler index answers =>
      (server.handlers index).bind fun handler => clientHandler server index handler answers

namespace Place

def accesses : Place → Bool
  | .beforeRecv | .recv _ | .beforeSend _ | .send _ _ | .beforeClose => true
  | .close _ | .uncount | .finished => false

def loaded : Place → Option Int
  | .recv fd | .send fd _ | .close fd => some fd
  | _ => none

def closed : Place → Bool
  | .uncount | .finished => true
  | _ => false

end Place

inductive HandlerStep (server : Server) (index : Nat) (handler : Handler) : Server → Prop where
  | load {place} :
      handler.place.accesses = true →
      handler.place.closed = false →
      place.loaded = some server.cliSock →
      place.closed = false →
      HandlerStep server index handler (server.setPlace index handler place)
  | transfer {kind fd place buf} :
      handler.place.accesses = true →
      handler.place.loaded = some fd →
      handler.place.closed = false →
      kind ≠ OpKind.close →
      place.accesses = true →
      place.loaded = none →
      place.closed = false →
      HandlerStep server index handler
        ((server.log index kind fd).setPlace index { handler with buf } place)
  | close {fd} :
      handler.place = .close fd →
      HandlerStep server index handler (server.closeReturned index handler fd)
  | uncount :
      handler.place = .uncount →
      HandlerStep server index handler
        { server.setPlace index handler .finished with clientCount := server.clientCount - 1 }

theorem clientHandler_inversion
    {server after : Server} {index : Nat} {handler : Handler} {answers : Answers}
    (stepped : clientHandler server index handler answers = some after) :
    HandlerStep server index handler after := by
  unfold clientHandler at stepped
  split at stepped
  case h_1 place =>
    obtain rfl := Option.some.inj stepped
    exact .load (by rw [place]; rfl) (by rw [place]; rfl) rfl rfl
  case h_2 fd place =>
    obtain rfl := Option.some.inj stepped
    have transfer : ∀ place buf, place.accesses = true → place.loaded = none →
        place.closed = false → HandlerStep server index handler
          ((server.log index .recv fd).setPlace index { handler with buf } place) :=
      fun _ _ => .transfer (by rw [place]; rfl) (by rw [place]; rfl) (by rw [place]; rfl)
        OpKind.noConfusion
    unfold Server.recvReturned
    split
    · exact transfer .beforeClose handler.buf rfl rfl rfl
    · dsimp only
      split
      · exact transfer .beforeClose _ rfl rfl rfl
      · exact transfer (.beforeSend _) _ rfl rfl rfl
  case h_3 len place =>
    obtain rfl := Option.some.inj stepped
    exact .load (by rw [place]; rfl) (by rw [place]; rfl) rfl rfl
  case h_4 fd len place =>
    obtain rfl := Option.some.inj stepped
    have transfer : ∀ place, place.accesses = true → place.loaded = none →
        place.closed = false → HandlerStep server index handler
          ((server.log index .send fd).setPlace index { handler with buf := handler.buf } place) :=
      fun _ => .transfer (by rw [place]; rfl) (by rw [place]; rfl) (by rw [place]; rfl)
        OpKind.noConfusion
    unfold Server.sendReturned
    split
    · exact transfer .beforeRecv rfl rfl rfl
    · exact transfer .beforeClose rfl rfl rfl
  case h_5 place =>
    obtain rfl := Option.some.inj stepped
    exact .load (by rw [place]; rfl) (by rw [place]; rfl) rfl rfl
  case h_6 fd place =>
    obtain rfl := Option.some.inj stepped
    exact .close place
  case h_7 place =>
    obtain rfl := Option.some.inj stepped
    exact .uncount place
  case h_8 => cases stepped

inductive ServerStep (server : Server) : Event → Server → Prop where
  | acceptFailed :
      server.main = .accept →
      ServerStep server (.accept none) { server with main := .store (-1) none }
  | accepted {fd} :
      server.main = .accept →
      0 ≤ fd →
      server.fds fd = none →
      ServerStep server (.accept (some fd)) { server with
        main := .store fd (some server.accepted)
        fds := Function.update server.fds fd (some server.accepted)
        accepted := server.accepted + 1 }
  | store {fd conn} :
      server.main = .store fd conn →
      ServerStep server .store { server with cliSock := fd, main := .create conn }
  | create {conn} (succeeds : Bool) :
      server.main = .create conn →
      ServerStep server (.create succeeds) (server.pthreadCreate conn succeeds)
  | count :
      server.main = .count →
      ServerStep server .count
        { server with main := .accept, clientCount := server.clientCount + 1 }
  | handler {index handler answers after} :
      server.handlers index = some handler →
      HandlerStep server index handler after →
      ServerStep server (.handler index answers) after

theorem serverStep_inversion
    {server after : Server} {event : Event} (stepped : serverStep server event = some after) :
    ServerStep server event after := by
  cases event with
  | accept result =>
      obtain ⟨main, returned⟩ := Option.ite_none_right_eq_some.mp stepped
      cases result with
      | none =>
          obtain rfl := Option.some.inj returned
          exact .acceptFailed main
      | some fd =>
          obtain ⟨⟨nonnegative, unused⟩, same⟩ := Option.ite_none_right_eq_some.mp returned
          obtain rfl := Option.some.inj same
          exact .accepted main nonnegative unused
  | store =>
      simp only [serverStep] at stepped
      split at stepped
      case h_1 fd conn main =>
        obtain rfl := Option.some.inj stepped
        exact .store main
      case h_2 => cases stepped
  | create succeeds =>
      simp only [serverStep] at stepped
      split at stepped
      case h_1 conn main =>
        obtain rfl := Option.some.inj stepped
        exact .create succeeds main
      case h_2 => cases stepped
  | count =>
      obtain ⟨main, same⟩ := Option.ite_none_right_eq_some.mp stepped
      obtain rfl := Option.some.inj same
      exact .count main
  | handler index answers =>
      obtain ⟨handler, found, moved⟩ := Option.bind_eq_some_iff.mp stepped
      exact .handler found (clientHandler_inversion moved)

end UnixSock

end Tpt
