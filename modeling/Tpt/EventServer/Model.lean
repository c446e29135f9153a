import Tpt.Lib.Handles
import Tpt.Lib.Trace

/-!
The client sessions of `server.c`: the callbacks that libevent makes, and the
sockets, `conn_info` objects and events that they obtain and destroy.

Sockets, objects and events are numbered in the order in which they are
obtained.  A step is one callback, with the outcomes of its calls.
-/

namespace Tpt

namespace EventServer

inductive Callback where
  | recv
  | send
  deriving DecidableEq

/-- What `event_new` is given for an event. -/
structure Event where
  fd : Nat
  callback : Callback
  cinfo : Nat
  deriving DecidableEq

structure ConnInfo where
  evRead : Nat
  evWrite : Nat
  deriving DecidableEq

/-- The ledgers, what the objects and events hold, and the events that are
registered. -/
structure Server where
  sockets : Handles
  infos : Handles
  events : Handles
  connInfo : Nat → ConnInfo
  event : Nat → Event
  added : Finset Nat

def initialServer : Server where
  sockets := .empty
  infos := .empty
  events := .empty
  connInfo _ := ⟨0, 0⟩
  event _ := ⟨0, .recv, 0⟩
  added := ∅

namespace Server

def close (server : Server) (fd : Nat) : Server :=
  { server with sockets := server.sockets.destroy fd }

def free (server : Server) (cinfo : Nat) : Server :=
  { server with infos := server.infos.destroy cinfo }

/-- `event_new`, when it succeeds: the event is the next one. -/
def eventNew (server : Server) (event : Event) : Server :=
  { server with
    events := server.events.obtain
    event := Function.update server.event server.events.made event }

def eventAdd (server : Server) (event : Nat) : Server :=
  { server with added := insert event server.added }

def eventDel (server : Server) (event : Nat) : Server :=
  { server with added := server.added.erase event }

/-- `event_free`, which deletes the event first. -/
def eventFree (server : Server) (event : Nat) : Server :=
  { server.eventDel event with events := server.events.destroy event }

end Server

structure InfoAnswers where
  malloc : Bool
  evRead : Bool
  evWrite : Bool

def connInfoNew (server : Server) (fd : Nat) (answers : InfoAnswers) : Server × Option Nat :=
  if answers.malloc then
    let cinfo := server.infos.made
    let server := { server with infos := server.infos.obtain }
    if answers.evRead then
      let evRead := server.events.made
      let server := server.eventNew ⟨fd, .recv, cinfo⟩
      if answers.evWrite then
        let evWrite := server.events.made
        let server := server.eventNew ⟨fd, .send, cinfo⟩
        ({ server with connInfo := Function.update server.connInfo cinfo ⟨evRead, evWrite⟩ },
          some cinfo)
      else ((server.eventFree evRead).free cinfo, none)
    else (server.free cinfo, none)
  else (server, none)

def connInfoFree (server : Server) (cinfo : Nat) : Server :=
  ((server.eventFree (server.connInfo cinfo).evRead).eventFree
    (server.connInfo cinfo).evWrite).free cinfo

/-- `cli_send_cb`; the outcome of `send` changes nothing. -/
def cliSendCb (server : Server) (cinfo : Nat) : Server :=
  server.eventDel (server.connInfo cinfo).evWrite

/-- What a `recv` gives: bytes, with the outcome of the `event_add` after it, the
end of the stream, or an error. -/
inductive Recv where
  | bytes (added : Bool)
  | closed
  | failed
  deriving DecidableEq

def cliRecvCb (server : Server) (fd cinfo : Nat) : List Recv → Option Server
  | [] => none
  | .bytes added :: results =>
      if added then cliRecvCb (server.eventAdd (server.connInfo cinfo).evWrite) fd cinfo results
      else some ((connInfoFree server cinfo).close fd)
  | .closed :: _ => some ((connInfoFree server cinfo).close fd)
  | .failed :: _ => some server

structure AcceptAnswers where
  accept : Bool
  fcntl : Bool
  info : InfoAnswers
  eventAdd : Bool

def srvrAcceptCb (server : Server) (answers : AcceptAnswers) : Server :=
  if answers.accept then
    let cliSock := server.sockets.made
    let server := { server with sockets := server.sockets.obtain }
    if answers.fcntl then
      match connInfoNew server cliSock answers.info with
      | (server, none) => server.close cliSock
      | (server, some cinfo) =>
          if answers.eventAdd then server.eventAdd (server.connInfo cinfo).evRead
          else server.close cliSock
    else server.close cliSock
  else server

/-- A callback: of the listening socket, or of a client's event. -/
inductive Call where
  | accept (answers : AcceptAnswers)
  | client (event : Nat) (results : List Recv)

def step (server : Server) : Call → Option Server
  | .accept answers => some (srvrAcceptCb server answers)
  | .client number results =>
      let event := server.event number
      if number ∈ server.added then
        match event.callback with
        | .recv => cliRecvCb server event.fd event.cinfo results
        | .send => some (cliSendCb server event.cinfo)
      else none

def Run : List Call → Server → Prop :=
  Trace (· = initialServer) fun server call after => step server call = some after

def Live (handles : Handles) (number : Nat) : Prop :=
  number < handles.made ∧ handles.destroys number = 0

instance (handles : Handles) (number : Nat) : Decidable (Live handles number) :=
  inferInstanceAs (Decidable (_ ∧ _))

def Server.fdOf (server : Server) (cinfo : Nat) : Nat :=
  (server.event (server.connInfo cinfo).evRead).fd

/-- The objects correspond to the open sockets, and nothing is destroyed twice. -/
structure OneToOne (server : Server) : Prop where
  once : ∀ handles ∈ [server.sockets, server.infos, server.events], ∀ number,
    handles.destroys number ≤ 1
  events : ∀ cinfo, Live server.infos cinfo →
    Live server.events (server.connInfo cinfo).evRead ∧
      server.event (server.connInfo cinfo).evRead = ⟨server.fdOf cinfo, .recv, cinfo⟩ ∧
      Live server.events (server.connInfo cinfo).evWrite ∧
      server.event (server.connInfo cinfo).evWrite = ⟨server.fdOf cinfo, .send, cinfo⟩
  owned : ∀ event, Live server.events event → ∃ cinfo, Live server.infos cinfo ∧
    ((server.connInfo cinfo).evRead = event ∨ (server.connInfo cinfo).evWrite = event)
  opened : ∀ cinfo, Live server.infos cinfo → Live server.sockets (server.fdOf cinfo)
  single : ∀ fd, Live server.sockets fd →
    ∃! cinfo, Live server.infos cinfo ∧ server.fdOf cinfo = fd

/-- The callback in which `event_add` fails for a client that has been set up. -/
def Leaks : Call → Prop
  | .accept answers =>
      answers.accept = true ∧ answers.fcntl = true ∧ answers.info = ⟨true, true, true⟩ ∧
        answers.eventAdd = false
  | .client _ _ => False

end EventServer

end Tpt
