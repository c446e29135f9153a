import Tpt.Lib.EdgeTriggered
import Tpt.Lib.Trace

/-!
The epoll server: the event loop of `epoll.c`, the kernel it calls and the
peers that connect to it.

A step is an action: something a peer does, or the next system call of the
server with the result the kernel gives it.
-/

namespace Tpt

namespace Poller

universe u

abbrev Byte := UInt8

inductive File (Client : Type u) where
  | listener
  | connection (client : Client)
  | unrelated
  deriving DecidableEq

/-- The bits of an event mask the server looks at. -/
structure Mask where
  epollin : Bool
  epollerr : Bool
  epollhup : Bool
  deriving DecidableEq

def Mask.raised (mask : Mask) : Bool :=
  mask.epollin || mask.epollerr || mask.epollhup

/-- An event `epoll_wait` returned.  The server sees the mask and the
descriptor it gave to `epoll_ctl`; `file` is what the kernel looked at. -/
structure EpollEvent (Client : Type u) where
  events : Mask
  fd : Nat
  file : File Client
  deriving DecidableEq

structure Connection where
  connected : Bool
  arrived : List Byte
  unread : List Byte
  shutdown : Bool
  failed : Bool
  closed : Bool
  deriving DecidableEq

def Connection.unused : Connection :=
  { connected := false, arrived := [], unread := [], shutdown := false,
    failed := false, closed := false }

def Connection.sends (connection : Connection) : Bool :=
  connection.connected && !connection.shutdown && !connection.failed && !connection.closed

/-- Every `close` is recorded, newest first, with the file it closed. -/
structure Kernel (Client : Type u) where
  backlog : List Client
  listenerFailed : Bool
  connection : Client → Connection
  files : Nat → Option (File Client)
  epoll : EdgeSet (File Client)
  closes : List (Option (File Client))

/-- What peers and the network do. -/
inductive Arrival (Client : Type u) where
  | connect (client : Client)
  | send (client : Client) (bytes : List Byte)
  | finish (client : Client)
  | reset (client : Client)
  | failListener
  deriving DecidableEq

namespace Kernel

variable {Client : Type u}

def mask (kernel : Kernel Client) : File Client → Mask
  | .listener =>
      { epollin := !kernel.backlog.isEmpty
        epollerr := kernel.listenerFailed
        epollhup := kernel.listenerFailed }
  | .connection client =>
      let connection := kernel.connection client
      { epollin := !connection.unread.isEmpty || connection.shutdown || connection.failed
        epollerr := connection.failed
        epollhup := connection.failed }
  | .unrelated => { epollin := false, epollerr := false, epollhup := false }

def level (kernel : Kernel Client) (file : File Client) : Bool :=
  (kernel.mask file).raised

def failed (kernel : Kernel Client) : File Client → Bool
  | .listener => kernel.listenerFailed
  | .connection client => (kernel.connection client).failed
  | .unrelated => false

variable [DecidableEq Client]

/-- A connection changes, and what watches it is told. -/
def signal (kernel : Kernel Client) (client : Client) (connection : Connection) :
    Kernel Client :=
  { kernel with
    connection := Function.update kernel.connection client connection
    epoll := kernel.epoll.notify (.connection client) }

def arrival (kernel : Kernel Client) : Arrival Client → Option (Kernel Client)
  | .connect client =>
      if (kernel.connection client).connected ∨ some .listener ∈ kernel.closes then none
      else some { kernel with
        backlog := kernel.backlog ++ [client]
        connection := Function.update kernel.connection client
          { kernel.connection client with connected := true }
        epoll := kernel.epoll.notify .listener }
  | .send client bytes =>
      let connection := kernel.connection client
      if connection.sends then
        some (kernel.signal client { connection with
          arrived := connection.arrived ++ bytes, unread := connection.unread ++ bytes })
      else none
  | .finish client =>
      let connection := kernel.connection client
      if connection.sends then
        some (kernel.signal client { connection with shutdown := true })
      else none
  | .reset client =>
      let connection := kernel.connection client
      if connection.connected && !connection.closed then
        some (kernel.signal client { connection with failed := true })
      else none
  | .failListener =>
      some { kernel with listenerFailed := true, epoll := kernel.epoll.notify .listener }

def event? (kernel : Kernel Client) (file : File Client) : Option (EpollEvent Client) :=
  if kernel.level file then
    (kernel.epoll.data file).map fun fd => { events := kernel.mask file, fd := fd, file := file }
  else none

def maxEvents : Nat := 64

/-- `epoll_wait` takes files off the ready list and reports those that have
something to report. -/
def epollWait (kernel : Kernel Client) (scanned : List (File Client)) :
    Option (Kernel Client × List (EpollEvent Client)) :=
  let events := scanned.filterMap kernel.event?
  if scanned.Nodup ∧ (∀ file ∈ scanned, kernel.epoll.ready file = true) ∧
      events.length ≤ maxEvents then
    some ({ kernel with epoll := kernel.epoll.scan scanned }, events)
  else none

/-- A socket that no longer listens has nothing to accept. -/
def listens (kernel : Kernel Client) (sfd : Nat) : Prop :=
  kernel.files sfd = some .listener ∧ kernel.listenerFailed = false

instance listensDecidable (kernel : Kernel Client) (sfd : Nat) :
    Decidable (kernel.listens sfd) :=
  inferInstanceAs (Decidable (_ ∧ _))

/-- The oldest connection of the backlog gets the descriptor `infd`. -/
def accept (kernel : Kernel Client) (sfd infd : Nat) : Option (Kernel Client) :=
  match kernel.backlog with
  | [] => none
  | client :: backlog =>
      if kernel.listens sfd ∧ kernel.files infd = none then
        some { kernel with
          backlog := backlog
          files := Function.update kernel.files infd (some (.connection client)) }
      else none

/-- `epoll_ctl (efd, EPOLL_CTL_ADD, infd, &event)`. -/
def epollCtlAdd (kernel : Kernel Client) (infd : Nat) : Option (Kernel Client) :=
  (kernel.files infd).map fun file =>
    { kernel with epoll := kernel.epoll.add file infd (kernel.level file) }

def bufSize : Nat := 512

def read (kernel : Kernel Client) (fd count : Nat) :
    Option (Kernel Client × Client × List Byte) :=
  match kernel.files fd with
  | some (.connection client) =>
      let connection := kernel.connection client
      if 0 < count ∧ count ≤ bufSize ∧ count ≤ connection.unread.length then
        some ({ kernel with
          connection := Function.update kernel.connection client
            { connection with unread := connection.unread.drop count } },
          client, connection.unread.take count)
      else none
  | _ => none

/-- `read` fails with `EAGAIN`. -/
def readAgain (kernel : Kernel Client) (fd : Nat) : Bool :=
  match kernel.files fd with
  | some (.connection client) =>
      let connection := kernel.connection client
      connection.unread.isEmpty && !connection.shutdown && !connection.failed
  | _ => false

/-- `read` returns 0. -/
def readEnd (kernel : Kernel Client) (fd : Nat) : Bool :=
  match kernel.files fd with
  | some (.connection client) =>
      let connection := kernel.connection client
      connection.unread.isEmpty && connection.shutdown
  | _ => false

def readFails (kernel : Kernel Client) (fd : Nat) : Bool :=
  match kernel.files fd with
  | some (.connection client) => (kernel.connection client).failed
  | _ => true

/-- Closing a file takes it out of the epoll set. -/
def close (kernel : Kernel Client) (fd : Nat) : Kernel Client :=
  match kernel.files fd with
  | none => { kernel with closes := none :: kernel.closes }
  | some file =>
      { kernel with
        connection := fun client =>
          let connection := kernel.connection client
          { connection with
            closed := connection.closed || decide (file = .connection client) }
        files := Function.update kernel.files fd none
        epoll := kernel.epoll.remove file
        closes := some file :: kernel.closes }

end Kernel

/-- Where the server is in its loops: `event` is `events[i]`, and `rest` are
the events after it. -/
inductive Control (Client : Type u) where
  | waiting
  | handling (rest : List (EpollEvent Client))
  | accepting (event : EpollEvent Client) (rest : List (EpollEvent Client))
  | accepted (infd : Nat) (event : EpollEvent Client) (rest : List (EpollEvent Client))
  | adding (infd : Nat) (event : EpollEvent Client) (rest : List (EpollEvent Client))
  | reading (event : EpollEvent Client) (rest : List (EpollEvent Client))
  | writing (client : Client) (buf : List Byte) (event : EpollEvent Client)
      (rest : List (EpollEvent Client))
  | aborted
  deriving DecidableEq

/-- What the next system call of the server returns; `next` is the head of the
`for` loop. -/
inductive Reply (Client : Type u) where
  | epollWait (scanned : List (File Client))
  | next
  | accept (infd : Nat)
  | acceptAgain
  | acceptFailed
  | fcntl (flags s : Int)
  | epollCtl (s : Int)
  | read (count : Nat)
  | readAgain
  | readEnd
  | readFailed
  | write
  | writeShort (s : Nat)
  | writeFailed
  deriving DecidableEq

/-- The bytes written to standard output carry the client they came from. -/
structure Server (Client : Type u) where
  kernel : Kernel Client
  control : Control Client
  output : List (Client × List Byte)

/-- `make_socket_non_blocking`, from the results of its two `fcntl` calls. -/
def makeSocketNonBlocking (flags s : Int) : Int :=
  if flags = -1 then -1 else if s = -1 then -1 else 0

inductive Action (Client : Type u) where
  | arrival (arrival : Arrival Client)
  | reply (reply : Reply Client)
  deriving DecidableEq

section Step

variable {Client : Type u} [DecidableEq Client]

/-- One step of `main` after its set-up; `sfd` is the listening socket. -/
def Server.proceed (sfd : Nat) (server : Server Client) (reply : Reply Client) :
    Option (Server Client) :=
  let kernel := server.kernel
  match server.control, reply with
  | .waiting, .epollWait scanned =>
      (kernel.epollWait scanned).map fun (kernel, events) =>
        { server with kernel := kernel, control := .handling events }
  | .handling [], .next => some { server with control := .waiting }
  | .handling (event :: rest), .next =>
      if event.events.epollerr || event.events.epollhup || !event.events.epollin then
        some { server with kernel := kernel.close event.fd, control := .handling rest }
      else if sfd = event.fd then
        some { server with control := .accepting event rest }
      else
        some { server with control := .reading event rest }
  | .accepting event rest, .accept infd =>
      (kernel.accept sfd infd).map fun kernel =>
        { server with kernel := kernel, control := .accepted infd event rest }
  | .accepting _ rest, .acceptAgain =>
      if kernel.listens sfd ∧ kernel.backlog = [] then
        some { server with control := .handling rest }
      else none
  -- any other `errno` ends the inner loop as well
  | .accepting _ rest, .acceptFailed => some { server with control := .handling rest }
  | .accepted infd event rest, .fcntl flags s =>
      if makeSocketNonBlocking flags s = -1 then some { server with control := .aborted }
      else some { server with control := .adding infd event rest }
  | .adding infd event rest, .epollCtl s =>
      if s = -1 then some { server with control := .aborted }
      else (kernel.epollCtlAdd infd).map fun kernel =>
        { server with kernel := kernel, control := .accepting event rest }
  | .reading event rest, .read count =>
      (kernel.read event.fd count).map fun (kernel, client, buf) =>
        { server with kernel := kernel, control := .writing client buf event rest }
  | .reading event rest, .readAgain =>
      if kernel.readAgain event.fd then some { server with control := .handling rest } else none
  | .reading event rest, .readEnd =>
      if kernel.readEnd event.fd then
        some { server with kernel := kernel.close event.fd, control := .handling rest }
      else none
  | .reading event rest, .readFailed =>
      if kernel.readFails event.fd then
        some { server with kernel := kernel.close event.fd, control := .handling rest }
      else none
  | .writing client buf event rest, .write =>
      some { server with
        control := .reading event rest, output := server.output ++ [(client, buf)] }
  -- the rest of the buffer is not written again
  | .writing client buf event rest, .writeShort s =>
      if s < buf.length then
        some { server with
          control := .reading event rest, output := server.output ++ [(client, buf.take s)] }
      else none
  | .writing _ _ _ _, .writeFailed => some { server with control := .aborted }
  | _, _ => none

def Server.step (sfd : Nat) (server : Server Client) : Action Client → Option (Server Client)
  | .arrival arrival =>
      (server.kernel.arrival arrival).map fun kernel => { server with kernel := kernel }
  | .reply reply => server.proceed sfd reply

/-- The head of the event loop, reached for the first time: the listening
socket is watched, and peers may have connected since `listen`. -/
structure Started (sfd : Nat) (server : Server Client) : Prop where
  control : server.control = .waiting
  output : server.output = []
  closes : server.kernel.closes = []
  listening : server.kernel.files sfd = some .listener
  once : ∀ fd, server.kernel.files fd = some .listener → fd = sfd
  noConnection : ∀ fd client, server.kernel.files fd ≠ some (.connection client)
  epoll : ∃ raised, server.kernel.epoll = EdgeSet.empty.add .listener sfd raised ∧
    (server.kernel.level .listener = true → raised = true)
  distinct : server.kernel.backlog.Nodup
  queued : ∀ client ∈ server.kernel.backlog,
    (server.kernel.connection client).connected = true ∧
      (server.kernel.connection client).closed = false ∧
      (server.kernel.connection client).unread = (server.kernel.connection client).arrived
  unused : ∀ client, client ∉ server.kernel.backlog →
    server.kernel.connection client = .unused

abbrev Run (sfd : Nat) (history : List (Action Client)) (server : Server Client) : Prop :=
  Trace (Started sfd) (fun before action after => before.step sfd action = some after)
    history server

end Step

end Poller

end Tpt
