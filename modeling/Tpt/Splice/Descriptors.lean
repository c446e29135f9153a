import Tpt.Splice.Termination

/-!
The descriptors of `tunnel_the_request`: the client socket, the origin-server
socket that `tcp_transparent_connect_to_server` creates, and the pipe of
`proxy_poll_and_tunnel`.
-/

namespace Tpt

namespace Splice

/-- The descriptors created and closed so far, and how often `proxy_info` was
freed. -/
structure Descriptors where
  opened : List Nat
  closed : List Nat
  freed : Nat
  deriving DecidableEq

def Descriptors.start : Descriptors := { opened := [], closed := [], freed := 0 }

def Descriptors.create (fds : Descriptors) (fd : Nat) : Descriptors :=
  { fds with opened := fd :: fds.opened }

def Descriptors.close (fds : Descriptors) (fd : Nat) : Descriptors :=
  { fds with closed := fd :: fds.closed }

def Descriptors.free (fds : Descriptors) : Descriptors := { fds with freed := fds.freed + 1 }

structure ProxyInfo where
  clientSocket : Nat
  osSocket : Nat
  deriving DecidableEq

/-- The answers to the calls of `tcp_transparent_connect_to_server`, the flags
that `fcntl` reads and writes, and the descriptors of a pipe. -/
structure Setup where
  gDestPort : Int
  socket : Option Nat
  reuseAddr : Bool
  transparent : Bool
  clientAton : Bool
  bind : Bool
  serverAton : Bool
  connect : Bool
  getfl : Bool
  setfl : Bool
  pipefd : Nat × Nat

/-- The port is in range; `g_dest_ip` is an array and is never `NULL`. -/
def Setup.ValidPort (setup : Setup) : Prop := 0 ≤ setup.gDestPort ∧ setup.gDestPort ≤ 65535

instance (setup : Setup) : Decidable setup.ValidPort := inferInstanceAs (Decidable (_ ∧ _))

/-- The result, `*local_socket` and the descriptors; a failure to reuse the
address is ignored. -/
def tcpTransparentConnectToServer (setup : Setup) (localSocket : Nat) (fds : Descriptors) :
    Int × Nat × Descriptors :=
  if setup.ValidPort then
    match setup.socket with
    | none => (-1, localSocket, fds)
    | some sock =>
        let fds := fds.create sock
        if setup.transparent then
          if setup.clientAton then
            if setup.bind then
              if setup.serverAton then
                if setup.connect then (0, sock, fds) else (-1, localSocket, fds)
              else (-1, localSocket, fds)
            else (-1, localSocket, fds)
          else (-1, localSocket, fds)
        else (-1, localSocket, fds)
  else (-1, localSocket, fds)

def setSocketNonBlocking (setup : Setup) : Int :=
  if setup.getfl then if setup.setfl then 0 else -1 else -1

/-- The pipe of `proxy_poll_and_tunnel`, whose first call is `pipe`: both ends
are closed at its `label`, and there are none if the call failed. -/
def pipeEnds (pipefd : Nat × Nat) (script : List Reply) (fds : Descriptors) : Descriptors :=
  match script.head?.map Reply.pipe with
  | some (.ok _) =>
      let fds := (fds.create pipefd.1).create pipefd.2
      (fds.close pipefd.1).close pipefd.2
  | _ => fds

/-- `label1` of `tunnel_the_request`. -/
def ProxyInfo.label1 (info : ProxyInfo) (fds : Descriptors) : Descriptors :=
  (fds.close info.clientSocket).free

def ProxyInfo.label (info : ProxyInfo) (fds : Descriptors) : Descriptors :=
  ((fds.close info.clientSocket).close info.osSocket).free

/-- `tunnel_the_request` with a `proxy_info`; there is no result while the
tunnel waits for a system call. -/
def tunnelTheRequest (gSpliceSize : Nat) (setup : Setup) (script : List Reply)
    (info : ProxyInfo) : Option Descriptors :=
  let (ret, osSocket, fds) := tcpTransparentConnectToServer setup info.osSocket .start
  let info := { info with osSocket }
  if ret ≠ 0 then some (info.label1 fds)
  else if setSocketNonBlocking setup < 0 then some (info.label fds)
  else
    match proxyPollAndTunnel gSpliceSize script Tunnel.start with
    | .done ret _ _ =>
        let fds := pipeEnds setup.pipefd script fds
        if ret < 0 then some (info.label fds)
        else if ret = 0 then some (info.label fds)
        else some (info.label1 fds)
    | .starved _ => none
    | .diverged => none

/-- Every descriptor was closed once and no other, and `proxy_info` freed
once. -/
def Balanced (info : ProxyInfo) (fds : Descriptors) : Prop :=
  fds.closed.Perm (info.clientSocket :: fds.opened) ∧ fds.freed = 1

/-- Whenever the call returns, the descriptors are balanced. -/
def Conserved (gSpliceSize : Nat) (setup : Setup) (script : List Reply) (info : ProxyInfo) :
    Prop :=
  ∀ fds, tunnelTheRequest gSpliceSize setup script info = some fds → Balanced info fds

structure Setup.Connects (setup : Setup) : Prop where
  transparent : setup.transparent = true
  clientAton : setup.clientAton = true
  bind : setup.bind = true
  serverAton : setup.serverAton = true
  connect : setup.connect = true

section Calls

variable {gSpliceSize : Nat} {setup : Setup} {script : List Reply} {info : ProxyInfo}

theorem afterTransfer_nonpos (ret : Int) :
    Sum.elim (fun _ => True) (fun ret => ret ≤ 0) (afterTransfer ret) := by
  unfold afterTransfer
  split
  · exact show (-1 : Int) ≤ 0 by decide
  · split
    case isTrue closed => exact closed.le
    case isFalse => trivial

theorem triple_proxyPollAndTunnelBody_nonpos (gSpliceSize : Nat) :
    Triple (fun _ => True) (fun _ => True) (proxyPollAndTunnelBody gSpliceSize)
      (Sum.elim (fun _ _ => True) fun ret _ => ret ≤ 0) := by
  have error : (-1 : Int) ≤ 0 := by decide
  have transferred : ∀ ret state, Sum.elim (fun _ _ => True) (fun ret (_ : Tunnel) => ret ≤ 0)
      (afterTransfer ret) state := by
    intro ret state
    have nonpos := afterTransfer_nonpos ret
    cases transfer : afterTransfer ret with
    | inl next => trivial
    | inr ret =>
        rw [transfer] at nonpos
        exact nonpos
  apply Triple.bind (Triple.trivial poll)
  intro polled
  rcases polled with errno | (_ | ⟨client, os⟩)
  · exact Triple.ret fun _ _ => error
  · exact Triple.ret fun _ _ => error
  · dsimp only
    split
    · apply Triple.bind (Triple.trivial proxyRecvAndSend)
      intro ret
      exact Triple.ret fun state _ => transferred ret state
    · split
      · apply Triple.bind (Triple.trivial (makeSplice gSpliceSize))
        intro ret
        exact Triple.ret fun state _ => transferred ret state
      · exact Triple.ret fun _ _ => trivial

theorem proxyPollAndTunnel_nonpos
    {ret : Int} {state : Tunnel} {rest : List Reply}
    (returned : proxyPollAndTunnel gSpliceSize script Tunnel.start = .done ret state rest) :
    ret ≤ 0 := by
  have triple : Triple (fun _ => True) (fun _ => True) (proxyPollAndTunnel gSpliceSize)
      (fun ret _ => ret ≤ 0) := by
    apply Triple.bind (Triple.trivial pipe)
    intro answer
    cases answer with
    | failed errno => exact Triple.ret fun _ _ => show (-1 : Int) ≤ 0 by decide
    | ok _ => exact Triple.loop (fun _ => triple_proxyPollAndTunnelBody_nonpos gSpliceSize) ()
  have met := triple script Tunnel.start trivial
  rw [returned] at met
  exact met

theorem tcpTransparentConnectToServer_cases
    (setup : Setup) (localSocket : Nat) (fds : Descriptors) :
    ((¬ setup.ValidPort ∨ setup.socket = none) ∧
        tcpTransparentConnectToServer setup localSocket fds = (-1, localSocket, fds)) ∨
      ∃ sock, setup.ValidPort ∧ setup.socket = some sock ∧
        ((setup.Connects ∧
            tcpTransparentConnectToServer setup localSocket fds = (0, sock, fds.create sock)) ∨
          (¬ setup.Connects ∧
            tcpTransparentConnectToServer setup localSocket fds =
              (-1, localSocket, fds.create sock))) := by
  unfold tcpTransparentConnectToServer
  by_cases valid : setup.ValidPort
  · rw [if_pos valid]
    cases socket : setup.socket with
    | none => exact .inl ⟨.inr rfl, rfl⟩
    | some sock =>
        refine .inr ⟨sock, valid, rfl, ?_⟩
        by_cases connects : setup.Connects
        · refine .inl ⟨connects, ?_⟩
          simp only [connects.transparent, connects.clientAton, connects.bind, connects.serverAton,
            connects.connect, if_true]
        · refine .inr ⟨connects, ?_⟩
          simp only
          split_ifs with transparent clientAton bind serverAton connect
          · exact absurd ⟨transparent, clientAton, bind, serverAton, connect⟩ connects
          all_goals rfl
  · rw [if_neg valid]
    exact .inl ⟨.inl valid, rfl⟩

theorem balanced_label
    (info : ProxyInfo) (sock : Nat) :
    Balanced info (({ info with osSocket := sock } : ProxyInfo).label
      (Descriptors.start.create sock)) :=
  ⟨@List.perm_append_comm _ [sock] [info.clientSocket], rfl⟩

theorem balanced_label_pipe
    (setup : Setup) (script : List Reply) (info : ProxyInfo) (sock : Nat) :
    Balanced info (({ info with osSocket := sock } : ProxyInfo).label
      (pipeEnds setup.pipefd script (Descriptors.start.create sock))) := by
  unfold pipeEnds
  split
  · refine ⟨?_, rfl⟩
    exact @List.perm_append_comm _ [sock] [info.clientSocket, setup.pipefd.2, setup.pipefd.1]
  · exact balanced_label info sock

theorem tunnelTheRequest_waits
    (waits : tunnelTheRequest gSpliceSize setup script info = none) :
    ∃ tunnel, proxyPollAndTunnel gSpliceSize script Tunnel.start = .starved tunnel := by
  have ends := ends_proxyPollAndTunnel gSpliceSize script Tunnel.start
  simp only [tunnelTheRequest] at waits
  split at waits
  · cases waits
  · split at waits
    · cases waits
    · cases tunnelled : proxyPollAndTunnel gSpliceSize script Tunnel.start with
      | done ret state rest =>
          rw [tunnelled] at waits
          simp only at waits
          split_ifs at waits
      | starved tunnel => exact ⟨tunnel, rfl⟩
      | diverged =>
          rw [tunnelled] at ends
          exact ends.elim

theorem conserved_of_connects
    {sock : Nat} (socket : tcpTransparentConnectToServer setup info.osSocket .start =
      (0, sock, Descriptors.start.create sock)) :
    Conserved gSpliceSize setup script info := by
  intro fds returned
  simp only [tunnelTheRequest, socket, ne_eq, not_true, if_false] at returned
  split at returned
  · cases returned
    exact balanced_label info sock
  · cases tunnelled : proxyPollAndTunnel gSpliceSize script Tunnel.start with
    | done ret state rest =>
        have nonpos := proxyPollAndTunnel_nonpos tunnelled
        rw [tunnelled] at returned
        simp only at returned
        split_ifs at returned with negative zero
        · cases returned
          exact balanced_label_pipe setup script info sock
        · cases returned
          exact balanced_label_pipe setup script info sock
        · omega
    | starved tunnel =>
        rw [tunnelled] at returned
        cases returned
    | diverged =>
        rw [tunnelled] at returned
        cases returned

theorem tunnelTheRequest_unconnected
    {fds : Descriptors} (failed : tcpTransparentConnectToServer setup info.osSocket .start =
      (-1, info.osSocket, fds)) :
    tunnelTheRequest gSpliceSize setup script info = some (info.label1 fds) := by
  simp only [tunnelTheRequest, failed]
  rfl

/-- The descriptors are balanced exactly when no socket is created or the one
created is connected. -/
theorem descriptors_conserved_iff
    (gSpliceSize : Nat) (setup : Setup) (script : List Reply) (info : ProxyInfo) :
    Conserved gSpliceSize setup script info ↔
      ¬ setup.ValidPort ∨ setup.socket = none ∨ setup.Connects := by
  rcases tcpTransparentConnectToServer_cases setup info.osSocket .start with
    ⟨absent, failed⟩ | ⟨sock, valid, socket, ⟨connects, connected⟩ | ⟨unconnected, failed⟩⟩
  · refine ⟨fun _ => ?_, fun _ fds returned => ?_⟩
    · rcases absent with invalid | missing
      · exact .inl invalid
      · exact .inr (.inl missing)
    · rw [tunnelTheRequest_unconnected failed] at returned
      cases returned
      exact ⟨.refl _, rfl⟩
  · exact ⟨fun _ => .inr (.inr connects), fun _ => conserved_of_connects connected⟩
  · constructor
    · intro conserved
      obtain ⟨permuted, _⟩ := conserved _ (tunnelTheRequest_unconnected failed)
      cases permuted.length_eq
    · rintro (invalid | missing | connects)
      · exact absurd valid invalid
      · cases missing.symm.trans socket
      · exact absurd connects unconnected

/-- The origin server refuses the connection, and its socket stays open. -/
theorem refused_server_leaks_socket :
    ¬ Conserved 4096
      { gDestPort := 80
        socket := some 6
        reuseAddr := true
        transparent := true
        clientAton := true
        bind := true
        serverAton := true
        connect := false
        getfl := true
        setfl := true
        pipefd := (7, 8) } [] { clientSocket := 5, osSocket := 0 } := by
  intro conserved
  obtain ⟨permuted, _⟩ := conserved { opened := [6], closed := [5], freed := 1 } rfl
  cases permuted.length_eq

end Calls

end Splice

end Tpt
