import ResourceManager.Comms.Addresses
import ResourceManager.Comms.Connections
import ResourceManager.Library.Runs

/-!
# The connection table and the open descriptors

`Sockets` is the connection table together with what the kernel knows: which descriptors
are open and who is at their other end. Every event of the agent that opens, registers,
clears or closes a descriptor is one step. The table names open descriptors with the
recorded peers as long as the dead-node collector closes nothing and connections are opened
to ports of 16 bits (`connection_table_iff`).
-/

namespace ResourceManager

open Library.Runs

/-! ## Lookups -/

section Lookup

variable {connections : Connections} {ip : Ip} {port : UInt32}

/-- The entry is an active connection to the address. -/
def ConnectionState.LeadsTo (entry : ConnectionState) (ip : Ip) (port : UInt32) : Prop :=
  entry.isActive = true ∧ entry.ip = ip ∧ entry.port = port

theorem take_text (ip : Ip) : ip.text.take 15 = ip.text := List.take_of_length_le ip.fits

theorem ip_ext {ip ip' : Ip} (h : ip.text = ip'.text) : ip = ip' := by
  cases ip
  cases ip'
  cases h
  rfl

theorem findFdByIpPort_some {fd : Fin maxFds} (h : findFdByIpPort connections ip port = some fd) :
    (connections fd).LeadsTo ip port := by
  have hfound := List.find?_some h
  simp only [Bool.and_eq_true, decide_eq_true_eq, take_text] at hfound
  exact ⟨hfound.1.1, ip_ext hfound.2, hfound.1.2⟩

theorem findFdByIpPort_none : findFdByIpPort connections ip port = none ↔
    ∀ fd, ¬ (connections fd).LeadsTo ip port := by
  rw [findFdByIpPort, List.find?_eq_none]
  simp only [Bool.and_eq_true, decide_eq_true_eq, take_text, List.mem_finRange, forall_const]
  constructor
  · rintro h fd ⟨hactive, rfl, rfl⟩
    exact h fd ⟨⟨hactive, rfl⟩, rfl⟩
  · rintro h fd ⟨⟨hactive, hport⟩, hip⟩
    exact h fd ⟨hactive, ip_ext hip, hport⟩

end Lookup

/-! ## Descriptors -/

/-- The other end of an open descriptor, and whether the agent opened the connection. -/
structure Peer where
  addr : ℕ
  port : UInt16
  outgoing : Bool

structure Sockets where
  peers : ℕ → Option Peer
  connections : Connections

namespace Sockets

/-- The kernel hands out a descriptor. -/
def opened (s : Sockets) (fd : ℕ) (peer : Peer) : Sockets :=
  { s with peers := Function.update s.peers fd (some peer) }

/-- `close`. -/
def close (s : Sockets) (fd : ℕ) : Sockets := { s with peers := Function.update s.peers fd none }

/-- The entry of a new connection. -/
def register (s : Sockets) (fd : Fin maxFds) (ip : Ip) (port : UInt32) : Sockets :=
  { s with connections := Function.update s.connections fd ⟨true, ip, port⟩ }

/-- The entry of a connection that has ended. -/
def clear (s : Sockets) (fd : Fin maxFds) : Sockets :=
  { s with connections := Function.update s.connections fd ⟨false, ⟨[], Nat.zero_le 15⟩, 0⟩ }

/-- `handle_new_tcp_connection`, when `accept` returns `clientFd`. A descriptor from
`MAX_FDS` on stays open without an entry. -/
def handleNewTcpConnection (s : Sockets) (clientFd : ℕ) (a b c d : UInt8) (port : UInt16) :
    Sockets :=
  let s := s.opened clientFd ⟨addrOfBytes a b c d, port, false⟩
  if h : clientFd < maxFds then s.register ⟨clientFd, h⟩ (inetNtoa a b c d) 0 else s

/-- `connect_to_tcp_node`, when it returns `newFd`. `htons` keeps 16 bits of the port. -/
def connectToTcpNode (s : Sockets) (targetIp : Ip) (targetPort : UInt32) (newFd : ℕ) : Sockets :=
  s.opened newFd ⟨inetAddr targetIp, targetPort.toUInt16, true⟩

/-- What `send_outbox` does with a descriptor just opened. -/
def registerNew (s : Sockets) (targetIp : Ip) (targetPort : UInt32) (newFd : ℕ) : Sockets :=
  if h : newFd < maxFds then s.register ⟨newFd, h⟩ targetIp targetPort else s.close newFd

/-- An iteration of `send_outbox` for a message that is routed by address. The result of
`connect_to_tcp_node` is `newFd`, or `none` for `-1`. -/
def sendRouted (s : Sockets) (targetIp : Ip) (targetPort : UInt32) (newFd : Option ℕ) : Sockets :=
  match findFdByIpPort s.connections targetIp targetPort, newFd with
  | none, some newFd =>
    (s.connectToTcpNode targetIp targetPort newFd).registerNew targetIp targetPort newFd
  | _, _ => s

/-- `handle_connection_success`, with what `getsockopt` reports. -/
def handleConnectionSuccess (s : Sockets) (currFd : Fin maxFds) (connected : Bool) : Sockets :=
  if connected then s else (s.clear currFd).close currFd

/-- The end of `handle_client_message` when the peer has closed the connection. -/
def clientDisconnected (s : Sockets) (currFd : Fin maxFds) : Sockets :=
  (s.close currFd).clear currFd

/-- What `handle_check_deadnodes` does to the descriptor of a dead node. -/
def closeZombie (s : Sockets) (deadIp : Ip) (deadPort : UInt32) : Sockets :=
  match findFdByIpPort s.connections deadIp deadPort with
  | none => s
  | some zombieFd => s.close zombieFd

/-! ## Entries and descriptors after an event -/

variable (s : Sockets)

theorem connections_handleNewTcpConnection (clientFd : ℕ) (a b c d : UInt8) (port : UInt16)
    (fd : Fin maxFds) : (s.handleNewTcpConnection clientFd a b c d port).connections fd =
      if (fd : ℕ) = clientFd then ⟨true, inetNtoa a b c d, 0⟩ else s.connections fd := by
  unfold handleNewTcpConnection
  dsimp only
  split
  · rename_i hlt
    simp only [register, opened, Function.update_apply, Fin.ext_iff]
  · rename_i hge
    rw [if_neg]
    · rfl
    · have hlt := fd.isLt
      omega

theorem peers_handleNewTcpConnection (clientFd : ℕ) (a b c d : UInt8) (port : UInt16) (x : ℕ) :
    (s.handleNewTcpConnection clientFd a b c d port).peers x =
      if x = clientFd then some ⟨addrOfBytes a b c d, port, false⟩ else s.peers x := by
  unfold handleNewTcpConnection
  dsimp only
  split <;> exact Function.update_apply s.peers clientFd _ x

theorem peers_connectToTcpNode (targetIp : Ip) (targetPort : UInt32) (newFd x : ℕ) :
    (s.connectToTcpNode targetIp targetPort newFd).peers x =
      if x = newFd then some ⟨inetAddr targetIp, targetPort.toUInt16, true⟩ else s.peers x :=
  Function.update_apply s.peers newFd _ x

theorem connections_registerNew (targetIp : Ip) (targetPort : UInt32) (newFd : ℕ)
    (fd : Fin maxFds) : (s.registerNew targetIp targetPort newFd).connections fd =
      if (fd : ℕ) = newFd then ⟨true, targetIp, targetPort⟩ else s.connections fd := by
  unfold registerNew
  split
  · rename_i hlt
    simp only [register, Function.update_apply, Fin.ext_iff]
  · rename_i hge
    rw [if_neg]
    · rfl
    · have hlt := fd.isLt
      omega

theorem peers_registerNew_of_ne (targetIp : Ip) (targetPort : UInt32) {newFd x : ℕ}
    (hx : x ≠ newFd ∨ newFd < maxFds) :
    (s.registerNew targetIp targetPort newFd).peers x = s.peers x := by
  unfold registerNew
  split
  · rfl
  · rename_i hge
    exact Function.update_of_ne (hx.resolve_right hge) _ _

theorem connections_clientDisconnected (currFd fd : Fin maxFds) :
    (s.clientDisconnected currFd).connections fd =
      if fd = currFd then ⟨false, ⟨[], Nat.zero_le 15⟩, 0⟩ else s.connections fd :=
  Function.update_apply s.connections currFd _ fd

theorem peers_clientDisconnected (currFd : Fin maxFds) (x : ℕ) :
    (s.clientDisconnected currFd).peers x = if x = currFd then none else s.peers x :=
  Function.update_apply s.peers (currFd : ℕ) _ x

/-- A failed connection ends like one that the peer has closed. -/
theorem handleConnectionSuccess_false (currFd : Fin maxFds) :
    s.handleConnectionSuccess currFd false = s.clientDisconnected currFd := rfl

end Sockets

inductive SocketEvent where
  | accepted (clientFd : ℕ) (a b c d : UInt8) (port : UInt16)
  | routed (targetIp : Ip) (targetPort : UInt32) (newFd : Option ℕ)
  | connectResult (currFd : Fin maxFds) (connected : Bool)
  | disconnected (currFd : Fin maxFds)
  | deadNode (deadIp : Ip) (deadPort : UInt32)

def socketStep (s : Sockets) : SocketEvent → Sockets
  | .accepted clientFd a b c d port => s.handleNewTcpConnection clientFd a b c d port
  | .routed targetIp targetPort newFd => s.sendRouted targetIp targetPort newFd
  | .connectResult currFd connected => s.handleConnectionSuccess currFd connected
  | .disconnected currFd => s.clientDisconnected currFd
  | .deadNode deadIp deadPort => s.closeZombie deadIp deadPort

/-- Before the first event. -/
def Sockets.start : Sockets where
  peers := fun _ => none
  connections := fun _ => ⟨false, ⟨[], Nat.zero_le 15⟩, 0⟩

/-! ## The table and the kernel -/

/-- The descriptor is open, and at its other end is the address. The port is compared for
the connections that the agent opened. -/
def Sockets.OpenTo (s : Sockets) (fd : ℕ) (ip : Ip) (port : UInt32) : Prop :=
  ∃ peer, s.peers fd = some peer ∧ peer.addr = inetAddr ip ∧
    (peer.outgoing = true → peer.port.toNat = port.toNat)

/-- Every active entry is about an open descriptor with the recorded peer. -/
def NamesPeers (s : Sockets) : Prop :=
  ∀ fd, (s.connections fd).isActive = true →
    s.OpenTo fd (s.connections fd).ip (s.connections fd).port

/-- What a lookup finds is open and leads to the address. -/
def LookupSound (s : Sockets) : Prop :=
  ∀ ip port fd, findFdByIpPort s.connections ip port = some fd → s.OpenTo fd ip port

theorem NamesPeers.lookupSound {s : Sockets} (h : NamesPeers s) : LookupSound s := by
  intro ip port fd hfind
  obtain ⟨hactive, rfl, rfl⟩ := findFdByIpPort_some hfind
  exact h fd hactive

/-- The collector finds no connection to the dead node, and a new connection goes to a port
of 16 bits. -/
def KeepsTable (s : Sockets) : SocketEvent → Prop
  | .deadNode deadIp deadPort => findFdByIpPort s.connections deadIp deadPort = none
  | .routed targetIp targetPort newFd =>
    findFdByIpPort s.connections targetIp targetPort = none →
      ∀ fd ∈ newFd, fd < maxFds → targetPort.toNat ≤ 65535
  | _ => True

section Steps

variable {s : Sockets} {fd : ℕ} {peer : Peer} {ip : Ip} {port : UInt32}

theorem toNat_toUInt16 (port : UInt32) :
    port.toUInt16.toNat = port.toNat ↔ port.toNat ≤ 65535 := by
  rw [UInt32.toNat_toUInt16]
  omega

/-- A descriptor is opened and registered. -/
theorem namesPeers_register (h : NamesPeers s) (hfd : fd < maxFds) :
    NamesPeers ((s.opened fd peer).register ⟨fd, hfd⟩ ip port) ↔
      peer.addr = inetAddr ip ∧ (peer.outgoing = true → peer.port.toNat = port.toNat) := by
  constructor
  · intro hnew
    have hentry := hnew ⟨fd, hfd⟩
    simp only [Sockets.register, Sockets.opened, Function.update_self, Sockets.OpenTo,
      forall_const, Option.some.injEq, exists_eq_left'] at hentry
    exact hentry
  · intro hpeer fd' hactive
    by_cases he : fd' = ⟨fd, hfd⟩
    · subst he
      simp only [Sockets.register, Sockets.opened, Function.update_self, Sockets.OpenTo,
        Option.some.injEq, exists_eq_left']
      exact hpeer
    · have hne : (fd' : ℕ) ≠ fd := fun hval => he (Fin.ext hval)
      simp only [Sockets.register, Sockets.opened, Function.update_of_ne he, Sockets.OpenTo,
        Function.update_of_ne hne] at hactive ⊢
      exact h fd' hactive

/-- A descriptor without an entry may be opened and closed. -/
theorem namesPeers_of_peers {s' : Sockets} (h : NamesPeers s)
    (hconnections : s'.connections = s.connections)
    (hpeers : ∀ fd : Fin maxFds, s'.peers fd = s.peers fd) : NamesPeers s' := by
  intro fd hactive
  unfold Sockets.OpenTo
  rw [hconnections] at hactive ⊢
  rw [hpeers]
  exact h fd hactive

theorem namesPeers_opened_of_le (h : NamesPeers s) (hfd : ¬ fd < maxFds) :
    NamesPeers (s.opened fd peer) := by
  refine namesPeers_of_peers h rfl fun fd' => Function.update_of_ne ?_ _ _
  have hlt := fd'.isLt
  omega

theorem namesPeers_close_of_le (h : NamesPeers s) (hfd : ¬ fd < maxFds) :
    NamesPeers (s.close fd) := by
  refine namesPeers_of_peers h rfl fun fd' => Function.update_of_ne ?_ _ _
  have hlt := fd'.isLt
  omega

/-- A connection ends: the order of `close` and of the change of the table plays no role. -/
theorem namesPeers_close_clear (h : NamesPeers s) (fd : Fin maxFds) :
    NamesPeers ((s.close fd).clear fd) := by
  intro fd' hactive
  by_cases he : fd' = fd
  · subst he
    simp [Sockets.clear] at hactive
  · have hne : (fd' : ℕ) ≠ fd := fun hval => he (Fin.ext hval)
    simp only [Sockets.clear, Sockets.close, Function.update_of_ne he, Sockets.OpenTo,
      Function.update_of_ne hne] at hactive ⊢
    exact h fd' hactive

theorem namesPeers_closeZombie (h : NamesPeers s) (deadIp : Ip) (deadPort : UInt32) :
    NamesPeers (s.closeZombie deadIp deadPort) ↔
      findFdByIpPort s.connections deadIp deadPort = none := by
  unfold Sockets.closeZombie
  cases hfind : findFdByIpPort s.connections deadIp deadPort with
  | none => exact iff_of_true h rfl
  | some zombieFd =>
    -- the entry is still active, and its descriptor is closed
    refine iff_of_false (fun hnew => ?_) (Option.some_ne_none zombieFd)
    obtain ⟨peer, hpeer, _⟩ := hnew zombieFd (findFdByIpPort_some hfind).1
    simp only [Sockets.close, Function.update_self] at hpeer
    cases hpeer

theorem namesPeers_sendRouted (h : NamesPeers s) (targetIp : Ip) (targetPort : UInt32)
    (newFd : Option ℕ) : NamesPeers (s.sendRouted targetIp targetPort newFd) ↔
      KeepsTable s (.routed targetIp targetPort newFd) := by
  unfold Sockets.sendRouted KeepsTable
  dsimp only
  cases hfind : findFdByIpPort s.connections targetIp targetPort with
  | some fd => exact iff_of_true h fun he => absurd he (Option.some_ne_none fd)
  | none =>
    cases newFd with
    | none => exact iff_of_true h fun _ fd hfd => absurd hfd (Option.not_mem_none fd)
    | some newFd =>
      simp only [forall_const, Option.mem_some_iff, forall_eq']
      unfold Sockets.registerNew Sockets.connectToTcpNode
      by_cases hlt : newFd < maxFds
      · rw [dif_pos hlt, namesPeers_register h hlt]
        simp only [forall_const, true_and, toNat_toUInt16, hlt]
      · rw [dif_neg hlt]
        exact iff_of_true (namesPeers_close_of_le (namesPeers_opened_of_le h hlt) hlt)
          fun hlt' => absurd hlt' hlt

/-- An event leads from a sound table to a sound table exactly under the condition. -/
theorem namesPeers_step (h : NamesPeers s) (e : SocketEvent) :
    NamesPeers (socketStep s e) ↔ KeepsTable s e := by
  cases e with
  | accepted clientFd a b c d port =>
    refine iff_of_true ?_ trivial
    unfold socketStep Sockets.handleNewTcpConnection
    dsimp only
    split
    · rename_i hlt
      rw [namesPeers_register h hlt]
      exact ⟨(inetAddr_inetNtoa a b c d).symm, fun he => by cases he⟩
    · rename_i hlt
      exact namesPeers_opened_of_le h hlt
  | routed targetIp targetPort newFd => exact namesPeers_sendRouted h targetIp targetPort newFd
  | connectResult currFd connected =>
    refine iff_of_true ?_ trivial
    unfold socketStep Sockets.handleConnectionSuccess
    dsimp only
    split
    · exact h
    · exact namesPeers_close_clear h currFd
  | disconnected currFd => exact iff_of_true (namesPeers_close_clear h currFd) trivial
  | deadNode deadIp deadPort => exact namesPeers_closeZombie h deadIp deadPort

end Steps

theorem namesPeers_start : NamesPeers .start := fun _ h => by cases h

/-- In every run, whatever descriptors the kernel hands out: the table names open
descriptors with the recorded peers in every state reached, and lookups find only such,
exactly when the collector never finds a connection to close and no connection is opened to
a port of more than 16 bits. -/
theorem connection_table_iff (es : List SocketEvent) :
    Along socketStep (fun s e => NamesPeers (socketStep s e) ∧ LookupSound (socketStep s e))
      .start es ↔ Along socketStep KeepsTable .start es := by
  have hboth : ∀ s, NamesPeers s ∧ LookupSound s ↔ NamesPeers s := fun s =>
    ⟨And.left, fun h => ⟨h, h.lookupSound⟩⟩
  simp only [hboth]
  exact @along_iff _ _ socketStep (fun _ => True) NamesPeers KeepsTable (fun _ _ => True)
    (fun _ _ _ _ => trivial) (fun _ e _ h _ => namesPeers_step h e) _ _ trivial namesPeers_start
    (along_of_forall fun _ _ => trivial)

/-! ## A closed descriptor in the table -/

/-- The kernel hands out a descriptor that is not open. -/
def Fresh (s : Sockets) : SocketEvent → Prop
  | .accepted clientFd _ _ _ _ _ => s.peers clientFd = none
  | .routed _ _ newFd => ∀ fd ∈ newFd, s.peers fd = none
  | _ => True

/-- The agent has connected to a node that expires: the entry stays when its descriptor is
closed. -/
theorem connection_table_zombie : ¬ ∀ es : List SocketEvent, Along socketStep Fresh .start es →
    NamesPeers (run socketStep .start es) ∧ LookupSound (run socketStep .start es) := by
  intro h
  have hone : NamesPeers (socketStep .start (.routed (inetNtoa 10 0 0 2) 8000 (some 5))) := by
    apply (namesPeers_step namesPeers_start _).mpr
    intro _ fd _ _
    decide
  have hfind : (findFdByIpPort (socketStep .start (.routed (inetNtoa 10 0 0 2) 8000
      (some 5))).connections (inetNtoa 10 0 0 2) 8000).isSome = true := by
    decide +kernel
  have htwo := (h [.routed (inetNtoa 10 0 0 2) 8000 (some 5), .deadNode (inetNtoa 10 0 0 2) 8000]
    ⟨fun _ _ => rfl, trivial, trivial⟩).1
  rw [run_cons, run_cons, run_nil] at htwo
  have hnone : findFdByIpPort _ _ _ = none := (namesPeers_step hone _).mp htwo
  rw [hnone] at hfind
  cases hfind

end ResourceManager
