import ResourceManager.Comms.Descriptors

/-!
# Workers that send at the same time

`send_outbox` looks a connection up under the read lock, connects, and registers the new
connection under the write lock. `Workers` interleaves these steps of any number of workers
with the events of the connections. There is one connection for each node in every state
exactly when each registration happens while the lookup would still miss; then the messages
to a node travel on one socket until it is closed (`one_connection_iff`).
-/

namespace ResourceManager

open Library.Runs

/-! ## Steps -/

/-- How far a worker is with the current message of its outbox. -/
inductive Phase where
  | idle
  | missed (targetIp : Ip) (targetPort : UInt32)
  | connected (targetIp : Ip) (targetPort : UInt32) (newFd : ℕ)

/-- What can be seen of a socket. -/
inductive SocketObs where
  | travels (targetIp : Ip) (targetPort : UInt32) (fd : Fin maxFds)
  | closed (fd : Fin maxFds)
deriving DecidableEq

/-- The sockets, the workers, and what has been seen, the last observation first. -/
structure Workers where
  sockets : Sockets
  phase : ℕ → Phase
  seen : List SocketObs

inductive WorkerEvent where
  | lookup (w : ℕ) (targetIp : Ip) (targetPort : UInt32)
  | connect (w : ℕ) (newFd : Option ℕ)
  | register (w : ℕ)
  | accepted (clientFd : ℕ) (a b c d : UInt8) (port : UInt16)
  | connectResult (currFd : Fin maxFds) (connected : Bool)
  | disconnected (currFd : Fin maxFds)

namespace Workers

def setPhase (s : Workers) (w : ℕ) (phase : Phase) : Workers :=
  { s with phase := Function.update s.phase w phase }

/-- The lookup of a worker that takes the next message. If it finds a connection the
message is sent on it. -/
def lookup (s : Workers) (w : ℕ) (targetIp : Ip) (targetPort : UInt32) : Workers :=
  match s.phase w with
  | .idle =>
    match findFdByIpPort s.sockets.connections targetIp targetPort with
    | some target => { s with seen := .travels targetIp targetPort target :: s.seen }
    | none => s.setPhase w (.missed targetIp targetPort)
  | _ => s

/-- The call of `connect_to_tcp_node`. -/
def connect (s : Workers) (w : ℕ) (newFd : Option ℕ) : Workers :=
  match s.phase w, newFd with
  | .missed targetIp targetPort, some newFd =>
    { s with sockets := s.sockets.connectToTcpNode targetIp targetPort newFd }.setPhase w
      (.connected targetIp targetPort newFd)
  | .missed _ _, none => s.setPhase w .idle
  | _, _ => s

/-- The registration. The message waits in the entry and is sent on the new socket. -/
def register (s : Workers) (w : ℕ) : Workers :=
  match s.phase w with
  | .connected targetIp targetPort newFd =>
    let seen := if h : newFd < maxFds then .travels targetIp targetPort ⟨newFd, h⟩ :: s.seen
      else s.seen
    { s with sockets := s.sockets.registerNew targetIp targetPort newFd, seen := seen }.setPhase w
      .idle
  | _ => s

/-- `epoll_wait` reports only descriptors that have been registered. -/
def connectResult (s : Workers) (currFd : Fin maxFds) (connected : Bool) : Workers :=
  if (s.sockets.connections currFd).isActive && !connected then
    { s with
      sockets := s.sockets.handleConnectionSuccess currFd false
      seen := .closed currFd :: s.seen }
  else s

def disconnected (s : Workers) (currFd : Fin maxFds) : Workers :=
  if (s.sockets.connections currFd).isActive then
    { s with
      sockets := s.sockets.clientDisconnected currFd
      seen := .closed currFd :: s.seen }
  else s

/-- Before the first event. -/
def start : Workers where
  sockets := .start
  phase := fun _ => .idle
  seen := []

end Workers

def workerStep (s : Workers) : WorkerEvent → Workers
  | .lookup w targetIp targetPort => s.lookup w targetIp targetPort
  | .connect w newFd => s.connect w newFd
  | .register w => s.register w
  | .accepted clientFd a b c d port =>
    { s with sockets := s.sockets.handleNewTcpConnection clientFd a b c d port }
  | .connectResult currFd connected => s.connectResult currFd connected
  | .disconnected currFd => s.disconnected currFd

theorem Workers.sockets_lookup (s : Workers) (w : ℕ) (targetIp : Ip) (targetPort : UInt32) :
    (s.lookup w targetIp targetPort).sockets = s.sockets := by
  unfold Workers.lookup
  split
  · split <;> rfl
  · rfl

theorem Workers.connections_connect (s : Workers) (w : ℕ) (newFd : Option ℕ) :
    (s.connect w newFd).sockets.connections = s.sockets.connections := by
  unfold Workers.connect
  split <;> rfl

/-- A connection that fails ends like one that the peer has closed. -/
theorem Workers.connectResult_eq (s : Workers) (currFd : Fin maxFds) (connected : Bool) :
    s.connectResult currFd connected = if connected then s else s.disconnected currFd := by
  unfold Workers.connectResult
  cases connected with
  | true => rw [Bool.not_true, Bool.and_false, if_neg Bool.false_ne_true, if_pos rfl]
  | false =>
    rw [Bool.not_false, Bool.and_true, if_neg Bool.false_ne_true, Workers.disconnected,
      Sockets.handleConnectionSuccess_false]

/-- A worker that is not interleaved with others does what `sendRouted` does. -/
theorem sockets_alone {s : Workers} {w : ℕ} (h : s.phase w = .idle) (targetIp : Ip)
    (targetPort : UInt32) (newFd : Option ℕ) :
    (run workerStep s [.lookup w targetIp targetPort, .connect w newFd, .register w]).sockets =
      s.sockets.sendRouted targetIp targetPort newFd := by
  show (((s.lookup w targetIp targetPort).connect w newFd).register w).sockets = _
  unfold Workers.lookup Sockets.sendRouted
  rw [h]
  generalize findFdByIpPort s.sockets.connections targetIp targetPort = found
  cases found with
  | some target => simp only [Workers.connect, Workers.register, h]
  | none =>
    cases newFd with
    | none =>
      simp only [Workers.connect, Workers.register, Workers.setPhase, Function.update_self]
    | some newFd =>
      simp only [Workers.connect, Workers.register, Workers.setPhase, Function.update_self]

/-! ## What the property says -/

/-- An address with a port is that of one connection at most. -/
def OnePerNode (connections : Connections) : Prop :=
  ∀ ip port, 1 ≤ port → ∀ fd fd', (connections fd).LeadsTo ip port →
    (connections fd').LeadsTo ip port → fd = fd'

/-- The socket on which the last message to the address has travelled, unless it has been
closed since. -/
def route (ip : Ip) (port : UInt32) : List SocketObs → Option (Fin maxFds)
  | [] => none
  | .travels ip' port' fd :: seen => if ip' = ip ∧ port' = port then some fd else route ip port seen
  | .closed fd :: seen => (route ip port seen).filter fun fd' => fd' ≠ fd

/-- Messages to one node travel on one socket, until it is closed. -/
def SameSocket : List SocketObs → Prop
  | [] => True
  | .travels ip port fd :: seen =>
    (1 ≤ port → ∀ fd' ∈ route ip port seen, fd' = fd) ∧ SameSocket seen
  | .closed _ :: seen => SameSocket seen

/-- The kernel hands out descriptors that are not open. -/
def FreshFds (s : Workers) : WorkerEvent → Prop
  | .accepted clientFd _ _ _ _ _ => s.sockets.peers clientFd = none
  | .connect _ newFd => ∀ fd ∈ newFd, s.sockets.peers fd = none
  | _ => True

/-- A worker registers a connection while a lookup would still find none. -/
def StillMisses (s : Workers) : WorkerEvent → Prop
  | .register w => ∀ ip port newFd, s.phase w = .connected ip port newFd → newFd < maxFds →
    1 ≤ port → findFdByIpPort s.sockets.connections ip port = none
  | _ => True

/-! ## What the steps keep -/

/-- Active entries and the descriptors of the workers are open, and these are all different. -/
structure WorkersInv (s : Workers) : Prop where
  entries : ∀ fd, (s.sockets.connections fd).isActive = true → s.sockets.peers fd ≠ none
  opened : ∀ w ip port newFd, s.phase w = .connected ip port newFd →
    s.sockets.peers newFd ≠ none ∧
      ∀ fd : Fin maxFds, (fd : ℕ) = newFd → (s.sockets.connections fd).isActive = false
  distinct : ∀ w w' ip ip' port port' newFd, s.phase w = .connected ip port newFd →
    s.phase w' = .connected ip' port' newFd → w = w'

theorem workersInv_start : WorkersInv .start where
  entries := fun _ h => by cases h
  opened := fun _ _ _ _ h => by cases h
  distinct := fun _ _ _ _ _ _ _ h => by cases h

section Steps

variable {s : Workers}

theorem workersInv_setPhase (h : WorkersInv s) (w : ℕ) {phase : Phase}
    (hphase : ∀ ip port newFd, phase ≠ .connected ip port newFd) :
    WorkersInv (s.setPhase w phase) := by
  have hold : ∀ w' ip port newFd, (s.setPhase w phase).phase w' = .connected ip port newFd →
      s.phase w' = .connected ip port newFd := by
    intro w' ip port newFd hw'
    simp only [Workers.setPhase, Function.update_apply] at hw'
    split at hw'
    · exact absurd hw' (hphase ip port newFd)
    · exact hw'
  exact ⟨h.entries, fun w' ip port newFd hw' => h.opened w' ip port newFd (hold w' _ _ _ hw'),
    fun w' w'' _ _ _ _ newFd h' h'' =>
      h.distinct w' w'' _ _ _ _ newFd (hold w' _ _ _ h') (hold w'' _ _ _ h'')⟩

theorem workersInv_lookup (h : WorkersInv s) (w : ℕ) (ip : Ip) (port : UInt32) :
    WorkersInv (s.lookup w ip port) := by
  unfold Workers.lookup
  split
  · split
    · exact ⟨h.entries, h.opened, h.distinct⟩
    · exact workersInv_setPhase h w fun _ _ _ hne => by cases hne
  · exact h

theorem workersInv_connect (h : WorkersInv s) (w : ℕ) {newFd : Option ℕ}
    (hfresh : ∀ fd ∈ newFd, s.sockets.peers fd = none) : WorkersInv (s.connect w newFd) := by
  unfold Workers.connect
  split
  · rename_i ip port newFd hw
    have hnone := hfresh newFd rfl
    have hpeers : ∀ x, s.sockets.peers x ≠ none →
        (s.sockets.connectToTcpNode ip port newFd).peers x ≠ none := by
      intro x hx
      rw [Sockets.peers_connectToTcpNode]
      split
      · exact Option.some_ne_none _
      · exact hx
    -- no other worker can have been given the descriptor
    have hother : ∀ w' ip' port', s.phase w' ≠ .connected ip' port' newFd := fun w' ip' port' hw' =>
      (h.opened w' ip' port' newFd hw').1 hnone
    refine ⟨fun fd hactive => hpeers fd (h.entries fd hactive), fun w' ip' port' fd' hw' => ?_,
      fun w' w'' ip' ip'' port' port'' fd' hw' hw'' => ?_⟩
    · simp only [Workers.setPhase, Function.update_apply] at hw'
      split at hw'
      · cases hw'
        refine ⟨?_, fun fd hfd => ?_⟩
        · simp only [Workers.setPhase]
          rw [Sockets.peers_connectToTcpNode, if_pos rfl]
          exact Option.some_ne_none _
        · by_contra hactive
          rw [Bool.not_eq_false] at hactive
          exact h.entries fd hactive (hfd ▸ hnone)
      · obtain ⟨hopen, hinactive⟩ := h.opened w' ip' port' fd' hw'
        exact ⟨hpeers fd' hopen, hinactive⟩
    · simp only [Workers.setPhase, Function.update_apply] at hw' hw''
      split at hw' <;> split at hw''
      · rename_i he he'
        rw [he, he']
      · cases hw'
        exact absurd hw'' (hother w'' _ _)
      · cases hw''
        exact absurd hw' (hother w' _ _)
      · exact h.distinct w' w'' _ _ _ _ fd' hw' hw''
  · exact workersInv_setPhase h w fun _ _ _ hne => by cases hne
  · exact h

theorem workersInv_register (h : WorkersInv s) (w : ℕ) : WorkersInv (s.register w) := by
  unfold Workers.register
  split
  · rename_i ip port newFd hw
    have hopen := h.opened w ip port newFd hw
    have hphase : ∀ w' ip' port' fd', Function.update s.phase w .idle w' =
        .connected ip' port' fd' → s.phase w' = .connected ip' port' fd' ∧ fd' ≠ newFd := by
      intro w' ip' port' fd' hw'
      rw [Function.update_apply] at hw'
      split at hw'
      · cases hw'
      · rename_i hne
        refine ⟨hw', ?_⟩
        rintro rfl
        exact hne (h.distinct w' w _ _ _ _ fd' hw' hw)
    refine ⟨fun fd hactive => ?_, fun w' ip' port' fd' hw' => ?_,
      fun w' w'' _ _ _ _ fd' hw' hw'' => ?_⟩
    · simp only [Workers.setPhase] at hactive ⊢
      rw [Sockets.connections_registerNew] at hactive
      rw [Sockets.peers_registerNew_of_ne]
      · split at hactive
        · rename_i hfd
          rw [hfd]
          exact hopen.1
        · exact h.entries fd hactive
      · by_cases hfd : (fd : ℕ) = newFd
        · exact Or.inr (hfd ▸ fd.isLt)
        · exact Or.inl hfd
    · obtain ⟨hw', hne⟩ := hphase w' ip' port' fd' hw'
      obtain ⟨hopen', hinactive⟩ := h.opened w' ip' port' fd' hw'
      simp only [Workers.setPhase]
      rw [Sockets.peers_registerNew_of_ne _ _ _ (Or.inl hne)]
      refine ⟨hopen', fun fd hfd => ?_⟩
      rw [Sockets.connections_registerNew, if_neg (by rw [hfd]; exact hne)]
      exact hinactive fd hfd
    · exact h.distinct w' w'' _ _ _ _ fd' (hphase w' _ _ _ hw').1 (hphase w'' _ _ _ hw'').1
  · exact h

theorem workersInv_accepted (h : WorkersInv s) {clientFd : ℕ}
    (hfresh : s.sockets.peers clientFd = none) (a b c d : UInt8) (port : UInt16) :
    WorkersInv { s with sockets := s.sockets.handleNewTcpConnection clientFd a b c d port } := by
  have hpeers : ∀ x, s.sockets.peers x ≠ none →
      (s.sockets.handleNewTcpConnection clientFd a b c d port).peers x ≠ none := by
    intro x hx
    rw [Sockets.peers_handleNewTcpConnection]
    split
    · exact Option.some_ne_none _
    · exact hx
  refine ⟨fun fd hactive => ?_, fun w ip port' newFd hw => ?_, h.distinct⟩
  · dsimp only at hactive ⊢
    rw [Sockets.connections_handleNewTcpConnection] at hactive
    split at hactive
    · rename_i hfd
      rw [Sockets.peers_handleNewTcpConnection, if_pos hfd]
      exact Option.some_ne_none _
    · exact hpeers fd (h.entries fd hactive)
  · obtain ⟨hopen, hinactive⟩ := h.opened w ip port' newFd hw
    refine ⟨hpeers newFd hopen, fun fd hfd => ?_⟩
    dsimp only
    rw [Sockets.connections_handleNewTcpConnection, if_neg]
    · exact hinactive fd hfd
    · rintro rfl
      rw [← hfd] at hopen
      exact hopen hfresh

theorem workersInv_disconnected (h : WorkersInv s) (currFd : Fin maxFds) :
    WorkersInv (s.disconnected currFd) := by
  unfold Workers.disconnected
  split
  · rename_i hactive
    refine ⟨fun fd hfd => ?_, fun w ip port newFd hw => ?_, h.distinct⟩
    · dsimp only at hfd ⊢
      rw [Sockets.connections_clientDisconnected] at hfd
      split at hfd
      · cases hfd
      · rename_i hne
        rw [Sockets.peers_clientDisconnected, if_neg fun he => hne (Fin.ext he)]
        exact h.entries fd hfd
    · obtain ⟨hopen, hinactive⟩ := h.opened w ip port newFd hw
      dsimp only
      constructor
      · rw [Sockets.peers_clientDisconnected, if_neg]
        · exact hopen
        · rintro rfl
          rw [hinactive currFd rfl] at hactive
          cases hactive
      · intro fd hfd
        rw [Sockets.connections_clientDisconnected]
        split
        · rfl
        · exact hinactive fd hfd
  · exact h

theorem workersInv_step (s : Workers) (e : WorkerEvent) (h : WorkersInv s) (hfresh : FreshFds s e) :
    WorkersInv (workerStep s e) := by
  cases e with
  | lookup w ip port => exact workersInv_lookup h w ip port
  | connect w newFd => exact workersInv_connect h w hfresh
  | register w => exact workersInv_register h w
  | accepted clientFd a b c d port => exact workersInv_accepted h hfresh a b c d port
  | connectResult currFd connected =>
    show WorkersInv (s.connectResult currFd connected)
    rw [Workers.connectResult_eq]
    split
    · exact h
    · exact workersInv_disconnected h currFd
  | disconnected currFd => exact workersInv_disconnected h currFd

/-! ## One connection for each node -/

/-- Entries that carry an address with a port are among the old ones. -/
theorem OnePerNode.of_old {connections connections' : Connections} (h : OnePerNode connections)
    (hold : ∀ fd ip port, 1 ≤ port → (connections' fd).LeadsTo ip port →
      (connections fd).LeadsTo ip port) : OnePerNode connections' :=
  fun ip port hport fd fd' hfd hfd' =>
    h ip port hport fd fd' (hold fd ip port hport hfd) (hold fd' ip port hport hfd')

theorem onePerNode_disconnected (h : OnePerNode s.sockets.connections) (currFd : Fin maxFds) :
    OnePerNode (s.disconnected currFd).sockets.connections := by
  unfold Workers.disconnected
  split
  · apply h.of_old
    intro fd ip port _ hfd
    dsimp only at hfd
    rw [Sockets.connections_clientDisconnected] at hfd
    split at hfd
    · cases hfd.1
    · exact hfd
  · exact h

theorem onePerNode_accepted (h : OnePerNode s.sockets.connections) (clientFd : ℕ)
    (a b c d : UInt8) (port : UInt16) :
    OnePerNode (s.sockets.handleNewTcpConnection clientFd a b c d port).connections := by
  apply h.of_old
  intro fd ip port' hport hfd
  rw [Sockets.connections_handleNewTcpConnection] at hfd
  split at hfd
  · -- the recorded port is 0
    obtain ⟨_, _, rfl⟩ := hfd
    have hzero : ¬ (1 : UInt32) ≤ 0 := by decide
    exact absurd hport hzero
  · exact hfd

/-- The new entry is the only one for its address exactly when there was none. -/
theorem onePerNode_registerNew (h : OnePerNode s.sockets.connections) {ip : Ip} {port : UInt32}
    {newFd : ℕ} (hinactive : ∀ fd : Fin maxFds, (fd : ℕ) = newFd →
      (s.sockets.connections fd).isActive = false) :
    OnePerNode (s.sockets.registerNew ip port newFd).connections ↔
      (newFd < maxFds → 1 ≤ port → findFdByIpPort s.sockets.connections ip port = none) := by
  constructor
  · intro hnew hlt hport
    rw [findFdByIpPort_none]
    intro fd hfd
    have hne : (fd : ℕ) ≠ newFd := by
      intro he
      have hfalse := hinactive fd he
      rw [hfd.1] at hfalse
      cases hfalse
    refine hne (congrArg Fin.val (hnew ip port hport fd ⟨newFd, hlt⟩ ?_ ?_))
    · rw [Sockets.connections_registerNew, if_neg hne]
      exact hfd
    · rw [Sockets.connections_registerNew, if_pos rfl]
      exact ⟨rfl, rfl, rfl⟩
  · intro hmisses ip' port' hport' fd fd' hfd hfd'
    rw [Sockets.connections_registerNew] at hfd hfd'
    -- an old entry for the new address would have been found
    have hold : ∀ x x' : Fin maxFds, (x : ℕ) = newFd →
        (⟨true, ip, port⟩ : ConnectionState).LeadsTo ip' port' →
        ¬ (s.sockets.connections x').LeadsTo ip' port' := by
      rintro x x' rfl ⟨_, rfl, rfl⟩
      exact findFdByIpPort_none.mp (hmisses x.isLt hport') x'
    split at hfd <;> split at hfd'
    · rename_i he he'
      exact Fin.ext (he.trans he'.symm)
    · rename_i he _
      exact absurd hfd' (hold fd fd' he hfd)
    · rename_i _ he'
      exact absurd hfd (hold fd' fd he' hfd')
    · exact h ip' port' hport' fd fd' hfd hfd'

/-- A step leads to one connection for each node exactly under the condition. -/
theorem onePerNode_step (hinv : WorkersInv s) (h : OnePerNode s.sockets.connections)
    (e : WorkerEvent) :
    OnePerNode (workerStep s e).sockets.connections ↔ StillMisses s e := by
  cases e with
  | lookup w ip port =>
    show OnePerNode (s.lookup w ip port).sockets.connections ↔ True
    rw [Workers.sockets_lookup]
    exact iff_of_true h trivial
  | connect w newFd =>
    show OnePerNode (s.connect w newFd).sockets.connections ↔ True
    rw [Workers.connections_connect]
    exact iff_of_true h trivial
  | register w =>
    show OnePerNode (s.register w).sockets.connections ↔ _
    unfold Workers.register StillMisses
    dsimp only
    split
    · rename_i ip port newFd hw
      show OnePerNode (s.sockets.registerNew ip port newFd).connections ↔ _
      rw [onePerNode_registerNew h (hinv.opened w ip port newFd hw).2, hw]
      constructor
      · rintro hmisses ip' port' newFd' ⟨⟩
        exact hmisses
      · intro hmisses
        exact hmisses ip port newFd rfl
    · rename_i hw
      exact iff_of_true h fun ip port newFd hw' => absurd hw' (hw ip port newFd)
  | accepted clientFd a b c d port =>
    exact iff_of_true (onePerNode_accepted h clientFd a b c d port) trivial
  | connectResult currFd connected =>
    show OnePerNode (s.connectResult currFd connected).sockets.connections ↔ True
    rw [Workers.connectResult_eq]
    split
    · exact iff_of_true h trivial
    · exact iff_of_true (onePerNode_disconnected h currFd) trivial
  | disconnected currFd => exact iff_of_true (onePerNode_disconnected h currFd) trivial

/-! ## One socket for the messages to a node -/

/-- The socket of the last message is still the connection to the address. -/
def Routed (s : Workers) : Prop :=
  ∀ ip port, ∀ fd ∈ route ip port s.seen, (s.sockets.connections fd).LeadsTo ip port

theorem routed_start : Routed .start := fun _ _ _ h => by cases h

/-- Active entries that a step leaves alone keep the routes. -/
theorem Routed.of_same {s' : Workers} (h : Routed s) (hseen : s'.seen = s.seen)
    (hsame : ∀ fd, (s.sockets.connections fd).isActive = true →
      s'.sockets.connections fd = s.sockets.connections fd) : Routed s' := by
  intro ip port fd hfd
  rw [hseen] at hfd
  have hleads := h ip port fd hfd
  rw [hsame fd hleads.1]
  exact hleads

/-- A message travels on a connection to its address. -/
theorem Routed.travels {s' : Workers} (h : Routed s) {ip : Ip} {port : UInt32} {target : Fin maxFds}
    (hseen : s'.seen = .travels ip port target :: s.seen)
    (htarget : (s'.sockets.connections target).LeadsTo ip port)
    (hsame : ∀ fd, (s.sockets.connections fd).isActive = true →
      s'.sockets.connections fd = s.sockets.connections fd) : Routed s' := by
  intro ip' port' fd hfd
  rw [hseen, route] at hfd
  split at hfd
  · rename_i he
    obtain ⟨rfl, rfl⟩ := he
    obtain rfl := Option.mem_some_iff.mp hfd
    exact htarget
  · have hleads := h ip' port' fd hfd
    rw [hsame fd hleads.1]
    exact hleads

theorem routed_disconnected (h : Routed s) (currFd : Fin maxFds) :
    Routed (s.disconnected currFd) := by
  unfold Workers.disconnected
  split
  · intro ip port fd hfd
    rw [route, Option.mem_def, Option.filter_eq_some_iff] at hfd
    obtain ⟨hfd, hne⟩ := hfd
    dsimp only
    rw [Sockets.connections_clientDisconnected, if_neg (of_decide_eq_true hne)]
    exact h ip port fd hfd
  · exact h

theorem routed_register (hinv : WorkersInv s) (h : Routed s) (w : ℕ) : Routed (s.register w) := by
  unfold Workers.register
  split
  · rename_i ip port newFd hw
    have hinactive := (hinv.opened w ip port newFd hw).2
    have hsame : ∀ fd, (s.sockets.connections fd).isActive = true →
        (s.sockets.registerNew ip port newFd).connections fd = s.sockets.connections fd := by
      intro fd hactive
      rw [Sockets.connections_registerNew, if_neg]
      intro he
      rw [hinactive fd he] at hactive
      cases hactive
    dsimp only
    split
    · rename_i hlt
      refine h.travels rfl ?_ hsame
      show ((s.sockets.registerNew ip port newFd).connections ⟨newFd, hlt⟩).LeadsTo ip port
      rw [Sockets.connections_registerNew, if_pos rfl]
      exact ⟨rfl, rfl, rfl⟩
    · exact h.of_same rfl hsame
  · exact h

theorem routed_step (hinv : WorkersInv s) (h : Routed s) (e : WorkerEvent)
    (hfresh : FreshFds s e) : Routed (workerStep s e) := by
  cases e with
  | lookup w ip port =>
    show Routed (s.lookup w ip port)
    unfold Workers.lookup
    split
    · cases hfind : findFdByIpPort s.sockets.connections ip port with
      | some target => exact h.travels rfl (findFdByIpPort_some hfind) fun _ _ => rfl
      | none => exact h.of_same rfl fun _ _ => rfl
    · exact h
  | connect w newFd =>
    refine h.of_same ?_ fun fd _ => congrFun (Workers.connections_connect s w newFd) fd
    show (s.connect w newFd).seen = s.seen
    unfold Workers.connect
    split <;> rfl
  | register w => exact routed_register hinv h w
  | accepted clientFd a b c d port =>
    refine h.of_same rfl fun fd hactive => ?_
    show (s.sockets.handleNewTcpConnection clientFd a b c d port).connections fd = _
    rw [Sockets.connections_handleNewTcpConnection, if_neg]
    rintro rfl
    exact hinv.entries fd hactive hfresh
  | connectResult currFd connected =>
    show Routed (s.connectResult currFd connected)
    rw [Workers.connectResult_eq]
    split
    · exact h
    · exact routed_disconnected h currFd
  | disconnected currFd => exact routed_disconnected h currFd

/-- Two connections to an address are one, so a message travels where the last one did. -/
theorem sameSocket_step (h : Routed s) (hone : OnePerNode s.sockets.connections)
    (hsame : SameSocket s.seen) (e : WorkerEvent) (hmisses : StillMisses s e) :
    SameSocket (workerStep s e).seen := by
  cases e with
  | lookup w ip port =>
    show SameSocket (s.lookup w ip port).seen
    unfold Workers.lookup
    split
    · cases hfind : findFdByIpPort s.sockets.connections ip port with
      | some target =>
        refine ⟨fun hport fd hfd => ?_, hsame⟩
        exact hone ip port hport fd target (h ip port fd hfd) (findFdByIpPort_some hfind)
      | none => exact hsame
    · exact hsame
  | connect w newFd =>
    show SameSocket (s.connect w newFd).seen
    unfold Workers.connect
    split <;> exact hsame
  | register w =>
    show SameSocket (s.register w).seen
    unfold Workers.register
    split
    · rename_i ip port newFd hw
      dsimp only
      simp only [Workers.setPhase]
      split
      · rename_i hlt
        refine ⟨fun hport fd hfd => ?_, hsame⟩
        have hnone := hmisses ip port newFd hw hlt hport
        exact absurd (h ip port fd hfd) (findFdByIpPort_none.mp hnone fd)
      · exact hsame
    · exact hsame
  | accepted clientFd a b c d port => exact hsame
  | connectResult currFd connected =>
    show SameSocket (s.connectResult currFd connected).seen
    unfold Workers.connectResult
    split
    · exact hsame
    · exact hsame
  | disconnected currFd =>
    show SameSocket (s.disconnected currFd).seen
    unfold Workers.disconnected
    split
    · exact hsame
    · exact hsame

end Steps

/-- In every run, whatever descriptors the kernel hands out: every state has one connection
at most for each node, and the messages to a node have travelled on one socket until it was
closed, exactly when every registration happens while the lookup would still miss. -/
theorem one_connection_iff (es : List WorkerEvent) (hfresh : Along workerStep FreshFds .start es) :
    Along workerStep (fun s e => OnePerNode (workerStep s e).sockets.connections ∧
        SameSocket (workerStep s e).seen) .start es ↔
      Along workerStep StillMisses .start es := by
  have hinv : ∀ s e, WorkersInv s ∧ Routed s → FreshFds s e →
      WorkersInv (workerStep s e) ∧ Routed (workerStep s e) := fun s e h hfresh =>
    ⟨workersInv_step s e h.1 hfresh, routed_step h.1 h.2 e hfresh⟩
  refine @along_iff _ _ workerStep (fun s => WorkersInv s ∧ Routed s)
    (fun s => OnePerNode s.sockets.connections ∧ SameSocket s.seen) StillMisses FreshFds hinv ?_
    _ _ ⟨workersInv_start, routed_start⟩ ?_ hfresh
  · rintro s e ⟨hinv, hrouted⟩ ⟨hone, hsame⟩ _
    constructor
    · exact fun hnext => (onePerNode_step hinv hone e).mp hnext.1
    · exact fun hmisses => ⟨(onePerNode_step hinv hone e).mpr hmisses,
        sameSocket_step hrouted hone hsame e hmisses⟩
  · exact ⟨fun _ _ _ _ _ hfd => (Bool.false_ne_true hfd.1).elim, trivial⟩

/-- A worker that looks the address up after the registration uses the connection. -/
theorem one_connection_twoWorkers :
    Along workerStep (fun s e => OnePerNode (workerStep s e).sockets.connections ∧
        SameSocket (workerStep s e).seen) .start
      [.lookup 0 (inetNtoa 10 0 0 2) 8000, .connect 0 (some 5), .register 0,
        .lookup 1 (inetNtoa 10 0 0 2) 8000] := by
  apply (one_connection_iff _ _).mpr
  · refine ⟨trivial, trivial, ?_, trivial, trivial⟩
    intro ip port newFd _ _ _
    simp only [workerStep]
    rw [Workers.connections_connect, Workers.sockets_lookup, findFdByIpPort_none]
    exact fun _ h => Bool.false_ne_true h.1
  · refine ⟨trivial, ?_, trivial, trivial, trivial⟩
    simp only [FreshFds, workerStep]
    rw [Workers.sockets_lookup]
    exact fun _ _ => rfl

/-- Two workers look the address up before either has registered its connection. -/
def lookupRace : List WorkerEvent :=
  [.lookup 0 (inetNtoa 10 0 0 2) 8000, .lookup 1 (inetNtoa 10 0 0 2) 8000, .connect 0 (some 5),
    .connect 1 (some 6), .register 0, .register 1]

/-- After the race there are two connections, and the messages have travelled on both. -/
theorem two_connections : Along workerStep FreshFds .start lookupRace ∧
    ¬ OnePerNode (run workerStep .start lookupRace).sockets.connections ∧
    ¬ SameSocket (run workerStep .start lookupRace).seen := by
  refine ⟨⟨trivial, trivial, ?_, ?_, trivial, trivial, trivial⟩, fun hone => ?_, ?_⟩
  · rintro fd ⟨⟩
    decide +kernel
  · rintro fd ⟨⟩
    decide +kernel
  · have hfive : (run workerStep .start lookupRace).sockets.connections ⟨5, by decide⟩ =
        ⟨true, inetNtoa 10 0 0 2, 8000⟩ := by decide +kernel
    have hsix : (run workerStep .start lookupRace).sockets.connections ⟨6, by decide⟩ =
        ⟨true, inetNtoa 10 0 0 2, 8000⟩ := by decide +kernel
    have heq := hone (inetNtoa 10 0 0 2) 8000 (by decide) ⟨5, by decide⟩ ⟨6, by decide⟩
      (by rw [hfive]; exact ⟨rfl, rfl, rfl⟩) (by rw [hsix]; exact ⟨rfl, rfl, rfl⟩)
    exact absurd heq (by decide)
  · have hseen : (run workerStep .start lookupRace).seen =
        [.travels (inetNtoa 10 0 0 2) 8000 ⟨6, by decide⟩,
          .travels (inetNtoa 10 0 0 2) 8000 ⟨5, by decide⟩] := by decide +kernel
    rw [hseen]
    rintro ⟨hsame, _⟩
    exact absurd (hsame (by decide) ⟨5, by decide⟩ (by rw [route, if_pos ⟨rfl, rfl⟩]; rfl))
      (by decide)

end ResourceManager
