import ResourceManager.Library.Runs
import ResourceManager.Comms.ResourceAdapter
import Mathlib.Data.Char

/-!
# A cluster of agents

Coordinators and nodes joined by the messages in flight. An agent is both, and its two
parts share no data: a coordinator has its table of owned jobs, a node its inventory. The
handlers take their steps one at a time, and any message in flight can be the next one
delivered; the runs over FIFO channels are among these. Connections are not lost and no
node expires.
-/

namespace ResourceManager

/-! ## Resources of nodes -/

/-- A resource of a node. -/
structure NodeResource where
  addr : Addr
  type : Resource
deriving DecidableEq

/-- What `generate_job_request` sorts by: the ip and the port are strings of the scheduler,
which compare character by character. -/
def NodeResource.key (r : NodeResource) : List Char ×ₗ List Char ×ₗ Nat :=
  toLex (r.addr.ip.text, toLex (Nat.toDigits 10 r.addr.port.toNat, r.type.order))

instance : Preorder NodeResource := Preorder.lift NodeResource.key

instance (r r' : NodeResource) : Decidable (r < r') :=
  inferInstanceAs (Decidable (r.key < r'.key))

/-- The resource that a token asks for. -/
abbrev ResourceToken.target (t : ResourceToken) : NodeResource := ⟨⟨t.ip, t.port⟩, t.type⟩

/-! ## The state -/

/-- The connections of coordinators `C` to nodes: the descriptor that a node has for a
coordinator, and the coordinator at a descriptor. -/
structure Wiring (C : Type) where
  sock : Addr → C → UInt32
  peer : Addr → UInt32 → Option C
  peer_sock : ∀ a c, peer a (sock a c) = some c
  sock_ne : ∀ a c, (sock a c).toInt32 ≠ -1

inductive Packet (C : Type) where
  | request (c : C) (a : Addr) (m : Message)
  | reply (a : Addr) (c : C) (m : Message)
deriving DecidableEq

/-- `asked` records the JOB_REQUESTs made under each id; `told` is what the last step sent
to the schedulers. -/
structure Cluster (C : Type) where
  jobs : C → OwnedJobs
  node : Addr → LocalNode
  net : List (Packet C)
  asked : C → UInt32 → Option (List ResourceToken)
  told : List (C × Message)

variable {C : Type}

/-- No job, and the inventories full. -/
def Cluster.initial (capacity : Addr → Resource → UInt32) : Cluster C where
  jobs _ := createOwnedJobs
  node a := createLocalNode (capacity a .cpu) (capacity a .gpu) (capacity a .ram)
  net := []
  asked _ _ := none
  told := []

/-! ## Routing -/

/-- The messages of a coordinator's outbox that are routed by address. -/
def sent (c : C) (outbox : List OutMsg) : List (Packet C) :=
  outbox.filterMap fun m => m.targetIp.map fun ip => .request c ⟨ip, m.targetPort⟩ m.message

/-- The messages that are routed by descriptor, to the schedulers. -/
def notices (c : C) (outbox : List OutMsg) : List (C × Message) :=
  outbox.filterMap fun m => if m.targetIp.isNone then some (c, m.message) else none

/-- The messages of a node's outbox, to the coordinators at their descriptors. -/
def replies (w : Wiring C) (a : Addr) (outbox : List OutMsg) : List (Packet C) :=
  outbox.filterMap fun m =>
    if m.targetFd = -1 then none
    else (w.peer a m.targetFd.toUInt32).map fun c => .reply a c m.message

/-! ## Steps -/

namespace Cluster

variable [DecidableEq C] (s : Cluster C)

/-- A coordinator has handled an event. -/
def atCoordinator (c : C) (result : OwnedJobs × List OutMsg) : Cluster C :=
  { s with
    jobs := Function.update s.jobs c result.1
    net := s.net ++ sent c result.2
    told := notices c result.2 }

/-- A node has handled a message. -/
def atNode (w : Wiring C) (a : Addr) (result : LocalNode × List OutMsg) : Cluster C :=
  { s with
    node := Function.update s.node a result.1
    net := s.net ++ replies w a result.2
    told := [] }

/-- The request for `jobId` is remembered. -/
def ask (c : C) (jobId : UInt32) (tokens : List ResourceToken) : Cluster C :=
  { s with
    asked := Function.update s.asked c (Function.update (s.asked c) jobId (some tokens)) }

/-- A packet has left the network. -/
def drop (i : Nat) : Cluster C := { s with net := s.net.eraseIdx i }

end Cluster

/-- A message from a coordinator arrives at the node: `rand` gives the random numbers of
the wake-up loop. -/
def onRequest (s : LocalNode) (socket : UInt32) (rand : Nat → Nat) :
    Message → LocalNode × List OutMsg
  | .reserve jobId type cant => handleReserve s socket jobId (some type) cant []
  | .release jobId _ _ => handleRelease s rand socket jobId []
  | _ => (s, [])

/-- A message from the node at `a` arrives at the coordinator. -/
def onReply (jobs : OwnedJobs) (a : Addr) : Message → OwnedJobs × List OutMsg
  | .granted n => handleGranted jobs a.ip a.port (scanUnsigned n) []
  | .denied jobId => handleDenied jobs jobId []
  | _ => (jobs, [])

/-- The jobs that `handle_check_deadnodes` ends when no node has expired. -/
def onTimer (jobs : OwnedJobs) (now : Int) : OwnedJobs × List OutMsg :=
  timeoutLoop (collectTimedOutJobs jobs now maxAffected) (jobs, [])

theorem handleCheckDeadnodes_of_no_dead (connections : Connections) (node : NodeData)
    (now now' : Int) (h : (removeInactiveNodes node.knownNodes now maxDead).2 = []) :
    ((handleCheckDeadnodes connections node now now' []).1.ownedJobs,
      (handleCheckDeadnodes connections node now now' []).2) = onTimer node.ownedJobs now' := by
  unfold handleCheckDeadnodes
  generalize removeInactiveNodes node.knownNodes now maxDead = res at h
  obtain ⟨known, dead⟩ := res
  subst h
  rfl

inductive Action (C : Type) where
  | jobRequest (c : C) (now : Int) (socket jobId : UInt32) (tokens : List ResourceToken)
  | jobRelease (c : C) (jobId : UInt32)
  | timeout (c : C) (now : Int)
  /-- Delivery of the packet at position `i` of the network. -/
  | deliver (i : Nat) (rand : Nat → Nat)

def Cluster.step [DecidableEq C] (w : Wiring C) (s : Cluster C) : Action C → Cluster C
  | .jobRequest c now socket jobId tokens =>
    (s.atCoordinator c (handleJobRequest (s.jobs c) now socket jobId tokens [])).ask c jobId tokens
  | .jobRelease c jobId => s.atCoordinator c (handleJobRelease (s.jobs c) jobId [])
  | .timeout c now => s.atCoordinator c (onTimer (s.jobs c) now)
  | .deliver i rand =>
    match s.net[i]? with
    | none => s
    | some (.request c a m) => (s.drop i).atNode w a (onRequest (s.node a) (w.sock a c) rand m)
    | some (.reply a c m) => (s.drop i).atCoordinator c (onReply (s.jobs c) a m)

end ResourceManager
