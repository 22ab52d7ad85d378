import ResourceManager.Comms.Connections
import ResourceManager.Resources.KnownNodes
import ResourceManager.Resources.LocalResource
import ResourceManager.Resources.OwnedJobs

/-!
# The handlers of `resource_adapter.c`

Each handler takes the part of the node's data that it reads or writes and the outbox, and
returns them. The arguments that a handler scans from its line are parameters. The outbox
is empty when `resource_adapter_patch` calls a handler.

The copies of the rollback loop are `rollback`; they differ in the petitions that get no
RELEASE and in the line that ends the job.
-/

namespace ResourceManager

/-! ## Messages for other nodes -/

/-- One `@ip:port:resource:amount` of a JOB_REQUEST. -/
structure ResourceToken where
  ip : Ip
  port : UInt32
  type : Resource
  cant : UInt32
deriving DecidableEq

def reserveMsg (jobId : UInt32) (p : JobPetition) : OutMsg :=
  .toAddr p.ip p.port (.reserve jobId p.type p.quantity)

def releaseMsg (jobId : UInt32) (p : JobPetition) : OutMsg :=
  .toAddr p.ip p.port (.release jobId p.type p.quantity)

/-! ## Jobs of the local scheduler -/

/-- The RESERVE that follows, if `get_next_reserve` finds one. -/
def dispatchNextReserve (jobs : OwnedJobs) (jobId : UInt32) (outbox : List OutMsg) :
    OwnedJobs × List OutMsg :=
  match getNextReserve jobs jobId with
  | (jobs, none) => (jobs, outbox)
  | (jobs, some p) => (jobs, addToOutbox outbox (reserveMsg jobId p))

/-- `handle_job_request`. -/
def handleJobRequest (jobs : OwnedJobs) (now : Int) (socket jobId : UInt32)
    (tokens : List ResourceToken) (outbox : List OutMsg) : OwnedJobs × List OutMsg :=
  let jobs := addNewOwnedJob jobs now jobId socket
  let jobs := tokens.foldl
    (fun jobs token => appendPetitionToJob jobs jobId token.ip token.port token.type token.cant)
    jobs
  dispatchNextReserve jobs jobId outbox

/-- `handle_granted`. -/
def handleGranted (jobs : OwnedJobs) (senderIp : Ip) (senderPort jobId : UInt32)
    (outbox : List OutMsg) : OwnedJobs × List OutMsg :=
  if senderPort = 0 then (jobs, outbox)
  else
    let (jobs, grantResult) := markPetitionAsGranted jobs jobId senderIp senderPort
    if grantResult = 1 then
      (jobs, addToOutbox outbox (.toFd (getJobOwnerSocket jobs jobId) (.jobGranted jobId)))
    else if grantResult = 0 then dispatchNextReserve jobs jobId outbox
    else (jobs, outbox)

/-- The end of the job `jobId`: RELEASE for its granted petitions, except those that
`dead` selects, then the line `notice` for its owner. -/
def rollback (dead : JobPetition → Bool) (notice : Option (UInt32 → Message))
    (state : OwnedJobs × List OutMsg) (jobId : UInt32) : OwnedJobs × List OutMsg :=
  let (jobs, outbox) := state
  let granted := getGrantedResources jobs jobId maxJobResources
  let ownerSocket := getJobOwnerSocket jobs jobId
  let outbox := granted.foldl
    (fun outbox p => if dead p then outbox else addToOutbox outbox (releaseMsg jobId p)) outbox
  let outbox := match notice with
    | none => outbox
    | some msg => addToOutbox outbox (.toFd ownerSocket (msg jobId))
  (removeOwnedJob jobs jobId, outbox)

/-- `handle_denied`. -/
def handleDenied (jobs : OwnedJobs) (jobId : UInt32) (outbox : List OutMsg) :
    OwnedJobs × List OutMsg :=
  rollback (fun _ => false) (some .jobDenied) (jobs, outbox) jobId

/-- `handle_job_release`. -/
def handleJobRelease (jobs : OwnedJobs) (jobId : UInt32) (outbox : List OutMsg) :
    OwnedJobs × List OutMsg :=
  rollback (fun _ => false) none (jobs, outbox) jobId

/-! ## Requests of remote nodes -/

/-- `handle_reserve`. A resource name that is not known is `none`. -/
def handleReserve (s : LocalNode) (socket jobId : UInt32) (type : Option Resource)
    (cant : UInt32) (outbox : List OutMsg) : LocalNode × List OutMsg :=
  let (s, result) := match type with
    | none => (s, -1)
    | some type => newJobRequest s jobId socket cant type
  if result = 1 then (s, addToOutbox outbox (.toFd socket (.granted jobId.toNat)))
  else if result = -1 then (s, addToOutbox outbox (.toFd socket (.denied jobId)))
  else (s, outbox)

/-- The loop of `handle_release` with at most `n` calls of `chk_job_request`; the call
with `n` left reads `rand n`. -/
def wakeLoop (rand : Nat → Nat) :
    Nat → LocalNode → UInt32 → List OutMsg → Option (LocalNode × List OutMsg)
  | 0, _, _, _ => none
  | n + 1, s, queuedSocket, outbox =>
    match chkJobRequest s (rand n) queuedSocket with
    | (s, out, queuedSocket) =>
      if out = -1 then some (s, outbox)
      else wakeLoop rand n s queuedSocket
        (addToOutbox outbox (.toFd queuedSocket (.granted out.toInt)))

/-- The number of waiting requests. -/
def LocalNode.waiting (s : LocalNode) : Nat :=
  (s.queue .cpu).length + (s.queue .gpu).length + (s.queue .ram).length

/-- `handle_release`. Its loop makes at most one call more than there are waiting requests
(`wakeLoop_isSome`). -/
def handleRelease (s : LocalNode) (rand : Nat → Nat) (socket jobId : UInt32)
    (outbox : List OutMsg) : LocalNode × List OutMsg :=
  let s := delActiveJob s jobId socket
  (wakeLoop rand (s.waiting + 1) s 0 outbox).getD (s, outbox)

/-! ## Events and maintenance -/

/-- `struct node_data_t_`. The inventory and the table of reservations are one component. -/
structure NodeData where
  inventory : LocalNode
  knownNodes : KnownNodes
  ownedJobs : OwnedJobs

/-- `init_node`. -/
def initNode (cpu ram gpu : UInt32) : NodeData where
  inventory := createLocalNode cpu gpu ram
  knownNodes := createKnownNodes
  ownedJobs := createOwnedJobs

/-- The capacity of the array `affected_jobs`. -/
def maxAffected : Nat := 20

/-- The capacity of the array `orphaned_jobs`. -/
def maxOrphans : Nat := 50

/-- The capacity of the arrays `dead_ips` and `dead_ports`. -/
def maxDead : Nat := 10

/-- One iteration of the loop over the dead nodes. -/
def cleanDeadNode (connections : Connections)
    (state : LocalNode × OwnedJobs × List OutMsg) (dead : Ip × UInt32) :
    LocalNode × OwnedJobs × List OutMsg :=
  let (inventory, jobs, outbox) := state
  let inventory := match findFdByIpPort connections dead.1 dead.2 with
    | none => inventory
    | some zombieFd => freeAllResourcesFromSocket inventory (UInt32.ofNat zombieFd)
  let affected := getJobsAffectedByDeadNode jobs dead.1 dead.2 maxAffected
  (inventory, affected.foldl (rollback (fun _ => false) (some .jobDenied)) (jobs, outbox))

/-- The loop over the jobs that have timed out: it stops at the first one whose messages
do not fit in the outbox. -/
def timeoutLoop : List UInt32 → OwnedJobs × List OutMsg → OwnedJobs × List OutMsg
  | [], state => state
  | jobId :: timedOut, state =>
    let granted := getGrantedResources state.1 jobId maxJobResources
    if maxOutbox < state.2.length + granted.length + 1 then state
    else timeoutLoop timedOut (rollback (fun _ => false) (some .jobTimeout) state jobId)

/-- `handle_check_deadnodes`. The clock is read twice. -/
def handleCheckDeadnodes (connections : Connections) (node : NodeData) (now now' : Int)
    (outbox : List OutMsg) : NodeData × List OutMsg :=
  let (knownNodes, dead) := removeInactiveNodes node.knownNodes now maxDead
  let (inventory, jobs, outbox) :=
    dead.foldl (cleanDeadNode connections) (node.inventory, node.ownedJobs, outbox)
  let (jobs, outbox) :=
    timeoutLoop (collectTimedOutJobs jobs now' maxAffected) (jobs, outbox)
  (⟨inventory, knownNodes, jobs⟩, outbox)

/-- The node at the other end of a connection that was closed, when the condition
`port > 0 && SENDER_IP != NULL` holds: the port is known for connections that this agent
opened. -/
def closedPeer (connections : Connections) (senderIp : Option Ip) (socket : UInt32) :
    Option (Ip × UInt32) :=
  match senderIp with
  | none => none
  | some ip =>
    let port := getConnectionPort connections socket.toInt32
    if port = 0 then none else some (ip, port)

/-- The branch `ACTION_DISCONNECTED`. -/
def actionDisconnected (connections : Connections) (node : NodeData) (senderIp : Option Ip)
    (socket : UInt32) (outbox : List OutMsg) : NodeData × List OutMsg :=
  let inventory := freeAllResourcesFromSocket node.inventory socket
  let orphaned := getJobsByOwnerSocket node.ownedJobs socket maxOrphans
  let (jobs, outbox) := orphaned.foldl (rollback (fun _ => false) none) (node.ownedJobs, outbox)
  let (jobs, outbox) := match closedPeer connections senderIp socket with
    | none => (jobs, outbox)
    | some (ip, port) =>
      (getJobsAffectedByDeadNode jobs ip port maxAffected).foldl
        (rollback (fun p => p.ip = ip ∧ p.port = port) (some .jobDenied)) (jobs, outbox)
  (⟨inventory, node.knownNodes, jobs⟩, outbox)

/-! ## The dispatcher -/

/-- A call of `resource_adapter_patch`, with the arguments scanned from its line and with
what the handlers read from outside the node's data: the connection table, the clock and
the random numbers. -/
inductive AgentEvent where
  | announced (now : Int) (senderIp : Ip) (port cpu ram gpu : UInt32)
  | jobRequest (now : Int) (socket jobId : UInt32) (tokens : List ResourceToken)
  | reserve (socket jobId : UInt32) (type : Option Resource) (cant : UInt32)
  | granted (connections : Connections) (senderIp : Ip) (socket jobId : UInt32)
  | denied (jobId : UInt32)
  | release (socket jobId : UInt32) (rand : Nat → Nat)
  | jobRelease (jobId : UInt32)
  | disconnected (connections : Connections) (senderIp : Option Ip) (socket : UInt32)
  | checkDeadnodes (connections : Connections) (now now' : Int)

/-- `resource_adapter_patch`: the node's data afterwards, and the outbox. -/
def resourceAdapterPatch (node : NodeData) : AgentEvent → NodeData × List OutMsg
  | .announced now senderIp port cpu ram gpu =>
    if port = 0 then (node, [])
    else
      ({ node with
        knownNodes := updateKnownNode node.knownNodes now senderIp port cpu ram gpu }, [])
  | .jobRequest now socket jobId tokens =>
    let (jobs, outbox) := handleJobRequest node.ownedJobs now socket jobId tokens []
    ({ node with ownedJobs := jobs }, outbox)
  | .reserve socket jobId type cant =>
    let (inventory, outbox) := handleReserve node.inventory socket jobId type cant []
    ({ node with inventory := inventory }, outbox)
  | .granted connections senderIp socket jobId =>
    let (jobs, outbox) := handleGranted node.ownedJobs senderIp
      (getConnectionPort connections socket.toInt32) jobId []
    ({ node with ownedJobs := jobs }, outbox)
  | .denied jobId =>
    let (jobs, outbox) := handleDenied node.ownedJobs jobId []
    ({ node with ownedJobs := jobs }, outbox)
  | .release socket jobId rand =>
    let (inventory, outbox) := handleRelease node.inventory rand socket jobId []
    ({ node with inventory := inventory }, outbox)
  | .jobRelease jobId =>
    let (jobs, outbox) := handleJobRelease node.ownedJobs jobId []
    ({ node with ownedJobs := jobs }, outbox)
  | .disconnected connections senderIp socket =>
    actionDisconnected connections node senderIp socket []
  | .checkDeadnodes connections now now' => handleCheckDeadnodes connections node now now' []

theorem resourceAdapterPatch_reserve (node : NodeData) (socket jobId : UInt32)
    (type : Option Resource) (cant : UInt32) :
    resourceAdapterPatch node (.reserve socket jobId type cant) =
      ({ node with inventory := (handleReserve node.inventory socket jobId type cant []).1 },
        (handleReserve node.inventory socket jobId type cant []).2) := by
  rw [resourceAdapterPatch]

theorem resourceAdapterPatch_release (node : NodeData) (socket jobId : UInt32) (rand : Nat → Nat) :
    resourceAdapterPatch node (.release socket jobId rand) =
      ({ node with inventory := (handleRelease node.inventory rand socket jobId []).1 },
        (handleRelease node.inventory rand socket jobId []).2) := by
  rw [resourceAdapterPatch]

end ResourceManager
