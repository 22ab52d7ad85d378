import ResourceManager.Cluster.Progress
import ResourceManager.Directory.Datagrams
import ResourceManager.Grid.Custody

/-!
# Clients and agents together

Each coordinator of the cluster has a client and a directory of the nodes. The agents
announce in datagrams what they have available; a client asks its agent for the nodes,
requests jobs for them and releases the jobs that were granted. A datagram can be heard by
anybody, any number of times and at any time, or by nobody.
-/

namespace ResourceManager

open Scheduler Library.Runs

variable {C : Type}

/-- `air` are the datagrams that have been sent, with the ip of their sender. -/
structure Grid (C : Type) where
  cluster : Cluster C
  client : C → Client
  directory : C → KnownNodes
  air : List (Ip × List Char)

/-- The clients have connected to their agents. -/
def Grid.initial (capacity : Addr → Resource → UInt32) : Grid C where
  cluster := Cluster.initial capacity
  client _ := Client.connected
  directory _ := createKnownNodes
  air := []

inductive GridEvent (C : Type) where
  | client (c : C) (e : ClientEvent)
  /-- The agent reads what its client has sent; `a` is what its handlers read besides. -/
  | command (c : C) (a : Arrival)
  | timeout (c : C) (now : Int)
  | deliver (i : Nat) (rand : Nat → Nat)
  /-- The agent at `a` sends its datagram. -/
  | announce (a : Addr)
  /-- The agent of `c` receives the datagram `i`. -/
  | hear (c : C) (now : Int) (i : Nat)

/-- The lines for the client of `c` among the notices of a step. -/
def Cluster.noticesTo [DecidableEq C] (s : Cluster C) (c : C) : List (List Char) :=
  s.told.filterMap fun p => if p.1 = c then some p.2.text else none

namespace Grid

variable [DecidableEq C] (w : Wiring C) (g : Grid C)

def setClient (c : C) (x : Client) : Grid C := { g with client := Function.update g.client c x }

/-- The agent sends lines to the client of `c`. -/
def tell (c : C) (lines : List (List Char)) : Grid C :=
  g.setClient c { g.client c with down := (g.client c).down ++ lines }

/-- A step of the cluster. Its notices are on their way to the clients. -/
def act (action : Action C) : Grid C :=
  let s := g.cluster.step w action
  { g with
    cluster := s
    client := fun c => { g.client c with down := (g.client c).down ++ s.noticesTo c } }

/-- The agent handles a line of its client, which sends no other commands than these. -/
def serve (c : C) (a : Arrival) : Grid C :=
  if "GET_NODES".toList.isPrefixOf a.line then
    g.tell c ((handleGetNodesResponse (g.directory c) a.socket []).map fun m => m.message.text)
  else
    match scanLine a with
    | some (.jobRequest now socket jobId tokens) =>
      g.act w (.jobRequest c now socket jobId tokens)
    | some (.jobRelease jobId) => g.act w (.jobRelease c jobId)
    | _ => g

end Grid

def gridStep [DecidableEq C] (setup : C → Setup) (w : Wiring C) (g : Grid C) :
    GridEvent C → Grid C
  | .client c e => g.setClient c (clientStep (setup c) (g.client c) e)
  | .command c a =>
    match (g.client c).up with
    | [] => g
    | directive :: up =>
      handleClientMessage (fun g line => g.serve w c { a with line := line })
        (g.setClient c { g.client c with up := up }) (receiveTcpMessage directive.packet)
  | .timeout c now => g.act w (.timeout c now)
  | .deliver i rand => if i < g.cluster.net.length then g.act w (.deliver i rand) else g
  | .announce a =>
    { g with
      air := g.air ++ (handleGetResources (g.cluster.node a) a.port.toInt32 []).map
        fun m => (a.ip, m.message.text) }
  | .hear c now i =>
    match g.air[i]? with
    | none => g
    | some (senderIp, text) =>
      { g with
        directory := Function.update g.directory c
          (handleNodeAnnounced (g.directory c) now senderIp (processDiscoveryDatagram text)) }

/-! ## What the cluster is made to do -/

/-- What a line of the client of `c` makes its agent do. -/
def lineAction (c : C) (a : Arrival) : Option (Action C) :=
  if "GET_NODES".toList.isPrefixOf a.line then none
  else
    match scanLine a with
    | some (.jobRequest now socket jobId tokens) => some (.jobRequest c now socket jobId tokens)
    | some (.jobRelease jobId) => some (.jobRelease c jobId)
    | _ => none

/-- The steps that the cluster takes in an event. -/
def Grid.actions (g : Grid C) : GridEvent C → List (Action C)
  | .command c a =>
    match (g.client c).up with
    | [] => []
    | directive :: _ =>
      (lines (cString (receiveTcpMessage directive.packet ++ ['\x00']))).filterMap fun line =>
        lineAction c { a with line := line }
  | .timeout c now => [.timeout c now]
  | .deliver i rand => if i < g.cluster.net.length then [.deliver i rand] else []
  | .client .. | .announce .. | .hear .. => []

/-- The steps that the cluster takes in the events `es`. -/
def Grid.trace [DecidableEq C] (setup : C → Setup) (w : Wiring C) :
    Grid C → List (GridEvent C) → List (Action C)
  | _, [] => []
  | g, e :: es => g.actions e ++ trace setup w (gridStep setup w g e) es

/-! ## Ordinary events -/

/-- An agent with an IPv4 address and a port of 16 bits. -/
structure Public (a : Addr) : Prop where
  ip : DottedQuad a.ip
  pos : 1 ≤ a.port.toNat
  le : a.port.toNat ≤ 65535

/-- The id fits in an `unsigned`, and is not the one that is printed as `-1`. -/
def Scheduler.Directive.Small : Directive → Prop
  | .getNodes => True
  | .jobDirective id _ _ => id < 4294967295

instance (d : Directive) : Decidable d.Small :=
  match d with
  | .getNodes => .isTrue trivial
  | .jobDirective id _ _ => inferInstanceAs (Decidable (id < 4294967295))

/-- Ids are small, a packet fits in the buffer of the agent, only settled jobs time out, and
the requests that wait where a RELEASE arrives fit in an outbox. -/
def Grid.Ordinary [DecidableEq C] (w : Wiring C) (g : Grid C) : GridEvent C → Prop
  | .client c .send => ∀ d ∈ (g.client c).outgoing.head?, d.Small
  | .client _ _ => True
  | .command c _ => ∀ d ∈ (g.client c).up.head?, d.packet.length < bufferSize
  | .timeout c now => ∀ x ∈ g.cluster.ending (.timeout c now), g.cluster.Settled w x
  | .deliver i rand => g.cluster.Heard (.deliver i rand)
  | .announce a => Public a
  | .hear .. => True

end ResourceManager
