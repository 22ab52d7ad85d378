import ResourceManager.Cluster.System
import ResourceManager.Comms.Framing
import ResourceManager.Comms.Messages

/-!
# Agents on their connections

The agents as they run: each has the data of one node, is coordinator and node at once, and
reads bytes from its connections. What is sent on a connection is a stream of bytes, and a call
of `recv` returns a part of it of any length. The connections stand; those between two agents
are known from the `Wiring`.
-/

namespace ResourceManager

open Library.Runs

/-! ## Connections -/

/-- The agents `C`: each has an address, and descriptor 0 leads to none of them. -/
structure Topology (C : Type) extends Wiring C where
  addr : C → Addr
  addr_injective : Function.Injective addr
  peer_zero : ∀ c, peer (addr c) 0 = none

/-- A direction of the connection that the agent `c` has opened to the address `a`. -/
inductive Route (C : Type) where
  | toNode (c : C) (a : Addr)
  | toCoordinator (a : Addr) (c : C)
deriving DecidableEq

variable {C : Type}

/-- Where `send_outbox` sends a message of the agent `c`, if not to a scheduler. -/
def OutMsg.route (w : Topology C) (c : C) (m : OutMsg) : Option (Route C) :=
  if m.targetFd = -1 then m.targetIp.map fun ip => .toNode c ⟨ip, m.targetPort⟩
  else (w.peer (w.addr c) m.targetFd.toUInt32).map (.toCoordinator (w.addr c))

/-- The message for a scheduler of the agent `c`, if that is where it goes. -/
def OutMsg.reported (w : Topology C) (c : C) (m : OutMsg) : Option (C × Message) :=
  if m.targetFd ≠ -1 ∧ w.peer (w.addr c) m.targetFd.toUInt32 = none then some (c, m.message)
  else none

/-! ## The state -/

/-- `stream` are the bytes that have been sent and not read, and `told` is all that has been
sent to the schedulers. -/
structure Network (C : Type) where
  agent : C → NodeData
  stream : Route C → List Char
  told : List (C × Message)

def Network.initial (w : Topology C) (capacity : Addr → Resource → UInt32) : Network C where
  agent c := initNode (capacity (w.addr c) .cpu) (capacity (w.addr c) .ram) (capacity (w.addr c) .gpu)
  stream _ := []
  told := []

namespace Network

variable [DecidableEq C] (w : Topology C) (c : C) (n : Network C)

/-- `send_outbox`. -/
def sendOutbox (outbox : List OutMsg) : Network C :=
  { n with
    stream := fun r => n.stream r ++
      outbox.flatMap fun m => if m.route w c = some r then m.message.text else []
    told := n.told ++ outbox.filterMap (·.reported w c) }

/-- The agent `c` has called `resource_adapter_patch`. -/
def patched (result : NodeData × List OutMsg) : Network C :=
  { n with agent := Function.update n.agent c result.1 }.sendOutbox w c result.2

/-- The agent `c` handles a line. -/
def serve (a : Arrival) (line : List Char) : Network C :=
  n.patched w c (actionRespond (n.agent c) { a with line := line })

omit [DecidableEq C] in
/-- The notices for the schedulers. -/
def notices : List (C × Message) := n.told.filter fun p => p.2.isNotice

end Network

/-! ## Steps -/

inductive NetworkEvent (C : Type) where
  /-- The agent `c` receives from the first `bytes` bytes that are on the way on `r`. -/
  | receive (c : C) (r : Route C) (bytes : ℕ) (a : Arrival)
  /-- The agent receives from a scheduler. -/
  | command (c : C) (a : Arrival) (arrived : List Char)
  /-- A call of `handle_check_deadnodes`. -/
  | timer (c : C) (connections : Connections) (now now' : Int)
  | datagram (c : C) (now : Int) (senderIp : Ip) (text : List Char)

def networkStep [DecidableEq C] (w : Topology C) (n : Network C) : NetworkEvent C → Network C
  | .receive c r bytes a =>
    let received := receiveTcpMessage ((n.stream r).take bytes)
    handleClientMessage (fun n line => n.serve w c a line)
      { n with stream := Function.update n.stream r ((n.stream r).drop received.length) } received
  | .command c a arrived =>
    handleClientMessage (fun n line => n.serve w c a line) n (receiveTcpMessage arrived)
  | .timer c connections now now' =>
    n.patched w c (patchInput (n.agent c) (.checkDeadnodes connections now now'))
  | .datagram c now senderIp text =>
    n.patched w c (patchInput (n.agent c) (.datagram now senderIp text))

/-! ## Ordinary events -/

/-- The agent `c` is at the end of `r`: a node has the descriptor of the connection, a
coordinator the address of the node. -/
def Arrival.At (w : Topology C) (c : C) (a : Arrival) : Route C → Prop
  | .toNode c' addr => addr = w.addr c ∧ a.socket = w.sock addr c'
  | .toCoordinator addr c' => c' = c ∧
    a.senderIp = addr.ip ∧ getConnectionPort a.connections a.socket.toInt32 = addr.port

/-- A descriptor of the agent `c` with no other agent at its end. -/
def Local (w : Topology C) (c : C) (socket : UInt32) : Prop :=
  w.peer (w.addr c) socket = none ∧ socket.toInt32 ≠ -1

/-- The event is a command of the scheduler at `socket`. -/
def AgentEvent.CommandAt (socket : UInt32) : AgentEvent → Prop
  | .jobRequest _ socket' _ _ => socket' = socket
  | .jobRelease _ => True
  | _ => False

instance (socket : UInt32) (e : AgentEvent) : Decidable (e.CommandAt socket) :=
  match e with
  | .jobRequest _ socket' _ _ => inferInstanceAs (Decidable (socket' = socket))
  | .jobRelease _ => .isTrue trivial
  | .announced .. | .reserve .. | .granted .. | .denied .. | .release .. | .disconnected ..
  | .checkDeadnodes .. => .isFalse id

/-- The line is for `handle_job_request` or `handle_job_release`, or changes nothing. -/
def Arrival.Commands (a : Arrival) : Prop := ∀ e ∈ scanLine a, e.CommandAt a.socket

instance (a : Arrival) : Decidable a.Commands :=
  inferInstanceAs (Decidable (∀ e ∈ scanLine a, e.CommandAt a.socket))

/-- What a scheduler sends are commands; a part of a stream that is read ends with a line; no
node has expired. -/
def Network.Ordinary (w : Topology C) (n : Network C) : NetworkEvent C → Prop
  | .receive c r bytes a => a.At w c r ∧
    ∀ x ∈ (receiveTcpMessage ((n.stream r).take bytes)).getLast?, isNewline x = true
  | .command c a arrived => Local w c a.socket ∧ '\x00' ∉ receiveTcpMessage arrived ∧
    ∀ line ∈ lines (receiveTcpMessage arrived), Arrival.Commands { a with line := line }
  | .timer c _ now _ => (removeInactiveNodes (n.agent c).knownNodes now maxDead).2 = []
  | .datagram .. => True

section

variable [DecidableEq C] (w : Topology C)

instance (c : C) (a : Arrival) (r : Route C) : Decidable (a.At w c r) :=
  match r with
  | .toNode c' addr => inferInstanceAs (Decidable (addr = w.addr c ∧ a.socket = w.sock addr c'))
  | .toCoordinator addr c' => inferInstanceAs (Decidable (c' = c ∧ a.senderIp = addr.ip ∧
      getConnectionPort a.connections a.socket.toInt32 = addr.port))

instance (c : C) (socket : UInt32) : Decidable (Local w c socket) :=
  inferInstanceAs (Decidable (w.peer (w.addr c) socket = none ∧ socket.toInt32 ≠ -1))

instance (n : Network C) (e : NetworkEvent C) : Decidable (n.Ordinary w e) :=
  match e with
  | .receive _ _ _ _ => @instDecidableAnd _ _ inferInstance (Option.decidableForallMem _)
  | .command c a arrived => inferInstanceAs (Decidable (Local w c a.socket ∧
      '\x00' ∉ receiveTcpMessage arrived ∧
        ∀ line ∈ lines (receiveTcpMessage arrived), Arrival.Commands { a with line := line }))
  | .timer c _ now _ => inferInstanceAs (Decidable
      ((removeInactiveNodes (n.agent c).knownNodes now maxDead).2 = []))
  | .datagram .. => .isTrue trivial

end

/-- What an event asks of the coordinator `c`. -/
def AgentEvent.action (c : C) : AgentEvent → Option (Action C)
  | .jobRequest now socket jobId tokens => some (.jobRequest c now socket jobId tokens)
  | .jobRelease jobId => some (.jobRelease c jobId)
  | _ => none

/-- The action is none of the network itself. -/
def Action.isInput : Action C → Bool
  | .jobRequest .. | .jobRelease .. | .timeout .. => true
  | .deliver .. => false

/-- What the event asks of the coordinators. -/
def NetworkEvent.actions : NetworkEvent C → List (Action C)
  | .receive .. => []
  | .command c a arrived => (lines (receiveTcpMessage arrived)).filterMap fun line =>
    (scanLine { a with line := line }).bind fun e => e.action c
  | .timer c _ _ now' => [.timeout c now']
  | .datagram .. => []

end ResourceManager
