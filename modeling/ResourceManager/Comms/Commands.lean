import ResourceManager.Comms.ResourceAdapter
import ResourceManager.Directory.Payload
import ResourceManager.Library.Scanf

/-!
# Reading the lines of the protocol

What the handlers of `resource_adapter.c` scan from a line or a datagram before they act.
The tokens that successive calls of `strtok(.., " ")` return are the fields of the line
between blanks. A line that a handler does not understand has no effect.
-/

namespace ResourceManager

open Library.Fields Library.Scanf

/-- The delimiter of `strtok(.., " ")`. -/
def isBlank (c : Char) : Bool := c == ' '

abbrev words (text : List Char) : List (List Char) := fields isBlank text

theorem isBlank_of_notMem {w : List Char} (h : ' ' ∉ w) : ∀ c ∈ w, isBlank c = false := by
  intro c hc
  rw [isBlank, beq_eq_false_iff_ne]
  rintro rfl
  exact h hc

/-- The beginning of a buffer that holds an address, `char ip[16]`. -/
def Ip.ofText (text : List Char) : Ip := ⟨text.take 15, List.length_take_le 15 text⟩

/-! ## JOB_REQUEST -/

/-- The type that `handle_job_request` takes a name for: what is neither `cpu` nor `mem` is
a GPU. -/
def requestedType (res : List Char) : Resource :=
  if res = "cpu".toList then .cpu else if res = "mem".toList then .ram else .gpu

/-- `"@%15[^:]:%u:%9[^:]:%u"` -/
def tokenFormat : List Directive :=
  [.char '@', .until ':' 15, .char ':', .unsigned, .char ':', .until ':' 9, .char ':', .unsigned]

/-- A token of a JOB_REQUEST, if `sscanf` converts its four fields. -/
def scanToken (token : List Char) : Option ResourceToken :=
  match sscanf tokenFormat token with
  | [.str ip, .num port, .str res, .num cant] =>
    some ⟨Ip.ofText ip, port, requestedType res, cant⟩
  | _ => none

/-- The words after `JOB_REQUEST` and the id. -/
def requestWords (line : List Char) : List (List Char) := (words line).drop 2

/-- The tokens that the loop of `handle_job_request` appends to the job. -/
def requestTokens (line : List Char) : List ResourceToken := (requestWords line).filterMap scanToken

/-! ## Lines of a connection -/

/-- A line that arrives on the connection `socket`, with what the handlers read besides it
and the node's data. -/
structure Arrival where
  connections : Connections
  senderIp : Ip
  socket : UInt32
  now : Int
  rand : Nat → Nat
  line : List Char

/-- The conversion of a format with a single `%u` at its end. -/
def scanId (name : List Char) (line : List Char) : Option UInt32 :=
  match sscanf (literal name ++ [.space, .unsigned]) line with
  | [.num jobId] => some jobId
  | _ => none

/-- The format of RESERVE and RELEASE, with the width of `%s`. -/
def resourceFormat (name : List Char) (width : Option ℕ) : List Directive :=
  literal name ++ [.space, .unsigned, .space, .word width, .space, .unsigned]

/-- The resource named by a RESERVE. -/
def reservedType (res : List Char) : Option Resource :=
  if res = "cpu".toList then some .cpu
  else if res = "mem".toList then some .ram
  else if res = "gpu".toList then some .gpu
  else none

/-- The handler that the branch `ACTION_RESPOND` calls, with its arguments. -/
def scanLine (a : Arrival) : Option AgentEvent :=
  if "GET_NODES".toList.isPrefixOf a.line then none
  else if "JOB_REQUEST".toList.isPrefixOf a.line then
    (scanId "JOB_REQUEST".toList a.line).map fun jobId =>
      .jobRequest a.now a.socket jobId (requestTokens a.line)
  else if "RESERVE".toList.isPrefixOf a.line then
    match sscanf (resourceFormat "RESERVE".toList none) a.line with
    | [.num jobId, .str res, .num cant] =>
      some (.reserve a.socket jobId (reservedType res) cant)
    | _ => none
  else if "GRANTED".toList.isPrefixOf a.line then
    (scanId "GRANTED".toList a.line).map (.granted a.connections a.senderIp a.socket)
  else if "DENIED".toList.isPrefixOf a.line then
    (scanId "DENIED".toList a.line).map .denied
  else if "RELEASE".toList.isPrefixOf a.line then
    match sscanf (resourceFormat "RELEASE".toList (some 9)) a.line with
    | [.num jobId, .str _, .num _] => some (.release a.socket jobId a.rand)
    | _ => none
  else if "JOB_RELEASE".toList.isPrefixOf a.line then
    (scanId "JOB_RELEASE".toList a.line).map .jobRelease
  else none

/-- The lines that `handle_job_request` acts on. -/
theorem scanLine_jobRequest {a : Arrival} {now : Int} {socket jobId : UInt32}
    {tokens : List ResourceToken} (h : scanLine a = some (.jobRequest now socket jobId tokens)) :
    scanId "JOB_REQUEST".toList a.line = some jobId ∧ tokens = requestTokens a.line := by
  unfold scanLine at h
  split at h
  · cases h
  split at h
  · obtain ⟨i, hi, he⟩ := Option.map_eq_some_iff.mp h
    cases he
    exact ⟨hi, rfl⟩
  split at h
  · split at h <;> cases h
  split at h
  · obtain ⟨i, hi, he⟩ := Option.map_eq_some_iff.mp h
    cases he
  split at h
  · obtain ⟨i, hi, he⟩ := Option.map_eq_some_iff.mp h
    cases he
  split at h
  · split at h <;> cases h
  split at h
  · obtain ⟨i, hi, he⟩ := Option.map_eq_some_iff.mp h
    cases he
  · cases h

/-- `handle_get_nodes_response`. -/
def handleGetNodesResponse (nodes : KnownNodes) (socket : UInt32) (outbox : List OutMsg) :
    List OutMsg :=
  addToOutbox outbox (.toFd socket (.line (nodesResponse nodes)))

/-- The branch `ACTION_RESPOND` of `resource_adapter_patch`. -/
def actionRespond (node : NodeData) (a : Arrival) : NodeData × List OutMsg :=
  if "GET_NODES".toList.isPrefixOf a.line then
    (node, handleGetNodesResponse node.knownNodes a.socket [])
  else
    match scanLine a with
    | none => (node, [])
    | some e => resourceAdapterPatch node e

/-- A line handed over by `handle_client_message`: the node's data and all that is sent. -/
def serveLine (a : Arrival) (state : NodeData × List OutMsg) (line : List Char) :
    NodeData × List OutMsg :=
  let (node, outbox) := actionRespond state.1 { a with line := line }
  (node, state.2 ++ outbox)

/-! ## ANNOUNCE -/

/-- What a datagram announces. -/
structure Announcement where
  port : UInt32
  cpu : UInt32
  ram : UInt32
  gpu : UInt32
deriving DecidableEq

/-- One iteration of the loop over the resources of an ANNOUNCE. -/
def announceToken (a : Announcement) (token : List Char) : Announcement :=
  if "cpu:".toList.isPrefixOf token then { a with cpu := atoiUnsigned (token.drop 4) }
  else if "mem:".toList.isPrefixOf token || "ram:".toList.isPrefixOf token then
    { a with ram := atoiUnsigned (token.drop 4) }
  else if "gpu:".toList.isPrefixOf token then { a with gpu := atoiUnsigned (token.drop 4) }
  else a

/-- The announcement of a datagram, if it starts with `ANNOUNCE` and a port. -/
def scanAnnounce (datagram : List Char) : Option Announcement :=
  match words datagram with
  | command :: port :: tokens =>
    if command = "ANNOUNCE".toList then
      some (tokens.foldl announceToken ⟨atoiUnsigned port, 0, 0, 0⟩)
    else none
  | _ => none

/-- `handle_node_announced`. -/
def handleNodeAnnounced (nodes : KnownNodes) (now : Int) (senderIp : Ip) (datagram : List Char) :
    KnownNodes :=
  match scanAnnounce datagram with
  | none => nodes
  | some a => if 0 < a.port then updateKnownNode nodes now senderIp a.port a.cpu a.ram a.gpu else nodes

/-! ## Calls of the dispatcher -/

/-- A call of `resource_adapter_patch` with the text that arrived. -/
inductive Input where
  | line (a : Arrival)
  | datagram (now : Int) (senderIp : Ip) (text : List Char)
  | disconnected (connections : Connections) (senderIp : Option Ip) (socket : UInt32)
  | checkDeadnodes (connections : Connections) (now now' : Int)

/-- What a call does with the node's data, once its text has been scanned. -/
def Input.event : Input → Option AgentEvent
  | .line a => scanLine a
  | .datagram now senderIp text =>
    (scanAnnounce text).map fun a => .announced now senderIp a.port a.cpu a.ram a.gpu
  | .disconnected connections senderIp socket => some (.disconnected connections senderIp socket)
  | .checkDeadnodes connections now now' => some (.checkDeadnodes connections now now')

/-- `resource_adapter_patch`, from the text. -/
def patchInput (node : NodeData) : Input → NodeData × List OutMsg
  | .line a => actionRespond node a
  | .datagram now senderIp text =>
    ({ node with knownNodes := handleNodeAnnounced node.knownNodes now senderIp text }, [])
  | .disconnected connections senderIp socket =>
    resourceAdapterPatch node (.disconnected connections senderIp socket)
  | .checkDeadnodes connections now now' =>
    resourceAdapterPatch node (.checkDeadnodes connections now now')

/-- Apart from GET_NODES, a call does what its event does. -/
theorem patchInput_event (node : NodeData) {i : Input} {e : AgentEvent} (h : i.event = some e) :
    patchInput node i = resourceAdapterPatch node e := by
  cases i with
  | line a =>
    have hget : ¬ "GET_NODES".toList.isPrefixOf a.line := by
      intro hget
      rw [Input.event, scanLine, if_pos hget] at h
      cases h
    rw [patchInput, actionRespond, if_neg hget, show scanLine a = some e from h]
  | datagram now senderIp text =>
    obtain ⟨a, ha, rfl⟩ := Option.map_eq_some_iff.mp h
    simp only [patchInput, handleNodeAnnounced, ha, resourceAdapterPatch]
    by_cases hport : a.port = 0
    · rw [if_neg (by simp [hport]), if_pos hport]
    · rw [if_pos (UInt32.pos_iff_ne_zero.mpr hport), if_neg hport]
  | disconnected connections senderIp socket =>
    cases h
    rfl
  | checkDeadnodes connections now now' =>
    cases h
    rfl

/-- A call without an event leaves the tables as they are and sends at most a NODES line. -/
theorem patchInput_none (node : NodeData) {i : Input} (h : i.event = none) :
    (patchInput node i).1 = node ∧
      ∀ m ∈ (patchInput node i).2, ∃ text, m.message = .line text := by
  cases i with
  | line a =>
    rw [patchInput, actionRespond]
    split
    · refine ⟨rfl, fun m hm => ?_⟩
      simp only [handleGetNodesResponse, addToOutbox] at hm
      split at hm
      · cases hm
      · rw [List.nil_append, List.mem_singleton] at hm
        exact ⟨_, congrArg OutMsg.message hm⟩
    · rw [show scanLine a = none from h]
      exact ⟨rfl, fun m hm => absurd hm List.not_mem_nil⟩
  | datagram now senderIp text =>
    have hnone : scanAnnounce text = none := Option.map_eq_none_iff.mp h
    simp only [patchInput, handleNodeAnnounced, hnone]
    exact ⟨trivial, fun m hm => absurd hm List.not_mem_nil⟩
  | disconnected connections senderIp socket => cases h
  | checkDeadnodes connections now now' => cases h

end ResourceManager
