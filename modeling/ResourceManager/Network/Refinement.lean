import ResourceManager.Cluster.Outboxes
import ResourceManager.Cluster.Runs
import ResourceManager.Network.System

/-!
# The network refines the cluster

The bytes on the connections are the texts of the packets of a cluster: what an agent receives
are whole messages, and it reads each of them as it was sent. So an agent that handles the lines
of one receive does what the cluster does when it delivers the packets one after the other, and
every run of the network is one of the cluster with the same requests, releases and timeouts
and the same notices (`network_refines_cluster`).
-/

namespace ResourceManager

open Library.Fields Library.Runs

variable {C : Type} [DecidableEq C]

/-! ## Packets on a route -/

def Packet.route : Packet C → Route C
  | .request c a _ => .toNode c a
  | .reply a c _ => .toCoordinator a c

def Packet.message : Packet C → Message
  | .request _ _ m => m
  | .reply _ _ m => m

/-- The messages of packets that are on a route. -/
def messagesOn (r : Route C) (net : List (Packet C)) : List Message :=
  (net.filter fun pkt => decide (pkt.route = r)).map Packet.message

theorem messagesOn_append (r : Route C) (net net' : List (Packet C)) :
    messagesOn r (net ++ net') = messagesOn r net ++ messagesOn r net' := by
  rw [messagesOn, List.filter_append, List.map_append, messagesOn, messagesOn]

/-- The first packet of a route can leave the network; the others stay in order. -/
theorem exists_first {r : Route C} {net : List (Packet C)} {m : Message} {ms : List Message}
    (h : messagesOn r net = m :: ms) : ∃ i pkt, net[i]? = some pkt ∧ pkt.route = r ∧
      pkt.message = m ∧ messagesOn r (net.eraseIdx i) = ms ∧
        ∀ r', r' ≠ r → messagesOn r' (net.eraseIdx i) = messagesOn r' net := by
  obtain ⟨pkt, pkts, hfilter, rfl, rfl⟩ := List.map_eq_cons_iff.mp h
  obtain ⟨l₁, l₂, rfl, hfirst, hroute, hrest⟩ := List.filter_eq_cons_iff.mp hfilter
  have hroute : pkt.route = r := decide_eq_true_iff.mp hroute
  have herase : (l₁ ++ pkt :: l₂).eraseIdx l₁.length = l₁ ++ l₂ := by
    rw [List.eraseIdx_append_of_length_le le_rfl, Nat.sub_self, List.eraseIdx_cons_zero]
  refine ⟨l₁.length, pkt, ?_, hroute, rfl, ?_, fun r' hr' => ?_⟩
  · rw [List.getElem?_append_right le_rfl, Nat.sub_self, List.getElem?_cons_zero]
  · rw [herase, messagesOn, List.filter_append, List.filter_eq_nil_iff.mpr hfirst, hrest,
      List.nil_append]
  · have hne : ¬ decide (pkt.route = r') = true := by
      rw [decide_eq_true_iff, hroute]
      exact Ne.symm hr'
    rw [herase, messagesOn, messagesOn, List.filter_append, List.filter_append,
      List.filter_cons, if_neg hne]

/-! ## The relation -/

/-- The cluster `s` has the jobs and the inventories of the agents. The streams hold the texts
of its packets, without the messages `hand` that have been received and not yet handled. -/
structure Refines (w : Topology C) (hand : Route C → List Message) (n : Network C)
    (s : Cluster C) : Prop where
  jobs : ∀ c, (n.agent c).ownedJobs = s.jobs c
  node : ∀ c, (n.agent c).inventory = s.node (w.addr c)
  stream : ∀ r, ∃ rest, messagesOn r s.net = hand r ++ rest ∧ n.stream r = rest.flatMap Message.text
  proper : s.Proper
  owners : ∀ c i job, (s.jobs c).job i = some job → Local w c job.ownerSocket

/-- Nothing has been received. -/
def emptyHanded : Route C → List Message := fun _ => []

/-- The notices of a run of the cluster. -/
def notified (w : Topology C) (s : Cluster C) (as : List (Action C)) :
    List (C × Message) :=
  (outputs (fun s act => (Cluster.step w.toWiring s act, (Cluster.step w.toWiring s act).told)) s as).flatten

section

variable {w : Topology C} {hand : Route C → List Message} {n : Network C} {s : Cluster C}

theorem notified_append (as as' : List (Action C)) : notified w s (as ++ as') =
    notified w s as ++ notified w (run (Cluster.step w.toWiring) s as) as' := by
  rw [notified, outputs_append, List.flatten_append]
  rfl

/-! ## Outboxes -/

omit [DecidableEq C] in
theorem Topology.local_zero (w : Topology C) (c : C) : Local w c 0 := ⟨w.peer_zero c, by decide⟩

/-- The texts of the messages of an outbox that are packets, `f` telling which these are. -/
theorem posted_eq {c : C} {f : OutMsg → Option (Packet C)} {outbox : List OutMsg}
    (h : ∀ m ∈ outbox, m.route w c = (f m).map Packet.route ∧ ∀ pkt ∈ f m, pkt.message = m.message)
    (r : Route C) :
    (outbox.flatMap fun m => if m.route w c = some r then m.message.text else []) =
      (messagesOn r (outbox.filterMap f)).flatMap Message.text := by
  induction outbox with
  | nil => rfl
  | cons m outbox ih =>
    obtain ⟨hroute, hmessage⟩ := h m List.mem_cons_self
    rw [List.flatMap_cons, ih fun m' hm' => h m' (List.mem_cons_of_mem _ hm')]
    cases hpkt : f m with
    | none =>
      rw [hpkt] at hroute
      rw [List.filterMap_cons_none hpkt, hroute]
      rfl
    | some pkt =>
      rw [hpkt, Option.map_some] at hroute
      rw [List.filterMap_cons_some hpkt, messagesOn, messagesOn, List.filter_cons, hroute]
      by_cases hr : pkt.route = r
      · rw [if_pos (congrArg some hr), if_pos (decide_eq_true hr), List.map_cons, List.flatMap_cons,
          hmessage pkt hpkt]
      · rw [if_neg fun he => hr (Option.some.inj he), if_neg fun he => hr (decide_eq_true_iff.mp he)]
        rfl

/-- What a coordinator sends by address goes to the nodes. -/
theorem posted_sent {c : C} {outbox : List OutMsg}
    (h : ∀ m ∈ outbox, FromCoordinator (Local w c) m) (r : Route C) :
    (outbox.flatMap fun m => if m.route w c = some r then m.message.text else []) =
      (messagesOn r (sent c outbox)).flatMap Message.text := by
  refine posted_eq (fun m hm => ?_) r
  cases h m hm with
  | request ip port =>
    refine ⟨rfl, fun pkt hpkt => ?_⟩
    cases hpkt
    rfl
  | @notice socket msg _ hsocket =>
    obtain ⟨hpeer, hne⟩ := hsocket
    refine ⟨?_, fun pkt hpkt => by cases hpkt⟩
    unfold OutMsg.route OutMsg.toFd
    rw [if_neg hne, UInt32.toUInt32_toInt32, hpeer]
    rfl

omit [DecidableEq C] in
/-- What a coordinator sends by descriptor goes to the schedulers. -/
theorem reported_notices {c : C} {outbox : List OutMsg}
    (h : ∀ m ∈ outbox, FromCoordinator (Local w c) m) :
    (outbox.filterMap (·.reported w c)).filter (fun p => p.2.isNotice) = notices c outbox := by
  induction outbox with
  | nil => rfl
  | cons m outbox ih =>
    have ih := ih fun m' hm' => h m' (List.mem_cons_of_mem _ hm')
    cases h m List.mem_cons_self with
    | @request ip port msg _ =>
      rw [List.filterMap_cons_none rfl, ih]
      rfl
    | @notice socket msg hmsg hsocket =>
      obtain ⟨hpeer, hne⟩ := hsocket
      have hreported : (OutMsg.toFd socket msg).reported w c = some (c, msg) := by
        refine if_pos ⟨hne, ?_⟩
        rw [OutMsg.toFd, UInt32.toUInt32_toInt32, hpeer]
      rw [List.filterMap_cons_some hreported, List.filter_cons, if_pos hmsg, ih]
      rfl

/-- The answers of a node go to the coordinators at its descriptors. -/
theorem posted_replies {c : C} {outbox : List OutMsg}
    (h : ∀ m ∈ outbox, m.targetIp = none ∧ m.message.Answers) (r : Route C) :
    (outbox.flatMap fun m => if m.route w c = some r then m.message.text else []) =
      (messagesOn r (replies w.toWiring (w.addr c) outbox)).flatMap Message.text := by
  refine posted_eq (fun m hm => ⟨?_, fun pkt hpkt => ?_⟩) r
  · unfold OutMsg.route
    rw [(h m hm).1]
    split
    · rfl
    · rw [Option.map_map]
      rfl
  · split at hpkt
    · cases hpkt
    · obtain ⟨c, _, rfl⟩ := Option.map_eq_some_iff.mp hpkt
      rfl

omit [DecidableEq C] in
theorem reported_nil {c : C} {outbox : List OutMsg}
    (h : ∀ m ∈ outbox, m.message.isNotice = false) :
    (outbox.filterMap (·.reported w c)).filter (fun p => p.2.isNotice) = [] := by
  refine List.filter_eq_nil_iff.mpr fun p hp => ?_
  obtain ⟨m, hm, hreported⟩ := List.mem_filterMap.mp hp
  unfold OutMsg.reported at hreported
  split at hreported
  · cases hreported
    rw [h m hm]
    exact Bool.false_ne_true
  · cases hreported

/-! ## What an agent does -/

/-- From `s` the cluster can follow the network from `n` to `n'`, with these inputs. -/
def Follows (w : Topology C) (s : Cluster C) (n : Network C) (inputs : List (Action C))
    (hand : Route C → List Message) (n' : Network C) : Prop :=
  ∃ as : List (Action C), as.filter Action.isInput = inputs ∧
    Refines w hand n' (run (Cluster.step w.toWiring) s as) ∧ n'.notices = n.notices ++ notified w s as

theorem Follows.trans {hand' hand'' : Route C → List Message} {n' n'' : Network C}
    {inputs inputs' : List (Action C)} (h : Follows w s n inputs hand' n')
    (h' : ∀ s', Refines w hand' n' s' → Follows w s' n' inputs' hand'' n'') :
    Follows w s n (inputs ++ inputs') hand'' n'' := by
  obtain ⟨as, rfl, hrefines, hnotices⟩ := h
  obtain ⟨as', rfl, hrefines', hnotices'⟩ := h' _ hrefines
  refine ⟨as ++ as', List.filter_append as as', ?_, ?_⟩
  · rw [run_append]
    exact hrefines'
  · rw [hnotices', hnotices, notified_append, List.append_assoc]

/-- The cluster takes one step. -/
theorem follows_step {n' : Network C} {hand' : Route C → List Message} (act : Action C)
    (hrefines : Refines w hand' n' (s.step w.toWiring act))
    (hnotices : n'.notices = n.notices ++ (s.step w.toWiring act).told) :
    Follows w s n ([act].filter Action.isInput) hand' n' := by
  refine ⟨[act], rfl, hrefines, ?_⟩
  rw [hnotices, notified, outputs, outputs, List.flatten_cons, List.flatten_nil, List.append_nil]

theorem notices_patched (c : C) (node : NodeData) (outbox : List OutMsg) :
    (n.patched w c (node, outbox)).notices =
      n.notices ++ (outbox.filterMap (·.reported w c)).filter fun p => p.2.isNotice :=
  List.filter_append _ _

namespace Refines

variable (h : Refines w hand n s)

include h

theorem addresses (c : C) : Addresses (Local w c) (s.jobs c, []) := .nil (h.owners c)

/-- An agent has changed what the cluster does not see, and has sent nothing to an agent. -/
theorem quiet {c : C} {node : NodeData} {outbox : List OutMsg}
    (hjobs : node.ownedJobs = (n.agent c).ownedJobs)
    (hinventory : node.inventory = (n.agent c).inventory)
    (hroute : ∀ m ∈ outbox, m.route w c = none)
    (hnotice : ∀ m ∈ outbox, m.message.isNotice = false) :
    Follows w s n [] hand (n.patched w c (node, outbox)) := by
  have hagent : ∀ d, (Function.update n.agent c node d).ownedJobs = (n.agent d).ownedJobs ∧
      (Function.update n.agent c node d).inventory = (n.agent d).inventory := by
    intro d
    by_cases hd : d = c
    · subst hd
      rw [Function.update_self]
      exact ⟨hjobs, hinventory⟩
    · rw [Function.update_of_ne hd]
      exact ⟨rfl, rfl⟩
  refine ⟨[], rfl, ⟨fun d => (hagent d).1.trans (h.jobs d), fun d => (hagent d).2.trans (h.node d),
    fun r => ?_, h.proper, h.owners⟩, ?_⟩
  · obtain ⟨rest, hnet, hstream⟩ := h.stream r
    refine ⟨rest, hnet, ?_⟩
    have hnone : (outbox.flatMap fun m => if m.route w c = some r then m.message.text else []) = [] := by
      refine List.flatMap_eq_nil_iff.mpr fun m hm => ?_
      rw [hroute m hm]
      rfl
    show n.stream r ++ _ = _
    rw [hnone, List.append_nil, hstream]
  · rw [notices_patched, reported_nil hnotice]
    rfl

/-- A coordinator has handled an event. -/
theorem atCoordinator {c : C} {result : OwnedJobs × List OutMsg}
    (hresult : Addresses (Local w c) result) {node : NodeData} (hjobs : node.ownedJobs = result.1)
    (hinventory : node.inventory = (n.agent c).inventory) :
    Refines w hand (n.patched w c (node, result.2)) (s.atCoordinator c result) where
  jobs d := by
    show (Function.update n.agent c node d).ownedJobs = Function.update s.jobs c result.1 d
    by_cases hd : d = c
    · subst hd
      rw [Function.update_self, Function.update_self, hjobs]
    · rw [Function.update_of_ne hd, Function.update_of_ne hd]
      exact h.jobs d
  node d := by
    show (Function.update n.agent c node d).inventory = s.node (w.addr d)
    by_cases hd : d = c
    · subst hd
      rw [Function.update_self, hinventory]
      exact h.node d
    · rw [Function.update_of_ne hd]
      exact h.node d
  stream r := by
    obtain ⟨rest, hnet, hstream⟩ := h.stream r
    refine ⟨rest ++ messagesOn r (sent c result.2), ?_, ?_⟩
    · show messagesOn r (s.net ++ sent c result.2) = _
      rw [messagesOn_append, hnet, List.append_assoc]
    · show n.stream r ++ _ = _
      rw [hstream, posted_sent hresult.outbox, List.flatMap_append]
  proper := h.proper.atCoordinator hresult
  owners d i job hjob := by
    change (Function.update s.jobs c result.1 d).job i = some job at hjob
    by_cases hd : d = c
    · subst hd
      rw [Function.update_self] at hjob
      exact hresult.owners i job hjob
    · rw [Function.update_of_ne hd] at hjob
      exact h.owners d i job hjob

omit h in
theorem notices_atCoordinator {c : C} {result : OwnedJobs × List OutMsg}
    (hresult : Addresses (Local w c) result) (node : NodeData) :
    (n.patched w c (node, result.2)).notices = n.notices ++ notices c result.2 := by
  rw [notices_patched, reported_notices hresult.outbox]

/-- A node has handled a message. -/
theorem atNode {c : C} {result : LocalNode × List OutMsg}
    (hresult : ∀ m ∈ result.2, m.targetIp = none ∧ m.message.Answers) {node : NodeData}
    (hjobs : node.ownedJobs = (n.agent c).ownedJobs) (hinventory : node.inventory = result.1) :
    Refines w hand (n.patched w c (node, result.2)) (s.atNode w.toWiring (w.addr c) result) where
  jobs d := by
    show (Function.update n.agent c node d).ownedJobs = s.jobs d
    by_cases hd : d = c
    · subst hd
      rw [Function.update_self, hjobs]
      exact h.jobs d
    · rw [Function.update_of_ne hd]
      exact h.jobs d
  node d := by
    show (Function.update n.agent c node d).inventory =
      Function.update s.node (w.addr c) result.1 (w.addr d)
    by_cases hd : d = c
    · subst hd
      rw [Function.update_self, Function.update_self, hinventory]
    · rw [Function.update_of_ne hd, Function.update_of_ne (w.addr_injective.ne hd)]
      exact h.node d
  stream r := by
    obtain ⟨rest, hnet, hstream⟩ := h.stream r
    refine ⟨rest ++ messagesOn r (replies w.toWiring (w.addr c) result.2), ?_, ?_⟩
    · show messagesOn r (s.net ++ replies w.toWiring (w.addr c) result.2) = _
      rw [messagesOn_append, hnet, List.append_assoc]
    · show n.stream r ++ _ = _
      rw [hstream, posted_replies hresult, List.flatMap_append]
  proper := h.proper.atNode hresult
  owners := h.owners

/-- The cluster remembers a request. -/
theorem ask (c : C) (jobId : UInt32) (tokens : List ResourceToken) :
    Refines w hand n (s.ask c jobId tokens) :=
  ⟨h.jobs, h.node, h.stream, h.proper, h.owners⟩

/-! ## What an agent reads -/

/-- A node reads a message. -/
theorem serve_request {c d : C} {m : Message} (hm : m.Requests) {a : Arrival}
    (ha : a.socket = w.sock (w.addr d) c) :
    Refines w hand (n.serve w d a m.command) (s.atNode w.toWiring (w.addr d)
        (onRequest (s.node (w.addr d)) (w.sock (w.addr d) c) a.rand m)) ∧
      (n.serve w d a m.command).notices = n.notices ++ [] := by
  have hanswers := answers_onRequest (s.node (w.addr d)) (w.sock (w.addr d) c) a.rand m
  have hpatch : actionRespond (n.agent d) { a with line := m.command } =
      ({ n.agent d with
        inventory := (onRequest (s.node (w.addr d)) (w.sock (w.addr d) c) a.rand m).1 },
          (onRequest (s.node (w.addr d)) (w.sock (w.addr d) c) a.rand m).2) := by
    have hscan := scanLine_command a hm.betweenAgents
    rw [← h.node d, ← ha]
    cases hm with
    | reserve j t q =>
      refine (patchInput_event (n.agent d) (i := .line { a with line := _ }) hscan).trans ?_
      exact resourceAdapterPatch_reserve (n.agent d) a.socket j (some t) q
    | release j t q =>
      refine (patchInput_event (n.agent d) (i := .line { a with line := _ }) hscan).trans ?_
      exact resourceAdapterPatch_release (n.agent d) a.socket j a.rand
  unfold Network.serve
  rw [hpatch]
  refine ⟨h.atNode hanswers rfl rfl, ?_⟩
  rw [notices_patched, reported_nil fun m' hm' => (hanswers m' hm').2.isNotice]

/-- A coordinator reads a message. -/
theorem serve_reply {addr : Addr} {c : C} {m : Message} (hm : m.Answers) {a : Arrival}
    (hip : a.senderIp = addr.ip)
    (hport : getConnectionPort a.connections a.socket.toInt32 = addr.port) :
    Refines w hand (n.serve w c a m.command) (s.atCoordinator c (onReply (s.jobs c) addr m)) ∧
      (n.serve w c a m.command).notices =
        n.notices ++ (s.atCoordinator c (onReply (s.jobs c) addr m)).told := by
  have hresult := (h.addresses c).onReply (w.local_zero c) addr m
  have hpatch : actionRespond (n.agent c) { a with line := m.command } =
      ({ n.agent c with ownedJobs := (onReply (s.jobs c) addr m).1 },
        (onReply (s.jobs c) addr m).2) := by
    have hscan := scanLine_command a hm.betweenAgents
    rw [← h.jobs c]
    cases hm with
    | granted k =>
      refine (patchInput_event (n.agent c) (i := .line { a with line := _ }) hscan).trans ?_
      rw [resourceAdapterPatch, hip, hport]
      rfl
    | denied j =>
      exact patchInput_event (n.agent c) (i := .line { a with line := _ }) hscan
  unfold Network.serve
  rw [hpatch]
  exact ⟨h.atCoordinator hresult rfl rfl, notices_atCoordinator hresult _⟩

/-- The first packet of a route has been received. -/
theorem drop {r : Route C} {m : Message} {ms : List Message} (hhand : hand r = m :: ms) :
    ∃ i pkt, s.net[i]? = some pkt ∧ pkt.route = r ∧ pkt.message = m ∧
      Refines w (Function.update hand r ms) n (s.drop i) := by
  obtain ⟨rest, hnet, hstream⟩ := h.stream r
  rw [hhand, List.cons_append] at hnet
  obtain ⟨i, pkt, hi, hroute, hmessage, hr, hothers⟩ := exists_first hnet
  refine ⟨i, pkt, hi, hroute, hmessage, h.jobs, h.node, fun r' => ?_, h.proper.drop i, h.owners⟩
  by_cases he : r' = r
  · subst he
    rw [Function.update_self]
    exact ⟨rest, hr, hstream⟩
  · rw [Function.update_of_ne he]
    obtain ⟨rest', hnet', hstream'⟩ := h.stream r'
    exact ⟨rest', (hothers r' he).trans hnet', hstream'⟩

/-- An agent handles the next of the messages that it has received. -/
theorem serve_message {r : Route C} {m : Message} {ms : List Message} (hhand : hand r = m :: ms)
    {d : C} {a : Arrival} (ha : a.At w d r) :
    Follows w s n [] (Function.update hand r ms) (n.serve w d a m.command) := by
  obtain ⟨i, pkt, hi, hroute, hmessage, hdrop⟩ := h.drop hhand
  have hproper := h.proper pkt (List.mem_of_getElem? hi)
  cases pkt with
  | request c addr m' =>
    cases hroute
    cases hmessage
    obtain ⟨rfl, hsocket⟩ := ha
    obtain ⟨hrefines, hnotices⟩ := hdrop.serve_request hproper hsocket
    have hstep : s.step w.toWiring (.deliver i a.rand) = (s.drop i).atNode w.toWiring (w.addr d)
        (onRequest ((s.drop i).node (w.addr d)) (w.sock (w.addr d) c) a.rand m') := by
      rw [Cluster.step, hi]
      rfl
    rw [← hstep] at hrefines
    refine follows_step _ hrefines ?_
    rw [hstep]
    exact hnotices
  | reply addr c m' =>
    cases hroute
    cases hmessage
    obtain ⟨rfl, hip, hport⟩ := ha
    obtain ⟨hrefines, hnotices⟩ := hdrop.serve_reply (c := c) hproper hip hport
    have hstep : s.step w.toWiring (.deliver i a.rand) =
        (s.drop i).atCoordinator c (onReply ((s.drop i).jobs c) addr m') := by
      rw [Cluster.step, hi]
      rfl
    rw [← hstep] at hrefines hnotices
    exact follows_step _ hrefines hnotices

omit h in
/-- An agent handles what it has received, one message after the other. -/
theorem serve_messages {r : Route C} {c : C} {a : Arrival} (ha : a.At w c r)
    {ms : List Message} : ∀ {hand : Route C → List Message} {n : Network C} {s : Cluster C},
      Refines w hand n s → hand r = ms → Follows w s n [] (Function.update hand r [])
        ((ms.map Message.command).foldl (fun n line => n.serve w c a line) n) := by
  induction ms with
  | nil =>
    intro hand n s h hhand
    have hkeep : Function.update hand r [] = hand := by
      rw [← hhand, Function.update_eq_self]
    rw [hkeep]
    exact ⟨[], rfl, h, (List.append_nil _).symm⟩
  | cons m ms ih =>
    intro hand n s h hhand
    refine (h.serve_message hhand ha).trans fun s' h' => ?_
    have hrest := ih h' (Function.update_self r ms hand)
    rw [Function.update_idem] at hrest
    exact hrest

end Refines

/-! ## Steps -/

namespace Refines

variable (h : Refines w emptyHanded n s)

include h

theorem receive {c : C} {r : Route C} {bytes : ℕ} {a : Arrival} (ha : a.At w c r)
    (hend : ∀ c ∈ (receiveTcpMessage ((n.stream r).take bytes)).getLast?, isNewline c = true) :
    Follows w s n [] emptyHanded (networkStep w n (.receive c r bytes a)) := by
  obtain ⟨rest, hnet, hstream⟩ := h.stream r
  have hbetween : ∀ m ∈ rest, m.BetweenAgents := by
    intro m hm
    have hmem : m ∈ messagesOn r s.net := hnet ▸ hm
    obtain ⟨pkt, hpkt, rfl⟩ := List.mem_map.mp hmem
    have hproper := h.proper pkt (List.mem_filter.mp hpkt).1
    cases pkt with
    | request => exact Message.Requests.betweenAgents hproper
    | reply => exact Message.Answers.betweenAgents hproper
  rw [networkStep]
  generalize hreceived : receiveTcpMessage ((n.stream r).take bytes) = received at hend
  have hprefix : received ++ (n.stream r).drop received.length = n.stream r := by
    have hpre : received <+: n.stream r := by
      rw [← hreceived]
      exact (List.take_prefix _ _).trans (List.take_prefix _ _)
    obtain ⟨later, hlater⟩ := hpre
    rw [← hlater, List.drop_left]
  have hterminated : ∀ t ∈ rest.map Message.text, Terminated isNewline t := by
    intro t ht
    obtain ⟨m, hm, rfl⟩ := List.mem_map.mp ht
    exact (hbetween m hm).terminated
  obtain ⟨us, vs, hsplit, hus, hvs⟩ := exists_of_flatten_eq_append hterminated
    ((List.flatMap_def.symm.trans hstream.symm).trans hprefix.symm) hend
  obtain ⟨ms, ms', rfl, rfl, rfl⟩ := List.map_eq_append_iff.mp hsplit
  have hlines : lines received = ms.map Message.command := by
    rw [← hus, lines, fields_flatten fun t ht => hterminated t (hsplit ▸ List.mem_append_left _ ht),
      List.map_map]
    rfl
  have hnul : '\x00' ∉ received := by
    rw [← hus]
    intro hmem
    obtain ⟨t, ht, hin⟩ := List.mem_flatten.mp hmem
    obtain ⟨m, hm, rfl⟩ := List.mem_map.mp ht
    exact (hbetween m (List.mem_append_left _ hm)).nul_notMem hin
  rw [handleClientMessage_eq _ _ hnul, hlines]
  have hread : Refines w (Function.update emptyHanded r ms)
      { n with stream := Function.update n.stream r ((n.stream r).drop received.length) } s := by
    refine ⟨h.jobs, h.node, fun r' => ?_, h.proper, h.owners⟩
    by_cases he : r' = r
    · subst he
      dsimp only
      rw [Function.update_self, Function.update_self]
      exact ⟨ms', hnet, by rw [← hvs, List.flatMap_def]⟩
    · dsimp only
      rw [Function.update_of_ne he, Function.update_of_ne he]
      exact h.stream r'
  have hserved := serve_messages ha hread (Function.update_self r ms emptyHanded)
  rw [Function.update_idem, show Function.update emptyHanded r [] = emptyHanded from
    Function.update_eq_self r emptyHanded] at hserved
  exact hserved

/-- A line of a scheduler. -/
theorem serve_command {c : C} {a : Arrival} {line : List Char}
    (hlocal : Local w c a.socket) (hline : Arrival.Commands { a with line := line }) :
    Follows w s n ((scanLine { a with line := line }).bind fun e => e.action c).toList emptyHanded
      (n.serve w c a line) := by
  unfold Network.serve
  cases hscan : scanLine { a with line := line } with
  | none =>
    rw [actionRespond]
    split
    · refine h.quiet rfl rfl (fun m hm => ?_) fun m hm => ?_
      all_goals
        rw [handleGetNodesResponse, addToOutbox_nil, List.mem_singleton] at hm
        subst hm
      · unfold OutMsg.route OutMsg.toFd
        rw [if_neg hlocal.2, UInt32.toUInt32_toInt32, hlocal.1]
        rfl
      · rfl
    · rw [hscan]
      exact h.quiet rfl rfl (fun m hm => absurd hm List.not_mem_nil)
        fun m hm => absurd hm List.not_mem_nil
  | some e =>
    have hpatch := patchInput_event (n.agent c) (i := .line { a with line := line }) hscan
    rw [show actionRespond (n.agent c) { a with line := line } = _ from hpatch]
    have hcommand := hline e hscan
    cases e with
    | jobRequest now socket j ts =>
      obtain rfl : socket = a.socket := hcommand
      have hresult := (h.addresses c).handleJobRequest now hlocal j ts
      have hrefines := h.atCoordinator hresult
        (show ({ n.agent c with ownedJobs := _ } : NodeData).ownedJobs = _ from rfl) rfl
      rw [resourceAdapterPatch, h.jobs c]
      exact follows_step (.jobRequest c now a.socket j ts) (hrefines.ask c j ts)
        (notices_atCoordinator hresult _)
    | jobRelease j =>
      have hresult := (h.addresses c).handleJobRelease (w.local_zero c) j
      have hrefines := h.atCoordinator hresult
        (show ({ n.agent c with ownedJobs := _ } : NodeData).ownedJobs = _ from rfl) rfl
      rw [resourceAdapterPatch, h.jobs c]
      exact follows_step (.jobRelease c j) hrefines (notices_atCoordinator hresult _)
    | announced | reserve | granted | denied | release | disconnected | checkDeadnodes =>
      exact hcommand.elim

omit h in
theorem serve_commands {c : C} {a : Arrival}
    (hlocal : Local w c a.socket) {ls : List (List Char)} :
    ∀ {n : Network C} {s : Cluster C}, Refines w emptyHanded n s →
      (∀ line ∈ ls, Arrival.Commands { a with line := line }) →
        Follows w s n (ls.filterMap fun line =>
          (scanLine { a with line := line }).bind fun e => e.action c) emptyHanded
            (ls.foldl (fun n line => n.serve w c a line) n) := by
  induction ls with
  | nil => exact fun h _ => ⟨[], rfl, h, (List.append_nil _).symm⟩
  | cons line ls ih =>
    intro n s h hls
    have hfirst := h.serve_command hlocal (hls line List.mem_cons_self)
    have hboth := hfirst.trans fun s' h' => ih h' fun l hl => hls l (List.mem_cons_of_mem _ hl)
    rw [List.filterMap_cons]
    cases hscan : (scanLine { a with line := line }).bind fun e => e.action c with
    | none =>
      rw [hscan] at hboth
      exact hboth
    | some act =>
      rw [hscan] at hboth
      exact hboth

theorem timer {c : C} {connections : Connections}
    {now now' : Int} (hnone : (removeInactiveNodes (n.agent c).knownNodes now maxDead).2 = []) :
    Follows w s n [.timeout c now'] emptyHanded
      (networkStep w n (.timer c connections now now')) := by
  have hresult := (h.addresses c).onTimer (w.local_zero c) now'
  have hjobs := handleCheckDeadnodes_of_no_dead connections (n.agent c) now now' hnone
  rw [h.jobs c] at hjobs
  have hinventory : (handleCheckDeadnodes connections (n.agent c) now now' []).1.inventory =
      (n.agent c).inventory := by
    unfold handleCheckDeadnodes
    dsimp only
    rw [hnone]
    rfl
  have houtbox : (handleCheckDeadnodes connections (n.agent c) now now' []).2 =
      (onTimer (s.jobs c) now').2 := congrArg Prod.snd hjobs
  have hpatch : networkStep w n (.timer c connections now now') =
      n.patched w c ((handleCheckDeadnodes connections (n.agent c) now now' []).1,
        (onTimer (s.jobs c) now').2) := by
    rw [← houtbox]
    rfl
  have hrefines : Refines w emptyHanded (n.patched w c (_, _)) (s.step w.toWiring (.timeout c now')) :=
    h.atCoordinator hresult (congrArg Prod.fst hjobs) hinventory
  rw [hpatch]
  exact follows_step _ hrefines (notices_atCoordinator hresult _)

/-- The cluster can follow an ordinary event. -/
theorem step {e : NetworkEvent C} (he : n.Ordinary w e) :
    Follows w s n e.actions emptyHanded (networkStep w n e) := by
  cases e with
  | receive c r bytes a => exact h.receive he.1 he.2
  | command c a arrived =>
    obtain ⟨hlocal, hnul, hlines⟩ := he
    rw [networkStep, handleClientMessage_eq _ _ hnul]
    exact serve_commands hlocal h hlines
  | timer c connections now now' => exact h.timer he
  | datagram c now senderIp text =>
    exact h.quiet rfl rfl (fun m hm => absurd hm List.not_mem_nil)
      fun m hm => absurd hm List.not_mem_nil

omit h in
theorem run {es : List (NetworkEvent C)} :
    ∀ {n : Network C} {s : Cluster C}, Refines w emptyHanded n s →
      Along (networkStep w) (Network.Ordinary w) n es →
        Follows w s n (es.flatMap NetworkEvent.actions) emptyHanded
          (Library.Runs.run (networkStep w) n es) := by
  induction es with
  | nil => exact fun h _ => ⟨[], rfl, h, (List.append_nil _).symm⟩
  | cons e es ih =>
    intro n s h hes
    exact (h.step hes.1).trans fun s' h' => ih h' hes.2

omit h in
theorem initial (w : Topology C) (capacity : Addr → Resource → UInt32) :
    Refines w emptyHanded (Network.initial w capacity) (Cluster.initial capacity) where
  jobs _ := rfl
  node _ := rfl
  stream _ := ⟨[], rfl, rfl⟩
  proper _ hpkt := absurd hpkt List.not_mem_nil
  owners x i job hjob := by
    have hnone : createOwnedJobs.job i = some job := hjob
    rw [job_createOwnedJobs] at hnone
    cases hnone

end Refines

end

/-- Every ordinary run of the network of agents is one of the cluster, with the same requests,
releases and timeouts in the same order: the agents end with the jobs and the inventories of the
cluster, the bytes on each connection are the texts of its packets, and the schedulers have been
sent its notices. -/
theorem network_refines_cluster (w : Topology C) (capacity : Addr → Resource → UInt32)
    (es : List (NetworkEvent C))
    (h : Along (networkStep w) (Network.Ordinary w) (Network.initial w capacity) es) :
    let n := run (networkStep w) (Network.initial w capacity) es
    ∃ as : List (Action C), as.filter Action.isInput = es.flatMap NetworkEvent.actions ∧
      let s := run (Cluster.step w.toWiring) (Cluster.initial capacity) as
      (∀ c, (n.agent c).ownedJobs = s.jobs c) ∧
        (∀ c, (n.agent c).inventory = s.node (w.addr c)) ∧
          (∀ r, n.stream r = (messagesOn r s.net).flatMap Message.text) ∧
            n.notices = notified w (Cluster.initial capacity) as := by
  intro n
  obtain ⟨as, hinputs, hrefines, hnotices⟩ := Refines.run (Refines.initial w capacity) h
  refine ⟨as, hinputs, hrefines.jobs, hrefines.node, fun r => ?_, hnotices⟩
  obtain ⟨rest, hnet, hstream⟩ := hrefines.stream r
  rw [show n.stream r = _ from hstream, hnet]
  rfl

/-! ## Two jobs at once -/

/-- Two agents, each connected to the other and to itself. -/
def twoAgents : Topology Bool where
  toWiring := twoCoordinators
  addr c := if c then secondAddr else firstAddr
  addr_injective := by decide
  peer_zero _ := rfl

/-- The connection of the first agent to the second is at descriptor 9. -/
def bothEnds (socket : UInt32) : Arrival where
  connections fd := ⟨fd.val = 9, secondAddr.ip, secondAddr.port⟩
  senderIp := secondAddr.ip
  socket := socket
  now := 0
  rand _ := 0
  line := []

/-- A scheduler asks for two jobs at once. The RESERVEs arrive together, and so do the GRANTEDs. -/
def twoAtOnce : List (NetworkEvent Bool) :=
  [.command false (bothEnds 7)
      "JOB_REQUEST 1 @10.0.0.2:8000:cpu:1\nJOB_REQUEST 2 @10.0.0.2:8000:mem:1\n".toList,
    .receive true (.toNode false secondAddr) 100 (bothEnds 5),
    .receive false (.toCoordinator secondAddr false) 100 (bothEnds 9)]

theorem network_refines_cluster_twoAtOnce : ∃ as : List (Action Bool),
    (as.filter Action.isInput).length = 2 ∧
      notified twoAgents (Cluster.initial oneOfEach) as =
        [(false, .jobGranted 1), (false, .jobGranted 2)] := by
  obtain ⟨as, hinputs, _, _, _, hnotices⟩ :=
    network_refines_cluster twoAgents oneOfEach twoAtOnce (by decide +kernel)
  refine ⟨as, ?_, ?_⟩
  · rw [hinputs]
    decide +kernel
  · rw [← hnotices]
    decide +kernel

end ResourceManager
