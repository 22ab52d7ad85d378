import ResourceManager.Cluster.Generated
import ResourceManager.Grid.System

/-!
# What the clients ask for

An entry of a directory comes from an announcement of what its node had available, which was
no more than what the node has. So the lists that the agents send and the requests that the
schedulers generate for them ask for no more than the nodes have, in the order of the
scheduler, and the agents read them as they were generated.
-/

namespace ResourceManager

open HashTable Scheduler Library.Fields

variable (capacity : Addr → Resource → UInt32)

/-- The entry of a node that has what it has announced. -/
structure Known (node : ElemKnownNodes) : Prop where
  ip : DottedQuad node.nodeIp
  port : node.nodePort ≠ 0
  avail : ∀ r, node.avail r ≤ capacity ⟨node.nodeIp, node.nodePort⟩ r

/-- The directory has an entry for the address. -/
def HasEntry (nodes : KnownNodes) (a : Addr) : Prop :=
  ∃ node ∈ nodes.datos, (⟨node.nodeIp, node.nodePort⟩ : Addr) = a

/-- The records of nodes of the directory, which have different addresses. -/
def Listed (nodes : KnownNodes) (records : List Node) : Prop :=
  ∃ kept : List ElemKnownNodes, records = kept.map nodeRecord ∧ (kept.map (·.address)).Nodup ∧
    ∀ node ∈ kept, Known capacity node ∧ HasEntry nodes ⟨node.nodeIp, node.nodePort⟩

/-- The petitions are in order, to nodes of the directory, and ask for what the nodes have. -/
structure Servable (nodes : KnownNodes) (ps : List ResourceToken) : Prop where
  sendable : Sendable ps
  quads : ∀ p ∈ ps, DottedQuad p.ip
  known : ∀ p ∈ ps, HasEntry nodes p.target.addr
  fits : ∀ p ∈ ps, p.cant ≤ capacity p.target.addr p.type

/-- What schedulers make their agents do: a request is for nodes of the agent's directory and
for what they have, and a release is of a granted job. -/
def Cluster.Scheduled {C : Type} (directory : C → KnownNodes) (s : Cluster C) : Action C → Prop
  | .jobRequest c _ _ _ ps => ∀ p ∈ ps,
    HasEntry (directory c) p.target.addr ∧ p.cant ≤ capacity p.target.addr p.type
  | .jobRelease c j => s.Granted (c, j)
  | .timeout .. | .deliver .. => True

/-- A datagram of a public node. -/
def Announced (p : Ip × List Char) : Prop :=
  ∃ (a : Addr) (avail : Resource → UInt32), Public a ∧ p.1 = a.ip ∧
    (∀ r, avail r ≤ capacity a r) ∧
      p.2 = announceText a.port.toInt32 (avail .cpu) (avail .ram) (avail .gpu)

variable {capacity}

/-! ## Directories that grow -/

theorem Listed.mono {nodes nodes' : KnownNodes} (hentry : ∀ a, HasEntry nodes a → HasEntry nodes' a)
    {records : List Node} (h : Listed capacity nodes records) : Listed capacity nodes' records := by
  obtain ⟨kept, hrecords, hnodup, hkept⟩ := h
  exact ⟨kept, hrecords, hnodup, fun node hnode => (hkept node hnode).imp_right (hentry _)⟩

theorem Cluster.Scheduled.mono {C : Type} {directory directory' : C → KnownNodes}
    (hentry : ∀ c a, HasEntry (directory c) a → HasEntry (directory' c) a) {s : Cluster C}
    {act : Action C} (h : s.Scheduled capacity directory act) :
    s.Scheduled capacity directory' act := by
  cases act with
  | jobRequest c now k j ps => exact fun p hp => (h p hp).imp_left (hentry c _)
  | jobRelease | timeout | deliver => exact h

/-- An entry takes the place of another one for the same node only. -/
theorem Replaces.hasEntry {nodes nodes' : KnownNodes} {entry : ElemKnownNodes}
    (h : Replaces nodes nodes' entry) {a : Addr} (ha : HasEntry nodes a) : HasEntry nodes' a := by
  obtain ⟨node, hnode, rfl⟩ := ha
  by_cases haddress : node.address = entry.address
  · refine ⟨entry, (h.members entry).mpr (Or.inl rfl), ?_⟩
    obtain ⟨hip, hport⟩ := Prod.mk.inj haddress
    rw [hip, hport]
  · exact ⟨node, (h.members node).mpr (Or.inr ⟨hnode, haddress⟩), rfl⟩

/-! ## Announcements -/

theorem Public.toInt_pos {a : Addr} (h : Public a) : 0 < a.port.toInt32.toInt := by
  have hport : a.port < 2147483648 := by
    rw [UInt32.lt_iff_toNat_lt]
    have := h.le
    show a.port.toNat < 2147483648
    omega
  have := h.pos
  rw [toInt_toInt32 hport]
  omega

/-- What a public node sends. -/
theorem announced_handleGetResources {n : LocalNode} {a : Addr} (ha : Public a)
    (havail : ∀ r, n.avail r ≤ capacity a r) :
    ∀ p ∈ (handleGetResources n a.port.toInt32 []).map fun m => (a.ip, m.message.text),
      Announced capacity p := by
  intro p hp
  rw [handleGetResources_eq n ha.toInt_pos] at hp
  rw [List.mem_singleton.mp hp]
  exact ⟨a, n.avail, ha, rfl, havail, rfl⟩

/-- Whoever hears an announcement knows the node, and forgets no other. -/
theorem known_handleNodeAnnounced {nodes : KnownNodes} (h : ∀ node ∈ nodes.datos, Known capacity node)
    {senderIp : Ip} {text : List Char} (hair : Announced capacity (senderIp, text)) (now : Int) :
    (∀ node ∈ (handleNodeAnnounced nodes now senderIp (processDiscoveryDatagram text)).datos,
      Known capacity node) ∧
    ∀ a, HasEntry nodes a →
      HasEntry (handleNodeAnnounced nodes now senderIp (processDiscoveryDatagram text)) a := by
  obtain ⟨a, avail, ha, hip, havail, htext⟩ := hair
  dsimp only at hip htext
  subst hip htext
  rw [processDiscoveryDatagram_announceText _ _ _ ha.toInt_pos]
  have hscan := scanAnnounce_announceText ha.toInt_pos (avail .cpu) (avail .ram) (avail .gpu)
  rw [UInt32.toUInt32_toInt32] at hscan
  have hport : a.port ≠ 0 := by
    rintro hzero
    have := ha.pos
    rw [hzero] at this
    exact absurd this (by decide)
  have hreplaces := replaces_handleNodeAnnounced nodes now a.ip hscan
    (UInt32.pos_iff_ne_zero.mpr hport)
  refine ⟨fun node hnode => ?_, fun _ => hreplaces.hasEntry⟩
  rcases (hreplaces.members node).mp hnode with rfl | ⟨hold, _⟩
  · refine ⟨ha.ip, hport, fun r => ?_⟩
    cases r with
    | cpu => exact havail .cpu
    | gpu => exact havail .gpu
    | ram => exact havail .ram
  · exact h node hold

/-! ## Lists -/

/-- The list that an agent sends is one of known nodes, or is skipped. -/
theorem handlePacket_nodesResponse {nodes : KnownNodes}
    (h : ∀ node ∈ nodes.datos, Known capacity node) :
    (∃ records, handlePacket (nodesResponse nodes) = .nodeRecords records ∧
      Listed capacity nodes records) ∨
      ∃ reason, handlePacket (nodesResponse nodes) = .skip reason := by
  have hsub := fitting_sublist nodes.datos (bufferSize - 6)
  rw [nodesResponse_eq fun node hnode => (h node hnode).ip]
  generalize fitting (bufferSize - 6) nodes.datos = kept at hsub
  by_cases hnil : kept = []
  · rw [hnil, handlePacket_nodesLine_nil]
    exact Or.inr ⟨_, rfl⟩
  · rw [handlePacket_nodesLine hnil fun node hnode => (h node (hsub.subset hnode)).ip]
    split
    · exact Or.inl ⟨_, rfl, kept, rfl, (nodup_addresses nodes).sublist (hsub.map _),
        fun node hnode => ⟨h node (hsub.subset hnode), node, hsub.subset hnode, rfl⟩⟩
    · exact Or.inr ⟨_, rfl⟩

/-! ## Requests -/

/-- The petitions generated for a list are those of tokens that can be served. -/
theorem exists_servable {nodes : KnownNodes} {records : List Node}
    (h : Listed capacity nodes records) (draws : Draws) (id : ℤ) :
    ∃ ts, Servable capacity nodes ts ∧ (generateJobRequest draws id records .dev).1 =
      jobRequestLine id (ts.map fun t => t.tuple true) := by
  obtain ⟨kept, rfl, hnodup, hknown⟩ := h
  obtain ⟨ts, hts, hasked⟩ := exists_tuples
    fun p (hp : p ∈ (generateJobRequest draws id (kept.map nodeRecord) .dev).2) =>
      admissible_of_mem_request hp
  have hsorted := pairwise_request draws id (nodup_records hnodup)
  rw [← hts, List.pairwise_map] at hsorted
  have htarget : ∀ t ∈ ts, ∃ node ∈ kept, t.target.addr = ⟨node.nodeIp, node.nodePort⟩ ∧
      t.cant ≤ node.avail t.type := by
    intro t ht
    obtain ⟨node, hnode, haddress, _, hle⟩ := hasked t ht
    refine ⟨node, hnode, ?_, hle⟩
    show (⟨t.ip, t.port⟩ : Addr) = _
    rw [show t.ip = node.nodeIp from congrArg Prod.fst haddress,
      show t.port = node.nodePort from congrArg Prod.snd haddress]
  refine ⟨ts, ⟨⟨hsorted.imp tuple_key_lt.mp, fun t ht => ?_⟩, fun t ht => ?_, fun t ht => ?_,
    fun t ht => ?_⟩, ?_⟩
  · obtain ⟨node, hnode, haddr, _⟩ := htarget t ht
    rw [show t.port = node.nodePort from congrArg Addr.port haddr]
    exact (hknown node hnode).1.port
  · obtain ⟨node, hnode, haddr, _⟩ := htarget t ht
    rw [show t.ip = node.nodeIp from congrArg Addr.ip haddr]
    exact (hknown node hnode).1.ip
  · obtain ⟨node, hnode, haddr, _⟩ := htarget t ht
    rw [haddr]
    exact (hknown node hnode).2
  · obtain ⟨node, hnode, haddr, hle⟩ := htarget t ht
    rw [haddr]
    exact UInt32.le_trans hle ((hknown node hnode).1.avail t.type)
  · rw [hts]
    rfl

/-- The agent reads the request as its id and its petitions. -/
theorem lines_request (jobId : UInt32) {ts : List ResourceToken} (h : ∀ t ∈ ts, DottedQuad t.ip) :
    '\x00' ∉ jobRequestLine jobId.toNat (ts.map fun t => t.tuple true) ∧
      lines (jobRequestLine jobId.toNat (ts.map fun t => t.tuple true)) = [requestText jobId ts] := by
  have hline := jobRequestLine_tuples jobId (ts.map fun t => (t, true))
  have hfst : (Prod.fst ∘ fun t : ResourceToken => (t, true)) = id := rfl
  have htuple : ((fun p : ResourceToken × Bool => p.1.tuple p.2) ∘ fun t : ResourceToken => (t, true)) =
      fun t => t.tuple true := rfl
  rw [List.map_map, List.map_map, hfst, List.map_id, htuple] at hline
  rw [hline, List.mem_append]
  refine ⟨?_, lines_requestText jobId h⟩
  rintro (hmem | hmem)
  · exact separators_notMem_text h (Or.inr rfl) hmem
  · exact absurd hmem (by decide)

theorem nul_notMem_jobReleaseLine (jobId : UInt32) : '\x00' ∉ jobReleaseLine jobId.toNat := by
  rw [jobReleaseLine_natCast]
  intro hmem
  rcases List.mem_append.mp hmem with hmem | hmem
  · rcases List.mem_append.mp hmem with hmem | hmem
    · exact absurd hmem (by decide)
    rcases List.mem_cons.mp hmem with hmem | hmem
    · exact absurd hmem (by decide)
    · exact (decimal_printUnsigned jobId).notMem (by decide) hmem
  · exact absurd hmem (by decide)

end ResourceManager
