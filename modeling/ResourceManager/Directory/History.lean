import ResourceManager.Directory.Announce
import ResourceManager.Directory.Datagrams
import ResourceManager.Directory.Expiry
import ResourceManager.Library.History

/-!
# The directory as a history of announcements

What the directory holds is read off the datagrams that have arrived and the times at which the
collector has run: the last announcement of each node, unless a collection has found it expired
(`directory_remembers`). This is also what a scheduler gets to see (`scheduler_sees`).
-/

namespace ResourceManager

open HashTable Library.Runs Library.History

/-! ## What the events say -/

/-- The entry that a datagram is about. -/
def DirectoryEvent.heard : DirectoryEvent → Option ElemKnownNodes
  | .announced now a b c d datagram =>
    (scanAnnounce datagram).bind fun ann =>
      if 0 < ann.port then
        some (createElemKnownNode (inetNtoa a b c d) ann.port ann.cpu ann.ram ann.gpu now)
      else none
  | .removeInactive _ _ => none

/-- The event is a collection, by which time the node has been silent for too long. -/
def DirectoryEvent.Expires (e : DirectoryEvent) (node : ElemKnownNodes) : Prop :=
  match e with
  | .announced .. => False
  | .removeInactive now _ => Expired now node

/-- The directory holds the entry. -/
def Knows (nodes : KnownNodes) (node : ElemKnownNodes) : Prop := node ∈ nodes.datos

/-- A collection has room for all nodes that have expired. -/
def Roomy (nodes : KnownNodes) : DirectoryEvent → Prop
  | .announced .. => True
  | .removeInactive now maxSize => nodes.datos.countP (Expired now ·) ≤ maxSize

instance (nodes : KnownNodes) (e : DirectoryEvent) : Decidable (Roomy nodes e) :=
  match e with
  | .announced .. => .isTrue trivial
  | .removeInactive now maxSize =>
    inferInstanceAs (Decidable (nodes.datos.countP (Expired now ·) ≤ maxSize))

/-- The entry is the last announcement of its node. -/
def LastHeard (es : List DirectoryEvent) (node : ElemKnownNodes) : Prop :=
  Standing ElemKnownNodes.address DirectoryEvent.heard (fun _ _ => False) es node

/-- The entry is the last announcement of its node, and no collection since has found the node
expired. -/
def Present (es : List DirectoryEvent) (node : ElemKnownNodes) : Prop :=
  Standing ElemKnownNodes.address DirectoryEvent.heard DirectoryEvent.Expires es node

/-! ## One event -/

section Step

variable {nodes : KnownNodes} {node : ElemKnownNodes}

theorem mem_announced (now : Int) (a b c d : UInt8) (datagram : List Char) :
    node ∈ (directoryStep nodes (.announced now a b c d datagram)).datos ↔
      node ∈ DirectoryEvent.heard (.announced now a b c d datagram) ∨ (node ∈ nodes.datos ∧
        ∀ y ∈ DirectoryEvent.heard (.announced now a b c d datagram), y.address ≠ node.address) := by
  unfold directoryStep DirectoryEvent.heard
  dsimp only
  cases hscan : scanAnnounce datagram with
  | none =>
    rw [handleNodeAnnounced, hscan]
    simp
  | some ann =>
    rw [Option.bind_some]
    split
    · rename_i hport
      rw [(replaces_handleNodeAnnounced nodes now (inetNtoa a b c d) hscan hport).members]
      simp only [Option.mem_some_iff, forall_eq']
      rw [eq_comm, ne_comm]
    · rename_i hport
      rw [handleNodeAnnounced, hscan]
      dsimp only
      rw [if_neg hport]
      simp

/-- Only expired nodes are collected. -/
theorem mem_removeInactive_of (now : Int) (maxSize : ℕ) (hnode : node ∈ nodes.datos)
    (hfresh : ¬Expired now node) :
    node ∈ (directoryStep nodes (.removeInactive now maxSize)).datos := by
  refine mem_left_iff.mpr ⟨hnode, fun hdead => ?_⟩
  obtain ⟨other, hother, he⟩ := List.mem_map.mp hdead
  have hsame := Tabla.eq_of_igual ((inactiveNodes_sublist nodes now maxSize).subset hother) hnode
    (igual_knownNode.mpr he)
  exact hfresh (hsame ▸ expired_of_inactive hother)

/-- All expired nodes are collected, if there is room. -/
theorem mem_removeInactive_iff {now : Int} {maxSize : ℕ}
    (hroom : Roomy nodes (.removeInactive now maxSize)) :
    node ∈ (directoryStep nodes (.removeInactive now maxSize)).datos ↔
      node ∈ nodes.datos ∧ ¬Expired now node := by
  constructor
  · intro hleft
    obtain ⟨hnode, hdead⟩ := mem_left_iff.mp hleft
    refine ⟨hnode, fun hexpired => hdead (List.mem_map_of_mem ?_)⟩
    have hfull : (nodes.datos.filter (Expired now ·)).length ≤ maxSize := by
      rw [← List.countP_eq_length_filter]
      exact hroom
    rw [inactiveNodes_eq, List.take_of_length_le hfull]
    exact List.mem_filter.mpr ⟨hnode, decide_eq_true hexpired⟩
  · rintro ⟨hnode, hfresh⟩
    exact mem_removeInactive_of now maxSize hnode hfresh

theorem mem_step_of {e : DirectoryEvent} (h : node ∈ e.heard ∨ (node ∈ nodes.datos ∧
    (∀ y ∈ e.heard, y.address ≠ node.address) ∧ ¬e.Expires node)) :
    node ∈ (directoryStep nodes e).datos := by
  cases e with
  | announced now a b c d datagram =>
    exact (mem_announced now a b c d datagram).mpr (h.imp_right fun hold => ⟨hold.1, hold.2.1⟩)
  | removeInactive now maxSize =>
    rcases h with hheard | ⟨hnode, -, hfresh⟩
    · cases hheard
    · exact mem_removeInactive_of now maxSize hnode hfresh

theorem of_mem_step {e : DirectoryEvent} (h : node ∈ (directoryStep nodes e).datos) :
    node ∈ e.heard ∨ (node ∈ nodes.datos ∧ ∀ y ∈ e.heard, y.address ≠ node.address) := by
  cases e with
  | announced now a b c d datagram => exact (mem_announced now a b c d datagram).mp h
  | removeInactive now maxSize =>
    exact Or.inr ⟨(mem_left_iff.mp h).1, fun y hy => by cases hy⟩

theorem mem_step_iff {e : DirectoryEvent} (hroom : Roomy nodes e) :
    node ∈ (directoryStep nodes e).datos ↔ node ∈ e.heard ∨ (node ∈ nodes.datos ∧
      (∀ y ∈ e.heard, y.address ≠ node.address) ∧ ¬e.Expires node) := by
  refine ⟨fun h => (of_mem_step h).imp_right fun hold => ⟨hold.1, hold.2, ?_⟩, mem_step_of⟩
  cases e with
  | announced now a b c d datagram => exact id
  | removeInactive now maxSize => exact ((mem_removeInactive_iff hroom).mp h).2

end Step

/-! ## Runs -/

section Runs

variable {node : ElemKnownNodes} {es : List DirectoryEvent}

theorem notMem_createKnownNodes : node ∉ createKnownNodes.datos := by
  rw [createKnownNodes, Tabla.datos_nuevo]
  exact List.not_mem_nil

theorem lastHeard_of_mem (h : node ∈ (directory es).datos) : LastHeard es node := by
  have hstep : ∀ nodes (e : DirectoryEvent) x, True → Knows (directoryStep nodes e) x →
      x ∈ e.heard ∨ (Knows nodes x ∧ (∀ y ∈ e.heard, y.address ≠ x.address) ∧ ¬False) :=
    fun nodes e x _ hmem => (of_mem_step hmem).imp_right fun hold => ⟨hold.1, hold.2, not_false⟩
  have hall : Along directoryStep (fun _ _ => True) createKnownNodes es :=
    along_of_forall fun _ _ => trivial
  have hstanding := standing_of_mem Knows hstep hall h
  exact hstanding.resolve_right fun hold => notMem_createKnownNodes hold.1

theorem mem_of_present (h : Present es node) : node ∈ (directory es).datos := by
  have hstep : ∀ nodes (e : DirectoryEvent) x, True → x ∈ e.heard ∨ (Knows nodes x ∧
      (∀ y ∈ e.heard, y.address ≠ x.address) ∧ ¬e.Expires x) → Knows (directoryStep nodes e) x :=
    fun nodes e x _ => mem_step_of
  have hall : Along directoryStep (fun _ _ => True) createKnownNodes es :=
    along_of_forall fun _ _ => trivial
  exact mem_of_standing Knows hstep hall (Or.inl h)

theorem mem_directory_iff (hroom : Along directoryStep Roomy createKnownNodes es) :
    node ∈ (directory es).datos ↔ Present es node := by
  have hstep : ∀ nodes (e : DirectoryEvent) x, Roomy nodes e → (Knows (directoryStep nodes e) x ↔
      x ∈ e.heard ∨ (Knows nodes x ∧ (∀ y ∈ e.heard, y.address ≠ x.address) ∧ ¬e.Expires x)) :=
    fun nodes e x hroom => mem_step_iff hroom
  exact mem_run_iff Knows hstep (fun _ => notMem_createKnownNodes) hroom

end Runs

/-- After every run of datagrams and collections: what the directory knows of a node is what the
node has announced last; the last announcement of a node is there, unless a collection has come
too long after it; and if the collections have had room for all expired nodes, nothing else is. -/
theorem directory_remembers (es : List DirectoryEvent) :
    (∀ node ∈ (directory es).datos, LastHeard es node) ∧
    (∀ node, Present es node → node ∈ (directory es).datos) ∧
    (Along directoryStep Roomy createKnownNodes es →
      ∀ node, node ∈ (directory es).datos ↔ Present es node) :=
  ⟨fun _ => lastHeard_of_mem, fun _ => mem_of_present, fun hroom _ => mem_directory_iff hroom⟩

/-- A scheduler that asks for the nodes gets a record for every node that is present, with what
it has announced last, and no other record. -/
theorem scheduler_sees (es : List DirectoryEvent)
    (hroom : Along directoryStep Roomy createKnownNodes es) (hfits : Fits (directory es))
    (hports : ∀ node, Present es node → node.nodePort.toNat ≤ 65535)
    (hsome : ∃ node, Present es node) :
    ∃ records, Scheduler.handlePacket (nodesResponse (directory es)) = .nodeRecords records ∧
      ∀ r, r ∈ records ↔ ∃ node, Present es node ∧ nodeRecord node = r := by
  have hmem : ∀ node, node ∈ (directory es).datos ↔ Present es node :=
    fun node => mem_directory_iff hroom
  have hne : (directory es).datos ≠ [] := by
    obtain ⟨node, hnode⟩ := hsome
    exact List.ne_nil_of_mem ((hmem node).mpr hnode)
  have hpacket := handlePacket_of_fits (admitted_directory es) hfits
  rw [if_neg hne, if_pos fun node hnode => hports node ((hmem node).mp hnode)] at hpacket
  refine ⟨_, hpacket, fun r => ?_⟩
  rw [List.mem_map]
  exact exists_congr fun node => and_congr_left' (hmem node)

/-- Two nodes announce themselves, and one of them falls silent. -/
def oneSilent : List DirectoryEvent :=
  [.announced 0 10 0 0 2 "ANNOUNCE 8000 cpu:4 mem:2048 gpu:1".toList,
    .announced 0 10 0 0 3 "ANNOUNCE 8000 cpu:8".toList,
    .announced 10 10 0 0 2 "ANNOUNCE 8000 cpu:2 mem:1024 gpu:1".toList, .removeInactive 20 10]

theorem scheduler_sees_oneSilent :
    Scheduler.handlePacket (nodesResponse (directory oneSilent)) =
      .nodeRecords [⟨"10.0.0.2".toList, "8000".toList, some 2, some 1024, some 1⟩] ∧
    ∀ node, Present oneSilent node →
      nodeRecord node = ⟨"10.0.0.2".toList, "8000".toList, some 2, some 1024, some 1⟩ := by
  have hroom : Along directoryStep Roomy createKnownNodes oneSilent := by decide +kernel
  have hports : ∀ node ∈ (directory oneSilent).datos, node.nodePort.toNat ≤ 65535 := by
    decide +kernel
  have hlength : (directory oneSilent).datos.length = 1 := by decide +kernel
  have hsome : ∃ node, Present oneSilent node := by
    obtain ⟨node, hnode⟩ := List.exists_mem_of_length_pos (hlength ▸ Nat.one_pos)
    exact ⟨node, (mem_directory_iff hroom).mp hnode⟩
  obtain ⟨records, hrecords, hmem⟩ := scheduler_sees oneSilent hroom (by decide +kernel)
    (fun node hnode => hports node (mem_of_present hnode)) hsome
  have hline : Scheduler.handlePacket (nodesResponse (directory oneSilent)) =
      .nodeRecords [⟨"10.0.0.2".toList, "8000".toList, some 2, some 1024, some 1⟩] := by
    decide +kernel
  refine ⟨hline, fun node hnode => ?_⟩
  rw [hline] at hrecords
  cases hrecords
  exact List.mem_singleton.mp ((hmem (nodeRecord node)).mpr ⟨node, hnode, rfl⟩)

end ResourceManager
