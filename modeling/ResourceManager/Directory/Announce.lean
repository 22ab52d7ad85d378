import ResourceManager.Comms.Commands
import ResourceManager.Directory.RoundTrip
import ResourceManager.Library.Runs

/-!
# Announcements and the scheduler

The agent admits every announced port but 0, the scheduler only ports up to 65535, and it
rejects a NODES line as a whole when one entry is not acceptable. An announcement therefore
leaves the other nodes visible exactly when it is ignored or announces an acceptable port,
and brings no other entry into the line that is not acceptable (`announce_keeps_iff`).
-/

namespace ResourceManager

open HashTable Library.Runs

/-! ## Directories -/

/-- What changes the directory. The sender of a datagram is an IPv4 address. -/
inductive DirectoryEvent where
  | announced (now : Int) (a b c d : UInt8) (datagram : List Char)
  | removeInactive (now : Int) (maxSize : ℕ)

def directoryStep (nodes : KnownNodes) : DirectoryEvent → KnownNodes
  | .announced now a b c d datagram => handleNodeAnnounced nodes now (inetNtoa a b c d) datagram
  | .removeInactive now maxSize => (removeInactiveNodes nodes now maxSize).1

/-- The directory after a run of the agent. -/
def directory (es : List DirectoryEvent) : KnownNodes := run directoryStep createKnownNodes es

/-- What every entry satisfies. -/
def Admitted (nodes : KnownNodes) : Prop :=
  ∀ node ∈ nodes.datos, DottedQuad node.nodeIp ∧ node.nodePort ≠ 0

theorem admitted_updateKnownNode {nodes : KnownNodes} (h : Admitted nodes) (now : Int)
    (a b c d : UInt8) {port : UInt32} (hport : port ≠ 0) (cpu ram gpu : UInt32) :
    Admitted (updateKnownNode nodes now (inetNtoa a b c d) port cpu ram gpu) := by
  intro node hnode
  rcases Tabla.mem_insertar.mp hnode with rfl | ⟨hold, _⟩
  · exact ⟨⟨a, b, c, d, rfl⟩, hport⟩
  · exact h node hold

theorem admitted_handleNodeAnnounced {nodes : KnownNodes} (h : Admitted nodes) (now : Int)
    (a b c d : UInt8) (datagram : List Char) :
    Admitted (handleNodeAnnounced nodes now (inetNtoa a b c d) datagram) := by
  unfold handleNodeAnnounced
  split
  · exact h
  · split
    · rename_i hport
      exact admitted_updateKnownNode h now a b c d (UInt32.pos_iff_ne_zero.mp hport) _ _ _
    · exact h

theorem admitted_directory (es : List DirectoryEvent) : Admitted (directory es) := by
  apply run_invariant_all
  · intro nodes e h
    cases e with
    | announced now a b c d datagram => exact admitted_handleNodeAnnounced h now a b c d datagram
    | removeInactive now maxSize => exact fun node hnode => h node (mem_removeInactiveNodes hnode)
  · intro node hnode
    rw [createKnownNodes, Tabla.datos_nuevo] at hnode
    cases hnode

/-! ## Lines that hold every entry -/

/-- All texts fit in the buffer. -/
def Fits (nodes : KnownNodes) : Prop := 6 + (nodes.datos.flatMap nodeEntry).length < bufferSize

instance (nodes : KnownNodes) : Decidable (Fits nodes) :=
  inferInstanceAs (Decidable (6 + (nodes.datos.flatMap nodeEntry).length < bufferSize))

/-- The scheduler accepts the NODES line of the directory. -/
def Accepted (nodes : KnownNodes) : Prop :=
  ∃ records, Scheduler.handlePacket (nodesResponse nodes) = .nodeRecords records

theorem handlePacket_of_fits {nodes : KnownNodes} (h : Admitted nodes) (hfits : Fits nodes) :
    Scheduler.handlePacket (nodesResponse nodes) =
      if nodes.datos = [] then .skip "No nodes available".toList
      else if ∀ node ∈ nodes.datos, node.nodePort.toNat ≤ 65535 then
        .nodeRecords (nodes.datos.map nodeRecord)
      else .skip "Unknown packet".toList := by
  have hquad : ∀ node ∈ nodes.datos, DottedQuad node.nodeIp := fun node hnode => (h node hnode).1
  have hall : fitting (bufferSize - 6) nodes.datos = nodes.datos := by
    apply fitting_eq_self
    unfold Fits at hfits
    omega
  have hports : (∀ node ∈ nodes.datos, 1 ≤ node.nodePort.toNat ∧ node.nodePort.toNat ≤ 65535) ↔
      ∀ node ∈ nodes.datos, node.nodePort.toNat ≤ 65535 := by
    refine forall₂_congr fun node hnode => and_iff_right ?_
    exact UInt32.pos_iff_ne_zero.mpr (h node hnode).2
  rw [nodesResponse_eq hquad, hall]
  by_cases hnil : nodes.datos = []
  · rw [if_pos hnil, hnil]
    exact handlePacket_nodesLine_nil
  · rw [if_neg hnil, handlePacket_nodesLine hnil hquad, if_congr hports rfl rfl]

/-! ## One announcement -/

/-- The entry is the one that the datagram is about. -/
def AboutNode (senderIp : Ip) (datagram : List Char) (node : ElemKnownNodes) : Prop :=
  ∃ a ∈ scanAnnounce datagram, node.nodeIp = senderIp ∧ node.nodePort = a.port

/-- After the datagram the line is accepted and holds the records of the other nodes. -/
def KeepsOthers (nodes : KnownNodes) (now : Int) (senderIp : Ip) (datagram : List Char) : Prop :=
  ∃ records, Scheduler.handlePacket
      (nodesResponse (handleNodeAnnounced nodes now senderIp datagram)) = .nodeRecords records ∧
    ∀ node ∈ nodes.datos, ¬ AboutNode senderIp datagram node → nodeRecord node ∈ records

/-- The datagram is ignored, or the ports are acceptable. -/
def Harmless (nodes : KnownNodes) (senderIp : Ip) (datagram : List Char) : Prop :=
  ∀ a ∈ scanAnnounce datagram, a.port ≠ 0 → a.port.toNat ≤ 65535 ∧
    ∀ node ∈ nodes.datos, ¬ AboutNode senderIp datagram node → node.nodePort.toNat ≤ 65535

theorem keepsOthers_of_ignored {nodes : KnownNodes} (h : Admitted nodes)
    (haccepted : Accepted nodes) {now : Int} {senderIp : Ip} {datagram : List Char}
    (hignored : handleNodeAnnounced nodes now senderIp datagram = nodes) (hfits : Fits nodes) :
    KeepsOthers nodes now senderIp datagram := by
  obtain ⟨records, hrecords⟩ := haccepted
  have hpacket := handlePacket_of_fits h hfits
  refine ⟨records, by rw [hignored, hrecords], fun node hnode _ => ?_⟩
  rw [hrecords, if_neg (List.ne_nil_of_mem hnode)] at hpacket
  split at hpacket
  · cases hpacket
    exact List.mem_map_of_mem hnode
  · cases hpacket

theorem keepsOthers_iff_of_admitted {nodes : KnownNodes} (h : Admitted nodes) {now : Int}
    {a b c d : UInt8} {datagram : List Char} {ann : Announcement}
    (hann : scanAnnounce datagram = some ann) (hport : ann.port ≠ 0)
    (hfits : Fits (handleNodeAnnounced nodes now (inetNtoa a b c d) datagram)) :
    KeepsOthers nodes now (inetNtoa a b c d) datagram ↔
      Harmless nodes (inetNtoa a b c d) datagram := by
  have hstep : handleNodeAnnounced nodes now (inetNtoa a b c d) datagram =
      updateKnownNode nodes now (inetNtoa a b c d) ann.port ann.cpu ann.ram ann.gpu := by
    rw [handleNodeAnnounced, hann]
    exact if_pos (UInt32.pos_iff_ne_zero.mpr hport)
  have hadmitted := admitted_handleNodeAnnounced h now a b c d datagram
  have hpacket := handlePacket_of_fits hadmitted hfits
  have hmem : ∀ node, node ∈ (handleNodeAnnounced nodes now (inetNtoa a b c d) datagram).datos ↔
      node = createElemKnownNode (inetNtoa a b c d) ann.port ann.cpu ann.ram ann.gpu now ∨
        (node ∈ nodes.datos ∧ ¬ AboutNode (inetNtoa a b c d) datagram node) := by
    intro node
    rw [hstep, updateKnownNode, Tabla.mem_insertar, igual_knownNode, Prod.mk.injEq]
    simp only [AboutNode, hann, Option.mem_def, Option.some.injEq, exists_eq_left']
    rfl
  have hne : (handleNodeAnnounced nodes now (inetNtoa a b c d) datagram).datos ≠ [] :=
    List.ne_nil_of_mem ((hmem _).mpr (Or.inl rfl))
  rw [if_neg hne] at hpacket
  constructor
  · rintro ⟨records, hrecords, _⟩ ann' hann' _
    rw [hrecords] at hpacket
    split at hpacket
    · rename_i hports
      have he : ann = ann' := Option.some.inj (hann.symm.trans hann')
      subst he
      exact ⟨hports _ ((hmem _).mpr (Or.inl rfl)), fun node hnode hother =>
        hports node ((hmem node).mpr (Or.inr ⟨hnode, hother⟩))⟩
    · cases hpacket
  · intro hharmless
    obtain ⟨hannounced, hothers⟩ := hharmless ann hann hport
    refine ⟨_, hpacket.trans (if_pos fun node hnode => ?_), fun node hnode hother => ?_⟩
    · rcases (hmem node).mp hnode with rfl | ⟨hold, hother⟩
      · exact hannounced
      · exact hothers node hold hother
    · exact List.mem_map_of_mem ((hmem node).mpr (Or.inr ⟨hnode, hother⟩))

/-- In every directory that the agent can reach and whose line is accepted, a datagram after
which everything fits leaves the line accepted and the other nodes in it exactly when it is
harmless. -/
theorem announce_keeps_iff (es : List DirectoryEvent) (now : Int) (a b c d : UInt8)
    (datagram : List Char) (haccepted : Accepted (directory es))
    (hfits : Fits (handleNodeAnnounced (directory es) now (inetNtoa a b c d) datagram)) :
    KeepsOthers (directory es) now (inetNtoa a b c d) datagram ↔
      Harmless (directory es) (inetNtoa a b c d) datagram := by
  have h := admitted_directory es
  by_cases hann : ∃ ann, scanAnnounce datagram = some ann ∧ ann.port ≠ 0
  · obtain ⟨ann, hann, hport⟩ := hann
    exact keepsOthers_iff_of_admitted h hann hport hfits
  · have hignored : handleNodeAnnounced (directory es) now (inetNtoa a b c d) datagram =
        directory es := by
      unfold handleNodeAnnounced
      split
      · rfl
      · rename_i ann hscan
        refine if_neg fun hport => hann ⟨ann, hscan, UInt32.pos_iff_ne_zero.mp hport⟩
    rw [hignored] at hfits
    refine iff_of_true (keepsOthers_of_ignored h haccepted hignored hfits) ?_
    intro ann hscan hport
    exact absurd ⟨ann, hscan, hport⟩ hann

/-- A node announces itself. -/
def firstAnnounce : List DirectoryEvent :=
  [.announced 0 10 0 0 2 "ANNOUNCE 8000 cpu:4 mem:2048 gpu:1".toList]

theorem accepted_firstAnnounce : Accepted (directory firstAnnounce) :=
  ⟨[⟨"10.0.0.2".toList, "8000".toList, some 4, some 2048, some 1⟩], by decide +kernel⟩

theorem announce_keeps_iff_secondNode :
    KeepsOthers (directory firstAnnounce) 5 (inetNtoa 10 0 0 3) "ANNOUNCE 8001 cpu:2".toList := by
  refine (announce_keeps_iff firstAnnounce 5 10 0 0 3 "ANNOUNCE 8001 cpu:2".toList
    accepted_firstAnnounce (by decide +kernel)).mpr fun a ha _ => ?_
  have hscan : scanAnnounce "ANNOUNCE 8001 cpu:2".toList = some ⟨8001, 2, 0, 0⟩ := by
    decide +kernel
  have hports : ∀ node ∈ (directory firstAnnounce).datos, node.nodePort.toNat ≤ 65535 := by
    decide +kernel
  rw [hscan, Option.mem_some_iff] at ha
  subst ha
  exact ⟨by decide, fun node hnode _ => hports node hnode⟩

/-- A port that only the agent accepts: the scheduler rejects the whole line. -/
theorem announce_hides : ¬ ∀ (es : List DirectoryEvent) (now : Int) (a b c d : UInt8)
    (datagram : List Char), Accepted (directory es) →
      Fits (handleNodeAnnounced (directory es) now (inetNtoa a b c d) datagram) →
        KeepsOthers (directory es) now (inetNtoa a b c d) datagram := by
  intro h
  obtain ⟨records, hrecords, _⟩ := h firstAnnounce 5 10 0 0 3 "ANNOUNCE 70000 cpu:2".toList
    accepted_firstAnnounce (by decide +kernel)
  have hskip : Scheduler.handlePacket (nodesResponse (handleNodeAnnounced (directory firstAnnounce)
      5 (inetNtoa 10 0 0 3) "ANNOUNCE 70000 cpu:2".toList)) = .skip "Unknown packet".toList := by
    decide +kernel
  rw [hskip] at hrecords
  cases hrecords

end ResourceManager
