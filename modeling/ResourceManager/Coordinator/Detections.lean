import ResourceManager.Comms.Descriptors
import ResourceManager.Coordinator.NodeDeath
import ResourceManager.Inventory.Isolation

/-!
# Two detections of the same death

A remote node is found dead when its announcements expire or when its connection closes.
The expiry looks for the connection by the announced port. It finds no connection that the
node has opened, because these are recorded with the port 0: what the node has reserved over
such a connection stays reserved (`expiry_reclaims_iff`). The two detections roll back the
same jobs, and they agree exactly when the dead node has granted nothing to these jobs and
both free the same descriptor (`sameRollback_iff`).
-/

namespace ResourceManager

open HashTable Library.Runs LocalNode

/-! ## Descriptors -/

theorem ofNat_fd_inj {f g : Fin maxFds} (h : UInt32.ofNat f = UInt32.ofNat g) : f = g := by
  have hf : (f : ℕ) < 1024 := f.isLt
  have hg : (g : ℕ) < 1024 := g.isLt
  have hval := congrArg UInt32.toNat h
  rw [UInt32.toNat_ofNat', UInt32.toNat_ofNat'] at hval
  apply Fin.ext
  omega

theorem getConnectionPort_ofNat (connections : Connections) (f : Fin maxFds) :
    getConnectionPort connections (UInt32.ofNat f).toInt32 =
      if (connections f).isActive then (connections f).port else 0 := by
  have hf : (f : ℕ) < 1024 := f.isLt
  have hnat : (UInt32.ofNat f).toNat = f := by
    rw [UInt32.toNat_ofNat']
    omega
  have hint : (UInt32.ofNat f).toInt32.toInt = (f : ℕ) := by
    rw [toInt_toInt32, hnat]
    rw [UInt32.lt_iff_toNat_lt, hnat]
    show (f : ℕ) < 2147483648
    omega
  unfold getConnectionPort
  simp only [hint, Int.toNat_natCast, Nat.cast_nonneg, true_and, f.isLt, dite_true]

/-! ## What the expiry frees -/

section Zombies

variable {connections : Connections} {dead : List (Ip × UInt32)} {inventory : LocalNode}
  {k : UInt32}

/-- The socket is not the descriptor that a lookup finds for a dead node. -/
def NoZombie (connections : Connections) (dead : List (Ip × UInt32)) (k : UInt32) : Prop :=
  ∀ d ∈ dead, ∀ fd ∈ findFdByIpPort connections d.1 d.2, k ≠ UInt32.ofNat fd

/-- What the freeing of the found descriptors preserves holds after the loop. -/
theorem reclaimZombies_invariant {I : LocalNode → Prop}
    (hstep : ∀ d ∈ dead, ∀ fd ∈ findFdByIpPort connections d.1 d.2, ∀ s, I s →
      I (freeAllResourcesFromSocket s (UInt32.ofNat fd)))
    (h : I inventory) : I (dead.foldl (reclaimZombie connections) inventory) := by
  refine List.foldlRecOn dead _ h fun s hs d hd => ?_
  unfold reclaimZombie
  cases hfind : findFdByIpPort connections d.1 d.2 with
  | none => exact hs
  | some fd => exact hstep d hd fd hfind s hs

theorem held_reclaimZombies (x : ElemActiveJob) (hx : NoZombie connections dead x.socket) :
    x ∈ (dead.foldl (reclaimZombie connections) inventory).held ↔ x ∈ inventory.held := by
  refine reclaimZombies_invariant (I := fun s => x ∈ s.held ↔ x ∈ inventory.held)
    (fun d hd fd hfind s hs => ?_) Iff.rfl
  exact ((isolated_freeAll s _).held x (hx d hd fd hfind)).trans hs

theorem idle_reclaimZombies_iff (hk : NoZombie connections dead k) :
    (dead.foldl (reclaimZombie connections) inventory).Idle k ↔ inventory.Idle k := by
  refine reclaimZombies_invariant (I := fun s => s.Idle k ↔ inventory.Idle k)
    (fun d hd fd hfind s hs => ?_) Iff.rfl
  exact ((isolated_freeAll s _).idle_iff (hk d hd fd hfind)).trans hs

theorem committed_reclaimZombies (h : inventory.Committed) :
    (dead.foldl (reclaimZombie connections) inventory).Committed ∧
      ∀ t, (dead.foldl (reclaimZombie connections) inventory).accounted t =
        inventory.accounted t := by
  refine reclaimZombies_invariant
    (I := fun s => s.Committed ∧ ∀ t, s.accounted t = inventory.accounted t)
    (fun d _ fd _ s hs => ?_) ⟨h, fun _ => rfl⟩
  obtain ⟨hcommitted, hsame⟩ := hs
  exact ⟨(moves_freeAll hcommitted _).committed hcommitted,
    fun t => (accounted_freeAll hcommitted _ t).trans (hsame t)⟩

end Zombies

/-! ## Reachable states -/

/-- The units are accounted for, and no node of the directory has the port 0. -/
structure Sane (node : NodeData) : Prop where
  committed : node.inventory.Committed
  ports : ∀ n ∈ node.knownNodes.datos, n.nodePort ≠ 0

theorem sane_resourceAdapterPatch {node : NodeData} (h : Sane node) (e : AgentEvent) :
    Sane (resourceAdapterPatch node e).1 := by
  cases e with
  | announced now ip port cpu ram gpu =>
    unfold resourceAdapterPatch
    dsimp only
    split
    · exact h
    · rename_i hport
      refine ⟨h.committed, fun n hn => ?_⟩
      rcases Tabla.mem_insertar.mp hn with rfl | ⟨hold, _⟩
      · exact hport
      · exact h.ports n hold
  | jobRequest now socket j tokens => exact ⟨h.committed, h.ports⟩
  | reserve k j type q =>
    rw [resourceAdapterPatch_reserve]
    exact ⟨committed_inventoryStep _ (.reserve k j type q) h.committed, h.ports⟩
  | granted connections ip socket j => exact ⟨h.committed, h.ports⟩
  | denied j => exact ⟨h.committed, h.ports⟩
  | release k j rand =>
    rw [resourceAdapterPatch_release]
    exact ⟨committed_inventoryStep _ (.release k j rand) h.committed, h.ports⟩
  | jobRelease j => exact ⟨h.committed, h.ports⟩
  | disconnected connections ip socket =>
    have hfree := (moves_freeAll h.committed socket).committed h.committed
    rw [resourceAdapterPatch_disconnected]
    cases closedPeer connections ip socket <;> exact ⟨hfree, h.ports⟩
  | checkDeadnodes connections now now' =>
    rw [resourceAdapterPatch_checkDeadnodes]
    exact ⟨(committed_reclaimZombies h.committed).1,
      fun n hn => h.ports n (mem_removeInactiveNodes hn)⟩

theorem sane_agentRun (cpu ram gpu : UInt32) (es : List AgentEvent) :
    Sane (agentRun (initNode cpu ram gpu) es) := by
  refine run_invariant_all (I := Sane) (fun node e h => sane_resourceAdapterPatch h e)
    ⟨committed_createLocalNode cpu gpu ram, fun n hn => ?_⟩
  rw [initNode, createKnownNodes, Tabla.datos_nuevo] at hn
  cases hn

/-- The nodes that expire are nodes of the directory. -/
theorem port_of_dead {node : NodeData} (h : Sane node) {now : Int} {d : Ip × UInt32}
    (hd : d ∈ (removeInactiveNodes node.knownNodes now maxDead).2) : d.2 ≠ 0 := by
  obtain ⟨n, hn, rfl⟩ := node_of_removed hd
  exact h.ports n hn

/-- A lookup for an announced port does not find a connection that the peer has opened. -/
theorem noZombie_of_accepted {connections : Connections} {node : NodeData} (h : Sane node)
    (now : Int) {s : Fin maxFds} (hs : (connections s).port = 0) :
    NoZombie connections (removeInactiveNodes node.knownNodes now maxDead).2 (UInt32.ofNat s) := by
  intro d hd fd hfind he
  have hport := (findFdByIpPort_some hfind).2.2
  rw [← ofNat_fd_inj he, hs] at hport
  exact port_of_dead h hd hport.symm

/-- What the socket had reserved is available again and its requests are gone, and the
reservations of the sockets that are not found for a dead node are the same. -/
structure ExpiryReclaims (connections : Connections) (dead : List (Ip × UInt32)) (socket : UInt32)
    (inventory inventory' : LocalNode) : Prop where
  idle : inventory'.Idle socket
  accounted : ∀ t, inventory'.accounted t = inventory.accounted t
  others : ∀ x : ElemActiveJob, x.socket ≠ socket → NoZombie connections dead x.socket →
    (x ∈ inventory'.held ↔ x ∈ inventory.held)

theorem inventory_checkDeadnodes (connections : Connections) (node : NodeData) (now now' : Int) :
    (resourceAdapterPatch node (.checkDeadnodes connections now now')).1.inventory =
      (removeInactiveNodes node.knownNodes now maxDead).2.foldl (reclaimZombie connections)
        node.inventory := by
  rw [resourceAdapterPatch_checkDeadnodes]

/-- In every reachable state, whichever nodes expire: what was reserved or requested over a
connection that the peer has opened is reclaimed exactly when there was nothing. -/
theorem expiry_reclaims_iff (cpu ram gpu : UInt32) (es : List AgentEvent)
    (connections : Connections) (now now' : Int) {s : Fin maxFds} {ip : Ip}
    (hs : connections s = ⟨true, ip, 0⟩) :
    ExpiryReclaims connections
        (removeInactiveNodes (agentRun (initNode cpu ram gpu) es).knownNodes now maxDead).2
        (UInt32.ofNat s) (agentRun (initNode cpu ram gpu) es).inventory
        (resourceAdapterPatch (agentRun (initNode cpu ram gpu) es)
          (.checkDeadnodes connections now now')).1.inventory ↔
      (agentRun (initNode cpu ram gpu) es).inventory.Idle (UInt32.ofNat s) := by
  have hsane := sane_agentRun cpu ram gpu es
  generalize agentRun (initNode cpu ram gpu) es = node at hsane ⊢
  have hport : (connections s).port = 0 := by
    rw [hs]
  have hzombie := noZombie_of_accepted hsane now hport
  rw [inventory_checkDeadnodes]
  refine ⟨fun h => (idle_reclaimZombies_iff hzombie).mp h.idle, fun h =>
    ⟨(idle_reclaimZombies_iff hzombie).mpr h, ?_, ?_⟩⟩
  · exact (committed_reclaimZombies hsane.committed).2
  · exact fun x _ hx => held_reclaimZombies x hx

/-- The descriptor 5 is a connection that the node has opened. -/
def acceptedConnection : Connections := fun fd =>
  if fd.val = 5 then ⟨true, remoteIp, 0⟩ else ⟨false, remoteIp, 0⟩

/-- The node has announced itself, and another peer holds the CPU. -/
theorem expiry_reclaims_nothing :
    ExpiryReclaims acceptedConnection
      (removeInactiveNodes (agentRun (initNode 1 0 0) [.announced 0 remoteIp 8000 1 0 0,
        .reserve 6 1 (some .cpu) 1]).knownNodes 16 maxDead).2 5
      (agentRun (initNode 1 0 0) [.announced 0 remoteIp 8000 1 0 0,
        .reserve 6 1 (some .cpu) 1]).inventory
      (resourceAdapterPatch (agentRun (initNode 1 0 0) [.announced 0 remoteIp 8000 1 0 0,
        .reserve 6 1 (some .cpu) 1]) (.checkDeadnodes acceptedConnection 16 16)).1.inventory := by
  apply (@expiry_reclaims_iff 1 0 0 [.announced 0 remoteIp 8000 1 0 0,
    .reserve 6 1 (some .cpu) 1] acceptedConnection 16 16 ⟨5, by decide⟩ remoteIp rfl).mpr
  unfold Idle
  decide

/-- The node holds the CPU over the connection that it has opened, and expires. -/
theorem expiry_keeps_reservation : ¬ ∀ (cpu ram gpu : UInt32) (es : List AgentEvent)
    (connections : Connections) (now now' : Int) (s : Fin maxFds) (ip : Ip) (port : UInt32),
    connections s = ⟨true, ip, 0⟩ →
    (ip, port) ∈ (removeInactiveNodes (agentRun (initNode cpu ram gpu) es).knownNodes now
      maxDead).2 →
    ExpiryReclaims connections
      (removeInactiveNodes (agentRun (initNode cpu ram gpu) es).knownNodes now maxDead).2
      (UInt32.ofNat s) (agentRun (initNode cpu ram gpu) es).inventory
      (resourceAdapterPatch (agentRun (initNode cpu ram gpu) es)
        (.checkDeadnodes connections now now')).1.inventory := by
  intro h
  have hexpired := h 1 0 0 [.announced 0 remoteIp 8000 1 0 0, .reserve 5 1 (some .cpu) 1]
    acceptedConnection 16 16 ⟨5, by decide⟩ remoteIp 8000 rfl (by decide)
  have hzombie := noZombie_of_accepted (sane_agentRun 1 0 0 [.announced 0 remoteIp 8000 1 0 0,
    .reserve 5 1 (some .cpu) 1]) 16 (s := ⟨5, by decide⟩)
    (show (acceptedConnection ⟨5, by decide⟩).port = 0 from rfl)
  have hidle := hexpired.idle
  rw [inventory_checkDeadnodes] at hidle
  have hbefore := ((idle_reclaimZombies_iff hzombie).mp hidle).1 ⟨1, 5, 1, .cpu⟩ (by decide)
  exact hbefore rfl

/-! ## The same death, detected twice -/

/-- The node at the other end of the descriptor `f` is the only one that expires. -/
structure OneDeath (connections : Connections) (node : NodeData) (ip : Ip) (port : UInt32)
    (f : Fin maxFds) (now now' : Int) : Prop where
  leads : (connections f).LeadsTo ip port
  port_ne : port ≠ 0
  owner : ∀ job ∈ node.ownedJobs.datos, job.ownerSocket ≠ UInt32.ofNat f
  batch : (node.ownedJobs.datos.filter (ElemOwnedJob.dependsOn (ip, port))).length ≤ maxAffected
  fits : (deadNodesMsgs [(ip, port)] node.ownedJobs).length ≤ maxOutbox
  dead : (removeInactiveNodes node.knownNodes now maxDead).2 = [(ip, port)]
  waits : ∀ job ∈ node.ownedJobs.datos, job.timedOut now' = false

/-- The same jobs, inventory and messages, and no RELEASE to the dead node. -/
structure SameRollback (d : Ip × UInt32) (r r' : NodeData × List OutMsg) : Prop where
  ownedJobs : r.1.ownedJobs = r'.1.ownedJobs
  inventory : r.1.inventory = r'.1.inventory
  messages : r.2.Perm r'.2
  silent : ∀ m ∈ r.2 ++ r'.2, ∀ j p, m = releaseMsg j p → (p.ip, p.port) ≠ d

section OneDeath

variable {connections : Connections} {node : NodeData} {ip : Ip} {port : UInt32} {f : Fin maxFds}
  {now now' : Int}

/-- The ids of the jobs that the death ends. -/
def affectedIds (jobs : OwnedJobs) (d : Ip × UInt32) : List UInt32 :=
  (jobs.collect maxAffected (ElemOwnedJob.dependsOn d)).map ElemOwnedJob.jobId

theorem deadNodesMsgs_affected (jobs : OwnedJobs) (d : Ip × UInt32) : deadNodesMsgs [d] jobs =
    rollbacksMsgs (fun _ => false) (some .jobDenied) (affectedIds jobs d) jobs := by
  rw [deadNodesMsgs_cons, deadNodesMsgs, List.append_nil]
  rfl

theorem checkDeadnodes_of_oneDeath (h : OneDeath connections node ip port f now now') :
    resourceAdapterPatch node (.checkDeadnodes connections now now') =
      (⟨reclaimZombie connections node.inventory (ip, port),
        (removeInactiveNodes node.knownNodes now maxDead).1,
        node.ownedJobs.discard maxAffected (ElemOwnedJob.dependsOn (ip, port))⟩,
      rollbacksMsgs (fun _ => false) (some .jobDenied) (affectedIds node.ownedJobs (ip, port))
        node.ownedJobs) := by
  have hjobs : discardAffected node.ownedJobs [(ip, port)] =
    node.ownedJobs.discard maxAffected (ElemOwnedJob.dependsOn (ip, port)) := rfl
  have hnone : collectTimedOutJobs
      (node.ownedJobs.discard maxAffected (ElemOwnedJob.dependsOn (ip, port))) now' maxAffected =
        [] := by
    rw [collectTimedOutJobs_eq, List.map_eq_nil_iff, OwnedJobs.collect, List.take_eq_nil_iff,
      List.filter_eq_nil_iff]
    refine Or.inr fun job hjob => ?_
    rw [h.waits job (mem_discard.mp hjob).1]
    exact Bool.false_ne_true
  have hfits := h.fits
  rw [deadNodesMsgs_affected] at hfits
  rw [resourceAdapterPatch_checkDeadnodes, h.dead]
  dsimp only
  rw [hjobs, hnone, timeoutLoop, deadNodesMsgs_affected, List.take_of_length_le hfits, List.foldl_cons,
    List.foldl_nil]

theorem closedPeer_of_leads (hleads : (connections f).LeadsTo ip port) (hport : port ≠ 0) :
    closedPeer connections (some ip) (UInt32.ofNat f) = some (ip, port) := by
  obtain ⟨hactive, _, hentry⟩ := hleads
  unfold closedPeer
  dsimp only
  rw [getConnectionPort_ofNat, if_pos hactive, hentry, if_neg hport]

theorem disconnected_of_oneDeath (h : OneDeath connections node ip port f now now') :
    resourceAdapterPatch node (.disconnected connections (some ip) (UInt32.ofNat f)) =
      (⟨freeAllResourcesFromSocket node.inventory (UInt32.ofNat f), node.knownNodes,
        node.ownedJobs.discard maxAffected (ElemOwnedJob.dependsOn (ip, port))⟩,
      (rollbacksMsgs (fun p => p.ip = ip ∧ p.port = port) (some .jobDenied)
        (affectedIds node.ownedJobs (ip, port)) node.ownedJobs).take maxOutbox) := by
  have hnone : (node.ownedJobs.collect maxOrphans fun job => job.ownerSocket = UInt32.ofNat f) =
      [] := by
    rw [OwnedJobs.collect, List.take_eq_nil_iff, List.filter_eq_nil_iff]
    exact Or.inr fun job hjob => by simpa using h.owner job hjob
  have hrest : discardOrphans node.ownedJobs (UInt32.ofNat f) = node.ownedJobs := by
    rw [discardOrphans, OwnedJobs.discard, hnone]
    rfl
  rw [resourceAdapterPatch_disconnected, closedPeer_of_leads h.leads h.port_ne]
  dsimp only
  rw [hrest, hnone, List.map_nil, rollbacksMsgs, List.nil_append]
  rfl

/-- Both free the same descriptor, or there is nothing to free on either. -/
theorem sameInventory_iff (hleads : (connections f).LeadsTo ip port) (inventory : LocalNode) :
    reclaimZombie connections inventory (ip, port) =
        freeAllResourcesFromSocket inventory (UInt32.ofNat f) ↔
      findFdByIpPort connections ip port = some f ∨
        (inventory.Idle (UInt32.ofNat f) ∧
          ∀ z ∈ findFdByIpPort connections ip port, inventory.Idle (UInt32.ofNat z)) := by
  unfold reclaimZombie
  dsimp only
  cases hfind : findFdByIpPort connections ip port with
  | none => exact absurd hleads (findFdByIpPort_none.mp hfind f)
  | some z =>
    dsimp only
    rw [Option.some.injEq]
    by_cases hz : z = f
    · subst hz
      exact iff_of_true rfl (Or.inl rfl)
    · have hne : UInt32.ofNat z ≠ UInt32.ofNat f := fun he => hz (ofNat_fd_inj he)
      constructor
      · intro he
        refine Or.inr ⟨idle_of_freeAll_eq hne.symm he.symm, fun z' hz' => ?_⟩
        cases hz'
        exact idle_of_freeAll_eq hne he
      · rintro (he | ⟨hf, hidle⟩)
        · exact absurd he hz
        · rw [freeAll_of_idle hf, freeAll_of_idle (hidle z rfl)]

/-- The messages of the batch, job by job. -/
theorem mem_affectedMsgs {skip : JobPetition → Bool} {jobs : OwnedJobs} {d : Ip × UInt32}
    {m : OutMsg} :
    m ∈ rollbacksMsgs skip (some .jobDenied) (affectedIds jobs d) jobs ↔
      ∃ job ∈ jobs.collect maxAffected (ElemOwnedJob.dependsOn d),
        (∃ p ∈ job.granted maxJobResources, skip p = false ∧ releaseMsg job.jobId p = m) ∨
          m = .toFd job.ownerSocket (.jobDenied job.jobId) := by
  have hnd : (affectedIds jobs d).Nodup := collect_nodup jobs _ _
  rw [rollbacksMsgs_eq_flatMap _ _ _ hnd]
  simp only [affectedIds, List.mem_flatMap, List.mem_map, exists_exists_and_eq_and]
  refine exists_congr fun job => and_congr_right fun hjob => ?_
  have hstored : jobs.job job.jobId = some job := job_eq_some.mpr ⟨(mem_collect hjob).1, rfl⟩
  rw [rollbackMsgs, getGrantedResources_eq hstored, getJobOwnerSocket, hstored]
  simp [and_assoc]

/-- No stored job has a granted petition at the node. -/
def NoneGrantedAt (jobs : OwnedJobs) (d : Ip × UInt32) : Prop :=
  ∀ job ∈ jobs.datos, ∀ p ∈ job.granted maxJobResources, (p.ip, p.port) ≠ d

/-- Then there is nothing that the disconnection skips. -/
theorem affectedMsgs_congr {jobs : OwnedJobs} {d : Ip × UInt32} (hnone : NoneGrantedAt jobs d) :
    rollbacksMsgs (fun p => p.ip = d.1 ∧ p.port = d.2) (some .jobDenied) (affectedIds jobs d) jobs =
      rollbacksMsgs (fun _ => false) (some .jobDenied) (affectedIds jobs d) jobs := by
  have hnd : (affectedIds jobs d).Nodup := collect_nodup jobs _ _
  rw [rollbacksMsgs_eq_flatMap _ _ _ hnd, rollbacksMsgs_eq_flatMap _ _ _ hnd]
  apply List.flatMap_congr
  intro i hi
  obtain ⟨job, hjob, rfl⟩ := List.mem_map.mp hi
  have hmem : job ∈ jobs.datos := (mem_collect hjob).1
  have hstored : jobs.job job.jobId = some job := job_eq_some.mpr ⟨hmem, rfl⟩
  have hkept : ∀ p ∈ job.granted maxJobResources, (!decide (p.ip = d.1 ∧ p.port = d.2)) = true := by
    intro p hp
    have hne := hnone job hmem p hp
    rw [Bool.not_eq_true', decide_eq_false_iff_not]
    exact fun he => hne (Prod.ext he.1 he.2)
  rw [rollbackMsgs, rollbackMsgs, getGrantedResources_eq hstored, List.filter_eq_self.mpr hkept]
  simp

/-- A RELEASE among the messages is for a granted petition. -/
theorem granted_of_mem_affectedMsgs {skip : JobPetition → Bool} {jobs : OwnedJobs}
    {d : Ip × UInt32} {j : UInt32} {p : JobPetition} (hm : releaseMsg j p ∈
      rollbacksMsgs skip (some .jobDenied) (affectedIds jobs d) jobs) :
    ∃ job ∈ jobs.datos, ∃ q ∈ job.granted maxJobResources, (q.ip, q.port) = (p.ip, p.port) := by
  obtain ⟨job, hjob, ⟨q, hq, _, he⟩ | he⟩ := mem_affectedMsgs.mp hm
  · refine ⟨job, (mem_collect hjob).1, q, hq, ?_⟩
    have hip := Option.some.inj (congrArg OutMsg.targetIp he)
    have hport := congrArg OutMsg.targetPort he
    exact Prod.ext hip hport
  · cases congrArg OutMsg.targetIp he

/-- A job with a granted petition at the node depends on it. -/
theorem dependsOn_of_granted {job : ElemOwnedJob} {p : JobPetition} {d : Ip × UInt32}
    (hp : p ∈ job.granted maxJobResources) (hd : (p.ip, p.port) = d) : job.dependsOn d = true := by
  rw [granted_eq] at hp
  have hmem := List.mem_of_mem_take (List.mem_of_mem_filter (List.mem_of_mem_take hp))
  subst hd
  rw [ElemOwnedJob.dependsOn, List.any_eq_true]
  exact ⟨p, hmem, by simp⟩

/-- The two detections agree exactly when no stored job has a granted petition at the dead
node, and both free the same descriptor or have nothing to free. -/
theorem sameRollback_iff (h : OneDeath connections node ip port f now now') :
    SameRollback (ip, port) (resourceAdapterPatch node (.checkDeadnodes connections now now'))
        (resourceAdapterPatch node (.disconnected connections (some ip) (UInt32.ofNat f))) ↔
      NoneGrantedAt node.ownedJobs (ip, port) ∧
      (findFdByIpPort connections ip port = some f ∨
        (node.inventory.Idle (UInt32.ofNat f) ∧
          ∀ z ∈ findFdByIpPort connections ip port, node.inventory.Idle (UInt32.ofNat z))) := by
  rw [checkDeadnodes_of_oneDeath h, disconnected_of_oneDeath h, ← sameInventory_iff h.leads]
  constructor
  · intro hsame
    have hinv := hsame.inventory
    dsimp only at hinv
    refine ⟨fun job hjob p hp hd => ?_, hinv⟩
    have hdep := dependsOn_of_granted hp hd
    have hbatch : job ∈ node.ownedJobs.collect maxAffected (ElemOwnedJob.dependsOn (ip, port)) := by
      rw [OwnedJobs.collect, List.take_of_length_le h.batch]
      exact List.mem_filter.mpr ⟨hjob, hdep⟩
    -- the expiry sends the RELEASE to the dead node
    have hsent : releaseMsg job.jobId p ∈ rollbacksMsgs (fun _ => false) (some .jobDenied)
        (affectedIds node.ownedJobs (ip, port)) node.ownedJobs :=
      mem_affectedMsgs.mpr ⟨job, hbatch, Or.inl ⟨p, hp, rfl, rfl⟩⟩
    exact hsame.silent _ (List.mem_append_left _ hsent) _ _ rfl hd
  · rintro ⟨hnone, hinv⟩
    have hmsgs := affectedMsgs_congr hnone
    have hfits := h.fits
    rw [deadNodesMsgs_affected] at hfits
    rw [hmsgs, List.take_of_length_le hfits]
    refine ⟨rfl, ?_, List.Perm.refl _, fun m hm j p he hd => ?_⟩
    · dsimp only
      exact hinv
    · subst he
      have hm := (List.mem_append.mp hm).elim id id
      obtain ⟨job, hjob, q, hq, haddr⟩ := granted_of_mem_affectedMsgs hm
      exact hnone job hjob q hq (haddr.trans hd)

end OneDeath

/-- A job depends on a node whose announcement was at the time 0. -/
def jobAtSilentNode : List AgentEvent :=
  [.announced 0 remoteIp 8000 1 0 0, .jobRequest 16 7 1 [⟨remoteIp, 8000, .cpu, 1⟩]]

/-- The node has not answered when it dies. -/
theorem sameRollback_unanswered : SameRollback (remoteIp, 8000)
    (resourceAdapterPatch (agentRun (initNode 0 0 0) jobAtSilentNode)
      (.checkDeadnodes oneConnection 16 16))
    (resourceAdapterPatch (agentRun (initNode 0 0 0) jobAtSilentNode)
      (.disconnected oneConnection (some remoteIp) 9)) := by
  have hdeath : OneDeath oneConnection (agentRun (initNode 0 0 0) jobAtSilentNode) remoteIp 8000
      ⟨9, by decide⟩ 16 16 := ⟨⟨rfl, rfl, rfl⟩, by decide, by decide +kernel, by decide +kernel,
    by decide +kernel, by decide +kernel, by decide +kernel⟩
  apply (sameRollback_iff hdeath).mpr
  refine ⟨?_, Or.inl ?_⟩
  · unfold NoneGrantedAt
    decide +kernel
  · decide +kernel

def jobGrantedAtSilentNode : List AgentEvent :=
  jobAtSilentNode ++ [.granted oneConnection remoteIp 9 1]

/-- The node has granted the CPU: its expiry sends the RELEASE to the node itself. -/
theorem sameRollback_granted : ¬ ∀ (cpu ram gpu : UInt32) (es : List AgentEvent)
    (connections : Connections) (ip : Ip) (port : UInt32) (f : Fin maxFds) (now now' : Int),
    OneDeath connections (agentRun (initNode cpu ram gpu) es) ip port f now now' →
    SameRollback (ip, port)
      (resourceAdapterPatch (agentRun (initNode cpu ram gpu) es)
        (.checkDeadnodes connections now now'))
      (resourceAdapterPatch (agentRun (initNode cpu ram gpu) es)
        (.disconnected connections (some ip) (UInt32.ofNat f))) := by
  intro h
  have hdeath : OneDeath oneConnection (agentRun (initNode 0 0 0) jobGrantedAtSilentNode) remoteIp
      8000 ⟨9, by decide⟩ 16 16 := ⟨⟨rfl, rfl, rfl⟩, by decide, by decide +kernel,
    by decide +kernel, by decide +kernel, by decide +kernel, by decide +kernel⟩
  have hsilent := (h _ _ _ _ _ _ _ _ _ _ hdeath).silent
  rw [checkDeadnodes_of_oneDeath hdeath] at hsilent
  have hsent : releaseMsg 1 ⟨remoteIp, 8000, .cpu, 1, false⟩ ∈ rollbacksMsgs (fun _ => false)
      (some .jobDenied)
      (affectedIds (agentRun (initNode 0 0 0) jobGrantedAtSilentNode).ownedJobs (remoteIp, 8000))
      (agentRun (initNode 0 0 0) jobGrantedAtSilentNode).ownedJobs := by
    decide +kernel
  exact hsilent _ (List.mem_append_left _ hsent) _ _ rfl rfl

end ResourceManager
