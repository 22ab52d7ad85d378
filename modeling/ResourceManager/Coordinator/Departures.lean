import ResourceManager.Coordinator.Rollback

/-!
# A client or a node disconnects

`ACTION_DISCONNECTED` removes the first 50 jobs of the closed socket, and then the first 20
of the remaining jobs that depend on the node at its other end. Neither batch is repeated.
No job of a client is left exactly when every job after the first 50 is in the second
batch; a client's connection has no second batch (`clientGone_iff`).
-/

namespace ResourceManager

open HashTable Library.Runs

section Disconnected

variable (connections : Connections) (node : NodeData) (senderIp : Option Ip) (socket : UInt32)

/-- The jobs after the disconnection. -/
def jobsAfterDisconnection : OwnedJobs :=
  (resourceAdapterPatch node (.disconnected connections senderIp socket)).1.ownedJobs

theorem jobsAfterDisconnection_eq : jobsAfterDisconnection connections node senderIp socket =
    match closedPeer connections senderIp socket with
    | none => discardOrphans node.ownedJobs socket
    | some d => (discardOrphans node.ownedJobs socket).discard maxAffected
        (ElemOwnedJob.dependsOn d) := by
  rw [jobsAfterDisconnection, resourceAdapterPatch_disconnected]
  cases closedPeer connections senderIp socket <;> rfl

/-- A record is left exactly when it is in neither batch. -/
theorem mem_jobsAfterDisconnection {job : ElemOwnedJob} :
    job ∈ (jobsAfterDisconnection connections node senderIp socket).datos ↔
      job ∈ (discardOrphans node.ownedJobs socket).datos ∧
        ∀ d ∈ closedPeer connections senderIp socket,
          job ∉ (discardOrphans node.ownedJobs socket).collect maxAffected
            (ElemOwnedJob.dependsOn d) := by
  rw [jobsAfterDisconnection_eq]
  cases closedPeer connections senderIp socket with
  | none => simp
  | some d =>
    dsimp only
    rw [mem_discard]
    simp

/-- No job of the socket is left, and the jobs of the others that do not depend on the peer
are there. -/
structure ClientGone : Prop where
  none : ∀ job ∈ (jobsAfterDisconnection connections node senderIp socket).datos,
    job.ownerSocket ≠ socket
  others : ∀ job ∈ node.ownedJobs.datos, job.ownerSocket ≠ socket →
    (∀ d ∈ closedPeer connections senderIp socket, job.dependsOn d = false) →
    job ∈ (jobsAfterDisconnection connections node senderIp socket).datos

/-- The jobs of the socket. -/
def NodeData.jobsOf (node : NodeData) (socket : UInt32) : List ElemOwnedJob :=
  node.ownedJobs.datos.filter fun job => job.ownerSocket = socket

theorem mem_discardOrphans {jobs : OwnedJobs} {job : ElemOwnedJob} :
    job ∈ (discardOrphans jobs socket).datos ↔ job ∈ jobs.datos ∧
      job ∉ jobs.collect maxOrphans fun job => job.ownerSocket = socket := mem_discard

/-- The jobs of the others are not touched by the first batch. -/
theorem mem_discardOrphans_of_ne {jobs : OwnedJobs} {job : ElemOwnedJob} (hjob : job ∈ jobs.datos)
    (hne : job.ownerSocket ≠ socket) : job ∈ (discardOrphans jobs socket).datos :=
  (mem_discardOrphans socket).mpr
    ⟨hjob, fun hmem => hne (of_decide_eq_true (mem_collect hmem).2)⟩

theorem others_after_disconnection {job : ElemOwnedJob} (hjob : job ∈ node.ownedJobs.datos)
    (hne : job.ownerSocket ≠ socket)
    (hpeer : ∀ d ∈ closedPeer connections senderIp socket, job.dependsOn d = false) :
    job ∈ (jobsAfterDisconnection connections node senderIp socket).datos := by
  rw [mem_jobsAfterDisconnection]
  refine ⟨mem_discardOrphans_of_ne socket hjob hne, fun d hd hmem => ?_⟩
  have hdep := (mem_collect hmem).2
  rw [hpeer d hd] at hdep
  cases hdep

/-- The jobs of the socket after the first 50 are those that the first batch leaves. -/
theorem mem_drop_jobsOf {job : ElemOwnedJob} : job ∈ (node.jobsOf socket).drop maxOrphans ↔
    job ∈ (discardOrphans node.ownedJobs socket).datos ∧ job.ownerSocket = socket := by
  have hnd : (node.jobsOf socket).Nodup := node.ownedJobs.nodup_datos.filter _
  rw [mem_discardOrphans, Library.BoundedLog.mem_drop_iff hnd, NodeData.jobsOf, List.mem_filter,
    decide_eq_true_eq, OwnedJobs.collect]
  tauto

/-- Without a peer there is only the first batch. -/
theorem none_left_iff_of_client (hpeer : closedPeer connections senderIp socket = none) :
    (∀ job ∈ (jobsAfterDisconnection connections node senderIp socket).datos,
      job.ownerSocket ≠ socket) ↔ (node.jobsOf socket).length ≤ maxOrphans := by
  rw [jobsAfterDisconnection_eq, hpeer, NodeData.jobsOf, ← discard_complete_iff]
  simp only [decide_eq_false_iff_not]
  rfl

/-- No job of the client is left exactly when those after the first 50 are removed with the
peer's; a client's connection has no peer, so it may own 50 jobs. -/
theorem clientGone_iff : (ClientGone connections node senderIp socket ↔
      ∀ job ∈ (node.jobsOf socket).drop maxOrphans,
        ∃ d ∈ closedPeer connections senderIp socket,
          job ∈ (discardOrphans node.ownedJobs socket).collect maxAffected
            (ElemOwnedJob.dependsOn d)) ∧
    (closedPeer connections senderIp socket = none →
      (ClientGone connections node senderIp socket ↔
        (node.jobsOf socket).length ≤ maxOrphans)) := by
  have hiff : ClientGone connections node senderIp socket ↔
      ∀ job ∈ (node.jobsOf socket).drop maxOrphans,
        ∃ d ∈ closedPeer connections senderIp socket,
          job ∈ (discardOrphans node.ownedJobs socket).collect maxAffected
            (ElemOwnedJob.dependsOn d) := by
    constructor
    · intro hgone job hjob
      obtain ⟨hrest, howner⟩ := (mem_drop_jobsOf node socket).mp hjob
      by_contra hnone
      refine hgone.none job ((mem_jobsAfterDisconnection _ _ _ _).mpr ⟨hrest, ?_⟩) howner
      exact fun d hd hmem => hnone ⟨d, hd, hmem⟩
    · intro hbatch
      refine ⟨fun job hjob howner => ?_, fun job => others_after_disconnection _ _ _ _⟩
      obtain ⟨hrest, hkept⟩ := (mem_jobsAfterDisconnection _ _ _ _).mp hjob
      obtain ⟨d, hd, hmem⟩ := hbatch job ((mem_drop_jobsOf node socket).mpr ⟨hrest, howner⟩)
      exact hkept d hd hmem
  refine ⟨hiff, fun hpeer => ?_⟩
  rw [← none_left_iff_of_client _ _ _ _ hpeer]
  exact ⟨ClientGone.none, fun hnone => ⟨hnone, fun job => others_after_disconnection _ _ _ _⟩⟩

end Disconnected

/-- The client on socket 7 registers 51 jobs and disconnects. -/
theorem clientGone_full : ¬ ∀ (connections : Connections) (es : List AgentEvent)
    (senderIp : Option Ip) (socket : UInt32), ClientGone connections
      (agentRun ⟨createLocalNode 0 0 0, createKnownNodes, createOwnedJobs⟩ es) senderIp socket := by
  intro h
  have hgone := h oneConnection
    ((List.range 51).map fun i => .jobRequest 0 7 (UInt32.ofNat i) []) none 7
  have hlen := (none_left_iff_of_client _ _ _ _ rfl).mp hgone.none
  revert hlen
  decide +kernel

end ResourceManager
