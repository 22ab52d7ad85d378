import ResourceManager.Coordinator.Records
import ResourceManager.Library.BoundedLog

/-!
# Jobs removed in batches

The visitors gather the ids of the first jobs with a property, and a loop of rollbacks
removes them: `collect` and `discard` say which records these are. The batches of the
handlers are discards, and their messages are about the removed jobs only.
-/

namespace ResourceManager

open HashTable Library.KeyedList Library.BoundedLog

/-! ## Rollbacks one after the other -/

/-- The messages of the rollbacks of `ids`, one after the other. -/
def rollbacksMsgs (dead : JobPetition → Bool) (notice : Option (UInt32 → Message)) :
    List UInt32 → OwnedJobs → List OutMsg
  | [], _ => []
  | i :: ids, jobs =>
    rollbackMsgs dead notice jobs i ++ rollbacksMsgs dead notice ids (removeOwnedJob jobs i)

/-- The messages of the loop over the dead nodes. -/
def deadNodesMsgs : List (Ip × UInt32) → OwnedJobs → List OutMsg
  | [], _ => []
  | d :: dead, jobs =>
    let affected := getJobsAffectedByDeadNode jobs d.1 d.2 maxAffected
    rollbacksMsgs (fun _ => false) (some .jobDenied) affected jobs ++
      deadNodesMsgs dead (affected.foldl removeOwnedJob jobs)

theorem foldl_rollback (dead : JobPetition → Bool) (notice : Option (UInt32 → Message))
    (ids : List UInt32) : ∀ state : OwnedJobs × List OutMsg,
      ids.foldl (rollback dead notice) state =
        (ids.foldl removeOwnedJob state.1,
          (rollbacksMsgs dead notice ids state.1).foldl addToOutbox state.2) := by
  induction ids with
  | nil => exact fun _ => rfl
  | cons i ids ih =>
    intro state
    rw [List.foldl_cons, ih, outbox_rollback, rollbacksMsgs, List.foldl_append]
    rfl

/-- The messages of a rollback depend on the record of its job only. -/
theorem rollbackMsgs_congr (dead : JobPetition → Bool) (notice : Option (UInt32 → Message))
    {jobs jobs' : OwnedJobs} {i : UInt32} (h : jobs'.job i = jobs.job i) :
    rollbackMsgs dead notice jobs' i = rollbackMsgs dead notice jobs i := by
  unfold rollbackMsgs getGrantedResources getJobOwnerSocket
  rw [h]

theorem rollbacksMsgs_eq_flatMap (dead : JobPetition → Bool) (notice : Option (UInt32 → Message)) :
    ∀ (ids : List UInt32), ids.Nodup → ∀ {jobs : OwnedJobs},
      rollbacksMsgs dead notice ids jobs = ids.flatMap (rollbackMsgs dead notice jobs)
  | [], _, _ => rfl
  | i :: ids, hnd, jobs => by
    obtain ⟨hi, hnd⟩ := List.nodup_cons.mp hnd
    rw [rollbacksMsgs, List.flatMap_cons, rollbacksMsgs_eq_flatMap dead notice ids hnd]
    congr 1
    refine List.flatMap_congr fun j hj => rollbackMsgs_congr dead notice ?_
    rw [job_removeOwnedJob, if_neg fun he : i = j => hi (he ▸ hj)]

/-! ## Batches -/

/-- The job has a petition at the node. -/
def ElemOwnedJob.dependsOn (node : Ip × UInt32) (job : ElemOwnedJob) : Bool :=
  job.petitions.any fun p => p.port = node.2 ∧ p.ip = node.1

/-- The job has waited for more than `JOB_TIMEOUT` seconds. -/
def ElemOwnedJob.timedOut (now : Int) (job : ElemOwnedJob) : Bool :=
  !job.grantNotified && decide (jobTimeout < now - job.createdAt)

namespace OwnedJobs

variable (jobs : OwnedJobs) (n : ℕ) (p : ElemOwnedJob → Bool)

/-- The first `n` jobs with the property. -/
def collect : List ElemOwnedJob := (jobs.datos.filter p).take n

/-- The table without them. -/
def discard : OwnedJobs :=
  ((jobs.collect n p).map ElemOwnedJob.jobId).foldl removeOwnedJob jobs

end OwnedJobs

section Batches

variable {jobs : OwnedJobs} {n : ℕ} {p : ElemOwnedJob → Bool} {job : ElemOwnedJob}

theorem getJobsAffectedByDeadNode_eq (jobs : OwnedJobs) (node : Ip × UInt32) (n : ℕ) :
    getJobsAffectedByDeadNode jobs node.1 node.2 n =
      (jobs.collect n (ElemOwnedJob.dependsOn node)).map ElemOwnedJob.jobId := by
  rw [getJobsAffectedByDeadNode, Tabla.visitar_recolectar, ← List.map_take]
  rfl

theorem getJobsByOwnerSocket_eq (jobs : OwnedJobs) (socket : UInt32) (n : ℕ) :
    getJobsByOwnerSocket jobs socket n =
      (jobs.collect n fun job => job.ownerSocket = socket).map ElemOwnedJob.jobId := by
  rw [getJobsByOwnerSocket, Tabla.visitar_recolectar, ← List.map_take]
  rfl

theorem collectTimedOutJobs_eq (jobs : OwnedJobs) (now : Int) (n : ℕ) :
    collectTimedOutJobs jobs now n =
      (jobs.collect n (ElemOwnedJob.timedOut now)).map ElemOwnedJob.jobId := by
  rw [collectTimedOutJobs, Tabla.visitar_recolectar, ← List.map_take]
  rfl

theorem datos_removeAll (ids : List UInt32) (jobs : OwnedJobs) :
    (ids.foldl removeOwnedJob jobs).datos = jobs.datos.filter fun job => job.jobId ∉ ids := by
  have hfold : ids.foldl removeOwnedJob jobs =
      (ids.map dummyJob).foldl (fun jobs d => jobs.eliminar d) jobs := by
    rw [List.foldl_map]
    rfl
  rw [hfold, Tabla.datos_foldl_eliminar]
  apply List.filter_congr
  intro job _
  rw [decide_eq_decide, List.forall_mem_map]
  constructor
  · intro h hmem
    exact h _ hmem (igual_ownedJob.mpr rfl)
  · intro h i hi he
    have hid : job.jobId = i := igual_ownedJob.mp he
    exact h (hid ▸ hi)

theorem mem_collect (h : job ∈ jobs.collect n p) : job ∈ jobs.datos ∧ p job = true :=
  List.mem_filter.mp (List.mem_of_mem_take h)

theorem eq_of_jobId {job' : ElemOwnedJob} (h : job ∈ jobs.datos) (h' : job' ∈ jobs.datos)
    (he : job.jobId = job'.jobId) : job = job' :=
  Tabla.eq_of_igual h h' (igual_ownedJob.mpr he)

theorem mem_discard : job ∈ (jobs.discard n p).datos ↔ job ∈ jobs.datos ∧ job ∉ jobs.collect n p := by
  rw [OwnedJobs.discard, datos_removeAll, List.mem_filter, decide_eq_true_eq]
  refine and_congr_right fun hjob => not_congr ⟨fun hid => ?_, List.mem_map_of_mem⟩
  obtain ⟨job', hjob', he⟩ := List.mem_map.mp hid
  rw [eq_of_jobId hjob (mem_collect hjob').1 he.symm]
  exact hjob'

/-- One batch is enough exactly when at most `n` jobs have the property. -/
theorem discard_complete_iff : (∀ job ∈ (jobs.discard n p).datos, p job = false) ↔
    (jobs.datos.filter p).length ≤ n := by
  rw [← filter_take_all_iff jobs.nodup_datos]
  simp only [mem_discard, and_imp]
  rfl

theorem collect_nodup (jobs : OwnedJobs) (n : ℕ) (p : ElemOwnedJob → Bool) :
    ((jobs.collect n p).map ElemOwnedJob.jobId).Nodup := by
  refine List.Nodup.map_on (fun job hjob job' hjob' he => ?_)
    (jobs.nodup_datos.filter p |>.sublist (List.take_sublist n _))
  exact eq_of_jobId (mem_collect hjob).1 (mem_collect hjob').1 he

theorem length_removeAll_le (ids : List UInt32) (jobs : OwnedJobs) :
    (ids.foldl removeOwnedJob jobs).datos.length ≤ jobs.datos.length := by
  rw [datos_removeAll]
  exact List.length_filter_le _ _

/-- The table shrinks when a stored job is removed. -/
theorem length_removeAll_lt {ids : List UInt32} (h : job ∈ jobs.datos) (hid : job.jobId ∈ ids) :
    (ids.foldl removeOwnedJob jobs).datos.length < jobs.datos.length := by
  rw [datos_removeAll]
  exact List.length_filter_lt_length_iff_exists.mpr ⟨job, h, by simpa using hid⟩

end Batches

/-! ## The loops of the handlers -/

/-- The inventory after the descriptor of a dead node has been cleaned. -/
def reclaimZombie (connections : Connections) (inventory : LocalNode) (dead : Ip × UInt32) :
    LocalNode :=
  match findFdByIpPort connections dead.1 dead.2 with
  | none => inventory
  | some zombieFd => freeAllResourcesFromSocket inventory (UInt32.ofNat zombieFd)

/-- The jobs after the loop over the dead nodes. -/
def discardAffected (jobs : OwnedJobs) (dead : List (Ip × UInt32)) : OwnedJobs :=
  dead.foldl (fun jobs d => jobs.discard maxAffected (ElemOwnedJob.dependsOn d)) jobs

theorem discardAffected_cons (jobs : OwnedJobs) (d : Ip × UInt32) (dead : List (Ip × UInt32)) :
    discardAffected jobs (d :: dead) =
      discardAffected (jobs.discard maxAffected (ElemOwnedJob.dependsOn d)) dead := rfl

theorem deadNodesMsgs_cons (d : Ip × UInt32) (dead : List (Ip × UInt32)) (jobs : OwnedJobs) :
    deadNodesMsgs (d :: dead) jobs =
      rollbacksMsgs (fun _ => false) (some .jobDenied)
          ((jobs.collect maxAffected (ElemOwnedJob.dependsOn d)).map ElemOwnedJob.jobId) jobs ++
        deadNodesMsgs dead (jobs.discard maxAffected (ElemOwnedJob.dependsOn d)) := by
  rw [deadNodesMsgs, getJobsAffectedByDeadNode_eq]
  rfl

theorem foldl_cleanDeadNode (connections : Connections) : ∀ (dead : List (Ip × UInt32))
    (inventory : LocalNode) (jobs : OwnedJobs) (outbox : List OutMsg),
    dead.foldl (cleanDeadNode connections) (inventory, jobs, outbox) =
      (dead.foldl (reclaimZombie connections) inventory, discardAffected jobs dead,
        (deadNodesMsgs dead jobs).foldl addToOutbox outbox)
  | [], _, _, _ => rfl
  | d :: dead, inventory, jobs, outbox => by
    have hone : cleanDeadNode connections (inventory, jobs, outbox) d =
        (reclaimZombie connections inventory d,
          jobs.discard maxAffected (ElemOwnedJob.dependsOn d),
          (rollbacksMsgs (fun _ => false) (some .jobDenied)
            ((jobs.collect maxAffected (ElemOwnedJob.dependsOn d)).map ElemOwnedJob.jobId)
            jobs).foldl addToOutbox outbox) := by
      unfold cleanDeadNode reclaimZombie
      dsimp only
      rw [getJobsAffectedByDeadNode_eq, foldl_rollback]
      cases findFdByIpPort connections d.1 d.2 <;> rfl
    rw [List.foldl_cons, hone, foldl_cleanDeadNode, List.foldl_cons, discardAffected_cons,
      deadNodesMsgs_cons, List.foldl_append]

/-- The loop over the jobs that have timed out removes the first ones, and all their
messages are added; it stops when those of the next one do not fit. -/
theorem timeoutLoop_spec : ∀ (ids : List UInt32) (jobs : OwnedJobs) (outbox : List OutMsg),
    ∃ done rest, ids = done ++ rest ∧
      timeoutLoop ids (jobs, outbox) = (done.foldl removeOwnedJob jobs,
        outbox ++ rollbacksMsgs (fun _ => false) (some .jobTimeout) done jobs) ∧
      ∀ i ∈ rest.head?, maxOutbox < (timeoutLoop ids (jobs, outbox)).2.length +
        (getGrantedResources (timeoutLoop ids (jobs, outbox)).1 i maxJobResources).length + 1
  | [], jobs, outbox => by
    refine ⟨[], [], rfl, ?_, fun i hi => by cases hi⟩
    rw [timeoutLoop, rollbacksMsgs, List.append_nil]
    rfl
  | i :: ids, jobs, outbox => by
    rw [timeoutLoop]
    dsimp only
    split
    · rename_i hfull
      refine ⟨[], i :: ids, rfl, ?_, fun i' hi' => ?_⟩
      · rw [rollbacksMsgs, List.append_nil]
        rfl
      · cases hi'
        exact hfull
    · rename_i hroom
      have hout := outbox_rollback_of_room (some .jobTimeout) (jobs, outbox) i
        (by dsimp only; omega)
      have hone : rollback (fun _ => false) (some .jobTimeout) (jobs, outbox) i =
          (removeOwnedJob jobs i,
            outbox ++ rollbackMsgs (fun _ => false) (some .jobTimeout) jobs i) :=
        Prod.ext rfl hout
      rw [hone]
      obtain ⟨done, rest, hids, hrun, hfull⟩ := timeoutLoop_spec ids (removeOwnedJob jobs i)
        (outbox ++ rollbackMsgs (fun _ => false) (some .jobTimeout) jobs i)
      refine ⟨i :: done, rest, by rw [hids, List.cons_append], ?_, hfull⟩
      rw [hrun, List.foldl_cons, rollbacksMsgs, List.append_assoc]

/-- An iteration of the collector, with its batches as discards. -/
theorem resourceAdapterPatch_checkDeadnodes (connections : Connections) (node : NodeData)
    (now now' : Int) : resourceAdapterPatch node (.checkDeadnodes connections now now') =
      let dead := (removeInactiveNodes node.knownNodes now maxDead).2
      let jobs := discardAffected node.ownedJobs dead
      let ended := timeoutLoop (collectTimedOutJobs jobs now' maxAffected)
        (jobs, (deadNodesMsgs dead node.ownedJobs).take maxOutbox)
      (⟨dead.foldl (reclaimZombie connections) node.inventory,
        (removeInactiveNodes node.knownNodes now maxDead).1, ended.1⟩, ended.2) := by
  show handleCheckDeadnodes connections node now now' [] = _
  unfold handleCheckDeadnodes
  dsimp only
  rw [foldl_cleanDeadNode, foldl_addToOutbox_nil]

/-- The jobs when the first ones of the closed socket have been removed. -/
def discardOrphans (jobs : OwnedJobs) (socket : UInt32) : OwnedJobs :=
  jobs.discard maxOrphans fun job => job.ownerSocket = socket

/-- A disconnection, with its batches as discards. -/
theorem resourceAdapterPatch_disconnected (connections : Connections) (node : NodeData)
    (senderIp : Option Ip) (socket : UInt32) :
    resourceAdapterPatch node (.disconnected connections senderIp socket) =
      let rest := discardOrphans node.ownedJobs socket
      let msgs := rollbacksMsgs (fun _ => false) none ((node.ownedJobs.collect maxOrphans
        fun job => job.ownerSocket = socket).map ElemOwnedJob.jobId) node.ownedJobs
      let inventory := freeAllResourcesFromSocket node.inventory socket
      match closedPeer connections senderIp socket with
      | none => (⟨inventory, node.knownNodes, rest⟩, msgs.take maxOutbox)
      | some d => (⟨inventory, node.knownNodes,
          rest.discard maxAffected (ElemOwnedJob.dependsOn d)⟩,
          (msgs ++ rollbacksMsgs (fun p => p.ip = d.1 ∧ p.port = d.2) (some .jobDenied)
            ((rest.collect maxAffected (ElemOwnedJob.dependsOn d)).map ElemOwnedJob.jobId)
            rest).take maxOutbox) := by
  show actionDisconnected connections node senderIp socket [] = _
  unfold actionDisconnected
  dsimp only
  rw [getJobsByOwnerSocket_eq, foldl_rollback]
  cases closedPeer connections senderIp socket with
  | none =>
    dsimp only
    rw [foldl_addToOutbox_nil]
    rfl
  | some d =>
    dsimp only
    rw [getJobsAffectedByDeadNode_eq, foldl_rollback]
    dsimp only
    rw [← foldl_addToOutbox_nil, List.foldl_append]
    rfl

end ResourceManager
