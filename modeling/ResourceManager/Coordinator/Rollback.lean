import ResourceManager.Coordinator.Removals
import ResourceManager.Coordinator.StateMachine

/-!
# Rollbacks and the bounded outbox

An event that ends jobs owes a RELEASE for each granted petition on a node that is not
dead (`owed`). The rollback loops append these to an outbox of `MAX_OUTBOX` entries, which
silently drops what does not fit. `abortMsgs` lists what an event would send with room for
everything; the rollback is complete exactly when no owed RELEASE comes after the first
`MAX_OUTBOX` messages of this list (`rollback_complete_iff`). The jobs that time out are
not part of it: their branch checks the room before it removes a job.
-/

namespace ResourceManager

open HashTable Library.Runs Library.BoundedLog

/-! ## Owed messages -/

/-- A RELEASE for the job `j` on a node that is not among the dead ones. -/
def owedBy (dead : List (Ip × UInt32)) (j : UInt32) (m : OutMsg) : Bool :=
  match m.message, m.targetIp with
  | .release i _ _, some ip => decide (i = j) && !decide ((ip, m.targetPort) ∈ dead)
  | _, _ => false

/-- A RELEASE for some job on a node that is not among the dead ones. -/
def toSurvivor (dead : List (Ip × UInt32)) (m : OutMsg) : Bool :=
  match m.message, m.targetIp with
  | .release _ _ _, some ip => !decide ((ip, m.targetPort) ∈ dead)
  | _, _ => false

/-- The RELEASEs that the end of a job owes. -/
def owed (dead : List (Ip × UInt32)) (job : ElemOwnedJob) : List OutMsg :=
  ((job.petitions.filter fun p => p.isGranted).filter fun p =>
    !decide ((p.ip, p.port) ∈ dead)).map (releaseMsg job.jobId)

/-- The nodes that an event takes for dead. -/
def died (node : NodeData) : AgentEvent → List (Ip × UInt32)
  | .disconnected connections senderIp socket => (closedPeer connections senderIp socket).toList
  | .checkDeadnodes _ now _ => (removeInactiveNodes node.knownNodes now maxDead).2
  | _ => []

/-- Every job that the event removes has all its owed RELEASEs in the outbox. -/
def RollbackComplete (node : NodeData) (e : AgentEvent) : Prop :=
  ∀ job ∈ node.ownedJobs.datos,
    (resourceAdapterPatch node e).1.ownedJobs.job job.jobId = none →
      (owed (died node e) job).Subperm (resourceAdapterPatch node e).2

/-! ## The messages of an event, with room for all of them -/

def abortMsgs (node : NodeData) : AgentEvent → List OutMsg
  | .denied i => rollbacksMsgs (fun _ => false) (some .jobDenied) [i] node.ownedJobs
  | .jobRelease i => rollbacksMsgs (fun _ => false) none [i] node.ownedJobs
  | .disconnected connections senderIp socket =>
    let orphaned := getJobsByOwnerSocket node.ownedJobs socket maxOrphans
    let jobs := orphaned.foldl removeOwnedJob node.ownedJobs
    rollbacksMsgs (fun _ => false) none orphaned node.ownedJobs ++
      match closedPeer connections senderIp socket with
      | none => []
      | some (ip, port) => rollbacksMsgs (fun p => p.ip = ip ∧ p.port = port) (some .jobDenied)
          (getJobsAffectedByDeadNode jobs ip port maxAffected) jobs
  | .checkDeadnodes _ now _ =>
    deadNodesMsgs (removeInactiveNodes node.knownNodes now maxDead).2 node.ownedJobs
  | _ => []

/-- No owed RELEASE comes after the first `MAX_OUTBOX` messages. -/
def ReleasesFit (node : NodeData) (e : AgentEvent) : Prop :=
  ∀ m ∈ (abortMsgs node e).drop maxOutbox, toSurvivor (died node e) m = false

theorem toSurvivor_iff {dead : List (Ip × UInt32)} {m : OutMsg} :
    toSurvivor dead m = true ↔ ∃ j, owedBy dead j m = true := by
  unfold toSurvivor owedBy
  split
  · simp
  · simp

/-! ## Aborted jobs -/

/-- What `get_granted_resources` finds is what has been granted. -/
def Whole (jobs : OwnedJobs) : Prop := ∀ j job, jobs.job j = some job →
  job.granted maxJobResources = job.petitions.filter fun p => p.isGranted

/-- The messages `msgs` go with the removal of some jobs of `jobs`, which leaves `jobs'`:
they contain what is owed for these jobs and no other RELEASE to a survivor. -/
def Aborts (dead : List (Ip × UInt32)) (jobs jobs' : OwnedJobs) (msgs : List OutMsg) : Prop :=
  ∀ j, (jobs'.job j = jobs.job j ∧ msgs.filter (owedBy dead j) = []) ∨
    (jobs'.job j = none ∧ ∃ job, jobs.job j = some job ∧
      msgs.filter (owedBy dead j) = owed dead job)

namespace Aborts

variable {dead : List (Ip × UInt32)} {jobs jobs₁ jobs' : OwnedJobs} {msgs msgs' : List OutMsg}

theorem nil (dead : List (Ip × UInt32)) (jobs : OwnedJobs) : Aborts dead jobs jobs [] :=
  fun _ => Or.inl ⟨rfl, rfl⟩

theorem append (h : Aborts dead jobs jobs₁ msgs) (h' : Aborts dead jobs₁ jobs' msgs') :
    Aborts dead jobs jobs' (msgs ++ msgs') := by
  intro j
  rw [List.filter_append]
  rcases h j with ⟨hjob, hmsgs⟩ | ⟨hjob, job, hold, hmsgs⟩
  · rcases h' j with ⟨hjob', hmsgs'⟩ | ⟨hjob', job, hold, hmsgs'⟩
    · exact Or.inl ⟨hjob'.trans hjob, by rw [hmsgs, hmsgs']; rfl⟩
    · exact Or.inr ⟨hjob', job, hjob ▸ hold, by rw [hmsgs, hmsgs']; rfl⟩
  · rcases h' j with ⟨hjob', hmsgs'⟩ | ⟨_, _, hold', _⟩
    · exact Or.inr ⟨hjob'.trans hjob, job, hold, by rw [hmsgs, hmsgs', List.append_nil]⟩
    · rw [hjob] at hold'
      cases hold'

theorem whole (h : Aborts dead jobs jobs' msgs) (hw : Whole jobs) : Whole jobs' := by
  intro j job hjob
  rcases h j with ⟨hkept, _⟩ | ⟨hgone, _⟩
  · exact hw j job (hkept ▸ hjob)
  · rw [hgone] at hjob
    cases hjob

end Aborts

theorem owedBy_releaseMsg (dead : List (Ip × UInt32)) (i j : UInt32) (p : JobPetition) :
    owedBy dead j (releaseMsg i p) = (decide (i = j) && !decide ((p.ip, p.port) ∈ dead)) := rfl

theorem owedBy_toFd (dead : List (Ip × UInt32)) (j k : UInt32) (m : Message) :
    owedBy dead j (.toFd k m) = false := by
  cases m <;> rfl

/-- The RELEASEs of a rollback are those of its job. -/
theorem filter_rollbackMsgs {dead : List (Ip × UInt32)} {skip : JobPetition → Bool}
    (hskip : ∀ p, skip p = true → (p.ip, p.port) ∈ dead) (notice : Option (UInt32 → Message))
    (jobs : OwnedJobs) (i j : UInt32) :
    (rollbackMsgs skip notice jobs i).filter (owedBy dead j) =
      if i = j then ((getGrantedResources jobs i maxJobResources).filter fun p =>
        !decide ((p.ip, p.port) ∈ dead)).map (releaseMsg i) else [] := by
  have hnotice : (notice.toList.map fun msg =>
      OutMsg.toFd (getJobOwnerSocket jobs i) (msg i)).filter (owedBy dead j) = [] := by
    rw [List.filter_eq_nil_iff]
    intro m hm
    obtain ⟨msg, _, rfl⟩ := List.mem_map.mp hm
    rw [owedBy_toFd]
    decide
  rw [rollbackMsgs, List.filter_append, hnotice, List.append_nil, List.filter_map,
    List.filter_filter]
  by_cases hij : i = j
  · rw [if_pos hij]
    congr 1
    refine List.filter_congr fun p _ => ?_
    rw [Function.comp_apply, owedBy_releaseMsg, decide_eq_true hij, Bool.true_and]
    cases hp : skip p with
    | false => rw [Bool.not_false, Bool.and_true]
    | true =>
      rw [decide_eq_true (hskip p hp)]
      rfl
  · rw [if_neg hij, List.map_eq_nil_iff, List.filter_eq_nil_iff]
    intro p _
    rw [Function.comp_apply, owedBy_releaseMsg, decide_eq_false hij]
    simp

theorem aborts_rollback (dead : List (Ip × UInt32)) (skip : JobPetition → Bool)
    (hskip : ∀ p, skip p = true → (p.ip, p.port) ∈ dead) (notice : Option (UInt32 → Message))
    {jobs : OwnedJobs} (hw : Whole jobs) (i : UInt32) :
    Aborts dead jobs (removeOwnedJob jobs i) (rollbackMsgs skip notice jobs i) := by
  intro j
  rw [filter_rollbackMsgs hskip, job_removeOwnedJob]
  by_cases hij : i = j
  · subst hij
    rw [if_pos rfl, if_pos rfl]
    cases hjob : jobs.job i with
    | none =>
      rw [getGrantedResources_none hjob]
      exact Or.inl ⟨rfl, rfl⟩
    | some job =>
      rw [getGrantedResources_eq hjob, hw i job hjob]
      refine Or.inr ⟨rfl, job, rfl, ?_⟩
      rw [owed, jobId_of_job hjob]
  · rw [if_neg hij, if_neg hij]
    exact Or.inl ⟨rfl, rfl⟩

theorem aborts_rollbacks (dead : List (Ip × UInt32)) (skip : JobPetition → Bool)
    (hskip : ∀ p, skip p = true → (p.ip, p.port) ∈ dead) (notice : Option (UInt32 → Message)) :
    ∀ (ids : List UInt32) {jobs : OwnedJobs}, Whole jobs →
      Aborts dead jobs (ids.foldl removeOwnedJob jobs) (rollbacksMsgs skip notice ids jobs)
  | [], _, _ => .nil _ _
  | i :: ids, jobs, hw => by
    have hone := aborts_rollback dead skip hskip notice hw i
    exact hone.append (aborts_rollbacks dead skip hskip notice ids (hone.whole hw))

theorem aborts_deadNodes (dead : List (Ip × UInt32)) : ∀ (ds : List (Ip × UInt32))
    {jobs : OwnedJobs}, Whole jobs →
      Aborts dead jobs (discardAffected jobs ds) (deadNodesMsgs ds jobs)
  | [], _, _ => .nil _ _
  | d :: ds, jobs, hw => by
    have hone := aborts_rollbacks dead (fun _ => false) (fun _ h => by cases h) (some .jobDenied)
      ((jobs.collect maxAffected (ElemOwnedJob.dependsOn d)).map ElemOwnedJob.jobId) hw
    rw [deadNodesMsgs_cons, discardAffected_cons]
    exact hone.append (aborts_deadNodes dead ds (hone.whole hw))

/-- The timeout loop adds the complete rollbacks of the jobs that it removes. -/
theorem timeoutLoop_complete (dead : List (Ip × UInt32)) (ids : List UInt32)
    {jobs : OwnedJobs} (hw : Whole jobs) (outbox : List OutMsg) :
    ∃ extra, (timeoutLoop ids (jobs, outbox)).2 = outbox ++ extra ∧
      Aborts dead jobs (timeoutLoop ids (jobs, outbox)).1 extra := by
  obtain ⟨done, _, _, hrun, _⟩ := timeoutLoop_spec ids jobs outbox
  rw [hrun]
  exact ⟨_, rfl, aborts_rollbacks dead (fun _ => false) (fun _ h => by cases h)
    (some .jobTimeout) done hw⟩

/-! ## Completeness -/

/-- The outbox holds the first messages of an abort and the whole of a second one. -/
theorem complete_iff {dead : List (Ip × UInt32)} {jobs jobs₁ jobs' : OwnedJobs}
    {msgs extra : List OutMsg} (h : Aborts dead jobs jobs₁ msgs)
    (h' : Aborts dead jobs₁ jobs' extra) :
    (∀ job ∈ jobs.datos, jobs'.job job.jobId = none →
        (owed dead job).Subperm (msgs.take maxOutbox ++ extra)) ↔
      ∀ m ∈ msgs.drop maxOutbox, toSurvivor dead m = false := by
  constructor
  · intro hall m hm
    by_contra htrue
    obtain ⟨j, hj⟩ := toSurvivor_iff.mp (Bool.eq_true_of_not_eq_false htrue)
    rcases h j with ⟨_, hnone⟩ | ⟨hgone, job, hold, hmsgs⟩
    · have hmem : m ∈ msgs.filter (owedBy dead j) :=
        List.mem_filter.mpr ⟨List.mem_of_mem_drop hm, hj⟩
      rw [hnone] at hmem
      cases hmem
    · obtain ⟨hstored, rfl⟩ := job_eq_some.mp hold
      rcases h' job.jobId with ⟨hkept, hextra⟩ | ⟨_, _, hfound, _⟩
      · have hsub := hall job hstored (hkept.trans hgone)
        have hcount : extra.countP (owedBy dead job.jobId) = 0 := by
          rw [List.countP_eq_length_filter, hextra]
          rfl
        rw [← hmsgs, filter_subperm_take_append hcount] at hsub
        rw [hsub m hm] at hj
        cases hj
      · rw [hgone] at hfound
        cases hfound
  · intro hnone job hstored hgone'
    have hold : jobs.job job.jobId = some job := job_eq_some.mpr ⟨hstored, rfl⟩
    rcases h job.jobId with ⟨hkept, _⟩ | ⟨hgone, job', hold', hmsgs⟩
    · rcases h' job.jobId with ⟨hkept', _⟩ | ⟨_, job', hfound, hextra⟩
      · rw [hkept', hkept, hold] at hgone'
        cases hgone'
      · rw [hkept, hold] at hfound
        cases hfound
        rw [← hextra]
        exact (List.filter_sublist.trans (List.sublist_append_right _ _)).subperm
    · rw [hold] at hold'
      cases hold'
      have hcount : extra.countP (owedBy dead job.jobId) = 0 := by
        rcases h' job.jobId with ⟨_, hextra⟩ | ⟨_, _, hfound, _⟩
        · rw [List.countP_eq_length_filter, hextra]
          rfl
        · rw [hgone] at hfound
          cases hfound
      rw [← hmsgs, filter_subperm_take_append hcount]
      intro m hm
      by_contra htrue
      have hsurv := toSurvivor_iff.mpr ⟨job.jobId, Bool.eq_true_of_not_eq_false htrue⟩
      rw [hnone m hm] at hsurv
      cases hsurv

/-- The same for an event of the agent. -/
theorem complete_iff_of_aborts {node : NodeData} {e : AgentEvent} {jobs₁ : OwnedJobs}
    (extra : List OutMsg)
    (h : Aborts (died node e) node.ownedJobs jobs₁ (abortMsgs node e))
    (h' : Aborts (died node e) jobs₁ (resourceAdapterPatch node e).1.ownedJobs extra)
    (hout : (resourceAdapterPatch node e).2 = (abortMsgs node e).take maxOutbox ++ extra) :
    RollbackComplete node e ↔ ReleasesFit node e := by
  unfold RollbackComplete ReleasesFit
  rw [hout]
  exact complete_iff h h'

/-- No job disappears on the other events. -/
theorem complete_iff_of_kept {node : NodeData} {e : AgentEvent} (hmsgs : abortMsgs node e = [])
    (hkept : ∀ j, (resourceAdapterPatch node e).1.ownedJobs.job j = none →
      node.ownedJobs.job j = none) : RollbackComplete node e ↔ ReleasesFit node e := by
  refine iff_of_true (fun job hjob hgone => ?_) fun m hm => ?_
  · have hold := hkept _ hgone
    rw [job_eq_some.mpr ⟨hjob, rfl⟩] at hold
    cases hold
  · rw [hmsgs] at hm
    cases hm

theorem job_handleGranted_eq_none {jobs : OwnedJobs} {ip : Ip} {port i j : UInt32}
    (h : (handleGranted jobs ip port i []).1.job j = none) : jobs.job j = none := by
  have hmark : (markPetitionAsGranted jobs i ip port).1.job j = none → jobs.job j = none := by
    intro hnone
    by_cases hexp : ∃ job, jobs.job i = some job ∧ job.Expects ip port
    · obtain ⟨job, hjob, hexp⟩ := hexp
      rw [mark_accepted hjob hexp, job_update] at hnone
      by_cases hij : i = j
      · rw [if_pos hij, Option.map_eq_none_iff] at hnone
        exact hnone
      · rw [if_neg hij] at hnone
        exact hnone
    · rw [mark_ignored fun job hjob hx => hexp ⟨job, hjob, hx⟩] at hnone
      exact hnone
  unfold handleGranted at h
  generalize markPetitionAsGranted jobs i ip port = res at h hmark
  obtain ⟨jobs', grantResult⟩ := res
  dsimp only at h hmark
  split at h
  · exact h
  · split at h
    · exact hmark h
    · split at h
      · rw [job_dispatchNextReserve] at h
        by_cases hij : i = j
        · rw [if_pos hij, Option.map_eq_none_iff] at h
          exact hmark h
        · rw [if_neg hij] at h
          exact hmark h
      · exact hmark h

/-- The messages of a disconnection: the orphaned jobs, then the jobs of the dead peer. -/
theorem abortMsgs_disconnected (node : NodeData) (connections : Connections)
    (senderIp : Option Ip) (socket : UInt32) :
    abortMsgs node (.disconnected connections senderIp socket) =
      rollbacksMsgs (fun _ => false) none ((node.ownedJobs.collect maxOrphans
          fun job => job.ownerSocket = socket).map ElemOwnedJob.jobId) node.ownedJobs ++
        match closedPeer connections senderIp socket with
        | none => []
        | some d => rollbacksMsgs (fun p => p.ip = d.1 ∧ p.port = d.2) (some .jobDenied)
            (((discardOrphans node.ownedJobs socket).collect maxAffected
              (ElemOwnedJob.dependsOn d)).map ElemOwnedJob.jobId)
            (discardOrphans node.ownedJobs socket) := by
  unfold abortMsgs
  dsimp only
  rw [getJobsByOwnerSocket_eq]
  cases closedPeer connections senderIp socket with
  | none => rfl
  | some d =>
    dsimp only
    rw [getJobsAffectedByDeadNode_eq]
    rfl

theorem complete_iff_disconnected {node : NodeData} (hw : Whole node.ownedJobs)
    (connections : Connections) (senderIp : Option Ip) (socket : UInt32) :
    RollbackComplete node (.disconnected connections senderIp socket) ↔
      ReleasesFit node (.disconnected connections senderIp socket) := by
  set e := AgentEvent.disconnected connections senderIp socket with he
  have hfirst := aborts_rollbacks (died node e) (fun _ => false) (fun _ h => by cases h) none
    ((node.ownedJobs.collect maxOrphans fun job => job.ownerSocket = socket).map
      ElemOwnedJob.jobId) hw
  have hpatch := resourceAdapterPatch_disconnected connections node senderIp socket
  have hmsgs := abortMsgs_disconnected node connections senderIp socket
  have hdied : died node e = (closedPeer connections senderIp socket).toList := rfl
  rw [← he] at hpatch
  cases hpeer : closedPeer connections senderIp socket with
  | none =>
    rw [hpeer] at hpatch hmsgs
    rw [List.append_nil] at hmsgs
    dsimp only at hpatch
    refine complete_iff_of_aborts [] (hmsgs ▸ hfirst) ?_ ?_
    · rw [hpatch]
      exact .nil _ _
    · rw [hpatch, hmsgs, List.append_nil]
  | some d =>
    rw [hpeer] at hpatch hmsgs hdied
    dsimp only at hpatch hmsgs
    have hskip : ∀ p : JobPetition, decide (p.ip = d.1 ∧ p.port = d.2) = true →
        (p.ip, p.port) ∈ died node e := by
      intro p hp
      obtain ⟨hip, hport⟩ := of_decide_eq_true hp
      rw [hdied, hip, hport]
      exact List.mem_singleton_self _
    have hsecond := aborts_rollbacks (died node e) _ hskip (some .jobDenied)
      (((discardOrphans node.ownedJobs socket).collect maxAffected
        (ElemOwnedJob.dependsOn d)).map ElemOwnedJob.jobId) (hfirst.whole hw)
    refine complete_iff_of_aborts [] (hmsgs ▸ hfirst.append hsecond) ?_ ?_
    · rw [hpatch]
      exact .nil _ _
    · rw [hpatch, hmsgs, List.append_nil]

theorem complete_iff_checkDeadnodes {node : NodeData} (hw : Whole node.ownedJobs)
    (connections : Connections) (now now' : Int) :
    RollbackComplete node (.checkDeadnodes connections now now') ↔
      ReleasesFit node (.checkDeadnodes connections now now') := by
  set e := AgentEvent.checkDeadnodes connections now now' with he
  set dead := (removeInactiveNodes node.knownNodes now maxDead).2 with hdead
  have hfirst := aborts_deadNodes (died node e) dead hw
  obtain ⟨extra, hextra, hsecond⟩ := timeoutLoop_complete (died node e)
    (collectTimedOutJobs (discardAffected node.ownedJobs dead) now' maxAffected)
    (hfirst.whole hw) ((deadNodesMsgs dead node.ownedJobs).take maxOutbox)
  have hpatch := resourceAdapterPatch_checkDeadnodes connections node now now'
  rw [← he] at hpatch
  refine complete_iff_of_aborts extra hfirst ?_ ?_
  · rw [hpatch]
    exact hsecond
  · rw [hpatch]
    exact hextra

theorem complete_iff_of_whole {node : NodeData} (hw : Whole node.ownedJobs) (e : AgentEvent) :
    RollbackComplete node e ↔ ReleasesFit node e := by
  cases e with
  | announced now ip port cpu ram gpu =>
    refine complete_iff_of_kept rfl fun j hgone => ?_
    unfold resourceAdapterPatch at hgone
    dsimp only at hgone
    split at hgone <;> exact hgone
  | jobRequest now socket i tokens =>
    refine complete_iff_of_kept rfl fun j hgone => ?_
    have hjob : (handleJobRequest node.ownedJobs now socket i tokens []).1.job j = none := hgone
    rw [job_handleJobRequest] at hjob
    split at hjob
    · cases hjob
    · exact hjob
  | reserve k i type q =>
    refine complete_iff_of_kept rfl fun j hgone => ?_
    rw [resourceAdapterPatch_reserve] at hgone
    exact hgone
  | granted connections ip socket i =>
    exact complete_iff_of_kept rfl fun j hgone => job_handleGranted_eq_none hgone
  | denied i =>
    have hrun := foldl_rollback (fun _ => false) (some .jobDenied) [i] (node.ownedJobs, [])
    refine complete_iff_of_aborts []
      (aborts_rollbacks _ _ (fun _ h => by cases h) (some .jobDenied) [i] hw) (.nil _ _) ?_
    rw [List.append_nil, ← foldl_addToOutbox_nil]
    exact congrArg Prod.snd hrun
  | release k i rand =>
    refine complete_iff_of_kept rfl fun j hgone => ?_
    rw [resourceAdapterPatch_release] at hgone
    exact hgone
  | jobRelease i =>
    have hrun := foldl_rollback (fun _ => false) none [i] (node.ownedJobs, [])
    refine complete_iff_of_aborts []
      (aborts_rollbacks _ _ (fun _ h => by cases h) none [i] hw) (.nil _ _) ?_
    rw [List.append_nil, ← foldl_addToOutbox_nil]
    exact congrArg Prod.snd hrun
  | disconnected connections ip socket => exact complete_iff_disconnected hw connections ip socket
  | checkDeadnodes connections now now' => exact complete_iff_checkDeadnodes hw connections now now'

/-! ## Reachable states -/

/-- The data of an agent after the events `es`. -/
def agentRun (node : NodeData) (es : List AgentEvent) : NodeData :=
  run (fun node e => (resourceAdapterPatch node e).1) node es

theorem whole_agentRun (inventory : LocalNode) (knownNodes : KnownNodes) (es : List AgentEvent) :
    Whole (agentRun ⟨inventory, knownNodes, createOwnedJobs⟩ es).ownedJobs := by
  have hstages : ∀ j job, (agentRun ⟨inventory, knownNodes, createOwnedJobs⟩ es).ownedJobs.job j =
      some job → ∃ ps k, ps.length ≤ maxJobResources ∧ Stage job ps k := by
    refine run_invariant_all (I := fun node : NodeData => ∀ j job, node.ownedJobs.job j = some job →
      ∃ ps k, ps.length ≤ maxJobResources ∧ Stage job ps k)
      (fun node e h => stages_step h e) fun j job hjob => ?_
    rw [job_createOwnedJobs] at hjob
    cases hjob
  intro j job hjob
  obtain ⟨ps, k, hlen, hst⟩ := hstages j job hjob
  rw [hst.granted hlen, hst.petitions, filter_stagePetitions]

/-- In every reachable state and for every event, the rollback is complete exactly when no
owed RELEASE comes after the first `MAX_OUTBOX` messages. -/
theorem rollback_complete_iff (inventory : LocalNode) (knownNodes : KnownNodes)
    (es : List AgentEvent) (e : AgentEvent) :
    RollbackComplete (agentRun ⟨inventory, knownNodes, createOwnedJobs⟩ es) e ↔
      ReleasesFit (agentRun ⟨inventory, knownNodes, createOwnedJobs⟩ es) e :=
  complete_iff_of_whole (whole_agentRun inventory knownNodes es) e

/-! ## A rollback that is cut off

The local client registers three jobs with 43 petitions each, all of them are granted, and
the client disconnects: of the 129 RELEASEs the last one is dropped. -/

def remoteIp : Ip := ⟨['1', '0', '.', '0', '.', '0', '.', '2'], Nat.le_of_ble_eq_true rfl⟩

def oneConnection : Connections := fun fd =>
  if fd.val = 9 then ⟨true, remoteIp, 8000⟩ else ⟨false, remoteIp, 0⟩

def threeJobs : List AgentEvent :=
  [1, 2, 3].flatMap fun jobId =>
    .jobRequest 0 7 jobId (List.replicate 43 ⟨remoteIp, 8000, .cpu, 1⟩) ::
      List.replicate 43 (.granted oneConnection remoteIp 9 jobId)

def threeJobsNode : NodeData :=
  agentRun ⟨createLocalNode 0 0 0, createKnownNodes, createOwnedJobs⟩ threeJobs

def clientGone : AgentEvent := .disconnected oneConnection (some remoteIp) 7

theorem rollback_cut_off : ¬ ∀ (inventory : LocalNode) (knownNodes : KnownNodes)
    (es : List AgentEvent) (e : AgentEvent),
    RollbackComplete (agentRun ⟨inventory, knownNodes, createOwnedJobs⟩ es) e := by
  intro h
  have hcount : ∃ job ∈ threeJobsNode.ownedJobs.datos,
      (resourceAdapterPatch threeJobsNode clientGone).1.ownedJobs.job job.jobId = none ∧
      (resourceAdapterPatch threeJobsNode clientGone).2.countP (owedBy [] job.jobId) <
        (owed (died threeJobsNode clientGone) job).countP (owedBy [] job.jobId) := by
    decide +kernel
  obtain ⟨job, hjob, hgone, hlt⟩ := hcount
  have hall : RollbackComplete threeJobsNode clientGone :=
    h (createLocalNode 0 0 0) createKnownNodes threeJobs clientGone
  exact absurd ((hall job hjob hgone).countP_le _) (not_le.mpr hlt)

end ResourceManager
