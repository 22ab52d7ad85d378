import ResourceManager.Coordinator.AllOrNothing
import ResourceManager.Coordinator.Registration

/-!
# Responses and notices

A GRANTED is matched against the petition that is awaited, a DENIED against nothing: the
job whose id it names is ended, and the notice goes to descriptor 0 if there is no such job.
A GRANTED that matches nothing is ignored, and as long as every DENIED matches, the notices
of a run go to the clients that registered their jobs (`responses_matched`).
-/

namespace ResourceManager

open HashTable Library.Runs

/-! ## The addressee of a notice -/

/-- The job whose owner the message informs. -/
def noticeOf (m : OutMsg) : Option UInt32 :=
  match m.message with
  | .jobGranted i => some i
  | .jobDenied i => some i
  | .jobTimeout i => some i
  | _ => none

/-- If the message is a notice, its job is stored and the message goes to the owner. -/
def Addressed (jobs : OwnedJobs) (m : OutMsg) : Prop :=
  ∀ i ∈ noticeOf m, ∃ job, jobs.job i = some job ∧ m = .toFd job.ownerSocket m.message

theorem addressed_of_none {jobs : OwnedJobs} {m : OutMsg} (h : noticeOf m = none) :
    Addressed jobs m := by
  intro i hi
  rw [h] at hi
  cases hi

/-- The jobs are stored in `jobs` with the same owners, to whom the notices go. -/
structure NoticesOk (jobs : OwnedJobs) (state : OwnedJobs × List OutMsg) : Prop where
  owners : ∀ i job, state.1.job i = some job →
    ∃ old, jobs.job i = some old ∧ old.ownerSocket = job.ownerSocket
  outbox : ∀ m ∈ state.2, Addressed jobs m

theorem noticesOk_nil (jobs : OwnedJobs) : NoticesOk jobs (jobs, []) :=
  ⟨fun _ job h => ⟨job, h, rfl⟩, fun _ h => absurd h List.not_mem_nil⟩

/-- The lines that end a job. -/
def EndsJob (notice : Option (UInt32 → Message)) : Prop :=
  notice = none ∨ notice = some .jobDenied ∨ notice = some .jobTimeout

section Rollback

variable {jobs : OwnedJobs} (dead : JobPetition → Bool) {notice : Option (UInt32 → Message)}
  {state : OwnedJobs × List OutMsg}

theorem addressed_rollbackMsgs (hnotice : EndsJob notice) (h : NoticesOk jobs state)
    {i : UInt32} (hi : state.1.job i ≠ none) :
    ∀ m ∈ rollbackMsgs dead notice state.1 i, Addressed jobs m := by
  obtain ⟨job, hjob⟩ := Option.ne_none_iff_exists'.mp hi
  obtain ⟨old, hold, howner'⟩ := h.owners i job hjob
  have howner : getJobOwnerSocket state.1 i = old.ownerSocket := by
    unfold getJobOwnerSocket
    rw [hjob, howner']
  intro m hm
  rcases List.mem_append.mp hm with hm | hm
  · obtain ⟨p, _, rfl⟩ := List.mem_map.mp hm
    exact addressed_of_none rfl
  · rcases hnotice with rfl | rfl | rfl
    · cases hm
    all_goals
      rw [Option.toList_some, List.map_singleton, List.mem_singleton, howner] at hm
      subst hm
      intro k hk
      cases hk
      exact ⟨old, hold, rfl⟩

theorem noticesOk_rollback (hnotice : EndsJob notice) (h : NoticesOk jobs state) {i : UInt32}
    (hi : state.1.job i ≠ none) : NoticesOk jobs (rollback dead notice state i) := by
  constructor
  · intro j job hj
    rw [job_rollback] at hj
    split at hj
    · cases hj
    · exact h.owners j job hj
  · intro m hm
    rw [outbox_rollback] at hm
    rcases mem_foldl_addToOutbox hm with hm | hm
    · exact h.outbox m hm
    · exact addressed_rollbackMsgs dead hnotice h hi m hm

/-- The loop over collected jobs, each of which is still stored when its turn comes. -/
theorem noticesOk_rollbacks (hnotice : EndsJob notice) : ∀ {ids : List UInt32}
    {state : OwnedJobs × List OutMsg}, NoticesOk jobs state → ids.Nodup →
      (∀ i ∈ ids, state.1.job i ≠ none) → NoticesOk jobs (ids.foldl (rollback dead notice) state)
  | [], _, h, _, _ => h
  | i :: ids, state, h, hnd, hids => by
    obtain ⟨hi, hnd⟩ := List.nodup_cons.mp hnd
    rw [List.foldl_cons]
    refine noticesOk_rollbacks hnotice
      (noticesOk_rollback dead hnotice h (hids i List.mem_cons_self)) hnd fun j hj => ?_
    have hij : i ≠ j := fun he => hi (he ▸ hj)
    rw [job_rollback, if_neg hij]
    exact hids j (List.mem_cons_of_mem _ hj)

theorem noticesOk_timeoutLoop : ∀ {ids : List UInt32} {state : OwnedJobs × List OutMsg},
    NoticesOk jobs state → ids.Nodup → (∀ i ∈ ids, state.1.job i ≠ none) →
      NoticesOk jobs (timeoutLoop ids state)
  | [], _, h, _, _ => h
  | i :: ids, state, h, hnd, hids => by
    obtain ⟨hi, hnd⟩ := List.nodup_cons.mp hnd
    rw [timeoutLoop]
    split
    · exact h
    · refine noticesOk_timeoutLoop (noticesOk_rollback _ (Or.inr (Or.inr rfl)) h
        (hids i List.mem_cons_self)) hnd fun j hj => ?_
      have hij : i ≠ j := fun he => hi (he ▸ hj)
      rw [job_rollback, if_neg hij]
      exact hids j (List.mem_cons_of_mem _ hj)

theorem collected_stored (jobs : OwnedJobs) (max : Nat) (p : ElemOwnedJob → Bool) :
    ∀ i ∈ jobs.visitarExtra (Tabla.recolectar max p fun job => job.jobId) [],
      jobs.job i ≠ none := by
  intro i hi
  obtain ⟨job, hjob, _⟩ := (collected_spec jobs max p).2 i hi
  rw [hjob]
  exact Option.some_ne_none job

/-- The same for a loop over what a visitor has just collected. -/
theorem noticesOk_collected (hnotice : EndsJob notice) (h : NoticesOk jobs state) (max : Nat)
    (p : ElemOwnedJob → Bool) : NoticesOk jobs
      ((state.1.visitarExtra (Tabla.recolectar max p fun job => job.jobId) []).foldl
        (rollback dead notice) state) :=
  noticesOk_rollbacks dead hnotice h (collected_spec state.1 max p).1 (collected_stored state.1 max p)

theorem noticesOk_deadNodes (connections : Connections) (ds : List (Ip × UInt32))
    (inventory : LocalNode) {state : OwnedJobs × List OutMsg} (h : NoticesOk jobs state) :
    NoticesOk jobs (ds.foldl (cleanDeadNode connections) (inventory, state)).2 := by
  refine List.foldlRecOn (motive := fun s : LocalNode × OwnedJobs × List OutMsg =>
    NoticesOk jobs s.2) ds (cleanDeadNode connections) h fun s hs d _ => ?_
  exact noticesOk_collected (fun _ => false) (Or.inr (Or.inl rfl)) hs maxAffected _

end Rollback

/-! ## The notices of an event -/

theorem noticesOk_dispatchNextReserve {jobs : OwnedJobs} {state : OwnedJobs × List OutMsg}
    (h : NoticesOk jobs state) (i : UInt32) :
    NoticesOk jobs (dispatchNextReserve state.1 i state.2) := by
  constructor
  · intro j job hj
    rw [job_dispatchNextReserve] at hj
    split at hj
    · obtain ⟨old, hold, rfl⟩ := Option.map_eq_some_iff.mp hj
      rw [ownerSocket_dispatch]
      exact h.owners j old hold
    · exact h.owners j job hj
  · intro m hm
    cases hjob : state.1.job i with
    | none =>
      unfold dispatchNextReserve getNextReserve at hm
      rw [hjob] at hm
      exact h.outbox m hm
    | some job =>
      rw [outbox_dispatchNextReserve hjob] at hm
      split at hm
      · exact h.outbox m hm
      · rcases mem_addToOutbox hm with hm | rfl
        · exact h.outbox m hm
        · exact addressed_of_none rfl

theorem noticesOk_handleGranted (jobs : OwnedJobs) (ip : Ip) (port i : UInt32) :
    NoticesOk jobs (handleGranted jobs ip port i []) := by
  by_cases hexp : port ≠ 0 ∧ ∃ job, jobs.job i = some job ∧ job.Expects ip port
  · obtain ⟨hport, job, hjob, hexp⟩ := hexp
    have hmark := mark_accepted hjob hexp
    set idx := job.nextReserveIdx - 1
    set jobs' := jobs.update i (ElemOwnedJob.grant idx) (ElemOwnedJob.jobId_grant idx) with hjobs'
    have hupdated : NoticesOk jobs (jobs', []) := by
      refine ⟨fun j job' hj => ?_, fun m hm => absurd hm List.not_mem_nil⟩
      rw [hjobs', job_update] at hj
      split at hj
      · obtain ⟨old, hold, rfl⟩ := Option.map_eq_some_iff.mp hj
        exact ⟨old, hold, rfl⟩
      · exact ⟨job', hj, rfl⟩
    have howner : getJobOwnerSocket jobs' i = job.ownerSocket := by
      unfold getJobOwnerSocket
      rw [hjobs', job_update, if_pos rfl, hjob]
      rfl
    unfold handleGranted
    rw [if_neg hport, hmark]
    dsimp only
    generalize (if (!job.grantNotified && (job.grant idx).grantNotified) = true
      then (1 : Int) else 0) = grantResult
    split
    · refine ⟨hupdated.owners, fun m hm => ?_⟩
      rw [addToOutbox_nil, List.mem_singleton, howner] at hm
      subst hm
      intro k hk
      cases hk
      exact ⟨job, hjob, rfl⟩
    · split
      · exact noticesOk_dispatchNextReserve hupdated i
      · exact hupdated
  · rw [handleGranted_ignored]
    · exact noticesOk_nil jobs
    · by_contra hno
      push Not at hno
      exact hexp hno

/-- No other event changes the owner of a job, and the notices go to the owners, unless the
event is a DENIED for a job that is not stored. -/
theorem noticesOk_resourceAdapterPatch {node : NodeData} {e : AgentEvent}
    (hreg : ∀ i, ¬ Registers i e) (hdenied : ∀ i, e = .denied i → node.ownedJobs.job i ≠ none) :
    NoticesOk node.ownedJobs
      ((resourceAdapterPatch node e).1.ownedJobs, (resourceAdapterPatch node e).2) := by
  have hempty := noticesOk_nil node.ownedJobs
  cases e with
  | announced now ip port cpu ram gpu =>
    unfold resourceAdapterPatch
    dsimp only
    split <;> exact hempty
  | jobRequest now socket i tokens => exact absurd rfl (hreg i)
  | reserve k i type q =>
    have hres := reserved_handleReserve node.inventory k i type q []
    rw [resourceAdapterPatch_reserve]
    refine ⟨hempty.owners, fun m hm => ?_⟩
    generalize handleReserve node.inventory k i type q [] = res at hres hm
    refine addressed_of_none ?_
    cases hres
    · rw [List.mem_singleton.mp hm]
      rfl
    · cases hm
    · rw [List.mem_singleton.mp hm]
      rfl
  | granted connections ip socket i => exact noticesOk_handleGranted node.ownedJobs ip _ i
  | denied i => exact noticesOk_rollback _ (Or.inr (Or.inl rfl)) hempty (hdenied i rfl)
  | release k i rand =>
    obtain ⟨gs, s', hrun, _⟩ := LocalNode.handleRelease_spec node.inventory rand k i []
    rw [resourceAdapterPatch_release, hrun]
    refine ⟨hempty.owners, fun m hm => ?_⟩
    rcases mem_foldl_addToOutbox hm with hm | hm
    · cases hm
    · obtain ⟨r, _, rfl⟩ := List.mem_map.mp hm
      exact addressed_of_none rfl
  | jobRelease i =>
    show NoticesOk node.ownedJobs (rollback (fun _ => false) none (node.ownedJobs, []) i)
    by_cases hi : node.ownedJobs.job i = none
    · refine ⟨fun j job hj => ?_, fun m hm => ?_⟩
      · rw [job_rollback] at hj
        split at hj
        · cases hj
        · exact ⟨job, hj, rfl⟩
      · rw [outbox_rollback, rollbackMsgs, getGrantedResources_none hi] at hm
        cases hm
    · exact noticesOk_rollback _ (Or.inl rfl) hempty hi
  | disconnected connections ip socket =>
    have hfirst := noticesOk_collected (fun _ => false) (Or.inl rfl) hempty maxOrphans
      fun job => decide (job.ownerSocket = socket)
    show NoticesOk node.ownedJobs ((actionDisconnected connections node ip socket []).1.ownedJobs,
      (actionDisconnected connections node ip socket []).2)
    unfold actionDisconnected getJobsByOwnerSocket
    dsimp only at hfirst ⊢
    generalize List.foldl (rollback (fun _ => false) none) (node.ownedJobs, []) _ = mid at hfirst ⊢
    cases closedPeer connections ip socket with
    | none => exact hfirst
    | some peer => exact noticesOk_collected _ (Or.inr (Or.inl rfl)) hfirst maxAffected _
  | checkDeadnodes connections now now' =>
    have hdead := noticesOk_deadNodes connections
      (removeInactiveNodes node.knownNodes now maxDead).2 node.inventory hempty
    show NoticesOk node.ownedJobs ((handleCheckDeadnodes connections node now now' []).1.ownedJobs,
      (handleCheckDeadnodes connections node now now' []).2)
    unfold handleCheckDeadnodes
    dsimp only
    generalize List.foldl (cleanDeadNode connections) (node.inventory, node.ownedJobs, []) _ = mid
      at hdead ⊢
    obtain ⟨inventory, jobs, outbox⟩ := mid
    exact noticesOk_timeoutLoop hdead (collected_spec jobs maxAffected _).1
      (collected_stored jobs maxAffected _)

/-! ## Responses of other nodes -/

/-- The line is a GRANTED or a DENIED for the job. -/
def Responds (a : Arrival) (jobId : UInt32) : Prop :=
  scanLine a = some (.granted a.connections a.senderIp a.socket jobId) ∨
    scanLine a = some (.denied jobId)

/-- The job awaits an answer from the sender of the line. -/
def Matches (node : NodeData) (a : Arrival) (jobId : UInt32) : Prop :=
  ∃ job, node.ownedJobs.job jobId = some job ∧
    job.Expects a.senderIp (getConnectionPort a.connections a.socket.toInt32)

/-- The line leaves the jobs as they are and sends nothing. -/
def Ignored (node : NodeData) (a : Arrival) : Prop :=
  (patchInput node (.line a)).1.ownedJobs = node.ownedJobs ∧ (patchInput node (.line a)).2 = []

/-- A DENIED always sends a JOB_DENIED. -/
theorem outbox_handleDenied_ne_nil (jobs : OwnedJobs) (i : UInt32) :
    (handleDenied jobs i []).2 ≠ [] := by
  have hroom := length_getGrantedResources_le jobs i maxJobResources
  have hlt : maxJobResources + 1 ≤ maxOutbox := by decide
  unfold handleDenied
  rw [outbox_rollback_of_room _ _ _ (by simp only [List.length_nil]; omega), rollbackMsgs]
  simp

theorem ignored_iff {node : NodeData} {a : Arrival} {jobId : UInt32} (h : Responds a jobId) :
    (¬ Matches node a jobId → Ignored node a) ↔
      (scanLine a ≠ some (.denied jobId) ∨ Matches node a jobId) := by
  rcases h with hgranted | hdenied
  · have hpatch := patchInput_event node (i := .line a) hgranted
    refine iff_of_true (fun hno => ?_) (Or.inl (by rw [hgranted]; exact fun he => nomatch he))
    have hhandle : handleGranted node.ownedJobs a.senderIp
        (getConnectionPort a.connections a.socket.toInt32) jobId [] = (node.ownedJobs, []) :=
      handleGranted_ignored (Or.inr fun job hjob hexp => hno ⟨job, hjob, hexp⟩) []
    unfold Ignored
    rw [hpatch, resourceAdapterPatch, hhandle]
    exact ⟨rfl, rfl⟩
  · have hpatch := patchInput_event node (i := .line a) hdenied
    constructor
    · intro himp
      right
      by_contra hno
      have hout := (himp hno).2
      rw [hpatch] at hout
      exact outbox_handleDenied_ne_nil node.ownedJobs jobId hout
    · rintro (hne | hmatch)
      · exact absurd hdenied hne
      · exact fun hno => absurd hmatch hno

/-! ## The notices of a run -/

/-- A run of the dispatcher: the socket of the last JOB_REQUEST for each id, and the notices
sent so far, each with the socket that had registered its job. -/
structure OwnerWatch where
  node : NodeData
  registrar : UInt32 → Option UInt32
  notices : List (OutMsg × Option UInt32)

def ownerStep (w : OwnerWatch) (i : Input) : OwnerWatch where
  node := (patchInput w.node i).1
  registrar := match i.event with
    | some (.jobRequest _ socket jobId _) => Function.update w.registrar jobId (some socket)
    | _ => w.registrar
  notices := w.notices ++ (patchInput w.node i).2.filterMap fun m =>
    (noticeOf m).map fun jobId => (m, w.registrar jobId)

/-- A DENIED answers the petition that its job awaits. -/
def DeniedMatches (w : OwnerWatch) : Input → Prop
  | .line a => ∀ jobId, scanLine a = some (.denied jobId) → Matches w.node a jobId
  | _ => True

/-- The notice goes to the socket that registered the job. -/
def ToRegistrar (n : OutMsg × Option UInt32) : Prop :=
  ∃ socket, n.2 = some socket ∧ n.1 = .toFd socket n.1.message

structure OwnerInv (w : OwnerWatch) : Prop where
  owners : ∀ i job, w.node.ownedJobs.job i = some job → w.registrar i = some job.ownerSocket
  notices : ∀ n ∈ w.notices, ToRegistrar n

theorem ownerInv_step (w : OwnerWatch) (i : Input) (h : OwnerInv w) (hdenied : DeniedMatches w i) :
    OwnerInv (ownerStep w i) := by
  have hnotices : ∀ {P : OutMsg × Option UInt32 → Prop}, (∀ m ∈ (patchInput w.node i).2,
      ∀ jobId ∈ noticeOf m, P (m, w.registrar jobId)) → (∀ n ∈ w.notices, P n) →
        ∀ n ∈ (ownerStep w i).notices, P n := by
    intro P hnew hold n hn
    rcases List.mem_append.mp hn with hn | hn
    · exact hold n hn
    · obtain ⟨m, hm, hmap⟩ := List.mem_filterMap.mp hn
      obtain ⟨jobId, hid, rfl⟩ := Option.map_eq_some_iff.mp hmap
      exact hnew m hm jobId hid
  cases he : i.event with
  | none =>
    obtain ⟨hnode, hlines⟩ := patchInput_none w.node he
    refine ⟨fun k job hk => ?_, hnotices (fun m hm jobId hid => ?_) h.notices⟩
    · unfold ownerStep at hk ⊢
      rw [hnode] at hk
      rw [he]
      exact h.owners k job hk
    · obtain ⟨text, htext⟩ := hlines m hm
      rw [noticeOf, htext] at hid
      cases hid
  | some e =>
    have hpatch := patchInput_event w.node he
    by_cases hreg : ∃ k, Registers k e
    · obtain ⟨k, hreg⟩ := hreg
      cases e with
      | jobRequest now socket k' tokens =>
        refine ⟨fun j job hj => ?_, hnotices (fun m hm jobId hid => ?_) h.notices⟩
        · unfold ownerStep at hj ⊢
          rw [hpatch] at hj
          rw [he]
          have hjob := job_handleJobRequest w.node.ownedJobs now socket k' j tokens []
          have hj : some job = _ := hj.symm.trans hjob
          by_cases hkj : k' = j
          · subst hkj
            rw [if_pos rfl, Option.some.injEq] at hj
            rw [hj, ownerSocket_dispatch]
            exact Function.update_self k' _ _
          · rw [if_neg hkj] at hj
            exact (Function.update_of_ne (Ne.symm hkj) _ _).trans (h.owners j job hj.symm)
        · rw [hpatch] at hm
          obtain ⟨t, _, rfl⟩ := mem_outbox_handleJobRequest hm
          cases hid
      | _ => exact hreg.elim
    · have hknown : ∀ k, e = .denied k → w.node.ownedJobs.job k ≠ none := by
        rintro k rfl
        cases i with
        | line a =>
          obtain ⟨job, hjob, _⟩ := hdenied k he
          rw [hjob]
          exact Option.some_ne_none job
        | datagram now senderIp text =>
          obtain ⟨a, _, ha⟩ := Option.map_eq_some_iff.mp he
          cases ha
        | disconnected connections senderIp socket => cases he
        | checkDeadnodes connections now now' => cases he
      have hok := noticesOk_resourceAdapterPatch (fun k hk => hreg ⟨k, hk⟩) hknown
      refine ⟨fun j job hj => ?_, hnotices (fun m hm jobId hid => ?_) h.notices⟩
      · have hsame : (ownerStep w i).registrar = w.registrar := by
          unfold ownerStep
          rw [he]
          cases e with
          | jobRequest now socket k tokens => exact absurd ⟨k, rfl⟩ hreg
          | _ => rfl
        unfold ownerStep at hj
        rw [hpatch] at hj
        obtain ⟨old, hold, howner⟩ := hok.owners j job hj
        rw [hsame, h.owners j old hold, howner]
      · rw [hpatch] at hm
        obtain ⟨job, hjob, hm'⟩ := hok.outbox m hm jobId hid
        exact ⟨job.ownerSocket, h.owners jobId job hjob, hm'⟩

/-- A run that starts with an empty table. -/
def OwnerWatch.start (inventory : LocalNode) (knownNodes : KnownNodes) : OwnerWatch :=
  ⟨⟨inventory, knownNodes, createOwnedJobs⟩, fun _ => none, []⟩

/-- A response that matches nothing is ignored unless it is a DENIED. In a run in which
every DENIED matches, each JOB_GRANTED, JOB_DENIED and JOB_TIMEOUT goes to the socket that
registered its job. -/
theorem responses_matched (node : NodeData) (a : Arrival) (jobId : UInt32)
    (inventory : LocalNode) (knownNodes : KnownNodes) (is : List Input) :
    (Responds a jobId →
      ((¬ Matches node a jobId → Ignored node a) ↔
        (scanLine a ≠ some (.denied jobId) ∨ Matches node a jobId))) ∧
      (Along ownerStep DeniedMatches (.start inventory knownNodes) is →
        ∀ n ∈ (run ownerStep (.start inventory knownNodes) is).notices, ToRegistrar n) := by
  refine ⟨ignored_iff, fun h => ?_⟩
  have hinit : OwnerInv (.start inventory knownNodes) := by
    refine ⟨fun i job hjob => ?_, fun n hn => absurd hn List.not_mem_nil⟩
    rw [OwnerWatch.start, job_createOwnedJobs] at hjob
    cases hjob
  exact (run_invariant ownerInv_step hinit h).notices

theorem scanLine_granted : scanLine (arrival 9 "GRANTED 5") =
    some (.granted oneConnection remoteIp 9 5) := rfl

theorem scanLine_denied : scanLine (arrival 9 "DENIED 5") = some (.denied 5) := rfl

/-- Neither line of the run is a DENIED. -/
theorem responses_matched_granted :
    (¬ Matches (initNode 0 0 0) (arrival 9 "GRANTED 5") 5 →
      Ignored (initNode 0 0 0) (arrival 9 "GRANTED 5")) ∧
    ∀ n ∈ (run ownerStep (.start (createLocalNode 0 0 0) createKnownNodes)
      [received 7 badToken, received 9 "GRANTED 5"]).notices, ToRegistrar n := by
  have hgranted : ∀ jobId, scanLine (arrival 9 "GRANTED 5") ≠ some (.denied jobId) := by
    intro jobId h
    rw [scanLine_granted] at h
    cases h
  have hrequest : ∀ jobId, scanLine (arrival 7 badToken) ≠ some (.denied jobId) := by
    have hdenied : (scanLine (arrival 7 badToken)).any (fun e => e matches .denied _) = false := by
      decide +kernel
    intro jobId h
    rw [h] at hdenied
    cases hdenied
  obtain ⟨hone, hrun⟩ := responses_matched (initNode 0 0 0) (arrival 9 "GRANTED 5") 5
    (createLocalNode 0 0 0) createKnownNodes [received 7 badToken, received 9 "GRANTED 5"]
  refine ⟨(hone (Or.inl scanLine_granted)).mpr (Or.inl (hgranted 5)),
    hrun ⟨fun jobId h => ?_, fun jobId h => ?_, trivial⟩⟩
  · exact absurd h (hrequest jobId)
  · exact absurd h (hgranted jobId)

/-- A DENIED for a job that is not stored: JOB_DENIED goes to descriptor 0. -/
theorem denied_not_ignored :
    ¬ ((∀ (node : NodeData) (a : Arrival) (jobId : UInt32), Responds a jobId →
        ¬ Matches node a jobId → Ignored node a) ∧
      ∀ (inventory : LocalNode) (knownNodes : KnownNodes) (is : List Input),
        ∀ n ∈ (run ownerStep (.start inventory knownNodes) is).notices, ToRegistrar n) := by
  rintro ⟨hignored, _⟩
  have hresponds : Responds (arrival 9 "DENIED 5") 5 := Or.inr scanLine_denied
  have hno : ¬ Matches (initNode 0 0 0) (arrival 9 "DENIED 5") 5 := by
    rintro ⟨job, hjob, _⟩
    rw [initNode, job_createOwnedJobs] at hjob
    cases hjob
  rcases (ignored_iff hresponds).mp (hignored (initNode 0 0 0) _ 5 hresponds) with hne | hmatch
  · exact hne scanLine_denied
  · exact hno hmatch

end ResourceManager
