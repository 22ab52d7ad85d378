import ResourceManager.Coordinator.Rollback
import ResourceManager.Library.Loops

/-!
# The collector's loop: `handle_gc_timer_expiration`

The timer calls `handle_check_deadnodes` until a call sends nothing. A call that sends
something has removed a job, so the loop ends; a call that sends nothing has found no job
that has timed out, because the outbox has room for the first one. The jobs that time out
get all their messages, whatever the loop over the dead nodes has sent before.
-/

namespace ResourceManager

open Library.Loops

/-- The body of the loop: the iteration `i` uses the connection table `connections i` and
the readings `2 * i` and `2 * i + 1` of the clock. -/
def gcCall (connections : ℕ → Connections) (clock : ℕ → Int) (i : ℕ) (node : NodeData) :
    NodeData × List OutMsg :=
  resourceAdapterPatch node (.checkDeadnodes (connections i) (clock (2 * i)) (clock (2 * i + 1)))

/-- `handle_gc_timer_expiration`. -/
def handleGcTimerExpiration (connections : ℕ → Connections) (clock : ℕ → Int) (fuel : ℕ)
    (node : NodeData) : Option (NodeData × List (Iteration NodeData (List OutMsg))) :=
  doWhile (gcCall connections clock) (fun outbox => decide (0 < outbox.length)) fuel 0 node

/-! ## Messages about a job -/

/-- The message releases a petition of the job or tells that it has ended. -/
def aboutJob (j : UInt32) (m : OutMsg) : Bool :=
  match m.message with
  | .release i _ _ => decide (i = j)
  | .jobDenied i => decide (i = j)
  | .jobTimeout i => decide (i = j)
  | _ => false

/-- A notice that names its job. -/
def NamesJob (notice : UInt32 → Message) : Prop :=
  ∀ i j k, aboutJob j (.toFd k (notice i)) = decide (i = j)

theorem namesJob_jobDenied : NamesJob .jobDenied := fun _ _ _ => rfl

theorem namesJob_jobTimeout : NamesJob .jobTimeout := fun _ _ _ => rfl

section Messages

variable {dead : JobPetition → Bool} {notice : UInt32 → Message} {jobs : OwnedJobs}

theorem aboutJob_rollbackMsgs (hnotice : NamesJob notice) {i : UInt32} (j : UInt32) :
    ∀ m ∈ rollbackMsgs dead (some notice) jobs i, aboutJob j m = decide (i = j) := by
  intro m hm
  rcases List.mem_append.mp hm with hm | hm
  · obtain ⟨p, _, rfl⟩ := List.mem_map.mp hm
    rfl
  · obtain ⟨msg, hmsg, rfl⟩ := List.mem_map.mp hm
    rw [Option.toList_some, List.mem_singleton] at hmsg
    subst hmsg
    exact hnotice i j _

theorem filter_aboutJob_rollbackMsgs (hnotice : NamesJob notice) (i j : UInt32) :
    (rollbackMsgs dead (some notice) jobs i).filter (aboutJob j) =
      if i = j then rollbackMsgs dead (some notice) jobs i else [] := by
  have habout : ∀ m ∈ rollbackMsgs dead (some notice) jobs i, aboutJob j m = decide (i = j) :=
    aboutJob_rollbackMsgs hnotice j
  split
  · rename_i hij
    exact List.filter_eq_self.mpr fun m hm => by rw [habout m hm, decide_eq_true hij]
  · rename_i hij
    refine List.filter_eq_nil_iff.mpr fun m hm => ?_
    rw [habout m hm, decide_eq_false hij]
    exact Bool.false_ne_true

theorem filter_aboutJob_rollbacksMsgs (hnotice : NamesJob notice) {ids : List UInt32}
    (hnd : ids.Nodup) (j : UInt32) :
    (rollbacksMsgs dead (some notice) ids jobs).filter (aboutJob j) =
      if j ∈ ids then rollbackMsgs dead (some notice) jobs j else [] := by
  rw [rollbacksMsgs_eq_flatMap dead (some notice) ids hnd]
  induction ids with
  | nil => rfl
  | cons i ids ih =>
    obtain ⟨hi, hnd⟩ := List.nodup_cons.mp hnd
    rw [List.flatMap_cons, List.filter_append, filter_aboutJob_rollbackMsgs hnotice, ih hnd]
    by_cases hij : i = j
    · subst hij
      rw [if_pos rfl, if_neg hi, if_pos List.mem_cons_self, List.append_nil]
    · have hmem : j ∈ i :: ids ↔ j ∈ ids := by
        rw [List.mem_cons]
        exact or_iff_right fun he => hij he.symm
      rw [if_neg hij, List.nil_append]
      simp only [hmem]

end Messages

/-! ## The loop over the dead nodes -/

theorem mem_discardAffected {job : ElemOwnedJob} : ∀ {dead : List (Ip × UInt32)}
    {jobs : OwnedJobs}, job ∈ (discardAffected jobs dead).datos → job ∈ jobs.datos
  | [], _, h => h
  | d :: _, jobs, h => by
    have hrest : job ∈ (jobs.discard maxAffected (ElemOwnedJob.dependsOn d)).datos :=
      mem_discardAffected h
    exact (mem_discard.mp hrest).1

/-- It sends nothing about a job that is still there. -/
theorem filter_aboutJob_deadNodesMsgs {job : ElemOwnedJob} : ∀ (dead : List (Ip × UInt32))
    (jobs : OwnedJobs), job ∈ (discardAffected jobs dead).datos →
      (deadNodesMsgs dead jobs).filter (aboutJob job.jobId) = []
  | [], _, _ => rfl
  | d :: dead, jobs, h => by
    rw [discardAffected_cons] at h
    have hkept := mem_discardAffected h
    rw [OwnedJobs.discard, datos_removeAll, List.mem_filter, decide_eq_true_eq] at hkept
    rw [deadNodesMsgs_cons, List.filter_append,
      filter_aboutJob_rollbacksMsgs namesJob_jobDenied (collect_nodup jobs _ _),
      if_neg hkept.2, filter_aboutJob_deadNodesMsgs dead _ h, List.append_nil]

theorem length_discardAffected_le : ∀ (dead : List (Ip × UInt32)) (jobs : OwnedJobs),
    (discardAffected jobs dead).datos.length ≤ jobs.datos.length
  | [], _ => le_rfl
  | _ :: dead, _ =>
    (length_discardAffected_le dead _).trans (length_removeAll_le _ _)

/-- A batch of stored jobs that is not empty makes the table smaller. -/
theorem length_batch_lt {jobs : OwnedJobs} {ids : List UInt32}
    (h : ∀ i ∈ ids, ∃ job ∈ jobs.datos, job.jobId = i) (hids : ids ≠ []) :
    (ids.foldl removeOwnedJob jobs).datos.length < jobs.datos.length := by
  obtain ⟨i, hi⟩ := List.exists_mem_of_ne_nil ids hids
  obtain ⟨job, hjob, rfl⟩ := h i hi
  exact length_removeAll_lt hjob hi

theorem mem_collect_ids {jobs : OwnedJobs} {n : ℕ} {p : ElemOwnedJob → Bool} :
    ∀ i ∈ (jobs.collect n p).map ElemOwnedJob.jobId, ∃ job ∈ jobs.datos, job.jobId = i := by
  intro i hi
  obtain ⟨job, hjob, rfl⟩ := List.mem_map.mp hi
  exact ⟨job, (mem_collect hjob).1, rfl⟩

theorem length_discardAffected_lt : ∀ (dead : List (Ip × UInt32)) (jobs : OwnedJobs),
    deadNodesMsgs dead jobs ≠ [] → (discardAffected jobs dead).datos.length < jobs.datos.length
  | [], _, h => absurd rfl h
  | d :: dead, jobs, h => by
    rw [discardAffected_cons]
    by_cases hids : (jobs.collect maxAffected (ElemOwnedJob.dependsOn d)).map ElemOwnedJob.jobId = []
    · have hsame : jobs.discard maxAffected (ElemOwnedJob.dependsOn d) = jobs := by
        rw [OwnedJobs.discard, hids, List.foldl_nil]
      rw [deadNodesMsgs_cons, hids, rollbacksMsgs, List.nil_append, hsame] at h
      rw [hsame]
      exact length_discardAffected_lt dead jobs h
    · exact Nat.lt_of_le_of_lt (length_discardAffected_le dead _) (length_batch_lt mem_collect_ids hids)

/-! ## One call -/

/-- The jobs of the node when the loop over the dead nodes has ended. -/
def NodeData.afterDeadNodes (node : NodeData) (now : Int) : OwnedJobs :=
  discardAffected node.ownedJobs (removeInactiveNodes node.knownNodes now maxDead).2

section Call

variable (connections : Connections) (node : NodeData) (now now' : Int)

/-- The jobs `done` time out, and all their messages are sent. -/
theorem checkDeadnodes_spec : ∃ done rest,
    collectTimedOutJobs (node.afterDeadNodes now) now' maxAffected = done ++ rest ∧
      (resourceAdapterPatch node (.checkDeadnodes connections now now')).1.ownedJobs =
        done.foldl removeOwnedJob (node.afterDeadNodes now) ∧
      (resourceAdapterPatch node (.checkDeadnodes connections now now')).2 =
        (deadNodesMsgs (removeInactiveNodes node.knownNodes now maxDead).2
            node.ownedJobs).take maxOutbox ++
          rollbacksMsgs (fun _ => false) (some .jobTimeout) done (node.afterDeadNodes now) ∧
      ∀ i ∈ rest.head?, maxOutbox <
        (resourceAdapterPatch node (.checkDeadnodes connections now now')).2.length +
          maxJobResources + 1 := by
  obtain ⟨done, rest, hids, hrun, hfull⟩ := timeoutLoop_spec
    (collectTimedOutJobs (node.afterDeadNodes now) now' maxAffected) (node.afterDeadNodes now)
    ((deadNodesMsgs (removeInactiveNodes node.knownNodes now maxDead).2
      node.ownedJobs).take maxOutbox)
  have hpatch := resourceAdapterPatch_checkDeadnodes connections node now now'
  have hjobs := congrArg (fun r => r.1.ownedJobs) hpatch
  have hout := congrArg Prod.snd hpatch
  dsimp only at hjobs hout
  rw [← NodeData.afterDeadNodes, hrun] at hjobs hout
  refine ⟨done, rest, hids, hjobs, hout, fun i hi => ?_⟩
  have hlong := hfull i hi
  have hgranted := length_getGrantedResources_le
    (timeoutLoop (collectTimedOutJobs (node.afterDeadNodes now) now' maxAffected)
      (node.afterDeadNodes now, (deadNodesMsgs (removeInactiveNodes node.knownNodes now maxDead).2
        node.ownedJobs).take maxOutbox)).1 i maxJobResources
  rw [hrun] at hlong hgranted
  rw [hout]
  dsimp only at hlong hgranted ⊢
  omega

/-- A call that sends something has removed a job. -/
theorem checkDeadnodes_shrinks
    (h : (resourceAdapterPatch node (.checkDeadnodes connections now now')).2 ≠ []) :
    (resourceAdapterPatch node (.checkDeadnodes connections now now')).1.ownedJobs.datos.length <
      node.ownedJobs.datos.length := by
  obtain ⟨done, rest, hids, hjobs, hout, _⟩ := checkDeadnodes_spec connections node now now'
  rw [hjobs]
  rw [hout] at h
  by_cases hmsgs : deadNodesMsgs (removeInactiveNodes node.knownNodes now maxDead).2
      node.ownedJobs = []
  · have hdone : done ≠ [] := by
      rintro rfl
      rw [hmsgs, List.take_nil, rollbacksMsgs] at h
      exact h rfl
    have hstored : ∀ i ∈ done, ∃ job ∈ (node.afterDeadNodes now).datos, job.jobId = i := by
      intro i hi
      apply mem_collect_ids
      rw [← collectTimedOutJobs_eq _ now' maxAffected, hids]
      exact List.mem_append_left _ hi
    exact Nat.lt_of_lt_of_le (length_batch_lt hstored hdone) (length_discardAffected_le _ _)
  · exact Nat.lt_of_le_of_lt (length_removeAll_le _ _) (length_discardAffected_lt _ _ hmsgs)

/-- A call that sends nothing has found no job that has timed out. -/
theorem checkDeadnodes_quiet
    (h : (resourceAdapterPatch node (.checkDeadnodes connections now now')).2 = []) :
    ∀ job ∈ (resourceAdapterPatch node (.checkDeadnodes connections now now')).1.ownedJobs.datos,
      job.timedOut now' = false := by
  obtain ⟨done, rest, hids, hjobs, hout, hfull⟩ := checkDeadnodes_spec connections node now now'
  rw [h] at hout hfull
  have hdone : done = [] := by
    cases done with
    | nil => rfl
    | cons i done =>
      rw [rollbacksMsgs, rollbackMsgs] at hout
      simp at hout
  have hrest : rest = [] := by
    cases rest with
    | nil => rfl
    | cons i rest =>
      have hlong := hfull i rfl
      simp only [List.length_nil, maxOutbox, maxJobResources] at hlong
      omega
  rw [hdone, hrest, collectTimedOutJobs_eq, List.append_nil, List.map_eq_nil_iff,
    OwnedJobs.collect, List.take_eq_nil_iff, List.filter_eq_nil_iff] at hids
  intro job hjob
  rw [hjobs, hdone, List.foldl_nil] at hjob
  rcases hids with hzero | hnone
  · cases hzero
  · exact Bool.eq_false_of_not_eq_true (hnone job hjob)

/-- The messages about a job that times out. -/
theorem checkDeadnodes_announces {job : ElemOwnedJob}
    (hbefore : job ∈ (node.afterDeadNodes now).datos)
    (hafter : job ∉
      (resourceAdapterPatch node (.checkDeadnodes connections now now')).1.ownedJobs.datos) :
    (resourceAdapterPatch node (.checkDeadnodes connections now now')).2.filter
        (aboutJob job.jobId) =
      (job.granted maxJobResources).map (releaseMsg job.jobId) ++
        [.toFd job.ownerSocket (.jobTimeout job.jobId)] := by
  obtain ⟨done, rest, hids, hjobs, hout, _⟩ := checkDeadnodes_spec connections node now now'
  have hnd : done.Nodup := by
    have hall := timedOut_nodup (node.afterDeadNodes now) now' maxAffected
    rw [hids] at hall
    exact hall.sublist (List.sublist_append_left _ _)
  have hdone : job.jobId ∈ done := by
    rw [hjobs, datos_removeAll, List.mem_filter, not_and] at hafter
    simpa using hafter hbefore
  have hnone : ((deadNodesMsgs (removeInactiveNodes node.knownNodes now maxDead).2
      node.ownedJobs).take maxOutbox).filter (aboutJob job.jobId) = [] := by
    have hall := filter_aboutJob_deadNodesMsgs _ _ hbefore
    exact List.sublist_nil.mp (hall ▸ (List.take_sublist _ _).filter _)
  have hjob : (node.afterDeadNodes now).job job.jobId = some job :=
    job_eq_some.mpr ⟨hbefore, rfl⟩
  rw [hout, List.filter_append, hnone, List.nil_append,
    filter_aboutJob_rollbacksMsgs namesJob_jobTimeout hnd, if_pos hdone, rollbackMsgs,
    getGrantedResources_eq hjob, getJobOwnerSocket, hjob]
  simp

end Call

/-! ## The loop -/

/-- What the iteration sends about a job that its timeout branch removes: a RELEASE for each
granted petition and one JOB_TIMEOUT. -/
def TimeoutsAnnounced (clock : ℕ → Int) (it : Iteration NodeData (List OutMsg)) : Prop :=
  ∀ job ∈ (it.before.afterDeadNodes (clock (2 * it.index))).datos,
    job ∉ it.after.ownedJobs.datos → it.output.filter (aboutJob job.jobId) =
      (job.granted maxJobResources).map (releaseMsg job.jobId) ++
        [.toFd job.ownerSocket (.jobTimeout job.jobId)]

theorem stored_gcCall (connections : ℕ → Connections) (clock : ℕ → Int) (i : ℕ) (node : NodeData) :
    ∀ job ∈ (gcCall connections clock i node).1.ownedJobs.datos, job ∈ node.ownedJobs.datos := by
  intro job hjob
  obtain ⟨done, _, _, hjobs, _⟩ := checkDeadnodes_spec (connections i) node (clock (2 * i))
    (clock (2 * i + 1))
  rw [gcCall, hjobs, datos_removeAll] at hjob
  exact mem_discardAffected (List.mem_of_mem_filter hjob)

/-- The loop registers no job and changes no record. -/
theorem stored_before {connections : ℕ → Connections} {clock : ℕ → Int} {fuel : ℕ}
    {node node' : NodeData} {its : List (Iteration NodeData (List OutMsg))}
    (h : handleGcTimerExpiration connections clock fuel node = some (node', its)) :
    ∀ it ∈ its, ∀ job ∈ it.before.ownedJobs.datos, job ∈ node.ownedJobs.datos :=
  doWhile_invariant (I := fun s => ∀ job ∈ s.ownedJobs.datos, job ∈ node.ownedJobs.datos)
    (fun i s hs job hjob => hs job (stored_gcCall connections clock i s job hjob)) h
    fun _ hjob => hjob

/-- The last iteration finds no job that has timed out. -/
theorem last_quiet {connections : ℕ → Connections} {clock : ℕ → Int} {fuel : ℕ}
    {node node' : NodeData} {its : List (Iteration NodeData (List OutMsg))}
    (h : handleGcTimerExpiration connections clock fuel node = some (node', its)) :
    ∃ it ∈ its.getLast?, it.after = node' ∧
      (∀ job ∈ node'.ownedJobs.datos, job.timedOut (clock (2 * it.index + 1)) = false) ∧
      ∀ it' ∈ its, it'.index ≤ it.index := by
  obtain ⟨it, hit, rfl, hstop, _, hmax⟩ := last_doWhile h
  refine ⟨it, hit, rfl, fun job hjob => ?_, hmax⟩
  have hcall := mem_doWhile h it (List.mem_of_getLast? hit)
  rw [hcall] at hjob hstop
  exact checkDeadnodes_quiet _ _ _ _
    (List.length_eq_zero_iff.mp (Nat.eq_zero_of_not_pos (of_decide_eq_false hstop))) job hjob

/-- The loop ends after at most one iteration more than there are jobs; no job has timed out
at the last reading; and the jobs that time out get all their messages. In a table that the
agent can build, `job.granted` are all granted petitions of a job. -/
theorem gc_expiration_collects (connections : ℕ → Connections) (clock : ℕ → Int)
    (node : NodeData) : ∃ node' its,
      (∀ fuel, node.ownedJobs.datos.length < fuel →
        handleGcTimerExpiration connections clock fuel node = some (node', its)) ∧
      (∃ it ∈ its.getLast?, it.after = node' ∧ ∀ job ∈ node'.ownedJobs.datos,
        job.grantNotified = false → clock (2 * it.index + 1) - job.createdAt ≤ jobTimeout) ∧
      (∀ it ∈ its, TimeoutsAnnounced clock it) ∧
      (Whole node.ownedJobs → ∀ it ∈ its,
        ∀ job ∈ (it.before.afterDeadNodes (clock (2 * it.index))).datos,
          job.granted maxJobResources = job.petitions.filter fun p => p.isGranted) := by
  obtain ⟨⟨node', its⟩, hrun⟩ := @doWhile_terminates _ _ (gcCall connections clock)
    (fun outbox => decide (0 < outbox.length)) (fun node => node.ownedJobs.datos.length)
    (fun i node hmore => checkDeadnodes_shrinks _ node _ _
      (List.ne_nil_of_length_pos (of_decide_eq_true hmore))) _ 0 node le_rfl
  have hone := hrun _ (Nat.lt_succ_self _)
  refine ⟨node', its, hrun, ?_, fun it hit => ?_, fun hw it hit job hjob => ?_⟩
  · obtain ⟨it, hit, hafter, hquiet, _⟩ := last_quiet hone
    refine ⟨it, hit, hafter, fun job hjob hwaiting => ?_⟩
    simpa [ElemOwnedJob.timedOut, hwaiting] using hquiet job hjob
  · intro job hbefore hafter
    have hcall := mem_doWhile hone it hit
    rw [hcall] at hafter ⊢
    exact checkDeadnodes_announces _ _ _ _ hbefore hafter
  · have hstored := stored_before hone it hit job (mem_discardAffected hjob)
    exact hw job.jobId job (job_eq_some.mpr ⟨hstored, rfl⟩)

end ResourceManager
