import ResourceManager.Comms.ResourceAdapter

/-!
# What the handlers do to the record of one job

Each handler is described by the record of a job `j` afterwards and by the messages that it
adds to the outbox.
-/

namespace ResourceManager

open HashTable

/-! ## The outbox -/

theorem addToOutbox_nil (m : OutMsg) : addToOutbox [] m = [m] := rfl

/-- What is added is the message or nothing. -/
theorem mem_addToOutbox {outbox : List OutMsg} {m x : OutMsg}
    (h : x ∈ addToOutbox outbox m) : x ∈ outbox ∨ x = m := by
  unfold addToOutbox at h
  split at h
  · exact Or.inl h
  · simpa using h

theorem mem_foldl_addToOutbox {ms : List OutMsg} {x : OutMsg} : ∀ {outbox : List OutMsg},
    x ∈ ms.foldl addToOutbox outbox → x ∈ outbox ∨ x ∈ ms := by
  induction ms with
  | nil => exact fun h => Or.inl h
  | cons m ms ih =>
    intro outbox h
    rcases ih h with h | h
    · rcases mem_addToOutbox h with h | rfl
      · exact Or.inl h
      · exact Or.inr List.mem_cons_self
    · exact Or.inr (List.mem_cons_of_mem _ h)

/-! ## Registration -/

/-- The petition that a token of the request becomes. -/
def ResourceToken.petition (t : ResourceToken) : JobPetition := ⟨t.ip, t.port, t.type, t.cant, false⟩

/-- The record of a job just registered. -/
def newJob (now : Int) (socket jobId : UInt32) (tokens : List ResourceToken) : ElemOwnedJob :=
  ⟨jobId, socket, false, now, (tokens.take maxJobResources).map ResourceToken.petition, 0⟩

theorem job_appendPetitionToJob (jobs : OwnedJobs) (i j : UInt32) (t : ResourceToken) :
    (appendPetitionToJob jobs i t.ip t.port t.type t.cant).job j =
      if i = j then (jobs.job j).map fun job =>
        if maxJobResources ≤ job.petitions.length then job
        else { job with petitions := job.petitions ++ [t.petition] }
      else jobs.job j := by
  unfold appendPetitionToJob
  by_cases hij : i = j
  · subst hij
    rw [if_pos rfl]
    split
    · rename_i h
      rw [h]
      rfl
    · rename_i job h
      split
      · rename_i hfull
        rw [h, Option.map_some, if_pos hfull]
      · rename_i hroom
        rw [job_update, if_pos rfl, h, Option.map_some, Option.map_some, if_neg hroom]
        rfl
  · rw [if_neg hij]
    split
    · rfl
    · split
      · rfl
      · rw [job_update, if_neg hij]

theorem job_appendAll (i j : UInt32) (tokens : List ResourceToken) : ∀ jobs : OwnedJobs,
    (∀ job, jobs.job i = some job → job.petitions.length ≤ maxJobResources) →
      (tokens.foldl (fun jobs t => appendPetitionToJob jobs i t.ip t.port t.type t.cant)
        jobs).job j =
        if i = j then (jobs.job j).map fun job =>
          { job with petitions :=
              (job.petitions ++ tokens.map ResourceToken.petition).take maxJobResources }
        else jobs.job j := by
  induction tokens with
  | nil =>
    intro jobs hle
    split
    · rename_i hij
      subst hij
      cases h : jobs.job i with
      | none => rw [List.foldl_nil, h]; rfl
      | some job =>
        rw [List.foldl_nil, h, Option.map_some, List.map_nil, List.append_nil,
          List.take_of_length_le (hle job h)]
    · rfl
  | cons t tokens ih =>
    intro jobs hle
    have hstep := job_appendPetitionToJob jobs i
    rw [List.foldl_cons, ih]
    · rw [hstep]
      by_cases hij : i = j
      · subst hij
        simp only [if_pos]
        cases h : jobs.job i with
        | none => rfl
        | some job =>
          simp only [Option.map_some]
          have hjob := hle job h
          split
          · rename_i hfull
            have hlen : job.petitions.length = maxJobResources := le_antisymm hjob hfull
            rw [List.take_left' hlen, List.take_left' hlen]
          · simp only [List.map_cons, List.append_assoc, List.singleton_append]
      · simp only [if_neg hij]
    · intro job hjob
      rw [hstep, if_pos rfl] at hjob
      cases h : jobs.job i with
      | none => simp [h] at hjob
      | some job' =>
        have hle' := hle job' h
        simp only [h, Option.map_some, Option.some.injEq] at hjob
        subst hjob
        split
        · exact hle'
        · simp only [List.length_append, List.length_singleton]
          omega

/-- The petitions of a registered job are the first tokens of its request. -/
theorem job_registered (jobs : OwnedJobs) (now : Int) (socket i j : UInt32)
    (tokens : List ResourceToken) :
    (tokens.foldl (fun jobs t => appendPetitionToJob jobs i t.ip t.port t.type t.cant)
      (addNewOwnedJob jobs now i socket)).job j =
      if i = j then some (newJob now socket i tokens) else jobs.job j := by
  rw [job_appendAll]
  · rw [job_addNewOwnedJob]
    split
    · simp [newJob, List.map_take]
    · rfl
  · intro job hjob
    rw [job_addNewOwnedJob, if_pos rfl, Option.some.injEq] at hjob
    subst hjob
    exact Nat.zero_le _

/-! ## The next RESERVE -/

/-- `next_reserve_idx++`, unless every petition has been sent. -/
def ElemOwnedJob.dispatch (job : ElemOwnedJob) : ElemOwnedJob :=
  if job.nextReserveIdx < job.petitions.length then job.advance else job

theorem ownerSocket_dispatch (job : ElemOwnedJob) : job.dispatch.ownerSocket = job.ownerSocket := by
  unfold ElemOwnedJob.dispatch
  split <;> rfl

theorem petitions_dispatch (job : ElemOwnedJob) : job.dispatch.petitions = job.petitions := by
  unfold ElemOwnedJob.dispatch
  split <;> rfl

theorem job_dispatchNextReserve (jobs : OwnedJobs) (i j : UInt32) (outbox : List OutMsg) :
    (dispatchNextReserve jobs i outbox).1.job j =
      if i = j then (jobs.job j).map ElemOwnedJob.dispatch else jobs.job j := by
  unfold dispatchNextReserve getNextReserve
  by_cases hij : i = j
  · subst hij
    rw [if_pos rfl]
    cases h : jobs.job i with
    | none => exact h
    | some job =>
      dsimp only
      cases hp : job.petitions[job.nextReserveIdx]? with
      | none =>
        have hnext := List.getElem?_eq_none_iff.mp hp
        rw [Option.map_some, ElemOwnedJob.dispatch, if_neg (by omega)]
        exact h
      | some p =>
        obtain ⟨hnext, _⟩ := List.getElem?_eq_some_iff.mp hp
        rw [Option.map_some, ElemOwnedJob.dispatch, if_pos hnext]
        simp [h]
  · rw [if_neg hij]
    split
    · rename_i jobs' h
      split at h
      · cases h; rfl
      · split at h <;> cases h
        rfl
    · rename_i jobs' p h
      split at h
      · cases h
      · split at h <;> cases h
        simp [hij]

/-- The message is the RESERVE of the petition at `next_reserve_idx`. -/
theorem outbox_dispatchNextReserve {jobs : OwnedJobs} {i : UInt32} {job : ElemOwnedJob}
    (h : jobs.job i = some job) (outbox : List OutMsg) :
    (dispatchNextReserve jobs i outbox).2 =
      match job.petitions[job.nextReserveIdx]? with
      | none => outbox
      | some p => addToOutbox outbox (reserveMsg i p) := by
  unfold dispatchNextReserve getNextReserve
  rw [h]
  dsimp only
  cases job.petitions[job.nextReserveIdx]? <;> rfl

theorem job_handleJobRequest (jobs : OwnedJobs) (now : Int) (socket i j : UInt32)
    (tokens : List ResourceToken) (outbox : List OutMsg) :
    (handleJobRequest jobs now socket i tokens outbox).1.job j =
      if i = j then some (newJob now socket i tokens).dispatch else jobs.job j := by
  unfold handleJobRequest
  rw [job_dispatchNextReserve, job_registered]
  split <;> rfl

theorem outbox_handleJobRequest (jobs : OwnedJobs) (now : Int) (socket i : UInt32)
    (tokens : List ResourceToken) (outbox : List OutMsg) :
    (handleJobRequest jobs now socket i tokens outbox).2 =
      match tokens with
      | [] => outbox
      | t :: _ => addToOutbox outbox (reserveMsg i t.petition) := by
  have hjob := job_registered jobs now socket i i tokens
  rw [if_pos rfl] at hjob
  unfold handleJobRequest
  rw [outbox_dispatchNextReserve hjob]
  cases tokens <;> rfl

/-! ## Rollback -/

/-- The messages of one rollback. -/
def rollbackMsgs (dead : JobPetition → Bool) (notice : Option (UInt32 → Message))
    (jobs : OwnedJobs) (i : UInt32) : List OutMsg :=
  ((getGrantedResources jobs i maxJobResources).filter fun p => !dead p).map (releaseMsg i) ++
    notice.toList.map fun msg => .toFd (getJobOwnerSocket jobs i) (msg i)

theorem foldl_releases (dead : JobPetition → Bool) (i : UInt32) (ps : List JobPetition) :
    ∀ outbox : List OutMsg,
      ps.foldl (fun outbox p => if dead p then outbox else addToOutbox outbox (releaseMsg i p))
        outbox = ((ps.filter fun p => !dead p).map (releaseMsg i)).foldl addToOutbox outbox := by
  induction ps with
  | nil => exact fun _ => rfl
  | cons p ps ih =>
    intro outbox
    rw [List.foldl_cons, ih]
    cases hp : dead p <;> simp [hp]

theorem length_getGrantedResources_le (jobs : OwnedJobs) (i : UInt32) (max : Nat) :
    (getGrantedResources jobs i max).length ≤ max := by
  cases h : jobs.job i with
  | none =>
    rw [getGrantedResources_none h]
    exact Nat.zero_le _
  | some job =>
    rw [getGrantedResources_eq h, granted_eq]
    exact List.length_take_le _ _

section Rollback

variable (dead : JobPetition → Bool) (notice : Option (UInt32 → Message))

theorem job_rollback (state : OwnedJobs × List OutMsg) (i j : UInt32) :
    (rollback dead notice state i).1.job j = if i = j then none else state.1.job j :=
  job_removeOwnedJob state.1 i j

theorem outbox_rollback (state : OwnedJobs × List OutMsg) (i : UInt32) :
    (rollback dead notice state i).2 =
      (rollbackMsgs dead notice state.1 i).foldl addToOutbox state.2 := by
  unfold rollback rollbackMsgs
  dsimp only
  rw [foldl_releases, List.foldl_append]
  cases notice <;> rfl

/-- With room in the outbox nothing of a rollback is dropped. -/
theorem outbox_rollback_of_room (state : OwnedJobs × List OutMsg) (i : UInt32) (h : state.2.length +
      (getGrantedResources state.1 i maxJobResources).length + 1 ≤ maxOutbox) :
    (rollback (fun _ => false) notice state i).2 =
      state.2 ++ rollbackMsgs (fun _ => false) notice state.1 i := by
  have hlen : (rollbackMsgs (fun _ => false) notice state.1 i).length ≤
      (getGrantedResources state.1 i maxJobResources).length + 1 := by
    cases notice <;> simp [rollbackMsgs]
  rw [outbox_rollback, foldl_addToOutbox _ _ (by omega), List.take_of_length_le]
  rw [List.length_append]
  omega

end Rollback

/-! ## The collected jobs -/

/-- What the visitors collect: ids of stored records with the property, each once. -/
theorem collected_spec (jobs : OwnedJobs) (max : Nat) (p : ElemOwnedJob → Bool) :
    (jobs.visitarExtra (Tabla.recolectar max p fun job => job.jobId) []).Nodup ∧
      ∀ j ∈ jobs.visitarExtra (Tabla.recolectar max p fun job => job.jobId) [],
        ∃ job, jobs.job j = some job ∧ p job = true := by
  rw [Tabla.visitar_recolectar]
  constructor
  · refine List.Nodup.sublist (List.take_sublist _ _) ?_
    rw [List.Nodup, List.pairwise_map]
    exact (jobs.distinct.filter p).imp fun h => mt igual_ownedJob.mpr h
  · intro j hj
    obtain ⟨job, hjob, rfl⟩ := List.mem_map.mp (List.mem_of_mem_take hj)
    obtain ⟨hmem, hp⟩ := List.mem_filter.mp hjob
    exact ⟨job, job_eq_some.mpr ⟨hmem, rfl⟩, hp⟩

theorem timedOut_nodup (jobs : OwnedJobs) (now : Int) (max : Nat) :
    (collectTimedOutJobs jobs now max).Nodup := (collected_spec jobs max _).1

/-- A job that times out has not been granted. -/
theorem mem_timedOut {jobs : OwnedJobs} {now : Int} {max : Nat} {j : UInt32}
    (h : j ∈ collectTimedOutJobs jobs now max) :
    ∃ job, jobs.job j = some job ∧ job.grantNotified = false := by
  obtain ⟨job, hjob, hp⟩ := (collected_spec jobs max _).2 j h
  simp only [Bool.and_eq_true, Bool.not_eq_true'] at hp
  exact ⟨job, hjob, hp.1⟩

end ResourceManager
