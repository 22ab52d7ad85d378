import ResourceManager.Coordinator.Records

/-!
# The stages of a job

Between events the record of a job is determined by the tokens `ps` of its request that
were stored and by the number `k` of petitions that have been granted: these are the first
`k`, one more has been sent unless all are granted, and the owner has been notified exactly
when all are granted and there was something to grant.
-/

namespace ResourceManager

/-- The petitions of a job at stage `k`. -/
def stagePetitions (ps : List ResourceToken) (k : Nat) : List JobPetition :=
  ps.mapIdx fun i t => ⟨t.ip, t.port, t.type, t.cant, decide (i < k)⟩

structure Stage (job : ElemOwnedJob) (ps : List ResourceToken) (k : Nat) : Prop where
  petitions : job.petitions = stagePetitions ps k
  next : job.nextReserveIdx = min (k + 1) ps.length
  notified : job.grantNotified = decide (0 < ps.length ∧ k = ps.length)
  le : k ≤ ps.length

@[simp] theorem length_stagePetitions (ps : List ResourceToken) (k : Nat) :
    (stagePetitions ps k).length = ps.length := List.length_mapIdx

theorem getElem?_stagePetitions (ps : List ResourceToken) (k i : Nat) :
    (stagePetitions ps k)[i]? =
      ps[i]?.map fun t => ⟨t.ip, t.port, t.type, t.cant, decide (i < k)⟩ := List.getElem?_mapIdx

theorem stagePetitions_zero (ps : List ResourceToken) :
    stagePetitions ps 0 = ps.map ResourceToken.petition := by
  apply List.ext_getElem?
  intro i
  simp only [getElem?_stagePetitions, List.getElem?_map, Nat.not_lt_zero, decide_false]
  rfl

/-- Granting the petition at `k` leads to the next stage. -/
theorem modify_stagePetitions (ps : List ResourceToken) (k : Nat) :
    ((stagePetitions ps k).modify k fun p => { p with isGranted := true }) =
      stagePetitions ps (k + 1) := by
  apply List.ext_getElem?
  intro i
  rw [List.getElem?_modify, getElem?_stagePetitions, getElem?_stagePetitions]
  cases ps[i]? with
  | none => rfl
  | some t =>
    by_cases hik : k = i
    · simp [hik]
    · have hlt : i < k ↔ i < k + 1 := by omega
      simp [hik, hlt]

theorem all_stagePetitions (ps : List ResourceToken) (k : Nat) :
    ((stagePetitions ps k).all fun p => p.isGranted) = decide (ps.length ≤ k) := by
  rw [Bool.eq_iff_iff, List.all_eq_true, decide_eq_true_iff]
  constructor
  · intro h
    by_contra hk
    have hlt : k < ps.length := by omega
    have hget : (stagePetitions ps k)[k]? = some
        ⟨ps[k].ip, ps[k].port, ps[k].type, ps[k].cant, decide (k < k)⟩ := by
      rw [getElem?_stagePetitions, List.getElem?_eq_getElem hlt]
      rfl
    have := h _ (List.mem_of_getElem? hget)
    simp at this
  · intro h p hp
    obtain ⟨i, hi⟩ := List.mem_iff_getElem?.mp hp
    rw [getElem?_stagePetitions] at hi
    obtain ⟨t, ht, rfl⟩ := Option.map_eq_some_iff.mp hi
    obtain ⟨hlt, _⟩ := List.getElem?_eq_some_iff.mp ht
    simp only [decide_eq_true_iff]
    omega

/-- The granted petitions of a job at stage `k`. -/
def grantedPetitions (ps : List ResourceToken) (k : Nat) : List JobPetition :=
  (ps.take k).map fun t => { t.petition with isGranted := true }

theorem filter_stagePetitions (ps : List ResourceToken) (k : Nat) :
    ((stagePetitions ps k).filter fun p => p.isGranted) = grantedPetitions ps k := by
  induction ps generalizing k with
  | nil => simp [stagePetitions, grantedPetitions]
  | cons t ps ih =>
    cases k with
    | zero =>
      rw [stagePetitions_zero]
      simp [grantedPetitions, ResourceToken.petition]
    | succ k =>
      have hcons : stagePetitions (t :: ps) (k + 1) =
          { t.petition with isGranted := true } :: stagePetitions ps k := by
        simp [stagePetitions, List.mapIdx_cons, ResourceToken.petition]
      rw [hcons, List.filter_cons_of_pos rfl, ih]
      rfl

/-! ## The stages of the handlers -/

theorem stage_newJob (now : Int) (socket i : UInt32) (tokens : List ResourceToken) :
    Stage (newJob now socket i tokens).dispatch (tokens.take maxJobResources) 0 := by
  have hpet : (newJob now socket i tokens).petitions =
      stagePetitions (tokens.take maxJobResources) 0 := (stagePetitions_zero _).symm
  have hlen : (newJob now socket i tokens).petitions.length =
      (tokens.take maxJobResources).length := by rw [hpet, length_stagePetitions]
  unfold ElemOwnedJob.dispatch
  split
  · rename_i hlt
    have hpos : 0 < (tokens.take maxJobResources).length := by
      rw [← hlen]
      exact hlt
    refine ⟨hpet, ?_, ?_, Nat.zero_le _⟩
    · show 0 + 1 = _
      omega
    · show false = _
      rw [eq_comm, decide_eq_false_iff_not]
      omega
  · rename_i hlt
    have hzero : (tokens.take maxJobResources).length = 0 := by
      have : (newJob now socket i tokens).nextReserveIdx = 0 := rfl
      omega
    refine ⟨hpet, ?_, ?_, Nat.zero_le _⟩
    · show 0 = _
      omega
    · show false = _
      rw [eq_comm, decide_eq_false_iff_not]
      omega

namespace Stage

variable {job : ElemOwnedJob} {ps : List ResourceToken} {k : Nat}

theorem length (h : Stage job ps k) : job.petitions.length = ps.length := by
  rw [h.petitions, length_stagePetitions]

theorem granted (h : Stage job ps k) (hlen : ps.length ≤ maxJobResources) :
    job.granted maxJobResources = grantedPetitions ps k := by
  have hfilter := filter_stagePetitions ps k
  have htake : ((stagePetitions ps k).take (min (k + 1) ps.length)).filter
      (fun p => p.isGranted) = grantedPetitions ps k := by
    have hdrop : ((stagePetitions ps k).drop (min (k + 1) ps.length)).filter
        (fun p => p.isGranted) = [] := by
      rw [List.filter_eq_nil_iff]
      intro p hp
      obtain ⟨i, hi⟩ := List.mem_iff_getElem?.mp hp
      rw [List.getElem?_drop, getElem?_stagePetitions] at hi
      obtain ⟨t, ht, rfl⟩ := Option.map_eq_some_iff.mp hi
      obtain ⟨hlt, _⟩ := List.getElem?_eq_some_iff.mp ht
      have := h.le
      simp only [decide_eq_true_iff]
      omega
    rw [← hfilter, ← List.take_append_drop (min (k + 1) ps.length) (stagePetitions ps k),
      List.filter_append, hdrop, List.append_nil, List.take_append_drop]
  rw [granted_eq, h.petitions, h.next, htake, List.take_of_length_le]
  simp only [grantedPetitions, List.length_map, List.length_take]
  omega

end Stage

/-! ## GRANTED -/

/-- The job awaits a GRANTED from this address. -/
def ElemOwnedJob.Expects (job : ElemOwnedJob) (ip : Ip) (port : UInt32) : Prop :=
  0 < job.nextReserveIdx ∧ ∃ p, job.petitions[job.nextReserveIdx - 1]? = some p ∧
    p.ip = ip ∧ p.port = port ∧ p.isGranted = false

theorem mark_ignored {jobs : OwnedJobs} {i : UInt32} {ip : Ip} {port : UInt32}
    (h : ∀ job, jobs.job i = some job → ¬ job.Expects ip port) :
    markPetitionAsGranted jobs i ip port = (jobs, -1) := by
  unfold markPetitionAsGranted
  split
  · rfl
  · rename_i job hjob
    split
    · rfl
    · rename_i hnext
      dsimp only
      split
      · rfl
      · rename_i p hp
        split
        · rfl
        · rename_i haddr
          split
          · rfl
          · rename_i hgranted
            have haddr : p.port = port ∧ p.ip = ip := by tauto
            exact absurd ⟨Nat.pos_of_ne_zero hnext, p, hp, haddr.2, haddr.1, by simpa using hgranted⟩
              (h job hjob)

theorem mark_accepted {jobs : OwnedJobs} {i : UInt32} {job : ElemOwnedJob} {ip : Ip}
    {port : UInt32} (hjob : jobs.job i = some job) (h : job.Expects ip port) :
    markPetitionAsGranted jobs i ip port =
      (jobs.update i (ElemOwnedJob.grant (job.nextReserveIdx - 1))
          (ElemOwnedJob.jobId_grant (job.nextReserveIdx - 1)),
        if !job.grantNotified && (job.grant (job.nextReserveIdx - 1)).grantNotified
        then 1 else 0) := by
  obtain ⟨hnext, p, hp, hip, hport, hgranted⟩ := h
  unfold markPetitionAsGranted
  rw [hjob]
  dsimp only
  rw [if_neg (by omega), hp]
  dsimp only
  rw [if_neg (by tauto), if_neg (by simp [hgranted])]

theorem handleGranted_ignored {jobs : OwnedJobs} {i : UInt32} {ip : Ip} {port : UInt32}
    (h : port = 0 ∨ ∀ job, jobs.job i = some job → ¬ job.Expects ip port)
    (outbox : List OutMsg) : handleGranted jobs ip port i outbox = (jobs, outbox) := by
  unfold handleGranted
  split
  · rfl
  · rename_i hport
    rw [mark_ignored (h.resolve_left hport)]
    rfl

namespace Stage

variable {job : ElemOwnedJob} {ps : List ResourceToken} {k : Nat}

/-- The address awaited is that of the first token not granted. -/
theorem expects_iff (h : Stage job ps k) {ip : Ip} {port : UInt32} :
    job.Expects ip port ↔ ∃ t, ps[k]? = some t ∧ t.ip = ip ∧ t.port = port := by
  unfold ElemOwnedJob.Expects
  rw [h.next, h.petitions]
  have hle := h.le
  constructor
  · rintro ⟨hpos, p, hp, rfl, rfl, hgranted⟩
    rw [getElem?_stagePetitions] at hp
    obtain ⟨t, ht, rfl⟩ := Option.map_eq_some_iff.mp hp
    have hk : min (k + 1) ps.length - 1 = k := by
      simp only [decide_eq_false_iff_not] at hgranted
      omega
    rw [hk] at ht
    exact ⟨t, ht, rfl, rfl⟩
  · rintro ⟨t, ht, rfl, rfl⟩
    obtain ⟨hlt, _⟩ := List.getElem?_eq_some_iff.mp ht
    have hk : min (k + 1) ps.length - 1 = k := by omega
    refine ⟨by omega, ⟨t.ip, t.port, t.type, t.cant, decide (k < k)⟩, ?_, rfl, rfl, by simp⟩
    rw [hk, getElem?_stagePetitions, ht]
    rfl

theorem notified_of_lt (h : Stage job ps k) (hk : k < ps.length) : job.grantNotified = false := by
  rw [h.notified, decide_eq_false_iff_not]
  omega

/-- The grant of the last petition completes the job. -/
theorem grant_last (h : Stage job ps k) (hk : k + 1 = ps.length) :
    Stage (job.grant k) ps (k + 1) := by
  have hpet : (job.grant k).petitions = stagePetitions ps (k + 1) := by
    rw [← modify_stagePetitions, ← h.petitions]
    rfl
  refine ⟨hpet, ?_, ?_, hk.le⟩
  · show job.nextReserveIdx = _
    rw [h.next]
    omega
  · show (job.grantNotified || (job.grant k).petitions.all fun p => p.isGranted) = _
    rw [hpet, all_stagePetitions, h.notified_of_lt (by omega), Bool.false_or]
    exact decide_eq_decide.mpr (by omega)

/-- The grant of another petition is followed by the next RESERVE. -/
theorem grant_dispatch (h : Stage job ps k) (hk : k + 1 < ps.length) :
    Stage (job.grant k).dispatch ps (k + 1) := by
  have hpet : (job.grant k).petitions = stagePetitions ps (k + 1) := by
    rw [← modify_stagePetitions, ← h.petitions]
    rfl
  have hnext : (job.grant k).nextReserveIdx = k + 1 := by
    show job.nextReserveIdx = _
    rw [h.next]
    omega
  have hlt : (job.grant k).nextReserveIdx < (job.grant k).petitions.length := by
    rw [hnext, hpet, length_stagePetitions]
    exact hk
  rw [ElemOwnedJob.dispatch, if_pos hlt]
  refine ⟨hpet, ?_, ?_, hk.le⟩
  · show (job.grant k).nextReserveIdx + 1 = _
    rw [hnext]
    omega
  · show (job.grantNotified || (job.grant k).petitions.all fun p => p.isGranted) = _
    rw [hpet, all_stagePetitions, h.notified_of_lt (by omega), Bool.false_or]
    exact decide_eq_decide.mpr (by omega)

end Stage

/-- What is sent when petition `k` has been granted: the next RESERVE, or the news that
all are granted. -/
def grantedAnswer (ownerSocket i : UInt32) (ps : List ResourceToken) (k : Nat) : OutMsg :=
  match ps[k + 1]? with
  | none => .toFd ownerSocket (.jobGranted i)
  | some t => reserveMsg i t.petition

theorem handleGranted_accepted {jobs : OwnedJobs} {i : UInt32} {job : ElemOwnedJob}
    {ps : List ResourceToken} {k : Nat} {t : ResourceToken} (hjob : jobs.job i = some job)
    (h : Stage job ps k) (ht : ps[k]? = some t) (hport : t.port ≠ 0) (outbox : List OutMsg) :
    ∃ job', Stage job' ps (k + 1) ∧ job'.ownerSocket = job.ownerSocket ∧
      (∀ j, (handleGranted jobs t.ip t.port i outbox).1.job j =
        if i = j then some job' else jobs.job j) ∧
      (handleGranted jobs t.ip t.port i outbox).2 =
        addToOutbox outbox (grantedAnswer job.ownerSocket i ps k) := by
  obtain ⟨hlt, _⟩ := List.getElem?_eq_some_iff.mp ht
  have hidx : job.nextReserveIdx - 1 = k := by
    rw [h.next]
    omega
  have hmark := mark_accepted hjob (h.expects_iff.mpr ⟨t, ht, rfl, rfl⟩)
  rw [hidx, h.notified_of_lt hlt, Bool.not_false, Bool.true_and] at hmark
  have hupdate : ∀ j, (jobs.update i (ElemOwnedJob.grant k) (ElemOwnedJob.jobId_grant k)).job j =
      if i = j then some (job.grant k) else jobs.job j := by
    intro j
    rw [job_update]
    by_cases hij : i = j
    · subst hij
      rw [if_pos rfl, if_pos rfl, hjob, Option.map_some]
    · rw [if_neg hij, if_neg hij]
  have hself := hupdate i
  rw [if_pos rfl] at hself
  unfold handleGranted
  rw [if_neg hport, hmark]
  dsimp only
  by_cases hk : k + 1 = ps.length
  · have hst := h.grant_last hk
    have hnot : (job.grant k).grantNotified = true := by
      rw [hst.notified]
      exact decide_eq_true (by omega)
    have hnone : ps[k + 1]? = none := List.getElem?_eq_none_iff.mpr hk.ge
    rw [hnot, if_pos rfl, if_pos rfl]
    refine ⟨job.grant k, hst, rfl, hupdate, ?_⟩
    rw [getJobOwnerSocket, hself, grantedAnswer, hnone]
    rfl
  · have hk' : k + 1 < ps.length := by omega
    have hst := h.grant_dispatch hk'
    have hnot : (job.grant k).grantNotified = false := by
      have hd : (job.grant k).dispatch.grantNotified = (job.grant k).grantNotified := by
        unfold ElemOwnedJob.dispatch
        split <;> rfl
      rw [← hd]
      exact hst.notified_of_lt hk'
    rw [hnot, if_neg (by decide), if_pos (by decide)]
    refine ⟨(job.grant k).dispatch, hst, ?_, fun j => ?_, ?_⟩
    · exact ownerSocket_dispatch _
    · rw [job_dispatchNextReserve, hupdate]
      by_cases hij : i = j
      · rw [if_pos hij, if_pos hij, if_pos hij, Option.map_some]
      · rw [if_neg hij, if_neg hij, if_neg hij]
    · have hpet : (job.grant k).petitions = stagePetitions ps (k + 1) := by
        rw [← modify_stagePetitions, ← h.petitions]
        rfl
      have hnext : (job.grant k).nextReserveIdx = k + 1 := by
        show job.nextReserveIdx = _
        rw [h.next]
        omega
      rw [outbox_dispatchNextReserve hself, hpet, hnext, getElem?_stagePetitions, grantedAnswer,
        List.getElem?_eq_getElem hk']
      rfl

end ResourceManager
