import ResourceManager.Coordinator.Rollback

/-!
# A second registration of a job

The ids of the jobs are unique for one scheduler, and several schedulers may be connected.
A JOB_REQUEST with an id that is stored replaces the record and sends nothing for the old
one. The old job survives exactly when the new request is the same one, comes from the same
client and finds nothing granted (`request_keeps_jobs_iff`).
-/

namespace ResourceManager

open HashTable Library.Runs

/-- The job is stored with its owner and its petitions. -/
def Kept (jobs : OwnedJobs) (job : ElemOwnedJob) : Prop :=
  ∃ job', jobs.job job.jobId = some job' ∧ job'.ownerSocket = job.ownerSocket ∧
    job'.petitions = job.petitions

/-- What the job holds is released, and its owner is told that it has ended. -/
def EndedBy (outbox : List OutMsg) (job : ElemOwnedJob) : Prop :=
  (∀ p ∈ job.petitions, p.isGranted = true → releaseMsg job.jobId p ∈ outbox) ∧
    (.toFd job.ownerSocket (.jobDenied job.jobId) ∈ outbox ∨
      .toFd job.ownerSocket (.jobTimeout job.jobId) ∈ outbox)

/-- No job of `node` disappears silently on the event. -/
def NoneDestroyed (node : NodeData) (e : AgentEvent) : Prop :=
  ∀ job ∈ node.ownedJobs.datos,
    Kept (resourceAdapterPatch node e).1.ownedJobs job ∨ EndedBy (resourceAdapterPatch node e).2 job

/-- The request repeats the one that is stored under its id. -/
def Repeats (node : NodeData) (socket jobId : UInt32) (tokens : List ResourceToken) : Prop :=
  ∀ job ∈ node.ownedJobs.job jobId, job.ownerSocket = socket ∧
    job.petitions = (tokens.take maxJobResources).map ResourceToken.petition

/-- A registration sends at most a RESERVE. -/
theorem mem_outbox_handleJobRequest {jobs : OwnedJobs} {now : Int} {socket i : UInt32}
    {tokens : List ResourceToken} {m : OutMsg}
    (h : m ∈ (handleJobRequest jobs now socket i tokens []).2) :
    ∃ t ∈ tokens, m = reserveMsg i t.petition := by
  rw [outbox_handleJobRequest] at h
  cases tokens with
  | nil => cases h
  | cons t tokens =>
    dsimp only at h
    rw [addToOutbox_nil, List.mem_singleton] at h
    exact ⟨t, List.mem_cons_self, h⟩

theorem not_endedBy_handleJobRequest (jobs : OwnedJobs) (now : Int) (socket i : UInt32)
    (tokens : List ResourceToken) (job : ElemOwnedJob) :
    ¬ EndedBy (handleJobRequest jobs now socket i tokens []).2 job := by
  rintro ⟨_, hnotice | hnotice⟩
  · obtain ⟨t, _, he⟩ := mem_outbox_handleJobRequest hnotice
    exact Message.noConfusion (congrArg OutMsg.message he)
  · obtain ⟨t, _, he⟩ := mem_outbox_handleJobRequest hnotice
    exact Message.noConfusion (congrArg OutMsg.message he)

theorem noneDestroyed_iff (node : NodeData) (now : Int) (socket jobId : UInt32)
    (tokens : List ResourceToken) :
    NoneDestroyed node (.jobRequest now socket jobId tokens) ↔
      Repeats node socket jobId tokens := by
  have hjobs : ∀ i, (resourceAdapterPatch node
      (.jobRequest now socket jobId tokens)).1.ownedJobs.job i =
        if jobId = i then some (newJob now socket jobId tokens).dispatch
        else node.ownedJobs.job i := fun i =>
    job_handleJobRequest node.ownedJobs now socket jobId i tokens []
  constructor
  · intro h job hjob
    obtain ⟨hstored, rfl⟩ := job_eq_some.mp hjob
    rcases h job hstored with ⟨job', hjob', howner, hpet⟩ | hended
    · rw [hjobs, if_pos rfl, Option.some.injEq] at hjob'
      rw [← howner, ← hpet, ← hjob', ownerSocket_dispatch, petitions_dispatch]
      exact ⟨rfl, rfl⟩
    · exact absurd hended (not_endedBy_handleJobRequest node.ownedJobs now socket job.jobId tokens job)
  · intro h job hstored
    have hjob := job_eq_some.mpr ⟨hstored, rfl⟩
    left
    unfold Kept
    rw [hjobs]
    by_cases hi : jobId = job.jobId
    · obtain ⟨howner, hpet⟩ := h job (hi ▸ hjob)
      rw [if_pos hi, howner, hpet]
      exact ⟨_, rfl, ownerSocket_dispatch _, petitions_dispatch _⟩
    · rw [if_neg hi]
      exact ⟨job, hjob, rfl, rfl⟩

/-- In every reachable state, a JOB_REQUEST destroys no job exactly when it repeats the
request that is stored under its id, if there is one. -/
theorem request_keeps_jobs_iff (inventory : LocalNode) (knownNodes : KnownNodes)
    (es : List AgentEvent) (now : Int) (socket jobId : UInt32) (tokens : List ResourceToken) :
    NoneDestroyed (agentRun ⟨inventory, knownNodes, createOwnedJobs⟩ es)
        (.jobRequest now socket jobId tokens) ↔
      Repeats (agentRun ⟨inventory, knownNodes, createOwnedJobs⟩ es) socket jobId tokens :=
  noneDestroyed_iff _ now socket jobId tokens

/-- The client on descriptor 7 holds four cpus of the remote node under the id 1, and the
client on descriptor 8 uses the same id. -/
theorem request_destroys_job : ¬ ∀ (inventory : LocalNode) (knownNodes : KnownNodes)
    (es : List AgentEvent) (now : Int) (socket jobId : UInt32) (tokens : List ResourceToken),
    NoneDestroyed (agentRun ⟨inventory, knownNodes, createOwnedJobs⟩ es)
      (.jobRequest now socket jobId tokens) := by
  intro h
  have hnone := h (createLocalNode 0 0 0) createKnownNodes
    [.jobRequest 0 7 1 [⟨remoteIp, 8000, .cpu, 4⟩], .granted oneConnection remoteIp 9 1] 1 8 1 []
  rw [noneDestroyed_iff] at hnone
  have hjob : ∃ job, (agentRun ⟨createLocalNode 0 0 0, createKnownNodes, createOwnedJobs⟩
      [.jobRequest 0 7 1 [⟨remoteIp, 8000, .cpu, 4⟩],
        .granted oneConnection remoteIp 9 1]).ownedJobs.job 1 = some job ∧
      job.ownerSocket = 7 := ⟨_, rfl, by decide +kernel⟩
  obtain ⟨job, hjob, howner⟩ := hjob
  exact absurd (howner.symm.trans (hnone job hjob).1) (by decide)

end ResourceManager
