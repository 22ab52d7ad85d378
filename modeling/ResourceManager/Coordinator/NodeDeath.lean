import ResourceManager.Coordinator.Collector
import ResourceManager.Coordinator.Departures

/-!
# The jobs that depend on a dead node

The directory reports a dead node once. The iteration that reports it removes the first 20
jobs that depend on it, and no later one looks for the rest: these end only with another
dead node or by timeout. `Trail` is the history of the jobs along a run of the collector:
the batches of the dead nodes in their order, and between them the jobs that time out.
-/

namespace ResourceManager

open Library.Loops

/-! ## The batches of a run -/

/-- The dead nodes, each with the jobs when its turn comes. -/
def deaths : List (Ip × UInt32) → OwnedJobs → List (OwnedJobs × (Ip × UInt32))
  | [], _ => []
  | d :: dead, jobs =>
    (jobs, d) :: deaths dead (jobs.discard maxAffected (ElemOwnedJob.dependsOn d))

/-- The dead nodes of all iterations. -/
def runDeaths (clock : ℕ → Int) (its : List (Iteration NodeData (List OutMsg))) :
    List (OwnedJobs × (Ip × UInt32)) :=
  its.flatMap fun it =>
    deaths (removeInactiveNodes it.before.knownNodes (clock (2 * it.index)) maxDead).2
      it.before.ownedJobs

/-- Every job that a batch leaves behind depends on a node that dies later, or has timed out
at the reading `last`. -/
def BatchesSuffice (last : Int) : List (OwnedJobs × (Ip × UInt32)) → Prop
  | [] => True
  | (jobs, d) :: later =>
    (∀ job ∈ (jobs.datos.filter (ElemOwnedJob.dependsOn d)).drop maxAffected,
      (∃ x ∈ later, job.dependsOn x.2 = true) ∨ job.timedOut last = true) ∧
    BatchesSuffice last later

instance instDecidableBatchesSuffice (last : Int) :
    ∀ ds : List (OwnedJobs × (Ip × UInt32)), Decidable (BatchesSuffice last ds)
  | [] => .isTrue trivial
  | _ :: later => @instDecidableAnd _ _ _ (instDecidableBatchesSuffice last later)

/-- The jobs lead from `jobs` to `jobs'`, through the batches of the listed dead nodes and
removals of expired jobs. -/
inductive Trail (expired : ElemOwnedJob → Prop) :
    OwnedJobs → List (OwnedJobs × (Ip × UInt32)) → OwnedJobs → Prop
  | nil (jobs) : Trail expired jobs [] jobs
  | death {jobs d later jobs'}
      (h : Trail expired (jobs.discard maxAffected (ElemOwnedJob.dependsOn d)) later jobs') :
      Trail expired jobs ((jobs, d) :: later) jobs'
  | timeouts {jobs later jobs'} {ids : List UInt32}
      (hids : ∀ job ∈ jobs.datos, job.jobId ∈ ids → expired job)
      (h : Trail expired (ids.foldl removeOwnedJob jobs) later jobs') :
      Trail expired jobs later jobs'

namespace Trail

variable {expired : ElemOwnedJob → Prop} {jobs jobs₁ jobs' : OwnedJobs}
  {ds ds' : List (OwnedJobs × (Ip × UInt32))}

theorem append (h : Trail expired jobs ds jobs₁) (h' : Trail expired jobs₁ ds' jobs') :
    Trail expired jobs (ds ++ ds') jobs' := by
  induction h with
  | nil => exact h'
  | death _ ih => exact .death (ih h')
  | timeouts hids _ ih => exact .timeouts hids (ih h')

theorem stored (h : Trail expired jobs ds jobs') {job : ElemOwnedJob} (hjob : job ∈ jobs'.datos) :
    job ∈ jobs.datos := by
  induction h with
  | nil => exact hjob
  | death _ ih => exact (mem_discard.mp (ih hjob)).1
  | timeouts _ _ ih =>
    have hrest := ih hjob
    rw [datos_removeAll] at hrest
    exact List.mem_of_mem_filter hrest

/-- A job is removed for one of the two reasons. -/
theorem removed (h : Trail expired jobs ds jobs') {job : ElemOwnedJob} (hjob : job ∈ jobs.datos)
    (hgone : job ∉ jobs'.datos) : (∃ x ∈ ds, job.dependsOn x.2 = true) ∨ expired job := by
  induction h with
  | nil => exact absurd hjob hgone
  | @death jobs d later jobs' _ ih =>
    by_cases hbatch : job ∈ jobs.collect maxAffected (ElemOwnedJob.dependsOn d)
    · exact Or.inl ⟨(jobs, d), List.mem_cons_self, (mem_collect hbatch).2⟩
    · rcases ih (mem_discard.mpr ⟨hjob, hbatch⟩) hgone with ⟨x, hx, hdep⟩ | hexp
      · exact Or.inl ⟨x, List.mem_cons_of_mem _ hx, hdep⟩
      · exact Or.inr hexp
  | @timeouts jobs later jobs' ids hids _ ih =>
    by_cases hid : job.jobId ∈ ids
    · exact Or.inr (hids job hjob hid)
    · refine ih ?_ hgone
      rw [datos_removeAll, List.mem_filter]
      exact ⟨hjob, decide_eq_true hid⟩

/-- What a batch leaves behind of the jobs that depend on its node. -/
theorem mem_drop_of_discard {d : Ip × UInt32} {job : ElemOwnedJob}
    (hdep : job.dependsOn d = true) :
    job ∈ (jobs.datos.filter (ElemOwnedJob.dependsOn d)).drop maxAffected ↔
      job ∈ (jobs.discard maxAffected (ElemOwnedJob.dependsOn d)).datos := by
  rw [mem_discard, Library.BoundedLog.mem_drop_iff (jobs.nodup_datos.filter _), List.mem_filter,
    OwnedJobs.collect]
  tauto

/-- If no expired job is left, the batches are enough. -/
theorem complete {last : Int} (h : Trail expired jobs ds jobs')
    (hlast : ∀ job ∈ jobs'.datos, job.timedOut last = false) (hbatches : BatchesSuffice last ds) :
    ∀ x ∈ ds, ∀ job ∈ jobs'.datos, job.dependsOn x.2 = false := by
  induction h with
  | nil => simp
  | @death jobs d later jobs' hrest ih =>
    have hlater := ih hlast hbatches.2
    refine List.forall_mem_cons.mpr ⟨fun job hjob => ?_, hlater⟩
    by_contra hdep
    have hdep := Bool.eq_true_of_not_eq_false hdep
    rcases hbatches.1 job ((mem_drop_of_discard hdep).mpr (hrest.stored hjob)) with
      ⟨x, hx, hdepx⟩ | hexp
    · rw [hlater x hx job hjob] at hdepx
      cases hdepx
    · rw [hlast job hjob] at hexp
      cases hexp
  | timeouts _ _ ih => exact ih hlast hbatches

/-- The converse, when what expires on the way has expired at the reading `last`. -/
theorem batchesSuffice {last : Int} (h : Trail expired jobs ds jobs')
    (hlast : ∀ job, expired job → job.timedOut last = true)
    (hnone : ∀ x ∈ ds, ∀ job ∈ jobs'.datos, job.dependsOn x.2 = false) :
    BatchesSuffice last ds := by
  induction h with
  | nil => trivial
  | @death jobs d later jobs' hrest ih =>
    obtain ⟨hd, hlater⟩ := List.forall_mem_cons.mp hnone
    refine ⟨fun job hjob => ?_, ih hlater⟩
    have hdep := (List.mem_filter.mp (List.mem_of_mem_drop hjob)).2
    have hgone : job ∉ jobs'.datos := by
      intro hmem
      rw [hd job hmem] at hdep
      cases hdep
    exact (hrest.removed ((mem_drop_of_discard hdep).mp hjob) hgone).imp_right (hlast job)
  | timeouts _ _ ih => exact ih hnone

end Trail

/-! ## The trail of a run -/

theorem trail_deaths (expired : ElemOwnedJob → Prop) : ∀ (dead : List (Ip × UInt32))
    (jobs : OwnedJobs), Trail expired jobs (deaths dead jobs) (discardAffected jobs dead)
  | [], jobs => .nil jobs
  | _ :: dead, _ => .death (trail_deaths expired dead _)

theorem mem_timedOut_ids {jobs : OwnedJobs} {now : Int} {n : ℕ} {job : ElemOwnedJob}
    (hjob : job ∈ jobs.datos) (hid : job.jobId ∈ collectTimedOutJobs jobs now n) :
    job.timedOut now = true := by
  rw [collectTimedOutJobs_eq] at hid
  obtain ⟨job', hjob', he⟩ := List.mem_map.mp hid
  obtain ⟨hstored, hexp⟩ := mem_collect hjob'
  rw [eq_of_jobId hjob hstored he.symm]
  exact hexp

/-- The jobs that wait too long in some iteration. -/
def ExpiredIn (clock : ℕ → Int) (its : List (Iteration NodeData (List OutMsg)))
    (job : ElemOwnedJob) : Prop :=
  ∃ it ∈ its, job.timedOut (clock (2 * it.index + 1)) = true

theorem trail_gcCall (connections : ℕ → Connections) (clock : ℕ → Int) (i : ℕ) (node : NodeData)
    {expired : ElemOwnedJob → Prop}
    (hexp : ∀ job, job.timedOut (clock (2 * i + 1)) = true → expired job) :
    Trail expired node.ownedJobs
      (deaths (removeInactiveNodes node.knownNodes (clock (2 * i)) maxDead).2 node.ownedJobs)
      (gcCall connections clock i node).1.ownedJobs := by
  obtain ⟨done, rest, hids, hjobs, _⟩ := checkDeadnodes_spec (connections i) node (clock (2 * i))
    (clock (2 * i + 1))
  have hdeaths := trail_deaths expired (removeInactiveNodes node.knownNodes (clock (2 * i)) maxDead).2
    node.ownedJobs
  rw [gcCall, hjobs, ← List.append_nil (deaths _ _)]
  refine hdeaths.append (.timeouts (fun job hjob hid => ?_) (.nil _))
  apply hexp
  refine mem_timedOut_ids hjob (n := maxAffected) ?_
  rw [← NodeData.afterDeadNodes, hids]
  exact List.mem_append_left _ hid

section Run

variable {connections : ℕ → Connections} {clock : ℕ → Int} {fuel : ℕ} {node node' : NodeData}
  {its : List (Iteration NodeData (List OutMsg))}

theorem trail_run (h : handleGcTimerExpiration connections clock fuel node = some (node', its)) :
    Trail (ExpiredIn clock its) node.ownedJobs (runDeaths clock its) node'.ownedJobs := by
  suffices hall : ∀ expired : ElemOwnedJob → Prop,
      (∀ it ∈ its, ∀ job, job.timedOut (clock (2 * it.index + 1)) = true → expired job) →
        Trail expired node.ownedJobs (runDeaths clock its) node'.ownedJobs from
    hall _ fun it hit job hexp => ⟨it, hit, hexp⟩
  refine doWhile_induction (P := fun _ s its s' => ∀ expired : ElemOwnedJob → Prop,
    (∀ it ∈ its, ∀ job, job.timedOut (clock (2 * it.index + 1)) = true → expired job) →
      Trail expired s.ownedJobs (runDeaths clock its) s'.ownedJobs)
    (fun i s _ expired hexp => ?_) (fun i s its s' ih expired hexp => ?_) h
  · have hone := trail_gcCall connections clock i s (hexp _ List.mem_cons_self)
    rwa [runDeaths, List.flatMap_singleton]
  · obtain ⟨hhead, htail⟩ := List.forall_mem_cons.mp hexp
    exact (trail_gcCall connections clock i s hhead).append (ih expired htail)

/-- No job is left that depends on a node that has died in the run, and no job is removed
that neither depends on such a node nor has timed out. -/
structure DeathsHandled (clock : ℕ → Int) (node node' : NodeData)
    (its : List (Iteration NodeData (List OutMsg))) : Prop where
  none : ∀ x ∈ runDeaths clock its, ∀ job ∈ node'.ownedJobs.datos, job.dependsOn x.2 = false
  only : ∀ job ∈ node.ownedJobs.datos, job ∉ node'.ownedJobs.datos →
    (∃ x ∈ runDeaths clock its, job.dependsOn x.2 = true) ∨ ExpiredIn clock its job

theorem ElemOwnedJob.timedOut_mono {job : ElemOwnedJob} {now now' : Int} (hle : now ≤ now')
    (h : job.timedOut now = true) : job.timedOut now' = true := by
  simp only [ElemOwnedJob.timedOut, Bool.and_eq_true, decide_eq_true_eq] at h ⊢
  refine ⟨h.1, ?_⟩
  omega

/-- Enough batches handle all deaths of the run; when the clock does not go back, only they
do. -/
theorem deathsHandled_iff (h : handleGcTimerExpiration connections clock fuel node =
    some (node', its)) : ∃ it ∈ its.getLast?,
      (BatchesSuffice (clock (2 * it.index + 1)) (runDeaths clock its) →
        DeathsHandled clock node node' its) ∧
      (Monotone clock → DeathsHandled clock node node' its →
        BatchesSuffice (clock (2 * it.index + 1)) (runDeaths clock its)) := by
  have htrail := trail_run h
  obtain ⟨it, hit, _, hquiet, hmax⟩ := last_quiet h
  refine ⟨it, hit, fun hbatches => ?_, fun hclock hhandled => ?_⟩
  · exact ⟨htrail.complete hquiet hbatches, fun job hjob hgone => htrail.removed hjob hgone⟩
  · refine htrail.batchesSuffice (fun job hexp => ?_) hhandled.none
    obtain ⟨it', hit', hexp⟩ := hexp
    have hle := hmax it' hit'
    exact ElemOwnedJob.timedOut_mono (hclock (by omega)) hexp

end Run

/-! ## Both ways to die -/

/-- No job depends on the node at the other end of the connection, and no job is removed
that neither depends on it nor belongs to the socket. -/
structure DisconnectionHandled (connections : Connections) (node : NodeData)
    (senderIp : Option Ip) (socket : UInt32) (d : Ip × UInt32) : Prop where
  none : ∀ job ∈ (jobsAfterDisconnection connections node senderIp socket).datos,
    job.dependsOn d = false
  only : ∀ job ∈ node.ownedJobs.datos,
    job ∉ (jobsAfterDisconnection connections node senderIp socket).datos →
      job.dependsOn d = true ∨ job.ownerSocket = socket

theorem disconnectionHandled_iff {connections : Connections} {node : NodeData}
    {senderIp : Option Ip} {socket : UInt32} {d : Ip × UInt32}
    (hpeer : closedPeer connections senderIp socket = some d) :
    DisconnectionHandled connections node senderIp socket d ↔
      ((discardOrphans node.ownedJobs socket).datos.filter
        (ElemOwnedJob.dependsOn d)).length ≤ maxAffected := by
  have hjobs : jobsAfterDisconnection connections node senderIp socket =
      (discardOrphans node.ownedJobs socket).discard maxAffected (ElemOwnedJob.dependsOn d) := by
    rw [jobsAfterDisconnection_eq, hpeer]
  rw [← discard_complete_iff, ← hjobs]
  refine ⟨DisconnectionHandled.none, fun hnone => ⟨hnone, fun job hjob hgone => ?_⟩⟩
  by_contra hneither
  obtain ⟨hdep, howner⟩ := not_or.mp hneither
  refine hgone (others_after_disconnection _ _ _ _ hjob howner fun d' hd' => ?_)
  rw [hpeer, Option.mem_some_iff] at hd'
  subst hd'
  exact Bool.eq_false_of_not_eq_true hdep

/-- The jobs of a dead node all end exactly when its batch is large enough: on a
disconnection, when at most 20 of the remaining jobs depend on it; in a run of the
collector, when every job after the first 20 depends on a node that dies later in the run or
has timed out at its last reading. -/
theorem node_death_iff (node : NodeData) :
    (∀ connections senderIp socket d, closedPeer connections senderIp socket = some d →
      (DisconnectionHandled connections node senderIp socket d ↔
        ((discardOrphans node.ownedJobs socket).datos.filter
          (ElemOwnedJob.dependsOn d)).length ≤ maxAffected)) ∧
    ∀ connections clock fuel node' its,
      handleGcTimerExpiration connections clock fuel node = some (node', its) →
        ∃ it ∈ its.getLast?,
          (BatchesSuffice (clock (2 * it.index + 1)) (runDeaths clock its) →
            DeathsHandled clock node node' its) ∧
          (Monotone clock → DeathsHandled clock node node' its →
            BatchesSuffice (clock (2 * it.index + 1)) (runDeaths clock its)) :=
  ⟨fun _ _ _ _ hpeer => disconnectionHandled_iff hpeer, fun _ _ _ _ _ h => deathsHandled_iff h⟩

/-- The node has announced itself at the time 0, and `n` jobs depend on it. -/
def dependents (n : ℕ) : NodeData :=
  agentRun ⟨createLocalNode 0 0 0, createKnownNodes, createOwnedJobs⟩
    (.announced 0 remoteIp 8000 1 0 0 ::
      (List.range n).map fun i =>
        .jobRequest 0 7 (UInt32.ofNat i) [⟨remoteIp, 8000, .cpu, 1⟩])

/-- The node expires: of 20 jobs none is left. -/
theorem node_death_iff_twentyJobs : ∃ node' its,
    handleGcTimerExpiration (fun _ => oneConnection) (fun _ => 16) 3 (dependents 20) =
        some (node', its) ∧
      (runDeaths (fun _ => 16) its).map Prod.snd = [(remoteIp, 8000)] ∧
      (dependents 20).ownedJobs.datos.length = 20 ∧ node'.ownedJobs.datos.length = 0 ∧
      DeathsHandled (fun _ => 16) (dependents 20) node' its := by
  have hrun : (handleGcTimerExpiration (fun _ => oneConnection) (fun _ => 16) 3
      (dependents 20)).any (fun r => decide ((runDeaths (fun _ => 16) r.2).map Prod.snd =
          [(remoteIp, 8000)] ∧ r.1.ownedJobs.datos.length = 0 ∧
        BatchesSuffice 16 (runDeaths (fun _ => 16) r.2))) = true := by
    decide +kernel
  obtain ⟨⟨node', its⟩, hsome, hall⟩ := (Option.any_eq_true _ _).mp hrun
  obtain ⟨hdeaths, hnone, hbatches⟩ := of_decide_eq_true hall
  obtain ⟨it, _, henough, _⟩ := (node_death_iff (dependents 20)).2 _ _ _ _ _ hsome
  exact ⟨node', its, hsome, hdeaths, by decide +kernel, hnone, henough hbatches⟩

/-- The node expires: the collector ends with one of the 21 jobs left. -/
theorem node_death_leaves_job : ¬ ∀ (connections : ℕ → Connections) (clock : ℕ → Int) (fuel : ℕ)
    (es : List AgentEvent) (node' : NodeData) (its : List (Iteration NodeData (List OutMsg))),
    handleGcTimerExpiration connections clock fuel
        (agentRun ⟨createLocalNode 0 0 0, createKnownNodes, createOwnedJobs⟩ es) =
      some (node', its) →
    DeathsHandled clock (agentRun ⟨createLocalNode 0 0 0, createKnownNodes, createOwnedJobs⟩ es)
      node' its := by
  intro h
  have hrun : (handleGcTimerExpiration (fun _ => oneConnection) (fun _ => 16) 3
      (dependents 21)).any (fun r => r.1.ownedJobs.datos.any fun job =>
        (runDeaths (fun _ => 16) r.2).any fun x => job.dependsOn x.2) = true := by
    decide +kernel
  obtain ⟨⟨node', its⟩, hsome, hany⟩ := (Option.any_eq_true _ _).mp hrun
  obtain ⟨job, hjob, hany⟩ := List.any_eq_true.mp hany
  obtain ⟨x, hx, hdep⟩ := List.any_eq_true.mp hany
  rw [(h _ _ _ _ _ _ hsome).none x hx job hjob] at hdep
  cases hdep

end ResourceManager
