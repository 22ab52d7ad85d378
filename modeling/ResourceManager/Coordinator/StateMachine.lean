import ResourceManager.Coordinator.Stage
import ResourceManager.Inventory.Events

/-!
# The state machine of a job

`Watch` follows one job id `j` through a run of the agent: the tokens of its last
JOB_REQUEST and what has been seen of the job since then, namely the RESERVEs, the accepted
GRANTEDs, JOB_GRANTED and JOB_TIMEOUT. What is seen is `progress ps k`, the first `k`
rounds of RESERVE and GRANTED over the stored tokens `ps`, possibly followed by one
JOB_TIMEOUT if the job was not complete (`coordinator_state_machine`).
-/

namespace ResourceManager

open HashTable Library.Runs

/-! ## What is seen of a job -/

inductive JobObs where
  | reserve (ip : Ip) (port : UInt32) (type : Resource) (cant : UInt32)
  | accepted (ip : Ip) (port : UInt32)
  | jobGranted
  | jobTimeout
deriving DecidableEq

/-- What a message says about the job `j`. -/
def observe (j : UInt32) (m : OutMsg) : Option JobObs :=
  match m.message with
  | .reserve i type cant =>
    if i = j then m.targetIp.map fun ip => .reserve ip m.targetPort type cant else none
  | .jobGranted i => if i = j then some .jobGranted else none
  | .jobTimeout i => if i = j then some .jobTimeout else none
  | _ => none

/-- The GRANTED that the event accepts for the job `j`. -/
def acceptedBy (j : UInt32) (node : NodeData) : AgentEvent → List JobObs
  | .granted connections senderIp socket i =>
    let senderPort := getConnectionPort connections socket.toInt32
    if i = j ∧ senderPort ≠ 0 ∧
        (markPetitionAsGranted node.ownedJobs i senderIp senderPort).2 ≠ -1 then
      [.accepted senderIp senderPort]
    else []
  | _ => []

/-- A run seen from the job `j`. -/
structure Watch where
  node : NodeData
  request : List ResourceToken
  seen : List JobObs

def watchStep (j : UInt32) (w : Watch) (e : AgentEvent) : Watch :=
  let (node, outbox) := resourceAdapterPatch w.node e
  let seen := acceptedBy j w.node e ++ outbox.filterMap (observe j)
  match e with
  | .jobRequest _ _ i tokens =>
    if i = j then ⟨node, tokens, seen⟩ else ⟨node, w.request, w.seen ++ seen⟩
  | _ => ⟨node, w.request, w.seen ++ seen⟩

/-- The message after the acceptance of petition `k`. -/
def answerObs (ps : List ResourceToken) (k : Nat) : JobObs :=
  match ps[k + 1]? with
  | none => .jobGranted
  | some t => .reserve t.ip t.port t.type t.cant

/-- What is seen up to the acceptance of `k` petitions. -/
def progress (ps : List ResourceToken) : Nat → List JobObs
  | 0 => (ps.head?.map fun t => .reserve t.ip t.port t.type t.cant).toList
  | k + 1 =>
    match ps[k]? with
    | none => progress ps k
    | some t => progress ps k ++ [.accepted t.ip t.port, answerObs ps k]

/-! ## Unseen messages -/

theorem filterMap_addToOutbox {j : UInt32} {m : OutMsg} (h : observe j m = none)
    (outbox : List OutMsg) :
    (addToOutbox outbox m).filterMap (observe j) = outbox.filterMap (observe j) := by
  unfold addToOutbox
  split
  · rfl
  · simp [h]

theorem filterMap_foldl_addToOutbox {j : UInt32} {ms : List OutMsg}
    (h : ∀ m ∈ ms, observe j m = none) : ∀ outbox : List OutMsg,
      (ms.foldl addToOutbox outbox).filterMap (observe j) = outbox.filterMap (observe j) := by
  induction ms with
  | nil => exact fun _ => rfl
  | cons m ms ih =>
    intro outbox
    rw [List.foldl_cons, ih fun m hm => h m (List.mem_cons_of_mem _ hm),
      filterMap_addToOutbox (h m List.mem_cons_self)]

theorem observe_reserveMsg (i j : UInt32) (p : JobPetition) : observe j (reserveMsg i p) =
    if i = j then some (.reserve p.ip p.port p.type p.quantity) else none := rfl

/-- RELEASE and JOB_DENIED are not among what is seen. -/
theorem observe_rollbackMsgs {dead : JobPetition → Bool} {notice : Option (UInt32 → Message)}
    (hnotice : notice = none ∨ notice = some .jobDenied) (jobs : OwnedJobs) (i j : UInt32) :
    ∀ m ∈ rollbackMsgs dead notice jobs i, observe j m = none := by
  intro m hm
  rcases List.mem_append.mp hm with hm | hm
  · obtain ⟨p, _, rfl⟩ := List.mem_map.mp hm
    rfl
  · rcases hnotice with rfl | rfl
    · cases hm
    · rw [Option.toList_some, List.map_singleton, List.mem_singleton] at hm
      subst hm
      rfl

/-! ## The effect of an event on one job -/

/-- What an event other than the registration of the job does to its record, and what is
seen of it. The record before the event is at stage `k`. -/
inductive Effect (ps : List ResourceToken) (k : Nat) :
    Option ElemOwnedJob → Option ElemOwnedJob → List JobObs → Prop
  | kept (job) : Effect ps k job job []
  | dropped (job) : Effect ps k job none []
  | timedOut {job} (h : job.grantNotified = false) : Effect ps k (some job) none [.jobTimeout]
  | accepted {job job' t} (ht : ps[k]? = some t) (h : Stage job' ps (k + 1)) :
      Effect ps k (some job) (some job') [.accepted t.ip t.port, answerObs ps k]

section Effects

variable {jobs : OwnedJobs} {ps : List ResourceToken} {k : Nat} (j : UInt32)

theorem effect_rollbacks (dead : JobPetition → Bool) {notice : Option (UInt32 → Message)}
    (hnotice : notice = none ∨ notice = some .jobDenied) (ids : List UInt32) :
    ∀ state : OwnedJobs × List OutMsg,
      ((ids.foldl (rollback dead notice) state).1.job j = state.1.job j ∨
        (ids.foldl (rollback dead notice) state).1.job j = none) ∧
      (ids.foldl (rollback dead notice) state).2.filterMap (observe j) =
        state.2.filterMap (observe j) := by
  induction ids with
  | nil => exact fun _ => ⟨Or.inl rfl, rfl⟩
  | cons i ids ih =>
    intro state
    obtain ⟨hjob, hseen⟩ := ih (rollback dead notice state i)
    rw [List.foldl_cons]
    constructor
    · rcases hjob with hjob | hjob
      · rw [hjob, job_rollback]
        by_cases hij : i = j
        · exact Or.inr (if_pos hij)
        · exact Or.inl (if_neg hij)
      · exact Or.inr hjob
    · rw [hseen, outbox_rollback,
        filterMap_foldl_addToOutbox (observe_rollbackMsgs hnotice state.1 i j)]

/-- A rollback for which there is room adds all its messages. -/
theorem filterMap_timeout (i : UInt32) : (rollbackMsgs (fun _ => false) (some .jobTimeout) jobs
    i).filterMap (observe j) = if i = j then [.jobTimeout] else [] := by
  have hrel : ∀ m ∈ ((getGrantedResources jobs i maxJobResources).filter fun _ => !false).map
      (releaseMsg i), observe j m = none := by
    intro m hm
    obtain ⟨p, _, rfl⟩ := List.mem_map.mp hm
    rfl
  rw [rollbackMsgs, List.filterMap_append, List.filterMap_eq_nil_iff.mpr hrel]
  by_cases hij : i = j <;> simp [observe, OutMsg.toFd, hij]

/-- The loop over the jobs that have timed out removes some of them, and each of these is
told so once. -/
theorem effect_timeoutLoop : ∀ (ids : List UInt32) (state : OwnedJobs × List OutMsg),
    ids.Nodup →
      ((timeoutLoop ids state).1.job j = state.1.job j ∧
        (timeoutLoop ids state).2.filterMap (observe j) = state.2.filterMap (observe j)) ∨
      (j ∈ ids ∧ (timeoutLoop ids state).1.job j = none ∧
        (timeoutLoop ids state).2.filterMap (observe j) =
          state.2.filterMap (observe j) ++ [.jobTimeout])
  | [], _, _ => Or.inl ⟨rfl, rfl⟩
  | i :: ids, state, hnd => by
    obtain ⟨hi, hnd⟩ := List.nodup_cons.mp hnd
    rw [timeoutLoop]
    split
    · exact Or.inl ⟨rfl, rfl⟩
    · rename_i hroom
      have hjob := job_rollback (fun _ => false) (some .jobTimeout) state i j
      have hout := outbox_rollback_of_room (some .jobTimeout) state i
        (by omega)
      have hseen := congrArg (List.filterMap (observe j)) hout
      rw [List.filterMap_append, filterMap_timeout] at hseen
      rcases effect_timeoutLoop ids (rollback (fun _ => false) (some .jobTimeout) state i) hnd
        with ⟨hkept, hkseen⟩ | ⟨hmem, hgone, hgseen⟩
      · rw [hkept, hkseen, hjob, hseen]
        by_cases hij : i = j
        · rw [if_pos hij, if_pos hij]
          exact Or.inr ⟨hij ▸ List.mem_cons_self, rfl, rfl⟩
        · rw [if_neg hij, if_neg hij, List.append_nil]
          exact Or.inl ⟨rfl, rfl⟩
      · have hij : i ≠ j := fun he => hi (he ▸ hmem)
        rw [hseen, if_neg hij, List.append_nil] at hgseen
        exact Or.inr ⟨List.mem_cons_of_mem _ hmem, hgone, hgseen⟩

theorem effect_deadNodes (connections : Connections) (dead : List (Ip × UInt32)) :
    ∀ state : LocalNode × OwnedJobs × List OutMsg,
      ((dead.foldl (cleanDeadNode connections) state).2.1.job j = state.2.1.job j ∨
        (dead.foldl (cleanDeadNode connections) state).2.1.job j = none) ∧
      (dead.foldl (cleanDeadNode connections) state).2.2.filterMap (observe j) =
        state.2.2.filterMap (observe j) := by
  induction dead with
  | nil => exact fun _ => ⟨Or.inl rfl, rfl⟩
  | cons d dead ih =>
    intro state
    obtain ⟨hjob, hseen⟩ := ih (cleanDeadNode connections state d)
    obtain ⟨hone, honeseen⟩ := effect_rollbacks j (fun _ => false) (Or.inr rfl)
      (getJobsAffectedByDeadNode state.2.1 d.1 d.2 maxAffected) (state.2.1, state.2.2)
    rw [List.foldl_cons]
    refine ⟨?_, hseen.trans honeseen⟩
    rcases hjob with hjob | hjob
    · rw [hjob]
      exact hone
    · exact Or.inr hjob

end Effects

theorem observe_handleReserve (s : LocalNode) (k i : UInt32) (type : Option Resource)
    (q j : UInt32) : (handleReserve s k i type q []).2.filterMap (observe j) = [] := by
  have h := reserved_handleReserve s k i type q []
  generalize handleReserve s k i type q [] = res at h
  cases h <;> rfl

theorem observe_handleRelease (s : LocalNode) (rand : Nat → Nat) (k i j : UInt32) :
    (handleRelease s rand k i []).2.filterMap (observe j) = [] := by
  obtain ⟨gs, s', hrun, _⟩ := LocalNode.handleRelease_spec s rand k i []
  rw [hrun]
  refine filterMap_foldl_addToOutbox (fun m hm => ?_) []
  obtain ⟨r, _, rfl⟩ := List.mem_map.mp hm
  rfl

/-- The job is registered anew by the event. -/
def Registers (j : UInt32) : AgentEvent → Prop
  | .jobRequest _ _ i _ => i = j
  | _ => False

theorem Effect.of_kept_or_none {ps : List ResourceToken} {k : Nat}
    {job job' : Option ElemOwnedJob} (h : job' = job ∨ job' = none) : Effect ps k job job' [] := by
  rcases h with rfl | rfl
  · exact .kept _
  · exact .dropped _

/-- A GRANTED for another job. -/
theorem handleGranted_of_ne {i j : UInt32} (hij : i ≠ j) (jobs : OwnedJobs) (ip : Ip)
    (port : UInt32) : (handleGranted jobs ip port i []).1.job j = jobs.job j ∧
      (handleGranted jobs ip port i []).2.filterMap (observe j) = [] := by
  have hmark : (markPetitionAsGranted jobs i ip port).1.job j = jobs.job j := by
    by_cases hexp : ∃ job, jobs.job i = some job ∧ job.Expects ip port
    · obtain ⟨job, hjob, hexp⟩ := hexp
      rw [mark_accepted hjob hexp, job_update, if_neg hij]
    · rw [mark_ignored fun job hjob hx => hexp ⟨job, hjob, hx⟩]
  have hnext : ∀ jobs : OwnedJobs, (dispatchNextReserve jobs i []).2.filterMap (observe j) = [] := by
    intro jobs
    cases hjob : jobs.job i with
    | none =>
      unfold dispatchNextReserve getNextReserve
      rw [hjob]
      rfl
    | some job =>
      rw [outbox_dispatchNextReserve hjob]
      split
      · rfl
      · rw [filterMap_addToOutbox]
        · rfl
        · rw [observe_reserveMsg, if_neg hij]
  unfold handleGranted
  generalize markPetitionAsGranted jobs i ip port = res at hmark
  obtain ⟨jobs', grantResult⟩ := res
  by_cases hport : port = 0
  · rw [if_pos hport]
    exact ⟨rfl, rfl⟩
  rw [if_neg hport]
  dsimp only
  by_cases hone : grantResult = 1
  · rw [if_pos hone]
    refine ⟨hmark, ?_⟩
    rw [filterMap_addToOutbox]
    · rfl
    · simp [observe, OutMsg.toFd, hij]
  · rw [if_neg hone]
    split
    · rw [job_dispatchNextReserve, if_neg hij]
      exact ⟨hmark, hnext _⟩
    · exact ⟨hmark, rfl⟩

theorem observe_grantedAnswer (owner j : UInt32) (ps : List ResourceToken) (k : Nat) :
    observe j (grantedAnswer owner j ps k) = some (answerObs ps k) := by
  unfold grantedAnswer answerObs
  cases ps[k + 1]? with
  | none => simp [observe, OutMsg.toFd]
  | some t =>
    dsimp only
    rw [observe_reserveMsg, if_pos rfl]
    rfl

theorem effect_granted {node : NodeData} {ps : List ResourceToken} {k : Nat} {j : UInt32}
    (hst : ∀ job, node.ownedJobs.job j = some job → Stage job ps k) (connections : Connections)
    (ip : Ip) (socket i : UInt32) :
    Effect ps k (node.ownedJobs.job j)
      ((resourceAdapterPatch node (.granted connections ip socket i)).1.ownedJobs.job j)
      (acceptedBy j node (.granted connections ip socket i) ++
        (resourceAdapterPatch node (.granted connections ip socket i)).2.filterMap
          (observe j)) := by
  unfold acceptedBy resourceAdapterPatch
  dsimp only
  generalize getConnectionPort connections socket.toInt32 = port
  by_cases hij : i = j
  · subst hij
    by_cases hexp : port ≠ 0 ∧ ∃ job, node.ownedJobs.job i = some job ∧ job.Expects ip port
    · obtain ⟨hport, job, hjob, hexp⟩ := hexp
      have hmark := congrArg Prod.snd (mark_accepted hjob hexp)
      obtain ⟨t, ht, rfl, rfl⟩ := (hst job hjob).expects_iff.mp hexp
      obtain ⟨job', hst', _, hjob', hout⟩ := handleGranted_accepted hjob (hst job hjob) ht hport []
      have hne : (markPetitionAsGranted node.ownedJobs i t.ip t.port).2 ≠ -1 := by
        rw [hmark]
        dsimp only
        split <;> decide
      rw [if_pos ⟨rfl, hport, hne⟩, hjob', if_pos rfl, hjob, hout, addToOutbox_nil,
        List.filterMap_cons, observe_grantedAnswer]
      exact .accepted ht hst'
    · have hign : port = 0 ∨ ∀ job, node.ownedJobs.job i = some job → ¬ job.Expects ip port := by
        by_contra hno
        push Not at hno
        exact hexp hno
      rw [handleGranted_ignored hign, if_neg]
      · exact .kept _
      · rintro ⟨_, hport, hmark⟩
        exact hmark (congrArg Prod.snd (mark_ignored (hign.resolve_left hport)))
  · obtain ⟨hjob, hseen⟩ := handleGranted_of_ne hij node.ownedJobs ip port
    rw [if_neg fun h => hij h.1, hjob, hseen]
    exact .kept _

theorem effect_disconnected (node : NodeData) (ps : List ResourceToken) (k : Nat) (j : UInt32)
    (connections : Connections) (ip : Option Ip) (socket : UInt32) :
    Effect ps k (node.ownedJobs.job j)
      ((resourceAdapterPatch node (.disconnected connections ip socket)).1.ownedJobs.job j)
      ((resourceAdapterPatch node (.disconnected connections ip socket)).2.filterMap
        (observe j)) := by
  obtain ⟨hjob, hseen⟩ := effect_rollbacks j (fun _ => false) (Or.inl rfl)
    (getJobsByOwnerSocket node.ownedJobs socket maxOrphans) (node.ownedJobs, [])
  show Effect ps k _ ((actionDisconnected connections node ip socket []).1.ownedJobs.job j)
    ((actionDisconnected connections node ip socket []).2.filterMap (observe j))
  unfold actionDisconnected
  dsimp only
  generalize (getJobsByOwnerSocket node.ownedJobs socket maxOrphans).foldl
    (rollback (fun _ => false) none) (node.ownedJobs, []) = mid at hjob hseen
  obtain ⟨jobs, outbox⟩ := mid
  cases closedPeer connections ip socket with
  | none => exact hseen ▸ .of_kept_or_none hjob
  | some peer =>
    obtain ⟨hjob', hseen'⟩ := effect_rollbacks j
      (fun p => decide (p.ip = peer.1 ∧ p.port = peer.2)) (Or.inr rfl)
      (getJobsAffectedByDeadNode jobs peer.1 peer.2 maxAffected) (jobs, outbox)
    dsimp only
    rw [hseen', hseen]
    refine .of_kept_or_none ?_
    rcases hjob' with hjob' | hjob'
    · rw [hjob']
      exact hjob
    · exact Or.inr hjob'

theorem effect_checkDeadnodes (node : NodeData) (ps : List ResourceToken) (k : Nat) (j : UInt32)
    (connections : Connections) (now now' : Int) :
    Effect ps k (node.ownedJobs.job j)
      ((resourceAdapterPatch node (.checkDeadnodes connections now now')).1.ownedJobs.job j)
      ((resourceAdapterPatch node (.checkDeadnodes connections now now')).2.filterMap
        (observe j)) := by
  obtain ⟨hjob, hseen⟩ := effect_deadNodes j connections
    (removeInactiveNodes node.knownNodes now maxDead).2 (node.inventory, node.ownedJobs, [])
  show Effect ps k _ ((handleCheckDeadnodes connections node now now' []).1.ownedJobs.job j)
    ((handleCheckDeadnodes connections node now now' []).2.filterMap (observe j))
  unfold handleCheckDeadnodes
  dsimp only
  generalize (removeInactiveNodes node.knownNodes now maxDead).2.foldl
    (cleanDeadNode connections) (node.inventory, node.ownedJobs, []) = mid at hjob hseen
  obtain ⟨inventory, jobs, outbox⟩ := mid
  dsimp only at hjob hseen ⊢
  rcases effect_timeoutLoop j (collectTimedOutJobs jobs now' maxAffected) (jobs, outbox)
    (timedOut_nodup _ _ _) with ⟨hkept, hkseen⟩ | ⟨hmem, hgone, hgseen⟩
  · rw [hkept, hkseen, hseen]
    exact .of_kept_or_none hjob
  · obtain ⟨job, hfound, hopen⟩ := mem_timedOut hmem
    have hsame : node.ownedJobs.job j = some job := by
      rcases hjob with hjob | hjob
      · rw [← hjob]
        exact hfound
      · rw [hjob] at hfound
        cases hfound
    rw [hgone, hgseen, hseen, hsame]
    exact .timedOut hopen

/-- The effect of an event on a job that it does not register. -/
theorem effect_resourceAdapterPatch {node : NodeData} (ps : List ResourceToken) (k : Nat)
    {j : UInt32} (hst : ∀ job, node.ownedJobs.job j = some job → Stage job ps k)
    (e : AgentEvent) (hreg : ¬ Registers j e) :
    Effect ps k (node.ownedJobs.job j) ((resourceAdapterPatch node e).1.ownedJobs.job j)
      (acceptedBy j node e ++ (resourceAdapterPatch node e).2.filterMap (observe j)) := by
  cases e with
  | announced now ip port cpu ram gpu =>
    unfold resourceAdapterPatch
    dsimp only
    split <;> exact .kept _
  | jobRequest now socket i tokens =>
    have hij : i ≠ j := hreg
    have hjob := job_handleJobRequest node.ownedJobs now socket i j tokens []
    have hout := outbox_handleJobRequest node.ownedJobs now socket i tokens []
    show Effect ps k _ ((handleJobRequest node.ownedJobs now socket i tokens []).1.job j)
      ([] ++ (handleJobRequest node.ownedJobs now socket i tokens []).2.filterMap (observe j))
    rw [hjob, if_neg hij, hout, List.nil_append]
    cases tokens with
    | nil => exact .kept _
    | cons t tokens =>
      dsimp only
      rw [filterMap_addToOutbox (by rw [observe_reserveMsg, if_neg hij])]
      exact .kept _
  | reserve k' i type q =>
    rw [resourceAdapterPatch_reserve]
    dsimp only [acceptedBy]
    rw [List.nil_append, observe_handleReserve]
    exact .kept _
  | granted connections ip socket i => exact effect_granted hst connections ip socket i
  | denied i =>
    obtain ⟨hjob, hseen⟩ := effect_rollbacks j (fun _ => false) (Or.inr rfl) [i]
      (node.ownedJobs, [])
    show Effect ps k _ _ ([] ++ _)
    rw [List.nil_append]
    exact hseen ▸ .of_kept_or_none hjob
  | release k' i rand =>
    rw [resourceAdapterPatch_release]
    dsimp only [acceptedBy]
    rw [List.nil_append, observe_handleRelease]
    exact .kept _
  | jobRelease i =>
    obtain ⟨hjob, hseen⟩ := effect_rollbacks j (fun _ => false) (Or.inl rfl) [i]
      (node.ownedJobs, [])
    show Effect ps k _ _ ([] ++ _)
    rw [List.nil_append]
    exact hseen ▸ .of_kept_or_none hjob
  | disconnected connections ip socket => exact effect_disconnected node ps k j connections ip socket
  | checkDeadnodes connections now now' =>
    exact effect_checkDeadnodes node ps k j connections now now'

/-! ## Rounds -/

theorem progress_succ {ps : List ResourceToken} {k : Nat} {t : ResourceToken}
    (h : ps[k]? = some t) :
    progress ps (k + 1) = progress ps k ++ [.accepted t.ip t.port, answerObs ps k] := by
  rw [progress, h]

theorem count_progress (ps : List ResourceToken) : ∀ k ≤ ps.length,
    (progress ps k).count .jobGranted = if 0 < ps.length ∧ k = ps.length then 1 else 0
  | 0, _ => by
    rw [if_neg (by omega)]
    cases ps <;> rfl
  | k + 1, hk => by
    have ih := count_progress ps k (by omega)
    rw [if_neg (by omega)] at ih
    rw [progress_succ (List.getElem?_eq_getElem (by omega)), List.count_append, ih, Nat.zero_add]
    by_cases hlast : k + 1 = ps.length
    · rw [if_pos ⟨by omega, hlast⟩, answerObs, List.getElem?_eq_none_iff.mpr hlast.ge]
      rfl
    · rw [if_neg (by omega), answerObs, List.getElem?_eq_getElem (by omega)]
      rfl

theorem timeout_notMem_progress (ps : List ResourceToken) : ∀ k, .jobTimeout ∉ progress ps k
  | 0 => by cases ps <;> simp [progress]
  | k + 1 => by
    have ih := timeout_notMem_progress ps k
    rw [progress]
    split
    · exact ih
    · rename_i t _
      have ha : .jobTimeout ≠ answerObs ps k := by
        unfold answerObs
        split <;> exact fun h => nomatch h
      simp [ih, ha]

/-! ## The invariant -/

/-- The bits and the index of a record agree. -/
structure JobOk (job : ElemOwnedJob) : Prop where
  next_le : job.nextReserveIdx ≤ job.petitions.length
  count_le : job.petitions.length ≤ maxJobResources
  pending : job.grantNotified = false → ∀ i p, job.petitions[i]? = some p →
    (p.isGranted = true ↔ i + 1 < job.nextReserveIdx)
  complete : job.grantNotified = true → 1 ≤ job.petitions.length ∧
    job.nextReserveIdx = job.petitions.length ∧ ∀ p ∈ job.petitions, p.isGranted = true

theorem Stage.jobOk {job : ElemOwnedJob} {ps : List ResourceToken} {k : Nat}
    (h : Stage job ps k) (hlen : ps.length ≤ maxJobResources) : JobOk job where
  next_le := by
    rw [h.next, h.length]
    exact Nat.min_le_right _ _
  count_le := by
    rw [h.length]
    exact hlen
  pending := by
    intro hopen i p hp
    rw [h.petitions, getElem?_stagePetitions] at hp
    obtain ⟨t, ht, rfl⟩ := Option.map_eq_some_iff.mp hp
    obtain ⟨hi, _⟩ := List.getElem?_eq_some_iff.mp ht
    have hnot := h.notified
    rw [hopen, eq_comm, decide_eq_false_iff_not] at hnot
    have hle := h.le
    rw [h.next]
    simp only [decide_eq_true_iff]
    omega
  complete := by
    intro hdone
    have hnot := h.notified
    rw [hdone, eq_comm, decide_eq_true_iff] at hnot
    obtain ⟨hpos, hk⟩ := hnot
    have hall := all_stagePetitions ps k
    rw [decide_eq_true hk.ge, List.all_eq_true] at hall
    rw [h.next, h.length, h.petitions]
    exact ⟨hpos, by omega, hall⟩

/-- What may have been seen of a job, whether it is still there or not. -/
def SeenOk (ps : List ResourceToken) (seen : List JobObs) : Prop :=
  ∃ k ≤ ps.length, seen = progress ps k ∨
    (¬(0 < ps.length ∧ k = ps.length) ∧ seen = progress ps k ++ [.jobTimeout])

theorem SeenOk.once {ps : List ResourceToken} {seen : List JobObs} (h : SeenOk ps seen) :
    seen.count .jobGranted ≤ 1 ∧ (.jobGranted ∈ seen → .jobTimeout ∉ seen) := by
  obtain ⟨k, hk, rfl | ⟨hopen, rfl⟩⟩ := h
  · refine ⟨?_, fun _ => timeout_notMem_progress ps k⟩
    rw [count_progress ps k hk]
    split <;> omega
  · have hzero := count_progress ps k hk
    rw [if_neg hopen] at hzero
    have hcount : (progress ps k ++ [JobObs.jobTimeout]).count .jobGranted = 0 := by
      rw [List.count_append, hzero]
      rfl
    exact ⟨by omega, fun hmem => absurd hcount (List.count_pos_iff.mpr hmem).ne'⟩

structure WatchInv (j : UInt32) (w : Watch) : Prop where
  stages : ∀ i job, w.node.ownedJobs.job i = some job →
    ∃ ps k, ps.length ≤ maxJobResources ∧ Stage job ps k
  live : ∀ job, w.node.ownedJobs.job j = some job →
    ∃ k, Stage job (w.request.take maxJobResources) k ∧
      w.seen = progress (w.request.take maxJobResources) k
  seen : SeenOk (w.request.take maxJobResources) w.seen

theorem length_take_tokens (tokens : List ResourceToken) :
    (tokens.take maxJobResources).length ≤ maxJobResources := List.length_take_le _ _

/-- Every record of a reachable state is at some stage. -/
theorem stages_step {node : NodeData} (h : ∀ i job, node.ownedJobs.job i = some job →
      ∃ ps k, ps.length ≤ maxJobResources ∧ Stage job ps k) (e : AgentEvent) (i : UInt32)
    (job : ElemOwnedJob) (hjob : (resourceAdapterPatch node e).1.ownedJobs.job i = some job) :
    ∃ ps k, ps.length ≤ maxJobResources ∧ Stage job ps k := by
  by_cases hreg : Registers i e
  · cases e with
    | jobRequest now socket i' tokens =>
      have hi : i' = i := hreg
      subst hi
      have hnew := job_handleJobRequest node.ownedJobs now socket i' i' tokens []
      rw [if_pos rfl] at hnew
      have he : some job = _ := hjob.symm.trans hnew
      cases he
      exact ⟨_, 0, length_take_tokens tokens, stage_newJob now socket i' tokens⟩
    | _ => exact hreg.elim
  · obtain ⟨ps, k, hlen, hst⟩ : ∃ ps k, ps.length ≤ maxJobResources ∧
        ∀ job, node.ownedJobs.job i = some job → Stage job ps k := by
      cases hold : node.ownedJobs.job i with
      | none => exact ⟨[], 0, Nat.zero_le _, by simp⟩
      | some job =>
        obtain ⟨ps, k, hlen, hst⟩ := h i job hold
        exact ⟨ps, k, hlen, fun _ he => by cases he; exact hst⟩
    have heff := effect_resourceAdapterPatch _ _ hst e hreg
    rw [hjob] at heff
    generalize hold : node.ownedJobs.job i = old at heff hst
    generalize acceptedBy i node e ++ _ = obs at heff
    cases heff with
    | kept => exact ⟨ps, k, hlen, hst job rfl⟩
    | accepted _ hst' => exact ⟨ps, k + 1, hlen, hst'⟩

theorem watchStep_of_not_registers {j : UInt32} {w : Watch} {e : AgentEvent}
    (h : ¬ Registers j e) : watchStep j w e =
      ⟨(resourceAdapterPatch w.node e).1, w.request, w.seen ++
        (acceptedBy j w.node e ++ (resourceAdapterPatch w.node e).2.filterMap (observe j))⟩ := by
  unfold watchStep
  cases e with
  | jobRequest now socket i tokens =>
    have hij : i ≠ j := h
    dsimp only
    rw [if_neg hij]
  | _ => dsimp only

theorem watchInv_step (j : UInt32) (w : Watch) (e : AgentEvent) (h : WatchInv j w) :
    WatchInv j (watchStep j w e) := by
  by_cases hreg : Registers j e
  · cases e with
    | jobRequest now socket i tokens =>
      have hi : i = j := hreg
      subst hi
      have hnew := job_handleJobRequest w.node.ownedJobs now socket i i tokens []
      have hout := outbox_handleJobRequest w.node.ownedJobs now socket i tokens []
      rw [if_pos rfl] at hnew
      have hst := stage_newJob now socket i tokens
      have hseen : ([] : List JobObs) ++ (handleJobRequest w.node.ownedJobs now socket i tokens
          []).2.filterMap (observe i) = progress (tokens.take maxJobResources) 0 := by
        rw [hout, List.nil_append]
        cases tokens with
        | nil => rfl
        | cons t tokens =>
          dsimp only
          rw [addToOutbox_nil, List.filterMap_cons, observe_reserveMsg, if_pos rfl]
          rfl
      have hw : watchStep i w (.jobRequest now socket i tokens) =
          ⟨(resourceAdapterPatch w.node (.jobRequest now socket i tokens)).1, tokens,
            progress (tokens.take maxJobResources) 0⟩ := by
        unfold watchStep
        dsimp only
        rw [if_pos rfl, ← hseen]
        rfl
      rw [hw]
      refine ⟨stages_step h.stages _, fun job hjob => ?_, 0, Nat.zero_le _, Or.inl rfl⟩
      have he : some job = _ := hjob.symm.trans hnew
      cases he
      exact ⟨0, hst, rfl⟩
    | _ => exact hreg.elim
  · rw [watchStep_of_not_registers hreg]
    cases hold : w.node.ownedJobs.job j with
    | none =>
      have heff := effect_resourceAdapterPatch [] 0
        (fun job hjob => by rw [hold] at hjob; cases hjob) e hreg
      rw [hold] at heff
      generalize hnew : (resourceAdapterPatch w.node e).1.ownedJobs.job j = new at heff
      generalize acceptedBy j w.node e ++ _ = obs at heff
      refine ⟨stages_step h.stages e, fun job hjob => ?_, ?_⟩
      · rw [hnew] at hjob
        subst hjob
        cases heff
      · cases heff <;> (rw [List.append_nil]; exact h.seen)
    | some job =>
      obtain ⟨k, hst, hseen⟩ := h.live job hold
      have heff := effect_resourceAdapterPatch (w.request.take maxJobResources) k
        (fun job' hjob' => by rw [hold] at hjob'; cases hjob'; exact hst) e hreg
      rw [hold] at heff
      generalize hnew : (resourceAdapterPatch w.node e).1.ownedJobs.job j = new at heff
      generalize acceptedBy j w.node e ++ _ = obs at heff
      refine ⟨stages_step h.stages e, fun job' hjob' => ?_, ?_⟩
      · rw [hnew] at hjob'
        subst hjob'
        cases heff with
        | kept => exact ⟨k, hst, by rw [List.append_nil]; exact hseen⟩
        | accepted ht hst' =>
          refine ⟨k + 1, hst', ?_⟩
          rw [progress_succ ht, ← hseen]
      · cases heff with
        | kept => rw [List.append_nil]; exact h.seen
        | dropped => rw [List.append_nil]; exact h.seen
        | timedOut hopen =>
          refine ⟨k, hst.le, Or.inr ⟨?_, by rw [← hseen]⟩⟩
          have hnot := hst.notified
          rw [hopen, eq_comm, decide_eq_false_iff_not] at hnot
          exact hnot
        | accepted ht hst' =>
          refine ⟨k + 1, hst'.le, Or.inl ?_⟩
          rw [progress_succ ht, ← hseen]

/-- In every state reached from an empty table, every record is consistent. Since the last
registration of a job, its RESERVEs have been sent in the order of the request, each one
after the acceptance of the one before; JOB_GRANTED came once, with the acceptance of the
last petition, and JOB_TIMEOUT did not come after it. -/
theorem coordinator_state_machine (inventory : LocalNode) (knownNodes : KnownNodes) (j : UInt32)
    (es : List AgentEvent) :
    let w := run (watchStep j) ⟨⟨inventory, knownNodes, createOwnedJobs⟩, [], []⟩ es
    let ps := w.request.take maxJobResources
    (∀ job ∈ w.node.ownedJobs.datos, JobOk job) ∧
      (∀ job, w.node.ownedJobs.job j = some job →
        ∃ k, Stage job ps k ∧ w.seen = progress ps k) ∧
      SeenOk ps w.seen ∧
      w.seen.count .jobGranted ≤ 1 ∧ (.jobGranted ∈ w.seen → .jobTimeout ∉ w.seen) := by
  intro w ps
  have hinit : WatchInv j ⟨⟨inventory, knownNodes, createOwnedJobs⟩, [], []⟩ := by
    refine ⟨fun i job hjob => ?_, fun job hjob => ?_, 0, le_rfl, Or.inl rfl⟩
    · rw [job_createOwnedJobs] at hjob
      cases hjob
    · rw [job_createOwnedJobs] at hjob
      cases hjob
  have hinv : WatchInv j w := run_invariant_all (watchInv_step j) hinit
  refine ⟨fun job hjob => ?_, hinv.live, hinv.seen, hinv.seen.once⟩
  obtain ⟨ps', k, hlen, hst⟩ := hinv.stages job.jobId job (job_eq_some.mpr ⟨hjob, rfl⟩)
  exact hst.jobOk hlen

end ResourceManager
