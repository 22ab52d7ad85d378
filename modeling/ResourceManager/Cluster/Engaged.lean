import ResourceManager.Cluster.Deadlock
import ResourceManager.Cluster.Orphans

/-!
# A job that is not granted is on its way

The petition in progress of a job can get lost: a GRANTED whose id is printed as `-1`, or
that finds no room in the outbox, is not sent, and one from port 0 is not accepted. When
none of this happens, a job known to its coordinator has all its petitions granted, has
none, or has one that is in flight or waits at a node (`engaged_step`).
-/

namespace ResourceManager

open HashTable LocalNode Queue

variable {C : Type}

/-- The requests of the scheduler: in order, and to real ports. -/
def Sendable (ps : List ResourceToken) : Prop := Increasing ps ∧ ∀ p ∈ ps, p.port ≠ 0

instance : DecidablePred Sendable :=
  fun ps => inferInstanceAs (Decidable (Increasing ps ∧ ∀ p ∈ ps, p.port ≠ 0))

theorem nodup_of_sendable {ps : List ResourceToken} (h : Sendable ps) :
    (ps.map ResourceToken.target).Nodup :=
  List.pairwise_map.mpr (h.1.imp fun hlt => hlt.ne)

namespace Cluster

/-- Every grant of this step is announced: the id is not the one that is printed as `-1`,
and the requests that wait where a RELEASE arrives fit in an outbox. -/
def Heard (s : Cluster C) : Action C → Prop
  | .jobRequest _ _ _ j _ => j ≠ 4294967295
  | .deliver i _ => ∀ pkt ∈ s.net[i]?, (s.node pkt.node).waiting ≤ maxOutbox
  | .jobRelease .. | .timeout .. => True

instance (s : Cluster C) (a : Action C) : Decidable (s.Heard a) :=
  match a with
  | .jobRequest _ _ _ j _ => inferInstanceAs (Decidable (j ≠ 4294967295))
  | .deliver i _ => inferInstanceAs
      (Decidable (∀ pkt ∈ s.net[i]?, (s.node pkt.node).waiting ≤ maxOutbox))
  | .jobRelease .. | .timeout .. => .isTrue trivial

variable [DecidableEq C] (w : Wiring C)

/-- The petition in progress is in flight or waits. -/
def Busy (s : Cluster C) (x : C × UInt32) : Prop :=
  tokens s.net x.1 x.2 ≠ [] ∨ ∃ r, s.Waits w x r

/-- What is asked for under the id that is printed as `-1`: nothing. -/
def Audible (s : Cluster C) : Prop := ∀ c, s.asked c 4294967295 = none

def Engaged (s : Cluster C) : Prop := ∀ x job, (s.jobs x.1).job x.2 = some job →
  job.grantNotified = true ∨ job.petitions = [] ∨ s.Busy w x

variable {w} {s : Cluster C} {x : C × UInt32} {c : C} {j : UInt32} {i : Nat}

/-! ## What keeps a job busy -/

theorem Busy.atCoordinator (h : s.Busy w x) (result : OwnedJobs × List OutMsg) :
    (s.atCoordinator c result).Busy w x := by
  refine h.imp_left fun hnet hnil => hnet ?_
  change tokens (s.net ++ sent c result.2) x.1 x.2 = [] at hnil
  rw [tokens_append] at hnil
  exact (List.append_eq_nil_iff.mp hnil).1

theorem Busy.drop (h : s.Busy w x) {pkt : Packet C} (hi : s.net[i]? = some pkt)
    (hne : pkt.token ≠ some x) : (s.drop i).Busy w x := by
  refine h.imp_left fun hnet => ?_
  show tokens (s.net.eraseIdx i) x.1 x.2 ≠ []
  rw [tokens_eraseIdx hi hne]
  exact hnet

/-- A coordinator sends the petition in progress. -/
theorem busy_of_sent {result : OwnedJobs × List OutMsg}
    (h : tokens (sent c result.2) x.1 x.2 ≠ []) : (s.atCoordinator c result).Busy w x := by
  refine Or.inl fun hnil => h ?_
  change tokens (s.net ++ sent c result.2) x.1 x.2 = [] at hnil
  rw [tokens_append] at hnil
  exact (List.append_eq_nil_iff.mp hnil).2

/-- A node answers it. -/
theorem busy_of_replies {a : Addr} {result : LocalNode × List OutMsg}
    (h : tokens (replies w a result.2) x.1 x.2 ≠ []) : (s.atNode w a result).Busy w x := by
  refine Or.inl fun hnil => h ?_
  change tokens (s.net ++ replies w a result.2) x.1 x.2 = [] at hnil
  rw [tokens_append] at hnil
  exact (List.append_eq_nil_iff.mp hnil).2

/-- What leaves a queue is answered. -/
theorem Busy.atNode (h : s.Busy w x) {a : Addr} {result : LocalNode × List OutMsg}
    (hqueue : ∀ t, ∀ r ∈ (s.node a).queue t, r.jobId = x.2 → r.socket = w.sock a x.1 →
      r ∈ result.1.queue t ∨ tokens (replies w a result.2) x.1 x.2 ≠ []) :
    (s.atNode w a result).Busy w x := by
  rcases h with hnet | ⟨⟨a', t⟩, r, hr, hj, hk⟩
  · refine Or.inl fun hnil => hnet ?_
    change tokens (s.net ++ replies w a result.2) x.1 x.2 = [] at hnil
    rw [tokens_append] at hnil
    exact (List.append_eq_nil_iff.mp hnil).1
  · by_cases ha : a' = a
    · subst ha
      rcases hqueue t r hr hj hk with hr | hanswer
      · refine Or.inr ⟨⟨a', t⟩, r, ?_, hj, hk⟩
        rw [node_atNode]
        exact hr
      · exact busy_of_replies hanswer
    · refine Or.inr ⟨⟨a', t⟩, r, ?_, hj, hk⟩
      show r ∈ (Function.update s.node a result.1 a').queue t
      rw [Function.update_of_ne ha]
      exact hr

end Cluster

/-! ## Wake-ups are announced -/

namespace LocalNode

/-- A waiting request waits on or is granted. -/
theorem Woken.waits_or_granted {n n' : LocalNode} {gs : List ElemJobRequest}
    (h : Woken n gs n') {t : Resource} {r : ElemJobRequest} (hr : r ∈ n.queue t) :
    r ∈ n'.queue t ∨ ∃ g ∈ gs, g.jobId = r.jobId ∧ g.socket = r.socket := by
  induction h with
  | nil => exact Or.inl hr
  | @cons n n' u g gs hfit _ ih =>
    by_cases hut : t = u
    · subst hut
      obtain ⟨q₁, x, q₂, hq, hx, _, hdel⟩ := queueDelete_split (fun x => compJobRequest x g)
        ⟨g, (firstFitting_some hfit).1, compJobRequest_eq_zero.mpr ⟨rfl, rfl, rfl⟩⟩
      obtain ⟨hj, _, hk⟩ := compJobRequest_eq_zero.mp hx
      have hrest : r = x ∨ r ∈ (grantQueued n t g).queue t := by
        rw [queue_grantQueued, if_pos rfl, hdel]
        rw [hq] at hr
        rcases List.mem_append.mp hr with hr | hr
        · exact Or.inr (List.mem_append_left _ hr)
        · exact (List.mem_cons.mp hr).imp_right fun hr => List.mem_append_right _ hr
      rcases hrest with rfl | hrest
      · exact Or.inr ⟨g, List.mem_cons_self, hj.symm, hk.symm⟩
      · exact (ih hrest).imp_right fun ⟨g', hg', hkey⟩ => ⟨g', List.mem_cons_of_mem _ hg', hkey⟩
    · have hrest : r ∈ (grantQueued n u g).queue t := by
        rw [queue_grantQueued, if_neg hut]
        exact hr
      exact (ih hrest).imp_right fun ⟨g', hg', hkey⟩ => ⟨g', List.mem_cons_of_mem _ hg', hkey⟩

end LocalNode

theorem waiting_delActiveJob (n : LocalNode) (j k : UInt32) :
    (delActiveJob n j k).waiting = n.waiting := by
  simp only [LocalNode.waiting, queue_delActiveJob]

/-- After a release that has room for its messages, what has left a queue is announced. -/
theorem announced_release {n : LocalNode} (hroom : n.waiting ≤ maxOutbox)
    (hloud : ∀ t, ∀ r ∈ n.queue t, ¬ r.Silent) (rand : Nat → Nat) (j k : UInt32) {t : Resource}
    {r : ElemJobRequest} (hr : r ∈ n.queue t) :
    r ∈ (handleRelease n rand k j []).1.queue t ∨
      ∃ g, grantMsg g ∈ (handleRelease n rand k j []).2 ∧ g.jobId = r.jobId ∧
        g.socket = r.socket := by
  obtain ⟨gs, n', hrun, hwoken, _⟩ := handleRelease_spec n rand k j []
  have hgs : ∀ g ∈ gs, ¬ g.Silent := by
    intro g hg
    obtain ⟨u, hu, _⟩ := hwoken.mem_queue g hg
    rw [queue_delActiveJob] at hu
    exact hloud u g hu
  have hlen := hwoken.waiting
  rw [waiting_delActiveJob] at hlen
  have hall : (announced gs).foldl addToOutbox [] = gs.map grantMsg := by
    have hannounced : announced gs = gs.map grantMsg := by
      rw [announced, List.filter_eq_self.mpr fun g hg => decide_eq_true (hgs g hg)]
    rw [foldl_addToOutbox_nil, hannounced, List.take_of_length_le]
    rw [List.length_map]
    omega
  rw [hrun, hall]
  have hr' : r ∈ (delActiveJob n j k).queue t := by
    rw [queue_delActiveJob]
    exact hr
  refine (hwoken.waits_or_granted hr').imp_right ?_
  rintro ⟨g, hg, hkey⟩
  exact ⟨g, List.mem_map_of_mem hg, hkey⟩

/-! ## Steps -/

/-- The timers only remove jobs. -/
theorem job_of_timeoutLoop {i : UInt32} {job : ElemOwnedJob} :
    ∀ (ids : List UInt32) (state : OwnedJobs × List OutMsg),
      (timeoutLoop ids state).1.job i = some job → state.1.job i = some job
  | [], _, h => h
  | k :: ids, state, h => by
    rw [timeoutLoop] at h
    split at h
    · exact h
    · have hjob := job_of_timeoutLoop ids _ h
      rw [job_rollback] at hjob
      split at hjob
      · cases hjob
      · exact hjob

namespace Cluster

variable [DecidableEq C] {w : Wiring C} {R : Rules} {s s' : Cluster C}
  {b : C × UInt32 → JobState} {c : C} {j : UInt32} {i : Nat}

/-- A job is as it was and still busy, unless it is in order anyway. -/
theorem Engaged.of_frame (h : s.Engaged w)
    (hframe : ∀ x job, (s'.jobs x.1).job x.2 = some job →
      (job.grantNotified = true ∨ job.petitions = [] ∨ s'.Busy w x) ∨
        (s.jobs x.1).job x.2 = some job ∧ (s.Busy w x → s'.Busy w x)) : s'.Engaged w := by
  intro x job hjob
  rcases hframe x job hjob with hown | ⟨hold, hbusy⟩
  · exact hown
  · exact (h x job hold).imp_right (Or.imp_right hbusy)

/-- The jobs of one coordinator have changed. -/
theorem Engaged.atCoordinator (h : s.Engaged w) {result : OwnedJobs × List OutMsg}
    (hresult : ∀ i job, result.1.job i = some job → (s.jobs c).job i = some job ∨
      job.grantNotified = true ∨ job.petitions = [] ∨ tokens (sent c result.2) c i ≠ []) :
    (s.atCoordinator c result).Engaged w := by
  refine h.of_frame fun x job hjob => ?_
  obtain ⟨c', i⟩ := x
  change (Function.update s.jobs c result.1 c').job i = some job at hjob
  by_cases hc : c' = c
  · subst hc
    rw [Function.update_self] at hjob
    rcases hresult i job hjob with hold | hnotified | hempty | hsent
    · exact Or.inr ⟨hold, fun hbusy => hbusy.atCoordinator _⟩
    · exact Or.inl (Or.inl hnotified)
    · exact Or.inl (Or.inr (Or.inl hempty))
    · exact Or.inl (Or.inr (Or.inr (busy_of_sent hsent)))
  · rw [Function.update_of_ne hc] at hjob
    exact Or.inr ⟨hjob, fun hbusy => hbusy.atCoordinator _⟩

theorem Engaged.jobRequest (h : s.Engaged w) (now : Int) (k : UInt32) (ps : List ResourceToken) :
    (s.step w (.jobRequest c now k j ps)).Engaged w := by
  show (s.atCoordinator c (handleJobRequest (s.jobs c) now k j ps [])).Engaged w
  refine h.atCoordinator fun i job hjob => ?_
  rw [job_handleJobRequest] at hjob
  split at hjob
  · rename_i hji
    subst hji
    right
    right
    cases ps with
    | nil =>
      left
      rw [← Option.some.inj hjob]
      exact (stage_newJob now k j []).petitions
    | cons t ts =>
      right
      rw [outbox_handleJobRequest]
      show tokens [Packet.request c t.target.addr (.reserve j t.type t.cant)] c j ≠ []
      rw [tokens_singleton rfl]
      exact List.cons_ne_nil _ _
  · exact Or.inl hjob

theorem Engaged.jobRelease (h : s.Engaged w) : (s.step w (.jobRelease c j)).Engaged w := by
  refine h.atCoordinator fun i job hjob => Or.inl ?_
  change (removeOwnedJob (s.jobs c) j).job i = some job at hjob
  rw [job_removeOwnedJob] at hjob
  split at hjob
  · cases hjob
  · exact hjob

theorem Engaged.timeout (h : s.Engaged w) (now : Int) :
    (s.step w (.timeout c now)).Engaged w :=
  h.atCoordinator fun _ _ hjob => Or.inl (job_of_timeoutLoop _ _ hjob)

/-- A packet leaves, and the job whose petition it carries is in order anyway. -/
theorem Engaged.drop_atCoordinator (h : s.Engaged w) {pkt : Packet C}
    (hi : s.net[i]? = some pkt) {result : OwnedJobs × List OutMsg}
    (hresult : ∀ i job, result.1.job i = some job →
      (s.jobs c).job i = some job ∧ pkt.token ≠ some (c, i) ∨
        job.grantNotified = true ∨ job.petitions = [] ∨ tokens (sent c result.2) c i ≠ [])
    (hother : ∀ c' i, c' ≠ c → pkt.token ≠ some (c', i)) :
    ((s.drop i).atCoordinator c result).Engaged w := by
  refine h.of_frame fun x job hjob => ?_
  obtain ⟨c', i⟩ := x
  change (Function.update s.jobs c result.1 c').job i = some job at hjob
  by_cases hc : c' = c
  · subst hc
    rw [Function.update_self] at hjob
    rcases hresult i job hjob with ⟨hold, hne⟩ | hnotified | hempty | hsent
    · exact Or.inr ⟨hold, fun hbusy => (hbusy.drop hi hne).atCoordinator _⟩
    · exact Or.inl (Or.inl hnotified)
    · exact Or.inl (Or.inr (Or.inl hempty))
    · exact Or.inl (Or.inr (Or.inr (busy_of_sent hsent)))
  · rw [Function.update_of_ne hc] at hjob
    exact Or.inr ⟨hjob, fun hbusy => (hbusy.drop hi (hother c' i hc)).atCoordinator _⟩

theorem Engaged.granted (h : s.Engaged w) (htracks : Tracks w R s b)
    (hR : ∀ ps, R.admissible ps → ∀ p ∈ ps, p.port ≠ 0) {a : Addr} {n : Int}
    (hi : s.net[i]? = some (.reply a c (.granted n))) :
    ((s.drop i).atCoordinator c
      (handleGranted (s.jobs c) a.ip a.port (scanUnsigned n) [])).Engaged w := by
  obtain ⟨j, hj⟩ : ∃ j, scanUnsigned n = j := ⟨_, rfl⟩
  rw [hj]
  have htoken : (Packet.reply a c (.granted n)).token = some (c, j) := by rw [Packet.token, hj]
  obtain ⟨p, hplace, rfl⟩ := (htracks.job c j).place_granted hj hi
  have hget := (htracks.sound (c, j)).petition p (by rw [hplace]; rfl)
  have hport : p.port ≠ 0 := by
    have hmem : p ∈ (b (c, j)).petitions := List.mem_of_getElem? hget
    unfold JobState.petitions at hmem
    cases hasked : (b (c, j)).asked with
    | none =>
      rw [hasked] at hmem
      cases hmem
    | some ps =>
      rw [hasked] at hmem
      exact hR ps ((htracks.sound (c, j)).asked ps hasked) p (List.mem_of_mem_take hmem)
  refine h.drop_atCoordinator hi (fun i job hjob => ?_) fun c' i hc he => ?_
  · cases hpresent : (b (c, j)).present with
    | false =>
      have hnone := (htracks.job c j).absent hpresent
      rw [handleGranted_ignored (Or.inr fun job' hjob' => by
        rw [hnone] at hjob'
        cases hjob')] at hjob
      refine Or.inl ⟨hjob, fun he => ?_⟩
      rw [htoken, Option.some.injEq, Prod.mk.injEq] at he
      obtain ⟨-, rfl⟩ := he
      rw [hnone] at hjob
      cases hjob
    | true =>
      obtain ⟨job₀, hjob₀, hstage⟩ := (htracks.job c j).present hpresent
      obtain ⟨job', hstage', _, hjobs, hout⟩ := handleGranted_accepted hjob₀ hstage hget hport []
      change (handleGranted (s.jobs c) p.ip p.port j []).1.job i = some job at hjob
      rw [hjobs] at hjob
      split at hjob
      · rename_i hji
        subst hji
        have he := Option.some.inj hjob
        subst he
        right
        show _ ∨ _ ∨ tokens (sent c (handleGranted (s.jobs c) p.ip p.port j []).2) c j ≠ []
        rw [hout, addToOutbox_nil, grantedAnswer]
        cases hnext : (b (c, j)).petitions[(b (c, j)).done + 1]? with
        | none =>
          left
          have hlt := (List.getElem?_eq_some_iff.mp hget).1
          have hle := List.getElem?_eq_none_iff.mp hnext
          rw [hstage'.notified]
          exact decide_eq_true (by omega)
        | some t =>
          right
          right
          show tokens [Packet.request c t.target.addr (.reserve j t.type t.cant)] c j ≠ []
          rw [tokens_singleton rfl]
          exact List.cons_ne_nil _ _
      · rename_i hji
        refine Or.inl ⟨hjob, fun he => hji ?_⟩
        rw [htoken, Option.some.injEq, Prod.mk.injEq] at he
        exact he.2
  · rw [htoken, Option.some.injEq, Prod.mk.injEq] at he
    exact hc he.1.symm

theorem Engaged.denied (h : s.Engaged w) {a : Addr}
    (hi : s.net[i]? = some (.reply a c (.denied j))) :
    ((s.drop i).atCoordinator c (handleDenied (s.jobs c) j [])).Engaged w := by
  refine h.drop_atCoordinator hi (fun i job hjob => Or.inl ?_) fun c' i hc he => ?_
  · change (removeOwnedJob (s.jobs c) j).job i = some job at hjob
    rw [job_removeOwnedJob] at hjob
    split at hjob
    · cases hjob
    · rename_i hji
      refine ⟨hjob, fun he => hji ?_⟩
      rw [Packet.token, Option.some.injEq, Prod.mk.injEq] at he
      exact he.2
  · rw [Packet.token, Option.some.injEq, Prod.mk.injEq] at he
    exact hc he.1.symm

/-- A packet arrives at a node: what was waiting there waits on or is answered, and so is
the petition that the packet carries. -/
theorem Engaged.drop_atNode (h : s.Engaged w) {pkt : Packet C} (hi : s.net[i]? = some pkt)
    {a : Addr} {result : LocalNode × List OutMsg}
    (hqueue : ∀ c t, ∀ r ∈ (s.node a).queue t, r.socket = w.sock a c →
      r ∈ result.1.queue t ∨ tokens (replies w a result.2) c r.jobId ≠ [])
    (hown : ∀ x, pkt.token = some x → ((s.drop i).atNode w a result).Busy w x) :
    ((s.drop i).atNode w a result).Engaged w := by
  refine h.of_frame fun x job hjob => ?_
  by_cases hx : pkt.token = some x
  · exact Or.inl (Or.inr (Or.inr (hown x hx)))
  · refine Or.inr ⟨hjob, fun hbusy => (hbusy.drop hi hx).atNode fun t r hr hj hk => ?_⟩
    rw [← hj]
    exact hqueue x.1 t r hr hk

theorem Engaged.reserve (h : s.Engaged w) {a : Addr} {t : Resource} {q : UInt32}
    (hi : s.net[i]? = some (.request c a (.reserve j t q))) :
    ((s.drop i).atNode w a (handleReserve (s.node a) (w.sock a c) j (some t) q [])).Engaged w := by
  have hreserved := reserved_handleReserve (s.node a) (w.sock a c) j (some t) q []
  generalize handleReserve (s.node a) (w.sock a c) j (some t) q [] = result at hreserved ⊢
  have hbusy : ∀ {n : LocalNode} {m : Message}, (Packet.reply a c m).token = some (c, j) →
      ((s.drop i).atNode w a (n, [.toFd (w.sock a c) m])).Busy w (c, j) := by
    intro n m hm
    refine busy_of_replies ?_
    rw [replies_toFd, tokens_singleton hm]
    exact List.cons_ne_nil _ _
  cases hreserved with
  | refused _ =>
    refine h.drop_atNode hi (fun _ _ _ hr _ => Or.inl hr) fun x hx => ?_
    cases hx
    exact hbusy rfl
  | queued u hu _ _ =>
    cases hu
    refine h.drop_atNode hi (fun _ v r hr _ => Or.inl ?_) fun x hx => ?_
    · rw [LocalNode.queue, queue_setQueue]
      split
      · rename_i hv
        subst hv
        exact List.mem_append_left _ hr
      · exact hr
    · cases hx
      refine Or.inr ⟨⟨a, t⟩, ⟨j, w.sock a c, q, t⟩, ?_, rfl, rfl⟩
      rw [node_atNode, LocalNode.queue, queue_setQueue, if_pos rfl]
      exact List.mem_append_right _ (List.mem_singleton_self _)
  | taken u hu _ _ =>
    cases hu
    refine h.drop_atNode hi (fun _ _ _ hr _ => Or.inl hr) fun x hx => ?_
    cases hx
    exact hbusy (by rw [Packet.token, scanUnsigned_toNat])

theorem Audible.not_silent (h : s.Audible) (htracks : Tracks w R s b) {a : Addr} {t : Resource}
    {r : ElemJobRequest} (hr : r ∈ (s.node a).queue t) : ¬ r.Silent := by
  intro hsilent
  obtain ⟨c, j, p, hplace, _, rfl⟩ := htracks.place_queued hr
  have hj : j = 4294967295 := toInt32_eq_neg_one.mp hsilent
  subst hj
  have hnone : (b (c, 4294967295)).asked = none := (htracks.job c _).asked.symm.trans (h c)
  rw [((htracks.sound (c, 4294967295)).nothing hnone).2.1] at hplace
  cases hplace

theorem Engaged.release (h : s.Engaged w) (haudible : s.Audible) (htracks : Tracks w R s b)
    {a : Addr} {t : Resource} {q : UInt32}
    (hi : s.net[i]? = some (.request c a (.release j t q)))
    (hroom : (s.node a).waiting ≤ maxOutbox) (rand : Nat → Nat) :
    ((s.drop i).atNode w a (handleRelease (s.node a) rand (w.sock a c) j [])).Engaged w := by
  refine h.drop_atNode hi (fun c' u r hr hk => ?_) fun x hx => by cases hx
  refine (announced_release hroom (fun _ _ hr => haudible.not_silent htracks hr) rand j _ hr).imp_right
    fun ⟨g, hg, hgj, hgk⟩ => ?_
  intro hnil
  have hmem : Packet.reply a c' (.granted g.jobId.toInt32.toInt) ∈
      tokens (replies w a (handleRelease (s.node a) rand (w.sock a c) j []).2) c' r.jobId := by
    refine List.mem_filter.mpr ⟨List.mem_filterMap.mpr ⟨_, hg, ?_⟩, ?_⟩
    · rw [grantMsg, hgk, hk]
      simp [OutMsg.toFd, w.sock_ne a c', w.peer_sock]
    · rw [Packet.token, scanUnsigned_toInt, hgj]
      exact decide_eq_true rfl
  rw [hnil] at hmem
  cases hmem

/-- A packet that nobody expects is dropped. -/
theorem Engaged.inert (h : s.Engaged w) {pkt : Packet C} (hi : s.net[i]? = some pkt)
    (htoken : pkt.token = none) : Cluster.Engaged w { s.drop i with told := [] } :=
  h.of_frame fun x _ hjob => Or.inr ⟨hjob, fun hbusy => hbusy.drop hi (by rw [htoken]; simp)⟩

theorem Engaged.deliver (h : s.Engaged w) (haudible : s.Audible) (htracks : Tracks w R s b)
    (hR : ∀ ps, R.admissible ps → ∀ p ∈ ps, p.port ≠ 0) (rand : Nat → Nat)
    (hheard : s.Heard (.deliver i rand)) : (s.step w (.deliver i rand)).Engaged w := by
  rw [Cluster.step]
  cases hi : s.net[i]? with
  | none => exact h
  | some pkt =>
    cases pkt with
    | request c a m =>
      have hidle : (s.drop i).atNode w a (s.node a, []) = { s.drop i with told := [] } :=
        (s.drop i).atNode_idle w a
      cases m with
      | reserve j t q => exact h.reserve hi
      | release j t q => exact h.release haudible htracks hi (hheard _ hi) rand
      | granted | denied | jobGranted | jobDenied | jobTimeout | line =>
        dsimp only [onRequest]
        rw [hidle]
        exact h.inert hi rfl
    | reply a c m =>
      have hidle : (s.drop i).atCoordinator c (s.jobs c, []) = { s.drop i with told := [] } :=
        (s.drop i).atCoordinator_idle c
      cases m with
      | granted n => exact h.granted htracks hR hi
      | denied j => exact h.denied hi
      | reserve | release | jobGranted | jobDenied | jobTimeout | line =>
        dsimp only [onReply]
        rw [hidle]
        exact h.inert hi rfl

/-- A step whose grants are announced keeps every job granted or on its way. -/
theorem engaged_step (h : s.Engaged w) (haudible : s.Audible) (htracks : Tracks w R s b)
    (hR : ∀ ps, R.admissible ps → ∀ p ∈ ps, p.port ≠ 0) {act : Action C} (hheard : s.Heard act) :
    (s.step w act).Engaged w := by
  cases act with
  | jobRequest c now k j ps => exact h.jobRequest now k ps
  | jobRelease c j => exact h.jobRelease
  | timeout c now => exact h.timeout now
  | deliver i rand => exact h.deliver haudible htracks hR rand hheard

theorem audible_step (h : s.Audible) {act : Action C} (hheard : s.Heard act) :
    (s.step w act).Audible := by
  intro c
  cases act with
  | jobRequest c' now k j ps =>
    show Function.update s.asked c' (Function.update (s.asked c') j (some ps)) c 4294967295 = none
    have hj : j ≠ 4294967295 := hheard
    by_cases hc : c = c'
    · subst hc
      rw [Function.update_self, Function.update_of_ne hj.symm]
      exact h c
    · rw [Function.update_of_ne hc]
      exact h c
  | jobRelease | timeout => exact h c
  | deliver i rand =>
    have hasked : (s.step w (.deliver i rand)).asked = s.asked := by
      rw [Cluster.step]
      split <;> rfl
    rw [hasked]
    exact h c

end Cluster

end ResourceManager
