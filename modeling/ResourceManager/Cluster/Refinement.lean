import ResourceManager.Cluster.Tracks

/-!
# The handlers, as steps of jobs

What the handlers do to the jobs, in steps of their life cycles. Most jobs do not move; a
timer moves several jobs of one coordinator, a RELEASE the job released and those whose
requests it wakes.
-/

namespace ResourceManager

open HashTable LocalNode

variable {C : Type} {w : Wiring C} {R : Rules}

/-! ## What a step leaves as it is -/

namespace Cluster

variable (s : Cluster C)

theorem atCoordinator_idle [DecidableEq C] (c : C) :
    s.atCoordinator c (s.jobs c, []) = { s with told := [] } := by
  simp [atCoordinator, sent, notices]

theorem atNode_idle (w : Wiring C) (a : Addr) :
    s.atNode w a (s.node a, []) = { s with told := [] } := by
  simp [atNode, replies]

/-- Two steps at one node are one step. -/
theorem atNode_atNode (w : Wiring C) (a : Addr) (r r' : LocalNode × List OutMsg) :
    (s.atNode w a r).atNode w a r' = s.atNode w a (r'.1, r.2 ++ r'.2) := by
  simp [atNode, replies_append]

@[simp] theorem node_atNode (w : Wiring C) (a : Addr) (r : LocalNode × List OutMsg) :
    (s.atNode w a r).node a = r.1 := Function.update_self _ _ _

end Cluster

variable [DecidableEq C] {s : Cluster C} {b : C × UInt32 → JobState} {c : C} {j : UInt32}

theorem SameView.tell (told : List (C × Message)) : SameView w s { s with told := told } c j where
  asked := rfl
  job := rfl
  tokens := rfl
  releases := rfl
  node _ := .refl _ _ _

namespace Tracks

/-- What is told can be changed, when it is no JOB_GRANTED. -/
theorem tell (h : Tracks w R s b) {told : List (C × Message)}
    (htold : ∀ c j, (c, .jobGranted j) ∉ told) : Tracks w R { s with told := told } b :=
  h.frame (fun _ _ => .tell told) h.node htold

/-! ## JOB_REQUEST -/

theorem jobRequest (h : Tracks w R s b) (now : Int) (k : UInt32) {ps : List ResourceToken}
    (hnew : s.asked c j = none) (hok : R.admissible ps) :
    Advances w R b (s.step w (.jobRequest c now k j ps)) := by
  have hb : (b (c, j)).asked = none := (h.job c j).asked.symm.trans hnew
  obtain ⟨_, hplace, _, hreleases⟩ := (h.sound (c, j)).nothing hb
  have hown := h.job c j
  have hjobs : ∀ i, (handleJobRequest (s.jobs c) now k j ps []).1.job i =
      if j = i then some (newJob now k j ps).dispatch else (s.jobs c).job i :=
    fun i => job_handleJobRequest (s.jobs c) now k j i ps []
  have hout := outbox_handleJobRequest (s.jobs c) now k j ps []
  show Advances w R b ((s.atCoordinator c (handleJobRequest (s.jobs c) now k j ps [])).ask c j ps)
  generalize handleJobRequest (s.jobs c) now k j ps [] = result at hjobs hout
  obtain ⟨jobs, out⟩ := result
  dsimp only at hjobs hout
  have hsent : Carried c j (.next (ps.take maxJobResources)[0]?) (tokens (sent c out) c j) ∧
      releases (sent c out) c j = [] ∧ (∀ pkt ∈ sent c out, pkt.About (c, j)) ∧
      notices c out = [] := by
    cases ps with
    | nil =>
      rw [hout]
      exact ⟨.nowhere, rfl, fun _ hpkt => (by cases hpkt), rfl⟩
    | cons t ts =>
      rw [hout]
      have habout := about_reserve t.target.addr c j t.type t.cant
      refine ⟨?_, rfl, fun pkt hpkt => ?_, rfl⟩
      · show Carried c j (.sent t) (tokens [.request c t.target.addr (.reserve j t.type t.cant)] c j)
        rw [tokens_singleton rfl]
        exact .sent t
      · rw [List.mem_singleton.mp hpkt]
        exact habout
  obtain ⟨hcarried, hnone, habout, hnotices⟩ := hsent
  refine Advances.of_update (.register _ ps hb hok) (Tracks.advances (h.update
    (.register _ ps hb hok) ?_ (fun c' j' hne => ?_) h.node fun c' j' hmem => ?_))
  · have hlater := hown.tokens_nil hplace
    refine ⟨?_, fun hp => (by cases hp), fun _ => ⟨_, ?_, stage_newJob now k j ps⟩, ?_, ?_,
      fun a t => ?_, hown.held⟩
    · show Function.update s.asked c (Function.update (s.asked c) j (some ps)) c j = some ps
      rw [Function.update_self, Function.update_self]
    · show (Function.update s.jobs c jobs c).job j = _
      rw [Function.update_self, hjobs, if_pos rfl]
    · show Carried c j _ (tokens (s.net ++ sent c out) c j)
      rw [tokens_append, hlater, List.nil_append]
      exact hcarried
    · show releases (s.net ++ sent c out) c j = (b (c, j)).releases
      rw [releases_append, hnone, List.append_nil]
      exact hown.releases
    · refine (hown.requests_nil hplace a t).trans ?_
      exact (Place.waiting_next j _ _ _).symm
  · have hcoord : SameView w s (s.atCoordinator c (jobs, out)) c' j' :=
      .atCoordinator (fun i hi => by rw [hjobs, if_neg (Ne.symm hi)]) habout hne
    exact hcoord.trans (.ask ps hne)
  · rw [show ((s.atCoordinator c (jobs, out)).ask c j ps).told = notices c out from rfl,
      hnotices] at hmem
    cases hmem

/-! ## The end of a job -/

/-- The coordinator of a job removes it. -/
theorem rollback (h : Tracks w R s b) {notice : Option (UInt32 → Message)}
    (hnotice : ∀ msg ∈ notice, ∀ i j, msg i ≠ .jobGranted j)
    (hmay : (b (c, j)).present = true → R.mayAbandon (b (c, j))) :
    Tracks w R (s.atCoordinator c (removeOwnedJob (s.jobs c) j,
        rollbackMsgs (fun _ => false) notice (s.jobs c) j))
      (Function.update b (c, j) (b (c, j)).abandon) := by
  refine h.update (.abandon _ hmay) ((h.job c j).rollback notice) (fun c' j' hne => ?_) h.node
    fun c' j' hmem => ?_
  · exact .atCoordinator (fun i hi => by rw [job_removeOwnedJob, if_neg (Ne.symm hi)])
      (about_rollbackMsgs c notice (s.jobs c) j) hne
  · exact absurd hmem (granted_not_mem_rollbackMsgs c c' hnotice (s.jobs c) j j')

theorem jobRelease (h : Tracks w R s b)
    (hmay : (b (c, j)).present = true → R.mayAbandon (b (c, j))) :
    Advances w R b (s.step w (.jobRelease c j)) := by
  have hlen := length_getGrantedResources_le (s.jobs c) j maxJobResources
  have hrun : handleJobRelease (s.jobs c) j [] = (removeOwnedJob (s.jobs c) j,
      rollbackMsgs (fun _ => false) none (s.jobs c) j) := by
    have hroom : maxJobResources + 1 ≤ maxOutbox := by decide
    have hout := outbox_rollback_of_room none (s.jobs c, []) j (by
      dsimp only [List.length_nil]
      omega)
    exact Prod.ext rfl hout
  show Advances w R b (s.atCoordinator c (handleJobRelease (s.jobs c) j []))
  rw [hrun]
  exact Advances.of_update (.abandon _ hmay)
    (h.rollback (fun _ hmsg => by cases hmsg) hmay).advances

/-- A job that is gone stays gone. -/
theorem timeoutLoop_none {i : UInt32} : ∀ (ids : List UInt32) (state : OwnedJobs × List OutMsg),
    state.1.job i = none → (timeoutLoop ids state).1.job i = none
  | [], _, h => h
  | k :: ids, state, h => by
    rw [timeoutLoop]
    split
    · exact h
    · refine timeoutLoop_none ids _ ?_
      rw [job_rollback]
      split
      · rfl
      · exact h

/-- The loop removes only jobs of its list. -/
theorem mem_of_timeoutLoop_none {i : UInt32} : ∀ (ids : List UInt32)
    (state : OwnedJobs × List OutMsg), (ResourceManager.timeoutLoop ids state).1.job i = none →
      state.1.job i = none ∨ i ∈ ids
  | [], _, h => Or.inl h
  | k :: ids, state, h => by
    rw [ResourceManager.timeoutLoop] at h
    split at h
    · exact Or.inl h
    · rcases mem_of_timeoutLoop_none ids _ h with hnone | hmem
      · rw [job_rollback] at hnone
        split at hnone
        · rename_i hki
          exact Or.inr (hki ▸ List.mem_cons_self)
        · exact Or.inl hnone
      · exact Or.inr (List.mem_cons_of_mem k hmem)

theorem timeoutLoop : ∀ (ids : List UInt32) (jobs : OwnedJobs) (out : List OutMsg)
    {b : C × UInt32 → JobState}, Tracks w R (s.atCoordinator c (jobs, out)) b →
    (∀ j, (b (c, j)).present = true →
      (ResourceManager.timeoutLoop ids (jobs, out)).1.job j = none → R.mayAbandon (b (c, j))) →
    (∀ c' j', (c', .jobGranted j') ∉ notices c out) →
      Advances w R b (s.atCoordinator c (ResourceManager.timeoutLoop ids (jobs, out)))
  | [], _, _, _, h, _, _ => h.advances
  | i :: ids, jobs, out, b, h, hmay, htold => by
    rw [ResourceManager.timeoutLoop] at hmay ⊢
    split
    · exact h.advances
    · rename_i hroom
      rw [if_neg hroom] at hmay
      have hout := outbox_rollback_of_room (some .jobTimeout) (jobs, out) i (by omega)
      have hrun : ResourceManager.rollback (fun _ => false) (some .jobTimeout) (jobs, out) i =
          (removeOwnedJob jobs i,
            out ++ rollbackMsgs (fun _ => false) (some .jobTimeout) jobs i) := Prod.ext rfl hout
      have hnotice : ∀ msg ∈ some Message.jobTimeout, ∀ i j, msg i ≠ .jobGranted j := by
        intro msg hmsg i j
        cases hmsg
        simp
      rw [hrun] at hmay ⊢
      have hgone : (ResourceManager.timeoutLoop ids (removeOwnedJob jobs i,
          out ++ rollbackMsgs (fun _ => false) (some .jobTimeout) jobs i)).1.job i = none :=
        timeoutLoop_none ids _ (by rw [job_removeOwnedJob, if_pos rfl])
      have hjobs : (s.atCoordinator c (jobs, out)).jobs c = jobs := Function.update_self _ _ _
      have hstep : JobStep R (b (c, i)) (b (c, i)).abandon :=
        .abandon _ fun hp => hmay i hp hgone
      have hone := h.rollback hnotice fun hp => hmay i hp hgone
      rw [hjobs] at hone
      have htold' : ∀ c' j', (c', .jobGranted j') ∉
          notices c (out ++ rollbackMsgs (fun _ => false) (some .jobTimeout) jobs i) := by
        intro c' j' hmem
        rw [notices, List.filterMap_append] at hmem
        rcases List.mem_append.mp hmem with hmem | hmem
        · exact htold c' j' hmem
        · exact granted_not_mem_rollbackMsgs c c' hnotice jobs i j' hmem
      have hsame : { (s.atCoordinator c (jobs, out)).atCoordinator c (removeOwnedJob jobs i,
          rollbackMsgs (fun _ => false) (some .jobTimeout) jobs i) with
            told := notices c (out ++ rollbackMsgs (fun _ => false) (some .jobTimeout) jobs i) } =
          s.atCoordinator c (removeOwnedJob jobs i,
            out ++ rollbackMsgs (fun _ => false) (some .jobTimeout) jobs i) := by
        simp [Cluster.atCoordinator, sent_append]
      have hnext := hone.tell htold'
      rw [hsame] at hnext
      refine Advances.of_update hstep (Tracks.timeoutLoop ids _ _ hnext (fun k hk hnone => ?_) htold')
      by_cases hki : k = i
      · subst hki
        rw [Function.update_self] at hk
        cases hk
      · have hne : ((c, k) : C × UInt32) ≠ (c, i) := fun he => hki (Prod.mk.inj he).2
        rw [Function.update_of_ne hne] at hk ⊢
        exact hmay k hk hnone

theorem timeout (h : Tracks w R s b) (now : Int)
    (hmay : ∀ j, (b (c, j)).present = true → (onTimer (s.jobs c) now).1.job j = none →
      R.mayAbandon (b (c, j))) : Advances w R b (s.step w (.timeout c now)) := by
  have hidle : Tracks w R (s.atCoordinator c (s.jobs c, [])) b := by
    rw [s.atCoordinator_idle]
    exact h.tell fun _ _ hmem => by cases hmem
  exact Tracks.timeoutLoop _ _ _ hidle hmay fun _ _ hmem => by cases hmem

/-! ## Answers of nodes -/

/-- What the coordinator sends when petition `k` has been granted. -/
theorem grantedAnswer_spec (c : C) (k j : UInt32) (ps : List ResourceToken) (n : Nat) :
    Carried c j (.next ps[n + 1]?) (tokens (sent c [grantedAnswer k j ps n]) c j) ∧
      releases (sent c [grantedAnswer k j ps n]) c j = [] ∧
      (∀ pkt ∈ sent c [grantedAnswer k j ps n], pkt.About (c, j)) ∧
      ∀ c' j', (c', .jobGranted j') ∈ notices c [grantedAnswer k j ps n] →
        (c', j') = (c, j) ∧ ps.length ≤ n + 1 := by
  rw [grantedAnswer]
  cases ht : ps[n + 1]? with
  | none =>
    refine ⟨.nowhere, rfl, fun _ hpkt => (by cases hpkt), fun c' j' hmem => ?_⟩
    have he := List.mem_singleton.mp hmem
    simp only [OutMsg.toFd, Prod.mk.injEq, Message.jobGranted.injEq] at he
    exact ⟨by rw [he.1, he.2], List.getElem?_eq_none_iff.mp ht⟩
  | some t =>
    have habout := about_reserve t.target.addr c j t.type t.cant
    refine ⟨?_, rfl, fun pkt hpkt => ?_, fun c' j' hmem => (by cases hmem)⟩
    · show Carried c j (.sent t) (tokens [.request c t.target.addr (.reserve j t.type t.cant)] c j)
      rw [tokens_singleton rfl]
      exact .sent t
    · rw [List.mem_singleton.mp hpkt]
      exact habout

theorem granted (h : Tracks w R s b) {i : Nat} {a : Addr} {n : Int}
    (hi : s.net[i]? = some (.reply a c (.granted n))) :
    Advances w R b ((s.drop i).atCoordinator c
      (handleGranted (s.jobs c) a.ip a.port (scanUnsigned n) [])) := by
  obtain ⟨j, hj⟩ : ∃ j, scanUnsigned n = j := ⟨_, rfl⟩
  rw [hj]
  have hpkt : (Packet.reply a c (.granted n)).token = some (c, j) := by rw [Packet.token, hj]
  have habout := about_granted a c hj
  obtain ⟨p, hplace, rfl⟩ := (h.job c j).place_granted hj hi
  have hget := (h.sound (c, j)).petition p (by rw [hplace]; rfl)
  have hdrop := (h.job c j).drop_token hi hpkt rfl
  by_cases haccept : (b (c, j)).present = true ∧ p.port ≠ 0
  · obtain ⟨hpresent, hport⟩ := haccept
    obtain ⟨job, hjob, hstage⟩ := (h.job c j).present hpresent
    obtain ⟨job', hstage', _, hjobs, hout⟩ := handleGranted_accepted hjob hstage hget hport []
    generalize handleGranted (s.jobs c) p.target.addr.ip p.target.addr.port j [] = result
      at hjobs hout ⊢
    obtain ⟨jobs, out⟩ := result
    dsimp only at hjobs hout
    rw [addToOutbox_nil] at hout
    obtain ⟨hcarried, hnone, hpkts, htold⟩ :=
      grantedAnswer_spec c job.ownerSocket j (b (c, j)).petitions (b (c, j)).done
    rw [← hout] at hcarried hnone hpkts htold
    have hstep : JobStep R (b (c, j)) _ := .accept _ p hplace hpresent
    have hown : Represents w ((s.drop i).atCoordinator c (jobs, out)) c j
        { b (c, j) with
          done := (b (c, j)).done + 1
          place := .next (b (c, j)).petitions[(b (c, j)).done + 1]?
          releases := (b (c, j)).releases ++ releases (sent c out) c j } := by
      refine hdrop.atCoordinator (fun habsent => ?_) (fun _ => ⟨job', ?_, hstage'⟩) ?_
        fun k r => Place.waiting_next j k r _
      · rw [hpresent] at habsent
        cases habsent
      · rw [hjobs, if_pos rfl]
      · rw [hdrop.tokens_nil rfl, List.nil_append]
        exact hcarried
    rw [hnone, List.append_nil] at hown
    refine Advances.of_update hstep (Tracks.advances (h.update hstep hown (fun c' j' hne => ?_)
      h.node fun c' j' hmem => ?_))
    · exact (SameView.drop hi habout hne).trans
        (.atCoordinator (fun k hk => by rw [hjobs, if_neg (Ne.symm hk)]; rfl) hpkts hne)
    · obtain ⟨hx, hlen⟩ := htold c' j' hmem
      refine ⟨hx, hpresent, ?_⟩
      have hlt := (List.getElem?_eq_some_iff.mp hget).1
      show (b (c, j)).done + 1 = (b (c, j)).petitions.length
      omega
  · have hignored : handleGranted (s.jobs c) p.target.addr.ip p.target.addr.port j [] =
        (s.jobs c, []) := by
      refine handleGranted_ignored ?_ []
      by_cases hport : p.port = 0
      · exact Or.inl hport
      · refine Or.inr fun job hjob => ?_
        have habsent : (b (c, j)).present = false := by
          by_contra hp
          exact haccept ⟨Bool.eq_true_of_not_eq_false hp, hport⟩
        rw [(h.job c j).absent habsent] at hjob
        cases hjob
    have hstep : JobStep R (b (c, j)) _ := .ignore _ p hplace
    rw [hignored]
    have hidle := (s.drop i).atCoordinator_idle c
    rw [show (s.drop i).jobs c = s.jobs c from rfl] at hidle
    rw [hidle]
    exact Advances.of_update hstep (Tracks.advances (h.update hstep (hdrop.frame (.tell []))
      (fun c' j' hne => (SameView.drop hi habout hne).trans (.tell [])) h.node
      fun c' j' hmem => (by cases hmem)))

theorem denied (h : Tracks w R s b) {i : Nat} {a : Addr}
    (hi : s.net[i]? = some (.reply a c (.denied j))) :
    Advances w R b ((s.drop i).atCoordinator c (handleDenied (s.jobs c) j [])) := by
  have habout := about_denied a c j
  obtain ⟨p, hplace⟩ := (h.job c j).place_denied hi
  have hdrop := (h.job c j).drop_token hi rfl rfl
  have hlen := length_getGrantedResources_le (s.jobs c) j maxJobResources
  have hroom : maxJobResources + 1 ≤ maxOutbox := by decide
  have hrun : handleDenied (s.jobs c) j [] = (removeOwnedJob (s.jobs c) j,
      rollbackMsgs (fun _ => false) (some .jobDenied) (s.jobs c) j) := by
    have hout := outbox_rollback_of_room (some .jobDenied) (s.jobs c, []) j (by
      dsimp only [List.length_nil]
      omega)
    exact Prod.ext rfl hout
  have hstep : JobStep R (b (c, j)) _ := .deny _ p hplace
  rw [hrun]
  refine Advances.of_update hstep (Tracks.advances (h.update hstep
    (hdrop.rollback (some .jobDenied)) (fun c' j' hne => ?_) h.node fun c' j' hmem => ?_))
  · exact (SameView.drop hi habout hne).trans
      (.atCoordinator (fun k hk => by rw [job_removeOwnedJob, if_neg (Ne.symm hk)]; rfl)
        (about_rollbackMsgs c _ (s.jobs c) j) hne)
  · refine absurd hmem (granted_not_mem_rollbackMsgs c c' (fun msg hmsg i j => ?_) (s.jobs c) j j')
    cases hmsg
    simp

/-! ## Messages of coordinators -/

theorem reserve (h : Tracks w R s b) {i : Nat} {a : Addr} {t : Resource} {q : UInt32}
    (hi : s.net[i]? = some (.request c a (.reserve j t q))) :
    Advances w R b ((s.drop i).atNode w a
      (handleReserve (s.node a) (w.sock a c) j (some t) q [])) := by
  have habout := about_reserve a c j t q
  have hplace := (h.job c j).place_sent hi
  have hdrop := (h.job c j).drop_token hi rfl rfl
  have hnode := h.node a
  obtain ⟨p, hp⟩ : ∃ p : ResourceToken, p = ⟨a.ip, a.port, t, q⟩ := ⟨_, rfl⟩
  rw [← hp] at hplace
  have ha : p.target.addr = a := by rw [hp]
  have ht : p.type = t := by rw [hp]
  have hq : p.cant = q := by rw [hp]
  subst ha ht hq
  -- the step of this job, the reply and the change at the node
  have hmove : ∀ {n : LocalNode} {out : List OutMsg} {b₁ : JobState}, JobStep R (b (c, j)) b₁ →
      Represents w ((s.drop i).atNode w p.target.addr (n, out)) c j b₁ →
      (∀ c' j', (c', j') ≠ (c, j) →
        SameJob (s.node p.target.addr) n j' (w.sock p.target.addr c')) →
      (∀ pkt ∈ replies w p.target.addr out, pkt.About (c, j)) →
      NodeOk w R p.target.addr n →
      Advances w R b ((s.drop i).atNode w p.target.addr (n, out)) := by
    intro n out b₁ hstep hown hsame hpkts hn
    refine Advances.of_update hstep (Tracks.advances (h.update hstep hown (fun c' j' hne => ?_)
      (h.nodeOk_atNode hn) fun c' j' hmem => (by cases hmem)))
    exact (SameView.drop hi habout hne).trans (.atNode (hsame c' j' hne) hpkts hne)
  have hreserved := reserved_handleReserve (s.node p.target.addr) (w.sock p.target.addr c) j
    (some p.type) p.cant []
  generalize handleReserve (s.node p.target.addr) (w.sock p.target.addr c) j (some p.type) p.cant []
    = result at hreserved ⊢
  cases hreserved with
  | refused _ =>
    exact hmove (.refuse _ p hplace) (hdrop.refuse rfl p) (fun _ _ _ => .refl _ _ _)
      (about_toFd w _ c (about_denied _ c j)) hnode
  | queued u hu htotal havail =>
    cases hu
    have hfit : p.cant ≤ R.total p.target := hnode.total p.type ▸ htotal
    exact hmove (.enqueue _ p hplace hfit) (hdrop.enqueue rfl p)
      (fun c' j' hne => sameJob_enqueue _ _ _ (w.key_ne _ hne)) (fun _ hpkt => (by cases hpkt))
      (hnode.enqueue c j p.cant p.type)
  | taken u hu htotal havail =>
    cases hu
    have hfit : p.cant ≤ R.total p.target := hnode.total p.type ▸ htotal
    exact hmove (.grant _ p hplace hfit) (hdrop.grant rfl p)
      (fun c' j' hne => sameJob_take _ _ _ (w.key_ne _ hne))
      (about_toFd w _ c (about_granted _ c (scanUnsigned_toNat j))) (hnode.take havail j _)

/-- A waiting request is one of a job whose petition is in this queue. -/
theorem place_queued (h : Tracks w R s b) {a : Addr} {t : Resource} {r : ElemJobRequest}
    (hr : r ∈ (s.node a).queue t) : ∃ c j p, (b (c, j)).place = .queued p ∧
      p.target = ⟨a, t⟩ ∧ r = ⟨j, w.sock a c, p.cant, t⟩ := by
  obtain ⟨c, hc⟩ := (h.node a).sockets t r hr
  have hmem : r ∈ (s.node a).requests r.jobId (w.sock a c) t :=
    List.mem_filter.mpr ⟨hr, by simp [hc]⟩
  rw [(h.job c r.jobId).requests] at hmem
  cases hplace : (b (c, r.jobId)).place with
  | nowhere | sent p | granted p | denied p =>
    rw [hplace] at hmem
    cases hmem
  | queued p =>
    rw [hplace, Place.waiting] at hmem
    split at hmem
    · rename_i htarget
      refine ⟨c, r.jobId, p, hplace, htarget, ?_⟩
      rw [List.mem_singleton.mp hmem, show p.type = t from congrArg NodeResource.type htarget]
    · cases hmem

/-- The node grants a request that waits; the answer can be lost. -/
theorem grantQueued (h : Tracks w R s b) {a : Addr} {t : Resource} {r : ElemJobRequest}
    (hfit : firstFitting ((s.node a).avail t) ((s.node a).queue t) = some r)
    {out : List OutMsg} (hout : out = [grantMsg r] ∨ out = []) :
    ∃ x b₁, JobStep R (b x) b₁ ∧
      Tracks w R (s.atNode w a (ResourceManager.grantQueued (s.node a) t r, out))
        (Function.update b x b₁) := by
  obtain ⟨c, j, p, hplace, htarget, rfl⟩ := h.place_queued (firstFitting_some hfit).1
  have ha : p.target.addr = a := congrArg NodeResource.addr htarget
  have ht : p.type = t := congrArg NodeResource.type htarget
  subst ha ht
  have hown := h.job c j
  have hrequests : (s.node p.target.addr).requests j (w.sock p.target.addr c) p.type =
      [⟨j, w.sock p.target.addr c, p.cant, p.type⟩] := by
    rw [hown.requests, hplace, Place.waiting, if_pos rfl]
  have hmove : ∀ {place : Place}, JobStep R (b (c, j)) { (b (c, j)).reserve p with place := place } →
      (out = [grantMsg ⟨j, w.sock p.target.addr c, p.cant, p.type⟩] ∧ place = .granted p ∨
        out = [] ∧ place = .nowhere) →
      (∀ pkt ∈ replies w p.target.addr out, pkt.About (c, j)) →
      Tracks w R (s.atNode w p.target.addr (ResourceManager.grantQueued (s.node p.target.addr) p.type
          ⟨j, w.sock p.target.addr c, p.cant, p.type⟩, out))
        (Function.update b (c, j) { (b (c, j)).reserve p with place := place }) := by
    intro place hstep hplaces hpkts
    refine h.update hstep (hown.wake hplace hplaces) (fun c' j' hne => ?_)
      (h.nodeOk_atNode ((h.node _).grantQueued hfit)) fun c' j' hmem => (by cases hmem)
    exact .atNode (sameJob_grantQueued rfl hrequests (w.key_ne _ hne)) hpkts hne
  rcases hout with rfl | rfl
  · have hstep : JobStep R (b (c, j)) _ := .wake _ p (.granted p) hplace (Or.inl rfl)
    exact ⟨(c, j), _, hstep, hmove hstep (Or.inl ⟨rfl, rfl⟩)
      (about_toFd w _ c (about_granted _ c (scanUnsigned_toInt j)))⟩
  · have hstep : JobStep R (b (c, j)) _ := .wake _ p .nowhere hplace (Or.inr rfl)
    exact ⟨(c, j), _, hstep, hmove hstep (Or.inr ⟨rfl, rfl⟩) fun _ hpkt => (by cases hpkt)⟩

/-- The wake-up loop: some of the answers reach the network. -/
theorem woken {a : Addr} {n n' : LocalNode} {gs : List ElemJobRequest} (hw : Woken n gs n') :
    ∀ {s : Cluster C} {b : C × UInt32 → JobState} {out : List OutMsg}, Tracks w R s b →
      s.node a = n → out.Sublist (gs.map grantMsg) →
      Advances w R b (s.atNode w a (n', out)) := by
  induction hw with
  | nil n =>
    intro s b out h hn hout
    rw [List.map_nil, List.sublist_nil] at hout
    rw [hout, ← hn, s.atNode_idle]
    exact (h.tell fun _ _ hmem => by cases hmem).advances
  | @cons n n' t r gs hfit hw ih =>
    intro s b out h hn hout
    subst hn
    have hsplit : ∃ out₁ out₂, out = out₁ ++ out₂ ∧ (out₁ = [grantMsg r] ∨ out₁ = []) ∧
        out₂.Sublist (gs.map grantMsg) := by
      rw [List.map_cons] at hout
      cases hout with
      | cons _ hrest => exact ⟨[], out, rfl, Or.inr rfl, hrest⟩
      | cons_cons _ hrest => exact ⟨[grantMsg r], _, rfl, Or.inl rfl, hrest⟩
    obtain ⟨out₁, out₂, rfl, hout₁, hout₂⟩ := hsplit
    obtain ⟨x, b₁, hstep, htracks⟩ := h.grantQueued hfit hout₁
    have hrest := ih htracks (s.node_atNode w a _) hout₂
    rw [s.atNode_atNode] at hrest
    exact Advances.of_update hstep hrest

theorem release (h : Tracks w R s b) {i : Nat} {a : Addr} {t : Resource} {q : UInt32}
    (hi : s.net[i]? = some (.request c a (.release j t q))) (rand : Nat → Nat) :
    Advances w R b ((s.drop i).atNode w a
      (handleRelease (s.node a) rand (w.sock a c) j [])) := by
  have habout : (Packet.request c a (.release j t q)).About (c, j) := by
    rintro y (hy | hy)
    · cases hy
    · exact (Option.some.inj hy).symm
  obtain ⟨l₁, l₂, hreleases, hdrop⟩ := (h.job c j).drop_release hi rfl rfl
  have hstep : JobStep R (b (c, j)) _ := .release _ l₁ a l₂ hreleases
  have hown := hdrop.reclaim a
  have hfirst := h.update hstep hown (fun c' j' hne => (SameView.drop hi habout hne).trans
    (.atNode (sameJob_delActiveJob (w.key_ne _ hne))
      (fun _ hpkt => by cases hpkt) hne))
    (h.nodeOk_atNode ((h.node a).delActiveJob j _)) fun c' j' hmem => (by cases hmem)
  obtain ⟨gs, n', hrun, hwoken, _⟩ := handleRelease_spec (s.node a) rand (w.sock a c) j []
  have hsub : ((announced gs).foldl addToOutbox []).Sublist (gs.map grantMsg) := by
    rw [foldl_addToOutbox _ [] (Nat.zero_le _), List.nil_append]
    exact (List.take_sublist _ _).trans (List.filter_sublist.map _)
  have hrest := woken hwoken hfirst (Cluster.node_atNode _ w a _) hsub
  rw [Cluster.atNode_atNode, List.nil_append] at hrest
  rw [hrun]
  exact Advances.of_update hstep hrest

/-! ## Steps and runs -/

/-- A message that neither party expects. -/
theorem inert (h : Tracks w R s b) {i : Nat} {pkt : Packet C} (hi : s.net[i]? = some pkt)
    (htoken : pkt.token = none) (hrelease : pkt.release = none) :
    Advances w R b { s.drop i with told := [] } :=
  (h.frame (fun _ _ => (SameView.drop_inert hi htoken hrelease).trans (.tell [])) h.node
    fun _ _ hmem => by cases hmem).advances

theorem deliver (h : Tracks w R s b) (i : Nat) (rand : Nat → Nat) :
    Advances w R b (s.step w (.deliver i rand)) := by
  rw [Cluster.step]
  cases hi : s.net[i]? with
  | none => exact h.advances
  | some pkt =>
    cases pkt with
    | request c a m =>
      have hidle : (s.drop i).atNode w a (s.node a, []) = { s.drop i with told := [] } :=
        (s.drop i).atNode_idle w a
      cases m with
      | reserve j t q => exact h.reserve hi
      | release j t q => exact h.release hi rand
      | granted | denied | jobGranted | jobDenied | jobTimeout | line =>
        dsimp only [onRequest]
        rw [hidle]
        exact h.inert hi rfl rfl
    | reply a c m =>
      have hidle : (s.drop i).atCoordinator c (s.jobs c, []) = { s.drop i with told := [] } :=
        (s.drop i).atCoordinator_idle c
      cases m with
      | granted n => exact h.granted hi
      | denied j => exact h.denied hi
      | reserve | release | jobGranted | jobDenied | jobTimeout | line =>
        dsimp only [onReply]
        rw [hidle]
        exact h.inert hi rfl rfl

end Tracks

end ResourceManager
