import ResourceManager.Cluster.Drains

/-!
# Jobs that have been granted

A scheduler is told at most once that its job has been granted, when the coordinator marks
the last petition of the job (`Tracks.advice`), and the job stays granted until the scheduler
releases it (`Tracks.granted_step`). Where nobody asks for more than the nodes have, no job is
denied (`Modest.step`).
-/

namespace ResourceManager

open HashTable LocalNode

variable {C : Type} [DecidableEq C] {w : Wiring C} {R : Rules} {s : Cluster C}
  {b : C × UInt32 → JobState} {x : C × UInt32} {c : C} {j : UInt32} {act : Action C}

namespace Tracks

theorem granted_iff (h : Tracks w R s b) : s.Granted x ↔ (b x).present = true ∧
    0 < (b x).petitions.length ∧ (b x).done = (b x).petitions.length := by
  have hjob := h.job x.1 x.2
  constructor
  · rintro ⟨job, hget, hnotified⟩
    have hpresent : (b x).present = true := by
      by_contra hp
      rw [hjob.absent (Bool.eq_false_iff.mpr hp)] at hget
      cases hget
    obtain ⟨job', hget', hstage⟩ := hjob.present hpresent
    obtain rfl : job = job' := Option.some.inj (hget.symm.trans hget')
    rw [hstage.notified, decide_eq_true_iff] at hnotified
    exact ⟨hpresent, hnotified⟩
  · rintro ⟨hpresent, hlen⟩
    obtain ⟨job, hget, hstage⟩ := hjob.present hpresent
    exact ⟨job, hget, by rw [hstage.notified, decide_eq_true_iff]; exact hlen⟩

/-- A job with a petition in progress has not been granted. -/
theorem not_granted (h : Tracks w R s b) {p : ResourceToken} (hp : (b x).place.petition = some p) :
    ¬ s.Granted x := by
  intro hx
  have hlt := (h.sound x).done_lt hp
  have hdone := (h.granted_iff.mp hx).2.2
  omega

end Tracks

/-! ## What a step does -/

/-- What a step tells the schedulers. -/
inductive Advice (s s' : Cluster C) : List (C × Message) → Prop
  | granted (x : C × UInt32) (hbefore : ¬ s.Granted x) (hafter : s'.Granted x) :
      Advice s s' [(x.1, .jobGranted x.2)]
  | ended {told : List (C × Message)} (h : ∀ n ∈ told, ∃ j, n.2 = .jobTimeout j ∨
      n.2 = .jobDenied j ∧ ∃ a, Packet.reply a n.1 (.denied j) ∈ s.net) : Advice s s' told

/-- What is granted stays granted, and the schedulers are told what the step has done. -/
structure Steady (s s' : Cluster C) : Prop where
  granted : ∀ x, s.Granted x → s'.Granted x
  told : Advice s s' s'.told

omit [DecidableEq C] in
theorem Advice.silent {s s' : Cluster C} {told : List (C × Message)} (h : told = []) :
    Advice s s' told :=
  .ended fun _ hn => absurd (h ▸ hn) List.not_mem_nil

omit [DecidableEq C] in
/-- The jobs are left as they are, and nothing is told. -/
theorem Steady.of_jobs {s' : Cluster C} (hjobs : s'.jobs = s.jobs) (htold : s'.told = []) :
    Steady s s' where
  granted x hx := by
    rw [Cluster.Granted, hjobs]
    exact hx
  told := .silent htold

/-- A coordinator has changed jobs that had not been granted. -/
theorem Steady.atCoordinator {s₀ : Cluster C} (result : OwnedJobs × List OutMsg)
    (hkeep : ∀ i, s.Granted (c, i) → result.1.job i = (s.jobs c).job i)
    (htold : Advice s (s₀.atCoordinator c result) (notices c result.2))
    (hjobs : s₀.jobs = s.jobs) : Steady s (s₀.atCoordinator c result) where
  granted x hx := by
    obtain ⟨job, hjob, hnotified⟩ := hx
    refine ⟨job, ?_, hnotified⟩
    show (Function.update s₀.jobs c result.1 x.1).job x.2 = _
    by_cases hc : x.1 = c
    · subst hc
      rw [Function.update_self, hkeep x.2 ⟨job, hjob, hnotified⟩, hjob]
    · rw [Function.update_of_ne hc, hjobs, hjob]
  told := htold

section Notices

omit [DecidableEq C]

/-- An outbox has no other notices than those put into it. -/
theorem mem_notices_foldl {ms out : List OutMsg} {n : C × Message}
    (hn : n ∈ notices c (ms.foldl addToOutbox out)) : n ∈ notices c out ∨ n ∈ notices c ms := by
  obtain ⟨m, hm, he⟩ := List.mem_filterMap.mp hn
  rcases mem_foldl_addToOutbox hm with hm | hm
  · exact Or.inl (List.mem_filterMap.mpr ⟨m, hm, he⟩)
  · exact Or.inr (List.mem_filterMap.mpr ⟨m, hm, he⟩)

/-- A rollback tells of the end of the job. -/
theorem mem_notices_rollback {notice : Option (UInt32 → Message)} {state : OwnedJobs × List OutMsg}
    {i : UInt32} {n : C × Message}
    (hn : n ∈ notices c (rollback (fun _ => false) notice state i).2) :
    n ∈ notices c state.2 ∨ ∃ msg ∈ notice, n = (c, msg i) := by
  rw [outbox_rollback] at hn
  refine (mem_notices_foldl hn).imp_right fun hn => ?_
  obtain ⟨m, hm, he⟩ := List.mem_filterMap.mp hn
  split at he
  · rename_i hip
    rcases List.mem_append.mp hm with hm | hm
    · obtain ⟨p, _, rfl⟩ := List.mem_map.mp hm
      cases hip
    · obtain ⟨msg, hmsg, rfl⟩ := List.mem_map.mp hm
      exact ⟨msg, Option.mem_toList.mp hmsg, (Option.some.inj he).symm⟩
  · cases he

/-- A timer tells of timeouts. -/
theorem mem_notices_timeoutLoop {n : C × Message} :
    ∀ {ids : List UInt32} {state : OwnedJobs × List OutMsg},
      n ∈ notices c (timeoutLoop ids state).2 → n ∈ notices c state.2 ∨ ∃ j, n.2 = .jobTimeout j
  | [], _, hn => Or.inl hn
  | i :: ids, state, hn => by
    rw [timeoutLoop] at hn
    split at hn
    · exact Or.inl hn
    · refine (mem_notices_timeoutLoop hn).elim (fun hn => ?_) Or.inr
      refine (mem_notices_rollback hn).imp_right ?_
      rintro ⟨msg, hmsg, he⟩
      cases hmsg
      exact ⟨i, congrArg Prod.snd he⟩

end Notices

namespace Tracks

theorem steady_jobRequest (h : Tracks w R s b) (hnew : s.asked c j = none) (now : Int) (k : UInt32)
    (ps : List ResourceToken) : Steady s (s.step w (.jobRequest c now k j ps)) := by
  have habsent := (h.job c j).absent
    ((h.sound (c, j)).nothing ((h.job c j).asked.symm.trans hnew)).1
  have htold : notices c (handleJobRequest (s.jobs c) now k j ps []).2 = [] := by
    rw [outbox_handleJobRequest]
    cases ps <;> rfl
  have hsteady : Steady s (s.atCoordinator c (handleJobRequest (s.jobs c) now k j ps [])) := by
    refine .atCoordinator _ (fun i hi => ?_) ?_ rfl
    · rw [job_handleJobRequest, if_neg]
      rintro rfl
      obtain ⟨job, hjob, _⟩ := hi
      rw [habsent] at hjob
      cases hjob
    · exact .silent htold
  exact ⟨hsteady.granted, .silent htold⟩

theorem steady_timeout (now : Int) : Steady s (s.step w (.timeout c now)) := by
  refine .atCoordinator (onTimer (s.jobs c) now) (fun i hi => ?_) (.ended fun n hn => ?_) rfl
  · obtain ⟨job, hjob, hnotified⟩ := hi
    dsimp only at hjob
    cases hstep : (onTimer (s.jobs c) now).1.job i with
    | some job' => exact (job_of_timeoutLoop _ _ hstep).symm
    | none =>
      have hmem := (mem_of_timeoutLoop_none _ _ hstep).resolve_left (by
        rw [hjob]
        exact Option.some_ne_none job)
      obtain ⟨job', hjob', hnot⟩ := mem_timedOut hmem
      obtain rfl := Option.some.inj (hjob.symm.trans hjob')
      rw [hnotified] at hnot
      cases hnot
  · obtain ⟨i, hi⟩ := (mem_notices_timeoutLoop hn).resolve_left List.not_mem_nil
    exact ⟨i, Or.inl hi⟩

theorem steady_denied (h : Tracks w R s b) {i : Nat} {a : Addr}
    (hi : s.net[i]? = some (.reply a c (.denied j))) :
    Steady s ((s.drop i).atCoordinator c (handleDenied (s.jobs c) j [])) := by
  obtain ⟨p, hplace⟩ := (h.job c j).place_denied hi
  have hnot : ¬ s.Granted (c, j) := h.not_granted (by rw [hplace]; rfl)
  refine .atCoordinator (handleDenied (s.jobs c) j []) (fun k hk => ?_) (.ended fun n hn => ?_)
    rfl
  · rw [handleDenied, job_rollback, if_neg]
    rintro rfl
    exact hnot hk
  · obtain ⟨msg, hmsg, rfl⟩ := (mem_notices_rollback hn).resolve_left List.not_mem_nil
    cases hmsg
    exact ⟨j, Or.inr ⟨rfl, a, List.mem_of_getElem? hi⟩⟩

theorem steady_granted (h : Tracks w R s b) {i : Nat} {a : Addr} {n : Int}
    (hi : s.net[i]? = some (.reply a c (.granted n))) :
    Steady s ((s.drop i).atCoordinator c
      (handleGranted (s.jobs c) a.ip a.port (scanUnsigned n) [])) := by
  obtain ⟨j, hj⟩ : ∃ j, scanUnsigned n = j := ⟨_, rfl⟩
  rw [hj]
  obtain ⟨p, hplace, rfl⟩ := (h.job c j).place_granted hj hi
  have hget := (h.sound (c, j)).petition p (by rw [hplace]; rfl)
  have hnot : ¬ s.Granted (c, j) := h.not_granted (by rw [hplace]; rfl)
  by_cases haccept : (b (c, j)).present = true ∧ p.port ≠ 0
  · obtain ⟨hpresent, hport⟩ := haccept
    obtain ⟨job, hjob, hstage⟩ := (h.job c j).present hpresent
    obtain ⟨job', hstage', _, hjobs, hout⟩ := handleGranted_accepted hjob hstage hget hport []
    generalize handleGranted (s.jobs c) p.target.addr.ip p.target.addr.port j [] = result
      at hjobs hout ⊢
    refine .atCoordinator result (fun k hk => ?_) ?_ rfl
    · rw [hjobs, if_neg]
      rintro rfl
      exact hnot hk
    · rw [hout, addToOutbox_nil, grantedAnswer]
      cases ht : (b (c, j)).petitions[(b (c, j)).done + 1]? with
      | some t => exact .silent rfl
      | none =>
        have hlen := List.getElem?_eq_none_iff.mp ht
        have hlt := (List.getElem?_eq_some_iff.mp hget).1
        refine .granted (c, j) hnot ⟨job', ?_, ?_⟩
        · show (Function.update s.jobs c result.1 c).job j = some job'
          rw [Function.update_self, hjobs, if_pos rfl]
        · rw [hstage'.notified, decide_eq_true_iff]
          omega
  · have hignored : handleGranted (s.jobs c) p.target.addr.ip p.target.addr.port j [] =
        (s.jobs c, []) := by
      refine handleGranted_ignored ?_ []
      by_cases hport : p.port = 0
      · exact Or.inl hport
      · refine Or.inr fun job hjob => ?_
        have habsent : (b (c, j)).present = false := by
          by_contra hp
          exact haccept ⟨Bool.eq_true_of_not_eq_false hp, hport⟩
        rw [(h.job c j).absent habsent] at hjob
        cases hjob
    rw [hignored]
    exact .atCoordinator (s.jobs c, []) (fun _ _ => rfl) (.silent rfl) rfl

theorem steady_deliver (h : Tracks w R s b) {i : Nat} (hi : i < s.net.length) (rand : Nat → Nat) :
    Steady s (s.step w (.deliver i rand)) := by
  rw [Cluster.step]
  have hget := List.getElem?_eq_getElem hi
  generalize s.net[i] = pkt at hget
  rw [hget]
  cases pkt with
  | request c a m => exact .of_jobs rfl rfl
  | reply a c m =>
    cases m with
    | granted n => exact h.steady_granted hget
    | denied j => exact h.steady_denied hget
    | reserve | release | jobGranted | jobDenied | jobTimeout | line =>
      exact .atCoordinator (s.jobs c, []) (fun _ _ => rfl) (.silent rfl) rfl

end Tracks

/-- A JOB_RELEASE tells nothing. -/
theorem told_jobRelease (s : Cluster C) (c : C) (j : UInt32) :
    (s.step w (.jobRelease c j)).told = [] := by
  refine List.eq_nil_iff_forall_not_mem.mpr fun n hn => ?_
  obtain ⟨_, hmsg, _⟩ := (mem_notices_rollback hn).resolve_left List.not_mem_nil
  cases hmsg

theorem granted_jobRelease {y : C × UInt32} (hy : s.Granted y) (hne : y ≠ (c, j)) :
    (s.step w (.jobRelease c j)).Granted y := by
  obtain ⟨job, hjob, hnotified⟩ := hy
  refine ⟨job, ?_, hnotified⟩
  show (Function.update s.jobs c (handleJobRelease (s.jobs c) j []).1 y.1).job y.2 = _
  by_cases hc : y.1 = c
  · subst hc
    rw [Function.update_self, handleJobRelease, job_rollback, if_neg, hjob]
    rintro rfl
    exact hne rfl
  · rw [Function.update_of_ne hc, hjob]

/-! ## Requests that fit -/

/-- What has been asked for fits in the nodes, and no refusal is in flight. -/
structure Modest (R : Rules) (s : Cluster C) : Prop where
  fits : ∀ c j ps, s.asked c j = some ps → ∀ p ∈ ps, p.cant ≤ R.total p.target
  undenied : ∀ a c j, Packet.reply a c (.denied j) ∉ s.net

omit [DecidableEq C] in
theorem reply_notMem_sent (c : C) (out : List OutMsg) (a : Addr) (c' : C) (m : Message) :
    Packet.reply a c' m ∉ sent c out := by
  intro hmem
  obtain ⟨m', _, he⟩ := List.mem_filterMap.mp hmem
  obtain ⟨ip, _, he⟩ := Option.map_eq_some_iff.mp he
  cases he

omit [DecidableEq C] in
theorem message_of_mem_replies {a a' : Addr} {m : Message} {out : List OutMsg}
    (hmem : Packet.reply a' c m ∈ replies w a out) : ∃ m' ∈ out, m'.message = m := by
  obtain ⟨m', hm', he⟩ := List.mem_filterMap.mp hmem
  split at he
  · cases he
  · obtain ⟨_, _, he⟩ := Option.map_eq_some_iff.mp he
    cases he
    exact ⟨m', hm', rfl⟩

/-- A node refuses nothing that fits. -/
theorem undenied_onRequest {n : LocalNode} (k : UInt32) (rand : Nat → Nat) {m : Message}
    (hfits : ∀ j t q, m = .reserve j t q → q ≤ n.total t) :
    ∀ m' ∈ (onRequest n k rand m).2, ∀ j, m'.message ≠ .denied j := by
  cases m with
  | reserve j t q =>
    have hreserved := reserved_handleReserve n k j (some t) q []
    rw [onRequest]
    generalize handleReserve n k j (some t) q [] = result at hreserved
    cases hreserved with
    | refused hlt => exact absurd (hlt t rfl) (UInt32.not_lt.mpr (hfits j t q rfl))
    | queued => exact fun _ hm => absurd hm List.not_mem_nil
    | taken =>
      intro m' hm i
      rw [addToOutbox_nil, List.mem_singleton] at hm
      subst hm
      exact fun he => by cases he
  | release j t q =>
    obtain ⟨gs, n', hrun, _⟩ := handleRelease_spec n rand k j []
    rw [onRequest, hrun]
    intro m' hm i he
    rcases mem_foldl_addToOutbox hm with hm | hm
    · cases hm
    · obtain ⟨g, _, rfl⟩ := List.mem_map.mp hm
      cases he
  | granted | denied | jobGranted | jobDenied | jobTimeout | line =>
    exact fun _ hm => absurd hm List.not_mem_nil

namespace Modest

/-- A coordinator sends no refusals. -/
theorem atCoordinator (h : Modest R s) (c : C) (result : OwnedJobs × List OutMsg) :
    Modest R (s.atCoordinator c result) where
  fits := h.fits
  undenied a c' j hmem := by
    rcases List.mem_append.mp hmem with hmem | hmem
    · exact h.undenied a c' j hmem
    · exact reply_notMem_sent c result.2 a c' _ hmem

omit [DecidableEq C] in
theorem drop (h : Modest R s) (i : Nat) : Modest R (s.drop i) where
  fits := h.fits
  undenied a c j hmem := h.undenied a c j ((List.eraseIdx_sublist _ i).subset hmem)

/-- A petition on its way fits in its node. -/
theorem reserve_le (h : Modest R s) (htracks : Tracks w R s b) {i : Nat} {a : Addr} {t : Resource}
    {q : UInt32} (hi : s.net[i]? = some (.request c a (.reserve j t q))) :
    q ≤ (s.node a).total t := by
  have hown := htracks.job c j
  have hget := (htracks.sound (c, j)).petition _ (by rw [hown.place_sent hi]; rfl)
  have hmem := List.mem_of_mem_take (List.mem_of_getElem? hget)
  cases hasked : (b (c, j)).asked with
  | none =>
    rw [hasked] at hmem
    cases hmem
  | some ps =>
    rw [hasked] at hmem
    rw [(htracks.node a).total t]
    exact h.fits c j ps (hown.asked.trans hasked) _ hmem

theorem step (h : Modest R s) (htracks : Tracks w R s b)
    (hasks : s.Asks (fun ps => ∀ p ∈ ps, p.cant ≤ R.total p.target) act) :
    Modest R (s.step w act) := by
  cases act with
  | jobRequest c now k j ps =>
    refine ⟨fun c' i ps' hps' => ?_, (h.atCoordinator c _).undenied⟩
    have hps' : Function.update s.asked c (Function.update (s.asked c) j (some ps)) c' i =
        some ps' := hps'
    by_cases hx : (c', i) = (c, j)
    · obtain ⟨rfl, rfl⟩ := Prod.mk.inj hx
      rw [Function.update_self, Function.update_self] at hps'
      cases hps'
      exact hasks.2
    · have hold := (SameView.ask ps hx : SameView w s _ c' i).asked
      exact h.fits c' i ps' (hold.symm.trans hps')
  | jobRelease c j => exact h.atCoordinator c _
  | timeout c now => exact h.atCoordinator c _
  | deliver i rand =>
    rw [Cluster.step]
    cases hi : s.net[i]? with
    | none => exact h
    | some pkt =>
      cases pkt with
      | reply a c m => exact (h.drop i).atCoordinator c _
      | request c a m =>
        refine ⟨h.fits, fun a' c' j hmem => ?_⟩
        rcases List.mem_append.mp hmem with hmem | hmem
        · exact (h.drop i).undenied a' c' j hmem
        · obtain ⟨m', hm', he⟩ := message_of_mem_replies hmem
          refine undenied_onRequest _ rand (fun j' t q hm => ?_) m' hm' j he
          subst hm
          exact h.reserve_le htracks hi

end Modest

end ResourceManager
