import ResourceManager.Cluster.Engaged
import ResourceManager.Cluster.Ledger
import ResourceManager.Inventory.WakeUps
import Mathlib.Data.FinEnum
import Mathlib.Data.Set.Finite.List

/-!
# The cluster does not get stuck

The requests of the scheduler are in order, so jobs do not wait for each other in a cycle.
That alone does not keep a job from waiting for nobody: a reservation can be orphaned, a
GRANTED can be lost, units can leak, a request that fits can be left waiting. In an
`Orderly` run nothing of this happens: from every job that waits, the jobs that hold what is
waited for lead to one that has all its petitions, or that a message in flight is about
(`never_stuck`).
-/

namespace ResourceManager

open HashTable LocalNode Library.Runs Library.OrderedAcquisition

variable {C : Type}

/-! ## Finitely many resources -/

instance finite_char : Finite Char := Finite.of_injective Char.val fun _ _ h => Char.ext h

instance : Finite Ip := by
  have : Finite {l : List Char | l.length ≤ 15} := (List.finite_length_le Char 15).to_subtype
  refine Finite.of_injective
    (fun ip : Ip => (⟨ip.text, ip.fits⟩ : {l : List Char | l.length ≤ 15})) ?_
  rintro ⟨text, _⟩ ⟨text', _⟩ h
  obtain rfl : text = text' := congrArg Subtype.val h
  rfl

instance : Finite Resource := by
  refine Finite.of_surjective (fun i : Fin 3 => Resource.ofIndex i) fun t => ?_
  cases t with
  | cpu => exact ⟨0, rfl⟩
  | gpu => exact ⟨1, rfl⟩
  | ram => exact ⟨2, rfl⟩

instance : Finite NodeResource := by
  refine Finite.of_injective (fun r : NodeResource => (r.addr.ip, r.addr.port, r.type)) ?_
  rintro ⟨⟨ip, port⟩, t⟩ ⟨⟨ip', port'⟩, t'⟩ h
  simp only [Prod.mk.injEq] at h
  obtain ⟨rfl, rfl, rfl⟩ := h
  rfl

/-! ## Rules that imply others -/

section Mono

/-- What `R` allows, `R'` allows. -/
structure Rules.Le (R R' : Rules) : Prop where
  total : R.total = R'.total
  admissible : ∀ ps, R.admissible ps → R'.admissible ps
  mayAbandon : ∀ b, R.mayAbandon b → R'.mayAbandon b

variable {R R' : Rules} {b b' : JobState}

theorem JobStep.mono (hR : R.Le R') (h : JobStep R b b') : JobStep R' b b' := by
  cases h with
  | register ps hnew hok => exact .register b ps hnew (hR.admissible ps hok)
  | refuse p h => exact .refuse b p h
  | enqueue p h hfit => exact .enqueue b p h (hR.total ▸ hfit)
  | grant p h hfit => exact .grant b p h (hR.total ▸ hfit)
  | wake p place h hplace => exact .wake b p place h hplace
  | accept p h hpresent => exact .accept b p h hpresent
  | ignore p h => exact .ignore b p h
  | deny p h => exact .deny b p h
  | abandon h => exact .abandon b fun hpresent => hR.mayAbandon b (h hpresent)
  | release l₁ a l₂ h => exact .release b l₁ a l₂ h

theorem JobSteps.mono (hR : R.Le R') (h : JobSteps R b b') : JobSteps R' b b' :=
  Relation.ReflTransGen.mono (fun _ _ hstep => JobStep.mono hR hstep) _ _ h

theorem Sound.mono (hR : R.Le R') (h : Sound R b) : Sound R' b where
  done_le := h.done_le
  petition := h.petition
  queued p hp := hR.total ▸ h.queued p hp
  held r q hr := by
    obtain ⟨i, p, hp, ht, hreached⟩ := h.held r q hr
    exact ⟨i, p, hp, ht, hreached.imp_right fun ⟨hi, hmay, hfit⟩ => ⟨hi, hmay, hR.total ▸ hfit⟩⟩
  released := h.released
  unasked := h.unasked
  asked ps hps := hR.admissible ps (h.asked ps hps)

theorem Tracks.mono [DecidableEq C] {w : Wiring C} {s : Cluster C} {b : C × UInt32 → JobState}
    (hR : R.Le R') (h : Tracks w R s b) : Tracks w R' s b where
  node a := ⟨(h.node a).committed, fun t => hR.total ▸ (h.node a).total t, (h.node a).sockets⟩
  job := h.job
  sound x := (h.sound x).mono hR
  told := h.told

end Mono

/-! ## Orderly runs -/

def orderlyRules (capacity : Addr → Resource → UInt32) : Rules where
  total r := capacity r.addr r.type
  admissible := Sendable
  mayAbandon := Settled fun r => capacity r.addr r.type

section Rules

variable {capacity : Addr → Resource → UInt32}

theorem orderly_le_increasing : (orderlyRules capacity).Le (increasingRules capacity) :=
  ⟨rfl, fun _ h => h.1, fun _ _ => trivial⟩

theorem orderly_le_settled : (orderlyRules capacity).Le (settledRules capacity) :=
  ⟨rfl, fun _ _ => trivial, fun _ h => h⟩

theorem orderly_nodup (ps : List ResourceToken) (h : (orderlyRules capacity).admissible ps) :
    (ps.map ResourceToken.target).Nodup := nodup_of_sendable h

theorem orderly_port (ps : List ResourceToken) (h : (orderlyRules capacity).admissible ps) :
    ∀ p ∈ ps, p.port ≠ 0 := h.2

end Rules

namespace Cluster

variable [DecidableEq C]

/-- Requests are new and in the order of the scheduler, every grant is announced, and only
settled jobs are ended by JOB_RELEASE or timeout. -/
def Orderly (w : Wiring C) (s : Cluster C) (a : Action C) : Prop :=
  s.Asks Sendable a ∧ s.Heard a ∧ ∀ x ∈ s.ending a, s.Settled w x

instance (w : Wiring C) (s : Cluster C) (a : Action C) : Decidable (s.Orderly w a) :=
  inferInstanceAs (Decidable (s.Asks Sendable a ∧ s.Heard a ∧ ∀ x ∈ s.ending a, s.Settled w x))

end Cluster

section Nodes

variable [DecidableEq C] {w : Wiring C} {R : Rules} {s : Cluster C} {b : C × UInt32 → JobState}

/-- Nobody waits for what is available. -/
theorem Tracks.noneFits_step (h : Tracks w R s b) (haudible : s.Audible)
    (hnone : ∀ a, (s.node a).NoneFits) (act : Action C) (a : Addr) :
    ((s.step w act).node a).NoneFits := by
  cases act with
  | jobRequest | jobRelease | timeout => exact hnone a
  | deliver i rand =>
    rw [Cluster.step]
    cases hi : s.net[i]? with
    | none => exact hnone a
    | some pkt =>
      cases pkt with
      | reply => exact hnone a
      | request c a' m =>
        show LocalNode.NoneFits (Function.update s.node a' _ a)
        by_cases ha : a = a'
        · subst ha
          rw [Function.update_self]
          cases m with
          | reserve j t q => exact noneFits_handleReserve (hnone a) _ _ _ _ _
          | release j t q =>
            obtain ⟨gs, n', hrun, hwoken, hloud⟩ :=
              handleRelease_spec (s.node a) rand (w.sock a c) j []
            rw [onRequest, hrun]
            refine hloud fun r hr => ?_
            obtain ⟨u, hu, _⟩ := hwoken.mem_queue r hr
            rw [queue_delActiveJob] at hu
            exact haudible.not_silent h hu
          | granted | denied | jobGranted | jobDenied | jobTimeout | line => exact hnone a
        · rw [Function.update_of_ne ha]
          exact hnone a

end Nodes

/-! ## What holds in every state -/

/-- The cluster and the lives of its jobs in an orderly run. -/
structure Healthy [DecidableEq C] (w : Wiring C) (capacity : Addr → Resource → UInt32)
    (s : Cluster C) (b : C × UInt32 → JobState) : Prop where
  tracks : Tracks w (orderlyRules capacity) s b
  lives : ∀ x, JobSteps (orderlyRules capacity) JobState.initial (b x)
  books : ∀ a, Books w a (s.node a)
  engaged : s.Engaged w
  audible : s.Audible
  noneFits : ∀ a, (s.node a).NoneFits

namespace Healthy

variable [DecidableEq C] {w : Wiring C} {capacity : Addr → Resource → UInt32} {s : Cluster C}
  {b : C × UInt32 → JobState}

theorem initial (w : Wiring C) (capacity : Addr → Resource → UInt32) :
    Healthy w capacity (Cluster.initial capacity) fun _ => JobState.initial where
  tracks := tracks_initial fun _ _ => rfl
  lives _ := .refl
  books := books_initial w capacity
  engaged x job hjob := by
    have hnone : (createOwnedJobs.job x.2) = some job := hjob
    rw [job_createOwnedJobs] at hnone
    cases hnone
  audible _ := rfl
  noneFits _ _ _ hr := absurd hr List.not_mem_nil

theorem step (h : Healthy w capacity s b) {act : Action C} (ha : s.Orderly w act) :
    ∃ b', Healthy w capacity (s.step w act) b' ∧
      ∀ x, JobSteps (orderlyRules capacity) (b x) (b' x) := by
  obtain ⟨hasks, hheard, hends⟩ := ha
  have hsettled : ∀ x ∈ s.ending act, (b x).present = true →
      (orderlyRules capacity).mayAbandon (b x) := fun x hx hpresent =>
    (h.tracks.mono orderly_le_settled).settled (hends x hx) hpresent
  obtain ⟨b', htracks, hsteps⟩ := h.tracks.step act hasks hsettled
  refine ⟨b', ⟨htracks, fun x => (h.lives x).trans (hsteps x), ?_, ?_, ?_, ?_⟩, hsteps⟩
  · exact h.tracks.books_step orderly_nodup h.books act
  · exact Cluster.engaged_step h.engaged h.audible h.tracks orderly_port hheard
  · exact Cluster.audible_step h.audible hheard
  · exact h.tracks.noneFits_step h.audible h.noneFits act

theorem run {as : List (Action C)} (h : Along (Cluster.step w) (Cluster.Orderly w)
    (Cluster.initial capacity) as) :
    ∃ b, Healthy w capacity (Library.Runs.run (Cluster.step w) (Cluster.initial capacity) as) b := by
  refine run_invariant (I := fun s => ∃ b, Healthy w capacity s b) ?_ ⟨_, .initial w capacity⟩ h
  rintro s act ⟨b, hb⟩ ha
  obtain ⟨b', hb', _⟩ := hb.step ha
  exact ⟨b', hb'⟩

/-- Of what is waited for, something is held. -/
theorem held_of_waits (h : Healthy w capacity s b) {x : C × UInt32} {r : NodeResource}
    (hwaits : s.Waits w x r) : ∃ y, s.Holds w y r := by
  obtain ⟨e, he, hj, hk⟩ := hwaits
  have hlt := UInt32.lt_iff_toNat_lt.mp (h.noneFits r.addr r.type e he)
  obtain ⟨c, j, p, hplace, htarget, rfl⟩ := h.tracks.place_queued he
  have hfit : p.cant ≤ (s.node r.addr).total r.type := by
    rw [(h.tracks.node r.addr).total r.type]
    have := (h.tracks.sound (c, j)).queued p hplace
    rw [htarget] at this
    exact this
  have hbalanced := (h.books r.addr).balanced r.type
  have hunits : (s.node r.addr).units r.type ≠ 0 := by
    have := UInt32.le_iff_toNat_le.mp hfit
    dsimp only at hlt
    omega
  have hsome : ∃ e ∈ (s.node r.addr).held, e.resourceType = r.type := by
    by_contra hnone
    push Not at hnone
    apply hunits
    refine List.sum_eq_zero fun n hn => ?_
    obtain ⟨e, he, rfl⟩ := List.mem_map.mp hn
    exact if_neg (hnone e he)
  obtain ⟨e, he, ht⟩ := hsome
  obtain ⟨c', hc'⟩ := (h.books r.addr).sockets e he
  exact ⟨(c', e.jobId), e, he, rfl, hc', ht⟩

end Healthy

/-! ## Progress -/

namespace Cluster

variable (s : Cluster C) (x : C × UInt32)

/-- The job has all its petitions, and its scheduler has been told. -/
def Granted : Prop := ∃ job, (s.jobs x.1).job x.2 = some job ∧ job.grantNotified = true

/-- A message about the job is in flight. -/
def Moving : Prop := ∃ pkt ∈ s.net, pkt.token = some x ∨ pkt.release = some x

end Cluster

/-- A job that holds something and waits for nothing has all its petitions, or a message
about it is in flight. -/
theorem Healthy.granted_or_moving [DecidableEq C] {w : Wiring C}
    {capacity : Addr → Resource → UInt32} {s : Cluster C} {b : C × UInt32 → JobState}
    (h : Healthy w capacity s b) {x : C × UInt32} {r : NodeResource} (hholds : s.Holds w x r)
    (hwaits : ∀ r, ¬ s.Waits w x r) : s.Granted x ∨ s.Moving x := by
  have hown := h.tracks.job x.1 x.2
  have hsound := h.tracks.sound x
  obtain ⟨q, hq⟩ := (hown.holds_iff r).mp hholds
  change (b x).held r = some q at hq
  cases hpresent : (b x).present with
  | true =>
    obtain ⟨job, hjob, hstage⟩ := hown.present hpresent
    rcases h.engaged x job hjob with hnotified | hempty | htokens | ⟨r', hr'⟩
    · exact Or.inl ⟨job, hjob, hnotified⟩
    · obtain ⟨i, p, hp, _⟩ := hsound.held r q hq
      have hlen : (b x).petitions.length = 0 := by
        rw [← hstage.length, hempty]
        rfl
      have := (List.getElem?_eq_some_iff.mp hp).1
      omega
    · obtain ⟨pkt, hpkt⟩ := List.exists_mem_of_ne_nil _ htokens
      obtain ⟨hnet, htoken⟩ := List.mem_filter.mp hpkt
      exact Or.inr ⟨pkt, hnet, Or.inl (of_decide_eq_true htoken)⟩
    · exact absurd hr' (hwaits r')
  | false =>
    have hasked : (b x).asked ≠ none := by
      intro hnone
      rw [(hsound.nothing hnone).2.2.1 r] at hq
      cases hq
    have hcovered := covered_of_steps ((h.lives x).mono orderly_le_settled) hasked hpresent
    have hmem : r.addr ∈ (b (x.1, x.2)).releases := hcovered.held r q hq
    rw [← hown.releases] at hmem
    obtain ⟨pkt, hpkt, _⟩ := List.mem_map.mp hmem
    obtain ⟨hnet, hrelease⟩ := List.mem_filter.mp hpkt
    exact Or.inr ⟨pkt, hnet, Or.inr (of_decide_eq_true hrelease)⟩

/-- From a job that waits, the jobs that hold what is waited for lead to one that has all
its petitions or that a message in flight is about. -/
theorem Healthy.leads_on [DecidableEq C] {w : Wiring C} {capacity : Addr → Resource → UInt32}
    {s : Cluster C} {b : C × UInt32 → JobState} (h : Healthy w capacity s b) {x : C × UInt32}
    {r : NodeResource} (hwaits : s.Waits w x r) : ∃ y,
      Relation.TransGen (WaitsFor (s.Holds w) (s.Waits w)) x y ∧ (s.Granted y ∨ s.Moving y) := by
  have hord : ∀ x r r', s.Holds w x r → s.Waits w x r' → r < r' := by
    intro x r r' hholds hwaits
    have hjob := h.tracks.job x.1 x.2
    obtain ⟨q, hq⟩ := (hjob.holds_iff r).mp hholds
    obtain ⟨p, hp, rfl⟩ := (hjob.waits_iff r').mp hwaits
    exact ((h.tracks.sound x).mono orderly_le_increasing).held_lt hq (Or.inr hp)
  obtain ⟨y, hchain, hfree⟩ := exists_not_waiting hord (fun _ _ => h.held_of_waits) hwaits
  obtain ⟨_, r', _, hholds, _⟩ := chain_le hord hchain
  exact ⟨y, hchain, h.granted_or_moving hholds hfree⟩

/-- In every state of every orderly run, every job that waits leads on. -/
theorem never_stuck [DecidableEq C] (w : Wiring C) (capacity : Addr → Resource → UInt32)
    (as : List (Action C))
    (h : Along (Cluster.step w) (Cluster.Orderly w) (Cluster.initial capacity) as) :
    let s := run (Cluster.step w) (Cluster.initial capacity) as
    ∀ x r, s.Waits w x r → ∃ y,
      Relation.TransGen (WaitsFor (s.Holds w) (s.Waits w)) x y ∧ (s.Granted y ∨ s.Moving y) := by
  intro s x r hwaits
  obtain ⟨b, hb⟩ : ∃ b, Healthy w capacity s b := Healthy.run h
  exact hb.leads_on hwaits

/-- The second job waits for the first one, whose second RESERVE is on its way. -/
theorem never_stuck_race :
    let s := run (Cluster.step twoCoordinators) (Cluster.initial oneOfEach) race
    ∃ y, Relation.TransGen (WaitsFor (s.Holds twoCoordinators) (s.Waits twoCoordinators))
      (true, 1) y ∧ (s.Granted y ∨ s.Moving y) := by
  intro s
  have hwaits : s.Waits twoCoordinators (true, 1) ⟨firstAddr, .cpu⟩ := by decide +kernel
  exact never_stuck twoCoordinators oneOfEach race (by decide +kernel) (true, 1) _ hwaits

end ResourceManager
