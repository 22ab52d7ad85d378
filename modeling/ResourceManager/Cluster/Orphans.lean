import ResourceManager.Cluster.Runs

/-!
# Orphaned reservations

A coordinator that ends a job releases the petitions it has marked as granted. The petition
in progress is forgotten: nothing takes its RESERVE back, and the GRANTED that comes later
finds no job. When a job is refused there is no such petition. A JOB_RELEASE or a timeout can
find one, and then leaves a reservation or a request that nobody will release, unless the
petition is `Settled`; a run without such steps leaves no orphan (`no_orphans`).
-/

namespace ResourceManager

open Library.Runs

variable {C : Type} [DecidableEq C]

/-! ## Jobs that can be ended -/

/-- The petition that was sent and not marked as granted. -/
def ElemOwnedJob.awaited (job : ElemOwnedJob) : Option JobPetition :=
  if job.nextReserveIdx = 0 then none
  else job.petitions[job.nextReserveIdx - 1]?.filter fun p => !p.isGranted

/-- The end of the job forgets nothing: the petition in progress, if there is one, asks for
more than its node has in total, or it is neither in flight nor queued and, if its node has
reserved something for it, the job has a petition there that is marked as granted. -/
def Cluster.Settled (w : Wiring C) (s : Cluster C) (x : C × UInt32) : Prop :=
  ∀ job ∈ (s.jobs x.1).job x.2, ∀ p ∈ job.awaited,
    (s.node p.addr).total p.type < p.quantity ∨
      ¬ s.InFlight x ⟨p.addr, p.type⟩ ∧ ¬ s.Waits w x ⟨p.addr, p.type⟩ ∧
        (s.Holds w x ⟨p.addr, p.type⟩ → ∃ p' ∈ job.petitions, p'.isGranted = true ∧ p'.addr = p.addr)

instance (w : Wiring C) (s : Cluster C) (x : C × UInt32) : Decidable (s.Settled w x) :=
  inferInstanceAs (Decidable (∀ job ∈ (s.jobs x.1).job x.2, ∀ p ∈ job.awaited, _ ∨ _))

instance (w : Wiring C) (s : Cluster C) (a : Action C) :
    Decidable (∀ x ∈ s.ending a, s.Settled w x) := List.decidableBAll _ _

namespace Stage

variable {job : ElemOwnedJob} {ps : List ResourceToken} {k : Nat}

theorem awaited (h : Stage job ps k) {p : ResourceToken} (hp : ps[k]? = some p) :
    job.awaited = some p.petition := by
  obtain ⟨hlt, _⟩ := List.getElem?_eq_some_iff.mp hp
  have hnext : job.nextReserveIdx = k + 1 := by
    rw [h.next]
    omega
  rw [ElemOwnedJob.awaited, hnext, if_neg (Nat.succ_ne_zero k), Nat.add_sub_cancel, h.petitions,
    getElem?_stagePetitions, hp]
  simp [ResourceToken.petition]

/-- The petitions marked as granted are those before the petition in progress. -/
theorem mem_take (h : Stage job ps k) {p : JobPetition} (hp : p ∈ job.petitions)
    (hgranted : p.isGranted = true) : ∃ t ∈ ps.take k, t.target.addr = p.addr := by
  rw [h.petitions] at hp
  obtain ⟨i, hi⟩ := List.mem_iff_getElem?.mp hp
  rw [getElem?_stagePetitions] at hi
  obtain ⟨t, ht, rfl⟩ := Option.map_eq_some_iff.mp hi
  refine ⟨t, List.mem_of_getElem? (i := i) ?_, rfl⟩
  rw [List.getElem?_take_of_lt (of_decide_eq_true hgranted)]
  exact ht

end Stage

def settledRules (capacity : Addr → Resource → UInt32) : Rules where
  total r := capacity r.addr r.type
  admissible _ := True
  mayAbandon := Settled fun r => capacity r.addr r.type

/-- What the cluster shows of a job settles it. -/
theorem Tracks.settled {w : Wiring C} {capacity : Addr → Resource → UInt32} {s : Cluster C}
    {b : C × UInt32 → JobState} (h : Tracks w (settledRules capacity) s b) {x : C × UInt32}
    (hx : s.Settled w x) (hpresent : (b x).present = true) :
    (settledRules capacity).mayAbandon (b x) := by
  intro p hp
  have hown := h.job x.1 x.2
  obtain ⟨job, hjob, hstage⟩ := hown.present hpresent
  have hthis := hx job hjob p.petition (hstage.awaited hp)
  have htotal : (s.node p.target.addr).total p.type = capacity p.target.addr p.type :=
    (h.node p.target.addr).total p.type
  rcases hthis with hlt | ⟨hflight, hwaits, hholds⟩
  · left
    show capacity p.target.addr p.type < p.cant
    rw [← htotal]
    exact hlt
  · right
    refine ⟨fun hsent => hflight ?_, fun hqueued => hwaits ?_, fun hheld => ?_⟩
    · exact (hown.inFlight_iff p.target).mpr ⟨p, hsent, rfl⟩
    · exact (hown.waits_iff p.target).mpr ⟨p, hqueued, rfl⟩
    · obtain ⟨q, hq⟩ := Option.ne_none_iff_exists'.mp hheld
      obtain ⟨p', hp', hgranted, haddr⟩ := hholds ((hown.holds_iff p.target).mpr ⟨q, hq⟩)
      obtain ⟨t, ht, hta⟩ := hstage.mem_take hp' hgranted
      exact ⟨t, ht, hta.trans haddr⟩

theorem covered_of_steps {capacity : Addr → Resource → UInt32} {b : JobState}
    (h : JobSteps (settledRules capacity) JobState.initial b) (hasked : b.asked ≠ none)
    (habsent : b.present = false) : Covered (settledRules capacity) b := by
  refine h.invariant
    (I := fun b => b.asked ≠ none → b.present = false → Covered (settledRules capacity) b)
    (fun _ _ hs hb hstep => Covered.step (fun _ hmay => hmay) hs hb hstep) .initial
    (fun hnone => absurd rfl hnone) hasked habsent

/-! ## Runs without orphans -/

/-- A RELEASE of the job is on its way to `a`. -/
def Cluster.Releasing (s : Cluster C) (x : C × UInt32) (a : Addr) : Prop :=
  ∃ pkt ∈ s.net, pkt.release = some x ∧ pkt.node = a

instance (s : Cluster C) (x : C × UInt32) (a : Addr) : Decidable (s.Releasing x a) :=
  inferInstanceAs (Decidable (∃ pkt ∈ s.net, pkt.release = some x ∧ pkt.node = a))

/-- What a node reserves or queues belongs to a job that its coordinator knows, or will be
released. -/
def Cluster.NoOrphans (w : Wiring C) (s : Cluster C) : Prop :=
  ∀ c j r, s.Holds w (c, j) r ∨ s.Waits w (c, j) r →
    (s.jobs c).job j ≠ none ∨ s.Releasing (c, j) r.addr

/-- With new ids, in every state of every run that ends only settled jobs by JOB_RELEASE or
timeout, nothing is orphaned. -/
theorem no_orphans (w : Wiring C) (capacity : Addr → Resource → UInt32) (as : List (Action C))
    (h : Along (Cluster.step w)
      (fun s a => s.Asks (fun _ => True) a ∧ ∀ x ∈ s.ending a, s.Settled w x)
      (Cluster.initial capacity) as) :
    (run (Cluster.step w) (Cluster.initial capacity) as).NoOrphans w := by
  generalize hs : run (Cluster.step w) (Cluster.initial capacity) as = s
  obtain ⟨b, htracks, hsteps⟩ : ∃ b, Tracks w (settledRules capacity) s b ∧
      ∀ x, JobSteps (settledRules capacity) JobState.initial (b x) := by
    rw [← hs]
    exact tracks_run (fun _ _ => rfl) (fun _ _ hP => hP.1)
      (fun _ _ _ hP htracks x hx => htracks.settled (hP.2 x hx)) h
  intro c j r hused
  have hown := htracks.job c j
  cases hpresent : (b (c, j)).present with
  | true => exact Or.inl (hown.job_ne_none hpresent)
  | false =>
    right
    by_cases hasked : (b (c, j)).asked = none
    · obtain ⟨_, hplace, hheld, _⟩ := (htracks.sound (c, j)).nothing hasked
      rcases hused with hholds | hwaits
      · obtain ⟨q, hq⟩ := (hown.holds_iff r).mp hholds
        rw [hheld r] at hq
        cases hq
      · obtain ⟨p, hp, _⟩ := (hown.waits_iff r).mp hwaits
        rw [hplace] at hp
        cases hp
    · have hcovered := covered_of_steps (hsteps (c, j)) hasked hpresent
      rcases hused with hholds | hwaits
      · obtain ⟨q, hq⟩ := (hown.holds_iff r).mp hholds
        have hmem := hcovered.held r q hq
        rw [← hown.releases] at hmem
        obtain ⟨pkt, hpkt, hnode⟩ := List.mem_map.mp hmem
        obtain ⟨hnet, hrelease⟩ := List.mem_filter.mp hpkt
        exact ⟨pkt, hnet, of_decide_eq_true hrelease, hnode⟩
      · obtain ⟨p, hp, _⟩ := (hown.waits_iff r).mp hwaits
        exact absurd hp (hcovered.queued p)

/-- A job is granted at two nodes, and ends. -/
def finished : List (Action Bool) :=
  [.jobRequest false 0 7 1 [oneUnit firstAddr .cpu, oneUnit secondAddr .gpu],
    .deliver 0 fun _ => 0, .deliver 0 fun _ => 0, .deliver 0 fun _ => 0, .deliver 0 fun _ => 0,
    .jobRelease false 1]

theorem no_orphans_finished :
    let s := run (Cluster.step twoCoordinators) (Cluster.initial oneOfEach) finished
    s.Holds twoCoordinators (false, 1) ⟨firstAddr, .cpu⟩ ∧ (s.jobs false).job 1 = none ∧
      s.Releasing (false, 1) firstAddr := by
  intro s
  have hholds : s.Holds twoCoordinators (false, 1) ⟨firstAddr, .cpu⟩ := by decide +kernel
  have hgone : (s.jobs false).job 1 = none := by decide +kernel
  have hcovered := no_orphans twoCoordinators oneOfEach finished (by decide +kernel) false 1
    ⟨firstAddr, .cpu⟩ (Or.inl hholds)
  exact ⟨hholds, hgone, hcovered.resolve_left fun hne => hne hgone⟩

/-! ## An orphan -/

/-- The connection and the direction of a packet. -/
def Packet.channel : Packet C → C × Addr × Bool
  | request c a _ => (c, a, true)
  | reply a c _ => (c, a, false)

/-- A packet is delivered after those that were sent before it on its channel. -/
def Cluster.Fifo (s : Cluster C) : Action C → Prop
  | .deliver i _ => ∀ k < i, ∀ pkt ∈ s.net[k]?, ∀ pkt' ∈ s.net[i]?, pkt.channel ≠ pkt'.channel
  | .jobRequest .. | .jobRelease .. | .timeout .. => True

instance (s : Cluster C) (a : Action C) : Decidable (s.Fifo a) :=
  match a with
  | .deliver i _ =>
    have (k : ℕ) (_ : k < i) :
        Decidable (∀ pkt ∈ s.net[k]?, ∀ pkt' ∈ s.net[i]?, pkt.channel ≠ pkt'.channel) :=
      Option.decidableForallMem _
    Nat.decidableBallLT i _
  | .jobRequest .. | .jobRelease .. | .timeout .. => .isTrue trivial

/-- The first job has the unit that the second one waits for until it times out. -/
def impatient : List (Action Bool) :=
  [.jobRequest false 0 7 1 [oneUnit firstAddr .cpu], .deliver 0 fun _ => 0,
    .deliver 0 fun _ => 0, .jobRequest false 0 7 2 [oneUnit firstAddr .cpu],
    .deliver 0 fun _ => 0, .timeout false 21]

/-- The request of a job that timed out stays in the queue, over FIFO channels too. -/
theorem orphaned_request : ¬ ∀ (capacity : Addr → Resource → UInt32) (as : List (Action Bool)),
    Along (Cluster.step twoCoordinators) (fun s a => s.Asks (fun _ => True) a ∧ s.Fifo a)
      (Cluster.initial capacity) as →
        (run (Cluster.step twoCoordinators) (Cluster.initial capacity) as).NoOrphans
          twoCoordinators := by
  intro h
  have hwaits : (run (Cluster.step twoCoordinators) (Cluster.initial oneOfEach) impatient).Waits
      twoCoordinators (false, 2) ⟨firstAddr, .cpu⟩ := by decide +kernel
  have horphan := h oneOfEach impatient (by decide +kernel) false 2 ⟨firstAddr, .cpu⟩
    (Or.inr hwaits)
  exact absurd horphan (by decide +kernel)

end ResourceManager
