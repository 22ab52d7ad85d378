import ResourceManager.Cluster.Refinement

/-!
# Runs of a cluster

Each step of the cluster is steps of the lives of its jobs (`Tracks.step`), so what holds of
a job in every state of its life holds of every job in every state that a run reaches
(`tracks_run`). The notions that the results are about are read off the cluster: what a job
holds, what it has asked for and what it waits for.
-/

namespace ResourceManager

open HashTable LocalNode Library.Runs

variable {C : Type}

/-! ## What a job holds and wants -/

/-- The request that a packet carries to a node. -/
def Packet.asks : Packet C → Option ((C × UInt32) × NodeResource)
  | request c a (.reserve j t _) => some ((c, j), ⟨a, t⟩)
  | _ => none

namespace Cluster

variable (w : Wiring C) (s : Cluster C) (x : C × UInt32) (r : NodeResource)

/-- A node has an active reservation of `r` for the job. -/
def Holds : Prop := ∃ e ∈ (s.node r.addr).held,
  e.jobId = x.2 ∧ e.socket = w.sock r.addr x.1 ∧ e.resourceType = r.type

/-- A request of the job waits in the queue of `r`. -/
def Waits : Prop := ∃ e ∈ (s.node r.addr).queue r.type,
  e.jobId = x.2 ∧ e.socket = w.sock r.addr x.1

/-- A request of the job for `r` is in flight. -/
def InFlight : Prop := ∃ pkt ∈ s.net, pkt.asks = some (x, r)

/-- The nodes reserve each petition for the job, with its quantity. -/
def HoldsAll (ps : List ResourceToken) : Prop := ∀ p ∈ ps,
  ⟨x.2, w.sock p.target.addr x.1, p.cant, p.type⟩ ∈ (s.node p.target.addr).held

instance : Decidable (s.Holds w x r) :=
  inferInstanceAs (Decidable (∃ e ∈ (s.node r.addr).held,
    e.jobId = x.2 ∧ e.socket = w.sock r.addr x.1 ∧ e.resourceType = r.type))

instance : Decidable (s.Waits w x r) :=
  inferInstanceAs (Decidable (∃ e ∈ (s.node r.addr).queue r.type,
    e.jobId = x.2 ∧ e.socket = w.sock r.addr x.1))

instance [DecidableEq C] : Decidable (s.InFlight x r) :=
  inferInstanceAs (Decidable (∃ pkt ∈ s.net, pkt.asks = some (x, r)))

/-- A JOB_REQUEST has a new id and petitions of the kind given. -/
def Asks (ok : List ResourceToken → Prop) (s : Cluster C) : Action C → Prop
  | .jobRequest c _ _ j ps => s.asked c j = none ∧ ok ps
  | .jobRelease .. | .timeout .. | .deliver .. => True

instance (ok : List ResourceToken → Prop) [DecidablePred ok] (a : Action C) :
    Decidable (s.Asks ok a) := by
  cases a <;> unfold Asks <;> infer_instance

/-- The jobs that a scheduler or a timer ends in this step. -/
def ending (s : Cluster C) : Action C → List (C × UInt32)
  | .jobRelease c j => [(c, j)]
  | .timeout c now =>
    ((collectTimedOutJobs (s.jobs c) now maxAffected).filter fun j =>
      ((onTimer (s.jobs c) now).1.job j).isNone).map fun j => (c, j)
  | .jobRequest .. | .deliver .. => []

end Cluster

variable [DecidableEq C] {w : Wiring C} {R : Rules} {s : Cluster C} {b : C × UInt32 → JobState}

namespace Represents

variable {c : C} {j : UInt32} {b : JobState}

theorem holds_iff (h : Represents w s c j b) (r : NodeResource) :
    s.Holds w (c, j) r ↔ ∃ q, b.held r = some q := by
  constructor
  · rintro ⟨⟨i, k, q, t⟩, hmem, hi, hk, ht⟩
    dsimp only at hi hk ht
    subst hi hk ht
    exact ⟨q, (h.held r.addr r.type q).mp hmem⟩
  · rintro ⟨q, hq⟩
    exact ⟨_, (h.held r.addr r.type q).mpr hq, rfl, rfl, rfl⟩

theorem waits_iff (h : Represents w s c j b) (r : NodeResource) :
    s.Waits w (c, j) r ↔ ∃ p, b.place = .queued p ∧ p.target = r := by
  have hrequests : s.Waits w (c, j) r ↔
      (s.node r.addr).requests j (w.sock r.addr c) r.type ≠ [] := by
    simp [Cluster.Waits, LocalNode.requests]
  rw [hrequests, h.requests]
  cases hplace : b.place with
  | nowhere | sent p | granted p | denied p => simp [Place.waiting]
  | queued p =>
    by_cases ht : p.target = r
    · simp [Place.waiting, ht]
    · simp only [Place.waiting, if_neg ht, ne_eq, not_true_eq_false, Place.queued.injEq, false_iff]
      rintro ⟨p', rfl, hp'⟩
      exact ht hp'

theorem inFlight_iff (h : Represents w s c j b) (r : NodeResource) :
    s.InFlight (c, j) r ↔ ∃ p, b.place = .sent p ∧ p.target = r := by
  constructor
  · rintro ⟨pkt, hmem, hasks⟩
    obtain ⟨i, hi⟩ := List.mem_iff_getElem?.mp hmem
    unfold Packet.asks at hasks
    split at hasks
    · simp only [Option.some.injEq, Prod.mk.injEq] at hasks
      obtain ⟨⟨rfl, rfl⟩, rfl⟩ := hasks
      exact ⟨_, h.place_sent hi, rfl⟩
    · cases hasks
  · rintro ⟨p, hplace, rfl⟩
    have hcarried := h.tokens
    rw [hplace] at hcarried
    have hmem : Packet.request c p.target.addr (.reserve j p.type p.cant) ∈
        ResourceManager.tokens s.net c j := by
      generalize ResourceManager.tokens s.net c j = net at hcarried ⊢
      cases hcarried
      exact List.mem_singleton_self _
    exact ⟨_, (List.mem_filter.mp hmem).1, rfl⟩

theorem job_ne_none (h : Represents w s c j b) (hp : b.present = true) :
    (s.jobs c).job j ≠ none := by
  obtain ⟨job, hjob, _⟩ := h.present hp
  rw [hjob]
  simp

end Represents

/-! ## Steps and runs -/

/-- Each step of the cluster is steps of the lives of its jobs. -/
theorem Tracks.step (h : Tracks w R s b) (a : Action C) (hasks : s.Asks R.admissible a)
    (hends : ∀ x ∈ s.ending a, (b x).present = true → R.mayAbandon (b x)) :
    Advances w R b (s.step w a) := by
  cases a with
  | jobRequest c now k j ps => exact h.jobRequest now k hasks.1 hasks.2
  | jobRelease c j => exact h.jobRelease (hends (c, j) (List.mem_singleton_self _))
  | timeout c now =>
    refine h.timeout now fun j hp hnone => hends (c, j) (List.mem_map.mpr ⟨j, ?_, rfl⟩) hp
    refine List.mem_filter.mpr ⟨?_, by rw [hnone]; rfl⟩
    exact (mem_of_timeoutLoop_none _ _ hnone).resolve_left ((h.job c j).job_ne_none hp)
  | deliver i rand => exact h.deliver i rand

theorem tracks_initial {capacity : Addr → Resource → UInt32}
    (htotal : ∀ a t, capacity a t = R.total ⟨a, t⟩) :
    Tracks w R (Cluster.initial capacity) fun _ => JobState.initial where
  node a := by
    refine ⟨committed_createLocalNode _ _ _, fun t => ?_, fun t r hr => by cases hr⟩
    rw [← htotal]
    cases t <;> rfl
  job c j := by
    refine ⟨rfl, fun _ => job_createOwnedJobs j, fun hp => (by cases hp), .nowhere, rfl,
      fun _ _ => rfl, fun a t q => ?_⟩
    have hnil : ((Cluster.initial capacity : Cluster C).node a).held = [] :=
      Tabla.datos_nuevo 11 (by decide)
    rw [hnil]
    simp [JobState.initial]
  sound _ := .initial
  told _ _ h := by cases h

/-- In every state of a run each job is in a state of its life. -/
theorem tracks_run {P : Cluster C → Action C → Prop} {capacity : Addr → Resource → UInt32}
    (htotal : ∀ a t, capacity a t = R.total ⟨a, t⟩)
    (hasks : ∀ s a, P s a → s.Asks R.admissible a)
    (hends : ∀ s b a, P s a → Tracks w R s b →
      ∀ x ∈ s.ending a, (b x).present = true → R.mayAbandon (b x))
    {as : List (Action C)} (h : Along (Cluster.step w) P (Cluster.initial capacity) as) :
    ∃ b, Tracks w R (run (Cluster.step w) (Cluster.initial capacity) as) b ∧
      ∀ x, JobSteps R JobState.initial (b x) := by
  refine run_invariant
    (I := fun s => ∃ b, Tracks w R s b ∧ ∀ x, JobSteps R JobState.initial (b x))
    ?_ ⟨_, tracks_initial htotal, fun _ => .refl⟩ h
  rintro s a ⟨b, htracks, hsteps⟩ hP
  obtain ⟨b', htracks', hsteps'⟩ := htracks.step a (hasks s a hP) (hends s b a hP htracks)
  exact ⟨b', htracks', fun x => (hsteps x).trans (hsteps' x)⟩

/-! ## Two coordinators

Every node has descriptor 5 for the one and 6 for the other. -/

def twoCoordinators : Wiring Bool where
  sock _ c := if c then 6 else 5
  peer _ k := if k = 5 then some false else if k = 6 then some true else none
  peer_sock _ c := by cases c <;> rfl
  sock_ne _ c := by cases c <;> decide

def firstAddr : Addr := ⟨⟨['1', '0', '.', '0', '.', '0', '.', '1'], by decide⟩, 8000⟩

def secondAddr : Addr := ⟨⟨['1', '0', '.', '0', '.', '0', '.', '2'], by decide⟩, 8000⟩

/-- A request for one unit. -/
def oneUnit (a : Addr) (t : Resource) : ResourceToken := ⟨a.ip, a.port, t, 1⟩

/-- One unit of everything everywhere. -/
def oneOfEach : Addr → Resource → UInt32 := fun _ _ => 1

end ResourceManager
