import ResourceManager.Cluster.Runs

/-!
# A granted job holds what is stored for it

A GRANTED names a job and nothing else, and is matched with the petition in progress by the
address of its sender. It is the right petition: only one is ever on its way, and the answer
to a petition that was given up finds no job. So each petition that a coordinator marks is
reserved at its node, and stays reserved while the coordinator has a record of the job.

The record has room for `maxJobResources` petitions. The rest of a longer request is dropped
without a word, and the job is granted all the same: it holds all that it has asked for
exactly when it asks for no more than that.
-/

namespace ResourceManager

open Library.Runs

variable {C : Type} [DecidableEq C]

/-- No resource of a node is asked for twice. -/
def Distinct (ps : List ResourceToken) : Prop := (ps.map ResourceToken.target).Nodup

instance : DecidablePred Distinct :=
  fun ps => inferInstanceAs (Decidable (ps.map ResourceToken.target).Nodup)

def distinctRules (capacity : Addr → Resource → UInt32) : Rules where
  total r := capacity r.addr r.type
  admissible := Distinct
  mayAbandon _ := True

theorem backed_of_steps {capacity : Addr → Resource → UInt32} {b : JobState}
    (h : JobSteps (distinctRules capacity) JobState.initial b) : Backed b :=
  h.invariant (fun _ _ hs hb hstep => hb.step (fun _ hps => hps) hs hstep) .initial
    fun hp => by cases hp

section Job

variable {w : Wiring C} {s : Cluster C} {c : C} {j : UInt32} {b : JobState}

theorem Represents.held_of_done (h : Represents w s c j b) (hb : Backed b)
    (hpresent : b.present = true) {i : Nat} {p : ResourceToken}
    (hp : b.petitions[i]? = some p) (hi : i < b.done) :
    ⟨j, w.sock p.target.addr c, p.cant, p.type⟩ ∈ (s.node p.target.addr).held :=
  (h.held p.target.addr p.type p.cant).mpr (hb hpresent i p hp (Or.inl hi))

/-- A job holds only what is stored: a petition that is not has a target of its own. -/
theorem Represents.length_le_of_holdsAll {capacity : Addr → Resource → UInt32}
    (h : Represents w s c j b) (hs : Sound (distinctRules capacity) b)
    {ps : List ResourceToken} (hasked : b.asked = some ps) (hall : s.HoldsAll w (c, j) ps) :
    ps.length ≤ maxJobResources := by
  by_contra hlong
  have hlt : maxJobResources < ps.length := by omega
  have hheld := (h.held _ _ _).mp (hall ps[maxJobResources] (List.getElem_mem hlt))
  obtain ⟨i, p, hi, htarget, _⟩ := hs.held _ _ hheld
  rw [JobState.petitions, hasked, Option.getD_some] at hi
  have hsmall : i < maxJobResources := by
    have hi' := (List.getElem?_eq_some_iff.mp hi).1
    rw [List.length_take] at hi'
    omega
  rw [List.getElem?_take_of_lt hsmall] at hi
  have hdistinct := List.nodup_iff_getElem?_ne_getElem?.mp (hs.asked ps hasked)
  refine hdistinct i maxJobResources hsmall (by rwa [List.length_map]) ?_
  rw [List.getElem?_map, List.getElem?_map, hi, List.getElem?_eq_getElem hlt, Option.map_some,
    Option.map_some, htarget]

/-- A job all of whose stored petitions are granted. -/
theorem Represents.holdsAll_iff {capacity : Addr → Resource → UInt32}
    (h : Represents w s c j b) (hs : Sound (distinctRules capacity) b) (hb : Backed b)
    (hpresent : b.present = true) (hdone : b.done = b.petitions.length) :
    ∃ ps, s.asked c j = some ps ∧ s.HoldsAll w (c, j) (ps.take maxJobResources) ∧
      (s.HoldsAll w (c, j) ps ↔ ps.length ≤ maxJobResources) := by
  have hasked : b.asked ≠ none := by
    intro hnone
    rw [hs.unasked hnone] at hpresent
    cases hpresent
  obtain ⟨ps, hps⟩ := Option.ne_none_iff_exists'.mp hasked
  have hstored : s.HoldsAll w (c, j) (ps.take maxJobResources) := by
    intro p hp
    have hpetitions : b.petitions = ps.take maxJobResources := by
      rw [JobState.petitions, hps, Option.getD_some]
    rw [← hpetitions] at hp
    obtain ⟨i, hi⟩ := List.mem_iff_getElem?.mp hp
    have hlt := (List.getElem?_eq_some_iff.mp hi).1
    exact h.held_of_done hb hpresent hi (by omega)
  refine ⟨ps, h.asked.trans hps, hstored, h.length_le_of_holdsAll hs hps, fun hle => ?_⟩
  rwa [List.take_of_length_le hle] at hstored

end Job

theorem Tracks.holdsAll_iff {w : Wiring C} {capacity : Addr → Resource → UInt32} {s : Cluster C}
    {b : C × UInt32 → JobState} (h : Tracks w (distinctRules capacity) s b)
    (hbacked : ∀ x, Backed (b x)) {c : C} {j : UInt32} (htold : (c, .jobGranted j) ∈ s.told) :
    ∃ ps, s.asked c j = some ps ∧ s.HoldsAll w (c, j) (ps.take maxJobResources) ∧
      (s.HoldsAll w (c, j) ps ↔ ps.length ≤ maxJobResources) := by
  obtain ⟨hpresent, hdone⟩ := h.told c j htold
  exact (h.job c j).holdsAll_iff (h.sound _) (hbacked _) hpresent hdone

theorem tracks_distinct {w : Wiring C} {capacity : Addr → Resource → UInt32}
    {as : List (Action C)}
    (h : Along (Cluster.step w) (Cluster.Asks Distinct) (Cluster.initial capacity) as) :
    ∃ b, Tracks w (distinctRules capacity) (run (Cluster.step w) (Cluster.initial capacity) as) b ∧
      ∀ x, Backed (b x) := by
  obtain ⟨b, htracks, hsteps⟩ := tracks_run (R := distinctRules capacity) (fun _ _ => rfl)
    (fun _ _ hP => hP) (fun _ _ _ _ _ _ _ _ => trivial) h
  exact ⟨b, htracks, fun x => backed_of_steps (hsteps x)⟩

/-- With requests that name no resource twice and new ids, in every state of every run: a
petition marked as granted is reserved at its node with its quantity; and after a step that
emits JOB_GRANTED so are the petitions that are stored for the job, and all that the job has
asked for exactly when they are at most `maxJobResources`. -/
theorem granted_backed_iff (w : Wiring C) (capacity : Addr → Resource → UInt32)
    (as : List (Action C))
    (h : Along (Cluster.step w) (Cluster.Asks Distinct) (Cluster.initial capacity) as) :
    let s := run (Cluster.step w) (Cluster.initial capacity) as
    (∀ c j job, (s.jobs c).job j = some job → ∀ p ∈ job.petitions, p.isGranted = true →
      ⟨j, w.sock p.addr c, p.quantity, p.type⟩ ∈ (s.node p.addr).held) ∧
    ∀ c j, (c, .jobGranted j) ∈ s.told → ∃ ps, s.asked c j = some ps ∧
      s.HoldsAll w (c, j) (ps.take maxJobResources) ∧
      (s.HoldsAll w (c, j) ps ↔ ps.length ≤ maxJobResources) := by
  intro s
  obtain ⟨b, htracks, hbacked⟩ := tracks_distinct h
  refine ⟨fun c j job hjob p hmem hgranted => ?_, fun c j => htracks.holdsAll_iff hbacked⟩
  have hpresent : (b (c, j)).present = true := by
    by_contra hp
    rw [(htracks.job c j).absent (Bool.eq_false_iff.mpr hp)] at hjob
    cases hjob
  obtain ⟨job', hjob', hstage⟩ := (htracks.job c j).present hpresent
  obtain rfl : job = job' := Option.some.inj (hjob.symm.trans hjob')
  obtain ⟨i, hi⟩ := List.mem_iff_getElem?.mp hmem
  rw [hstage.petitions, getElem?_stagePetitions] at hi
  obtain ⟨t, ht, rfl⟩ := Option.map_eq_some_iff.mp hi
  exact (htracks.job c j).held_of_done (hbacked _) hpresent ht (of_decide_eq_true hgranted)

/-- A job with two petitions at two nodes is granted. -/
def twoGrants : List (Action Bool) :=
  [.jobRequest false 0 7 1 [oneUnit firstAddr .cpu, oneUnit secondAddr .gpu],
    .deliver 0 fun _ => 0, .deliver 0 fun _ => 0, .deliver 0 fun _ => 0, .deliver 0 fun _ => 0]

theorem granted_backed_iff_twoGrants :
    let s := run (Cluster.step twoCoordinators) (Cluster.initial oneOfEach) twoGrants
    (false, .jobGranted 1) ∈ s.told ∧
      s.HoldsAll twoCoordinators (false, 1) [oneUnit firstAddr .cpu, oneUnit secondAddr .gpu] := by
  intro s
  have htold : (false, .jobGranted 1) ∈ s.told := by decide +kernel
  obtain ⟨ps, hps, _, hall⟩ :=
    (granted_backed_iff twoCoordinators oneOfEach twoGrants (by decide +kernel)).2 false 1 htold
  obtain rfl : ps = [oneUnit firstAddr .cpu, oneUnit secondAddr .gpu] :=
    Option.some.inj (hps.symm.trans (by decide +kernel))
  exact ⟨htold, hall.mpr (by decide)⟩

/-- One unit of everything at 17 nodes: one petition more than a coordinator stores. -/
def fiftyOne : List ResourceToken :=
  (List.range 17).flatMap fun i => [Resource.cpu, .gpu, .ram].map fun t =>
    oneUnit ⟨firstAddr.ip, 80 + UInt32.ofNat i⟩ t

/-- The job is granted once the 50 petitions that are stored have been answered. -/
def fiftyGrants : List (Action Bool) :=
  .jobRequest false 0 7 1 fiftyOne :: List.replicate 100 (.deliver 0 fun _ => 0)

/-- The job is granted, and the last of its petitions has not been sent to anybody. -/
theorem granted_without_all : ¬ ∀ (w : Wiring Bool) (capacity : Addr → Resource → UInt32)
    (as : List (Action Bool)),
    Along (Cluster.step w) (Cluster.Asks Distinct) (Cluster.initial capacity) as →
    let s := run (Cluster.step w) (Cluster.initial capacity) as
    ∀ c j, (c, .jobGranted j) ∈ s.told →
      ∃ ps, s.asked c j = some ps ∧ s.HoldsAll w (c, j) ps := by
  intro hevery
  have hasks : Along (Cluster.step twoCoordinators) (Cluster.Asks Distinct)
      (Cluster.initial oneOfEach) fiftyGrants := by decide +kernel
  have htold : (false, .jobGranted 1) ∈
      (run (Cluster.step twoCoordinators) (Cluster.initial oneOfEach) fiftyGrants).told := by
    decide +kernel
  obtain ⟨b, htracks, hbacked⟩ := tracks_distinct hasks
  obtain ⟨ps, hps, _, hiff⟩ := htracks.holdsAll_iff hbacked htold
  obtain ⟨ps', hps', hall⟩ := hevery _ _ _ hasks false 1 htold
  obtain rfl : ps = ps' := Option.some.inj (hps.symm.trans hps')
  obtain rfl : ps = fiftyOne := Option.some.inj (hps.symm.trans (by decide +kernel))
  exact absurd (hiff.mp hall) (by decide +kernel)

end ResourceManager
