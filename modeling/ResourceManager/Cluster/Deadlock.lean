import ResourceManager.Cluster.Runs
import ResourceManager.Library.OrderedAcquisition

/-!
# Deadlock freedom

When the petitions of every request are strictly increasing in (ip, port, resource order),
a job holds only resources that come before the one it has asked for. This includes the
requests that a timeout leaves in a queue and the grants that come late: a coordinator sends
one petition at a time, and what it sends is not taken back. So jobs do not wait for each
other in a cycle.
-/

namespace ResourceManager

open Library.Runs Library.OrderedAcquisition

variable {C : Type} [DecidableEq C]

/-- The order in which the scheduler sorts its requests. -/
def Increasing (ps : List ResourceToken) : Prop := ps.Pairwise fun p p' => p.target < p'.target

instance : DecidablePred Increasing :=
  fun ps => inferInstanceAs (Decidable (ps.Pairwise fun p p' => p.target < p'.target))

def increasingRules (capacity : Addr → Resource → UInt32) : Rules where
  total r := capacity r.addr r.type
  admissible := Increasing
  mayAbandon _ := True

theorem increasing_petitions {capacity : Addr → Resource → UInt32} {b : JobState}
    (h : Sound (increasingRules capacity) b) : Increasing b.petitions := by
  unfold JobState.petitions
  cases hasked : b.asked with
  | none => exact List.Pairwise.nil
  | some ps => exact (h.asked ps hasked).sublist (List.take_sublist _ _)

/-- A job holds what comes before its petition in progress. -/
theorem Sound.held_lt {capacity : Addr → Resource → UInt32} {b : JobState}
    (h : Sound (increasingRules capacity) b) {r : NodeResource} {q : UInt32}
    (hr : b.held r = some q) {p : ResourceToken}
    (hp : b.place = .sent p ∨ b.place = .queued p) : r < p.target := by
  obtain ⟨i, p', hi, hp', rfl, hdone⟩ := h.held_before hr hp
  obtain ⟨hlt, rfl⟩ := List.getElem?_eq_some_iff.mp hp'
  obtain ⟨hlt', rfl⟩ := List.getElem?_eq_some_iff.mp hdone
  exact List.pairwise_iff_getElem.mp (increasing_petitions h) i b.done hlt hlt' hi

/-- With increasing requests and new ids, in every state of every run, the resources that a
job holds come before those it has asked for, and no jobs wait for each other in a cycle. -/
theorem no_circular_wait (w : Wiring C) (capacity : Addr → Resource → UInt32)
    (as : List (Action C))
    (h : Along (Cluster.step w) (Cluster.Asks Increasing) (Cluster.initial capacity) as) :
    let s := run (Cluster.step w) (Cluster.initial capacity) as
    (∀ x r r', s.Holds w x r → s.InFlight x r' ∨ s.Waits w x r' → r < r') ∧
      ∀ x, ¬ Relation.TransGen (WaitsFor (s.Holds w) (s.Waits w)) x x := by
  intro s
  obtain ⟨b, htracks, _⟩ : ∃ b, Tracks w (increasingRules capacity) s b ∧
      ∀ x, JobSteps (increasingRules capacity) JobState.initial (b x) :=
    tracks_run (fun _ _ => rfl) (fun _ _ hP => hP) (fun _ _ _ _ _ _ _ _ => trivial) h
  have hord : ∀ x r r', s.Holds w x r → s.InFlight x r' ∨ s.Waits w x r' → r < r' := by
    rintro ⟨c, j⟩ r r' hholds hwants
    have hjob := htracks.job c j
    obtain ⟨q, hq⟩ := (hjob.holds_iff r).mp hholds
    rcases hwants with hflight | hwaits
    · obtain ⟨p, hp, rfl⟩ := (hjob.inFlight_iff r').mp hflight
      exact (htracks.sound (c, j)).held_lt hq (Or.inl hp)
    · obtain ⟨p, hp, rfl⟩ := (hjob.waits_iff r').mp hwaits
      exact (htracks.sound (c, j)).held_lt hq (Or.inr hp)
  exact ⟨hord, no_cycle fun x r r' hholds hwaits => hord x r r' hholds (Or.inr hwaits)⟩

/-- Two jobs ask for the same two resources; the second one waits for the first. -/
def race : List (Action Bool) :=
  [.jobRequest false 0 7 1 [oneUnit firstAddr .cpu, oneUnit secondAddr .gpu],
    .jobRequest true 0 7 1 [oneUnit firstAddr .cpu, oneUnit secondAddr .gpu],
    .deliver 0 fun _ => 0, .deliver 0 fun _ => 0, .deliver 0 fun _ => 0]

theorem no_circular_wait_race :
    let s := run (Cluster.step twoCoordinators) (Cluster.initial oneOfEach) race
    s.Holds twoCoordinators (false, 1) ⟨firstAddr, .cpu⟩ ∧
      s.Waits twoCoordinators (true, 1) ⟨firstAddr, .cpu⟩ ∧
      s.InFlight (false, 1) ⟨secondAddr, .gpu⟩ ∧
      (⟨firstAddr, .cpu⟩ : NodeResource) < ⟨secondAddr, .gpu⟩ ∧
      ∀ x, ¬ Relation.TransGen (WaitsFor (s.Holds twoCoordinators) (s.Waits twoCoordinators)) x x := by
  intro s
  have hholds : s.Holds twoCoordinators (false, 1) ⟨firstAddr, .cpu⟩ := by decide +kernel
  have hwaits : s.Waits twoCoordinators (true, 1) ⟨firstAddr, .cpu⟩ := by decide +kernel
  have hflight : s.InFlight (false, 1) ⟨secondAddr, .gpu⟩ := by decide +kernel
  obtain ⟨hord, hcycle⟩ := no_circular_wait twoCoordinators oneOfEach race (by decide +kernel)
  exact ⟨hholds, hwaits, hflight, hord _ _ _ hholds (Or.inl hflight), hcycle⟩

end ResourceManager
