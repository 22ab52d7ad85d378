import ResourceManager.Cluster.Grants
import ResourceManager.Inventory.Leaks

/-!
# The ledger of a cluster

A node loses units when it grants a request under a key that has units already. In a
cluster whose requests name no resource twice this never happens: a petition that is sent or
waits is the first one of its job for its resource. So at every node the available units and
those of the reservations add up to the capacity, and every reservation is for one petition
of one job, with the quantity asked for (`cluster_ledger`).
-/

namespace ResourceManager

open HashTable LocalNode Library.Runs

variable {C : Type} {w : Wiring C} {R : Rules}

/-! ## What a job holds -/

section Job

variable {b : JobState}

theorem Sound.nodup_petitions
    (hR : ∀ ps, R.admissible ps → (ps.map ResourceToken.target).Nodup) (h : Sound R b) :
    (b.petitions.map ResourceToken.target).Nodup := by
  unfold JobState.petitions
  cases hasked : b.asked with
  | none => exact List.nodup_nil
  | some ps =>
    rw [Option.getD_some, List.map_take]
    exact (hR ps (h.asked ps hasked)).sublist (List.take_sublist _ _)

/-- A job holds nothing of what its petition in progress asks for. -/
theorem Sound.held_none (h : Sound R b) (hnd : (b.petitions.map ResourceToken.target).Nodup)
    {p : ResourceToken} (hp : b.place = .sent p ∨ b.place = .queued p) :
    b.held p.target = none := by
  cases hheld : b.held p.target with
  | none => rfl
  | some q =>
    obtain ⟨i, p', hi, hget', htarget, hget⟩ := h.held_before hheld hp
    have hlt := (List.getElem?_eq_some_iff.mp hget').1
    have he : i = b.done := (List.getElem?_inj (by rwa [List.length_map]) hnd).mp (by
      rw [List.getElem?_map, List.getElem?_map, hget', hget, Option.map_some, Option.map_some,
        htarget])
    omega

/-- What is reserved for the job is what one of its petitions asks for. -/
def Exact (b : JobState) : Prop :=
  ∀ r q, b.held r = some q → ∃ p ∈ b.petitions, p.target = r ∧ p.cant = q

theorem Exact.reserve (h : Exact b) (hs : Sound R b) {p : ResourceToken} {place : Place}
    (hp : b.place.petition = some p) : Exact { b.reserve p with place := place } := by
  intro r q hheld
  have hmem : p ∈ b.petitions := List.mem_of_getElem? (hs.petition p hp)
  change Function.update b.held p.target (some p.cant) r = some q at hheld
  by_cases hr : r = p.target
  · subst hr
    rw [Function.update_self] at hheld
    exact ⟨p, hmem, rfl, Option.some.inj hheld⟩
  · rw [Function.update_of_ne hr] at hheld
    exact h r q hheld

theorem Exact.step {b b' : JobState} (hs : Sound R b) (h : Exact b) (hstep : JobStep R b b') :
    Exact b' := by
  cases hstep with
  | register ps hnew hok =>
    intro r q hheld
    rw [(hs.nothing hnew).2.2.1 r] at hheld
    cases hheld
  | refuse | enqueue | accept | ignore | deny | abandon => exact h
  | grant p hp | wake p _ hp => exact h.reserve hs (by rw [hp]; rfl)
  | release l₁ a l₂ hr =>
    intro r q hheld
    dsimp only at hheld
    split at hheld
    · cases hheld
    · exact h r q hheld

theorem exact_of_steps (h : JobSteps R JobState.initial b) : Exact b :=
  h.invariant (fun _ _ hs he hstep => Exact.step hs he hstep) .initial fun _ _ hheld => by
    cases hheld

end Job

/-! ## The descriptors of reservations -/

namespace LocalNode

/-- What is reserved after a wake-up run was reserved or waiting before. -/
theorem Woken.sockets {n n' : LocalNode} {gs : List ElemJobRequest} (h : Woken n gs n')
    (P : UInt32 → Prop) (hheld : ∀ e ∈ n.held, P e.socket)
    (hqueue : ∀ t, ∀ r ∈ n.queue t, P r.socket) : ∀ e ∈ n'.held, P e.socket := by
  induction h with
  | nil => exact hheld
  | @cons n n' t r gs hfit _ ih =>
    refine ih (fun e he => ?_) fun u x hx =>
      hqueue u x ((queue_grantQueued_sublist _ _ u _).subset hx)
    rcases mem_held_take.mp he with rfl | ⟨he, _⟩
    · exact hqueue _ _ (firstFitting_some hfit).1
    · exact hheld e he

end LocalNode

/-- The books of a node: no unit is missing, and coordinators made its reservations. -/
structure Books (w : Wiring C) (a : Addr) (n : LocalNode) : Prop where
  balanced : n.Balanced
  sockets : ∀ e ∈ n.held, ∃ c, e.socket = w.sock a c

/-! ## Deliveries grant under fresh keys -/

namespace Tracks

variable [DecidableEq C] {s : Cluster C} {b : C × UInt32 → JobState} {c : C} {j : UInt32}
  {a : Addr} {t : Resource}

/-- Nothing is reserved for a job of what it waits for. -/
theorem reserved_eq_zero (h : Tracks w R s b)
    (hR : ∀ ps, R.admissible ps → (ps.map ResourceToken.target).Nodup) {p : ResourceToken}
    (hp : (b (c, j)).place = .sent p ∨ (b (c, j)).place = .queued p) :
    (s.node p.target.addr).reserved j (w.sock p.target.addr c) p.type = 0 := by
  have hnone := (h.sound (c, j)).held_none ((h.sound (c, j)).nodup_petitions hR) hp
  refine LocalNode.reserved_eq_zero fun e he => ?_
  rintro ⟨rfl, hsock, htype⟩
  obtain ⟨i, k, q, u⟩ := e
  dsimp only at hsock htype hnone
  subst hsock htype
  rw [((h.job c i).held p.target.addr p.type q).mp he] at hnone
  cases hnone

theorem freshKeys_reserve (h : Tracks w R s b)
    (hR : ∀ ps, R.admissible ps → (ps.map ResourceToken.target).Nodup) {i : Nat} {q : UInt32}
    (hi : s.net[i]? = some (.request c a (.reserve j t q))) :
    FreshKeys (s.node a) (.reserve (w.sock a c) j (some t) q) := by
  intro u hu _ _
  cases hu
  exact h.reserved_eq_zero hR (Or.inl ((h.job c j).place_sent hi))

theorem freshKeys_release (h : Tracks w R s b)
    (hR : ∀ ps, R.admissible ps → (ps.map ResourceToken.target).Nodup) (k : UInt32)
    (rand : Nat → Nat) : FreshKeys (s.node a) (.release k j rand) := by
  intro t r hr _
  obtain ⟨c', j', p, hplace, htarget, rfl⟩ := h.place_queued hr
  have ha : p.target.addr = a := congrArg NodeResource.addr htarget
  have ht : p.type = t := congrArg NodeResource.type htarget
  subst ha ht
  refine ⟨Or.inr (h.reserved_eq_zero hR (Or.inr hplace)), ?_⟩
  have hrequests := (h.job c' j').requests p.target.addr p.type
  rw [hplace, Place.waiting, if_pos rfl] at hrequests
  rw [waitingUnder, List.countP_eq_length_filter]
  exact congrArg List.length hrequests

/-- A message that arrives at a node keeps its books. -/
theorem books_onRequest (h : Tracks w R s b)
    (hR : ∀ ps, R.admissible ps → (ps.map ResourceToken.target).Nodup)
    (hbooks : Books w a (s.node a)) {i : Nat} {m : Message}
    (hi : s.net[i]? = some (.request c a m)) (rand : Nat → Nat) :
    Books w a (onRequest (s.node a) (w.sock a c) rand m).1 := by
  cases m with
  | reserve j t q =>
    refine ⟨balanced_inventoryStep _ (.reserve (w.sock a c) j (some t) q) hbooks.balanced
      (h.freshKeys_reserve hR hi), ?_⟩
    have hres := reserved_handleReserve (s.node a) (w.sock a c) j (some t) q []
    rw [onRequest]
    generalize handleReserve (s.node a) (w.sock a c) j (some t) q [] = result at hres
    cases hres with
    | refused | queued => exact hbooks.sockets
    | taken u hu =>
      intro e he
      rcases mem_held_take.mp he with rfl | ⟨he, _⟩
      · exact ⟨c, rfl⟩
      · exact hbooks.sockets e he
  | release j t q =>
    refine ⟨balanced_inventoryStep _ (.release (w.sock a c) j rand) hbooks.balanced
      (h.freshKeys_release hR _ rand), ?_⟩
    obtain ⟨gs, n', hrun, hwoken, _⟩ := handleRelease_spec (s.node a) rand (w.sock a c) j []
    rw [onRequest, hrun]
    refine hwoken.sockets (fun k => ∃ c, k = w.sock a c)
      (fun e he => hbooks.sockets e (mem_held_delActiveJob.mp he).1) ?_
    intro t r hr
    rw [queue_delActiveJob] at hr
    exact (h.node a).sockets t r hr
  | granted | denied | jobGranted | jobDenied | jobTimeout | line => exact hbooks

/-- A step keeps the books of every node. -/
theorem books_step (h : Tracks w R s b)
    (hR : ∀ ps, R.admissible ps → (ps.map ResourceToken.target).Nodup)
    (hbooks : ∀ a, Books w a (s.node a)) (act : Action C) (a : Addr) :
    Books w a ((s.step w act).node a) := by
  cases act with
  | jobRequest | jobRelease | timeout => exact hbooks a
  | deliver i rand =>
    rw [Cluster.step]
    cases hi : s.net[i]? with
    | none => exact hbooks a
    | some pkt =>
      cases pkt with
      | reply => exact hbooks a
      | request c a' m =>
        show Books w a (Function.update s.node a' _ a)
        by_cases ha : a = a'
        · subst ha
          rw [Function.update_self]
          exact h.books_onRequest hR (hbooks a) hi rand
        · rw [Function.update_of_ne ha]
          exact hbooks a

end Tracks

/-! ## Runs -/

theorem books_initial (w : Wiring C) (capacity : Addr → Resource → UInt32) (a : Addr) :
    Books w a ((Cluster.initial capacity : Cluster C).node a) where
  balanced t := (accounted_createLocalNode _ _ _ t).symm
  sockets e he := by
    have hnil : ((Cluster.initial capacity : Cluster C).node a).held = [] :=
      Tabla.datos_nuevo 11 (by decide)
    rw [hnil] at he
    cases he

/-- In every state of a run whose requests name no resource twice, the jobs are in states of
their lives and the books of the nodes are in order. -/
theorem books_run [DecidableEq C] {P : Cluster C → Action C → Prop}
    {capacity : Addr → Resource → UInt32} (htotal : ∀ a t, capacity a t = R.total ⟨a, t⟩)
    (hR : ∀ ps, R.admissible ps → (ps.map ResourceToken.target).Nodup)
    (hasks : ∀ s a, P s a → s.Asks R.admissible a)
    (hends : ∀ s b a, P s a → Tracks w R s b →
      ∀ x ∈ s.ending a, (b x).present = true → R.mayAbandon (b x))
    {as : List (Action C)} (h : Along (Cluster.step w) P (Cluster.initial capacity) as) :
    ∃ b, Tracks w R (run (Cluster.step w) (Cluster.initial capacity) as) b ∧
      (∀ x, JobSteps R JobState.initial (b x)) ∧
        ∀ a, Books w a ((run (Cluster.step w) (Cluster.initial capacity) as).node a) := by
  refine run_invariant (I := fun s => ∃ b, Tracks w R s b ∧
    (∀ x, JobSteps R JobState.initial (b x)) ∧ ∀ a, Books w a (s.node a)) ?_
    ⟨_, tracks_initial htotal, fun _ => .refl, books_initial w capacity⟩ h
  rintro s act ⟨b, htracks, hsteps, hbooks⟩ hP
  obtain ⟨b', htracks', hsteps'⟩ :=
    htracks.step act (hasks s act hP) (hends s b act hP htracks)
  exact ⟨b', htracks', fun x => (hsteps x).trans (hsteps' x), htracks.books_step hR hbooks act⟩

/-- With requests that name no resource twice and new ids, in every state of every run: at
every node the available and the reserved units add up to the capacity, and a reservation is
for a petition of a job that a coordinator was asked for, with its quantity. -/
theorem cluster_ledger [DecidableEq C] (w : Wiring C) (capacity : Addr → Resource → UInt32)
    (as : List (Action C))
    (h : Along (Cluster.step w) (Cluster.Asks Distinct) (Cluster.initial capacity) as)
    (a : Addr) :
    let s := run (Cluster.step w) (Cluster.initial capacity) as
    (∀ t, (capacity a t).toNat = ((s.node a).avail t).toNat + (s.node a).units t) ∧
      ∀ e ∈ (s.node a).held, ∃ c ps, s.asked c e.jobId = some ps ∧ e.socket = w.sock a c ∧
        ∃ p ∈ ps.take maxJobResources, p.target = ⟨a, e.resourceType⟩ ∧
          p.cant = e.resourceQuantity := by
  intro s
  obtain ⟨b, htracks, hsteps, hbooks⟩ : ∃ b, Tracks w (distinctRules capacity) s b ∧
      (∀ x, JobSteps (distinctRules capacity) JobState.initial (b x)) ∧
        ∀ a, Books w a (s.node a) :=
    books_run (fun _ _ => rfl) (fun _ hps => hps) (fun _ _ hP => hP)
      (fun _ _ _ _ _ _ _ _ => trivial) h
  refine ⟨fun t => ?_, fun e he => ?_⟩
  · have htotal : (s.node a).total t = capacity a t := (htracks.node a).total t
    rw [← htotal]
    exact (hbooks a).balanced t
  · obtain ⟨c, hc⟩ := (hbooks a).sockets e he
    obtain ⟨j, k, q, t⟩ := e
    dsimp only at hc
    subst hc
    have hheld := ((htracks.job c j).held a t q).mp he
    obtain ⟨p, hp, htarget, hcant⟩ := exact_of_steps (hsteps (c, j)) ⟨a, t⟩ q hheld
    have hasked := (htracks.job c j).asked
    unfold JobState.petitions at hp
    rw [← hasked] at hp
    cases hask : s.asked c j with
    | none =>
      rw [hask] at hp
      cases hp
    | some ps =>
      rw [hask] at hp
      exact ⟨c, ps, hask, rfl, p, hp, htarget, hcant⟩

/-- The unit of the first node is reserved for the first petition. -/
theorem cluster_ledger_twoGrants :
    let s := run (Cluster.step twoCoordinators) (Cluster.initial oneOfEach) twoGrants
    (∀ t, 1 = ((s.node firstAddr).avail t).toNat + (s.node firstAddr).units t) ∧
      ∃ ps, s.asked false 1 = some ps ∧
        ∃ p ∈ ps.take maxJobResources, p.target = ⟨firstAddr, .cpu⟩ ∧ p.cant = 1 := by
  intro s
  obtain ⟨hunits, hheld⟩ :=
    cluster_ledger twoCoordinators oneOfEach twoGrants (by decide +kernel) firstAddr
  have hmem : ⟨1, 5, 1, .cpu⟩ ∈ (s.node firstAddr).held := by decide +kernel
  obtain ⟨c, ps, hps, hsock, hp⟩ := hheld _ hmem
  refine ⟨hunits, ps, ?_, hp⟩
  cases c with
  | false => exact hps
  | true => exact absurd hsock (by decide)

end ResourceManager
