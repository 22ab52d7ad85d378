import ResourceManager.Inventory.Wake

/-!
# A wake-up step is first-fit

`chk_job_request` scans the three queues, the first one at random. What a call does to a
type is `Untouched` or `ServesFirst`. Both look at the queue, at `avail` and at the
reservations of that type only, so they compose along the types that the loop visits.

A call may serve more than one type: a grant to an id that reads as `-1` does not stop it.
-/

namespace ResourceManager

open HashTable Queue

/-- The first request that fits comes after requests that do not. -/
theorem firstFitting_split {a : UInt32} {q : List ElemJobRequest} {r : ElemJobRequest}
    (h : firstFitting a q = some r) : ∃ q₁ q₂, q = q₁ ++ r :: q₂ ∧
      (∀ x ∈ q₁, a < x.resourceQuantity) ∧ r.resourceQuantity ≤ a := by
  induction q with
  | nil => cases h
  | cons x q ih =>
    rw [firstFitting] at h
    split at h
    · rename_i hx
      obtain ⟨q₁, q₂, hq, hbefore, hfit⟩ := ih h
      refine ⟨x :: q₁, q₂, by rw [hq, List.cons_append], ?_, hfit⟩
      exact List.forall_mem_cons.mpr ⟨hx, hbefore⟩
    · rename_i hx
      cases h
      exact ⟨[], q, rfl, by simp, UInt32.not_lt.mp hx⟩

/-- The requests have the same id, socket and type. -/
def ElemJobRequest.SameKey (x y : ElemJobRequest) : Prop :=
  x.jobId = y.jobId ∧ x.socket = y.socket ∧ x.resourceType = y.resourceType

theorem compJobRequest_eq_zero_iff_sameKey {x y : ElemJobRequest} :
    compJobRequest x y = 0 ↔ x.SameKey y := by
  rw [compJobRequest_eq_zero, ElemJobRequest.SameKey]
  tauto

namespace LocalNode

/-- No two requests of a queue have the same id, socket and type. -/
def DistinctRequests (s : LocalNode) : Prop :=
  ∀ t, (s.queue t).Pairwise fun x y => ¬ x.SameKey y

theorem buscar_take (s : LocalNode) (id socket q : UInt32) (t : Resource) (j k : UInt32)
    (u : Resource) : (s.take id socket q t).activeJobs.buscar ⟨j, k, 0, u⟩ =
      if id = j ∧ socket = k ∧ t = u then some ⟨id, socket, q, t⟩
      else s.activeJobs.buscar ⟨j, k, 0, u⟩ := by
  rw [activeJobs_take, Tabla.buscar_insertar]
  simp only [igual_activeJob]

/-! ## What a call does to one type -/

/-- The queue, the units and the reservations of type `t` are the same. -/
structure Untouched (s s' : LocalNode) (t : Resource) : Prop where
  queue : s'.queue t = s.queue t
  avail : s'.avail t = s.avail t
  reservations : ∀ j k, s'.activeJobs.buscar ⟨j, k, 0, t⟩ = s.activeJobs.buscar ⟨j, k, 0, t⟩

/-- The first request of the queue `t` that fits is now a reservation. -/
structure ServesFirst (s s' : LocalNode) (t : Resource) (r : ElemJobRequest) : Prop where
  queue : ∃ q₁ q₂, s.queue t = q₁ ++ r :: q₂ ∧ (∀ x ∈ q₁, s.avail t < x.resourceQuantity) ∧
    s'.queue t = q₁ ++ q₂
  fits : r.resourceQuantity ≤ s.avail t
  avail : (s'.avail t).toNat + r.resourceQuantity.toNat = (s.avail t).toNat
  entry : s'.activeJobs.buscar ⟨r.jobId, r.socket, 0, t⟩ =
    some ⟨r.jobId, r.socket, r.resourceQuantity, t⟩
  reservations : ∀ j k, ¬(j = r.jobId ∧ k = r.socket) →
    s'.activeJobs.buscar ⟨j, k, 0, t⟩ = s.activeJobs.buscar ⟨j, k, 0, t⟩

/-- The type is left as it is, or one request is served. -/
def StepOn (s s' : LocalNode) (t : Resource) : Prop :=
  Untouched s s' t ∨ ∃ r, ServesFirst s s' t r

section Compose

variable {s s₁ s' : LocalNode} {t : Resource} {r : ElemJobRequest}

theorem Untouched.refl (s : LocalNode) (t : Resource) : Untouched s s t where
  queue := rfl
  avail := rfl
  reservations _ _ := rfl

theorem Untouched.trans (h : Untouched s s₁ t) (h' : Untouched s₁ s' t) : Untouched s s' t where
  queue := h'.queue.trans h.queue
  avail := h'.avail.trans h.avail
  reservations j k := (h'.reservations j k).trans (h.reservations j k)

theorem Untouched.servesFirst (h : Untouched s s₁ t) (h' : ServesFirst s₁ s' t r) :
    ServesFirst s s' t r where
  queue := by
    rw [← h.queue, ← h.avail]
    exact h'.queue
  fits := by
    rw [← h.avail]
    exact h'.fits
  avail := by
    rw [← h.avail]
    exact h'.avail
  entry := h'.entry
  reservations j k hne := (h'.reservations j k hne).trans (h.reservations j k)

theorem ServesFirst.untouched (h : ServesFirst s s₁ t r) (h' : Untouched s₁ s' t) :
    ServesFirst s s' t r where
  queue := by
    rw [h'.queue]
    exact h.queue
  fits := h.fits
  avail := by
    rw [h'.avail]
    exact h.avail
  entry := (h'.reservations _ _).trans h.entry
  reservations j k hne := (h'.reservations j k).trans (h.reservations j k hne)

theorem Untouched.stepOn (h : Untouched s s₁ t) (h' : StepOn s₁ s' t) : StepOn s s' t := by
  rcases h' with h' | ⟨r, h'⟩
  · exact Or.inl (h.trans h')
  · exact Or.inr ⟨r, h.servesFirst h'⟩

end Compose

/-! ## A grant -/

theorem untouched_grantQueued (s : LocalNode) {t u : Resource} (r : ElemJobRequest)
    (hu : u ≠ t) : Untouched s (grantQueued s t r) u where
  queue := by
    rw [queue_grantQueued, if_neg hu]
  avail := by
    show (s.take r.jobId r.socket r.resourceQuantity t).resources.avail u = _
    rw [avail_take, if_neg hu]
  reservations j k := by
    show (s.take r.jobId r.socket r.resourceQuantity t).activeJobs.buscar _ = _
    rw [buscar_take, if_neg fun he => hu he.2.2.symm]

theorem servesFirst_grantQueued {s : LocalNode} (hs : s.DistinctRequests) {t : Resource}
    {r : ElemJobRequest} (h : firstFitting (s.avail t) (s.queue t) = some r) :
    ServesFirst s (grantQueued s t r) t r := by
  obtain ⟨q₁, q₂, hq, hbefore, hfit⟩ := firstFitting_split h
  have havail := avail_take_toNat hfit r.jobId r.socket t
  rw [if_pos rfl] at havail
  refine ⟨⟨q₁, q₂, hq, hbefore, ?_⟩, hfit, havail, ?_, fun j k hne => ?_⟩
  · -- the keys before `r` differ from its key, so the deletion reaches `r` itself
    rw [queue_grantQueued, if_pos rfl, hq]
    apply queueDelete_append_cons
    · intro x hx hzero
      have hdistinct := hs t
      rw [hq] at hdistinct
      obtain ⟨_, _, hcross⟩ := List.pairwise_append.mp hdistinct
      exact hcross x hx r List.mem_cons_self (compJobRequest_eq_zero_iff_sameKey.mp hzero)
    · exact compJobRequest_eq_zero.mpr ⟨rfl, rfl, rfl⟩
  · show (s.take r.jobId r.socket r.resourceQuantity t).activeJobs.buscar _ = _
    rw [buscar_take, if_pos ⟨rfl, rfl, rfl⟩]
  · show (s.take r.jobId r.socket r.resourceQuantity t).activeJobs.buscar _ = _
    rw [buscar_take, if_neg fun he => hne ⟨he.1.symm, he.2.1.symm⟩]

theorem distinctRequests_grantQueued {s : LocalNode} (hs : s.DistinctRequests) (t : Resource)
    (r : ElemJobRequest) : (grantQueued s t r).DistinctRequests :=
  fun u => (hs u).sublist (queue_grantQueued_sublist s t u r)

/-! ## The loop over the types -/

theorem untouched_chkLoop : ∀ (types : List Resource) (s : LocalNode) (out : Int32) (k : UInt32)
    {u : Resource}, u ∉ types → Untouched s (chkLoop types s out k).1 u
  | [], s, _, _, u, _ => .refl s u
  | t :: types, s, out, k, u, hu => by
    rw [List.mem_cons, not_or] at hu
    obtain ⟨hut, hu⟩ := hu
    rw [chkLoop]
    split
    · split
      · exact untouched_chkLoop types s out k hu
      · rename_i r _
        exact (untouched_grantQueued s r hut).trans (untouched_chkLoop types _ _ _ hu)
    · exact .refl s u

theorem stepOn_chkLoop : ∀ (types : List Resource) (s : LocalNode) (out : Int32) (k : UInt32),
    types.Nodup → s.DistinctRequests → ∀ u, StepOn s (chkLoop types s out k).1 u
  | [], s, _, _, _, _, u => Or.inl (.refl s u)
  | t :: types, s, out, k, hnd, hs, u => by
    obtain ⟨ht, hnd⟩ := List.nodup_cons.mp hnd
    rw [chkLoop]
    split
    · split
      · exact stepOn_chkLoop types s out k hnd hs u
      · rename_i r hfit
        by_cases hu : u = t
        · subst hu
          exact Or.inr ⟨r, (servesFirst_grantQueued hs hfit).untouched
            (untouched_chkLoop types _ _ _ ht)⟩
        · exact (untouched_grantQueued s r hu).stepOn (stepOn_chkLoop types _ _ _ hnd
            (distinctRequests_grantQueued hs t r) u)
    · exact Or.inl (.refl s u)

/-- The first type with a request that fits is served. -/
theorem served_chkLoop : ∀ (types : List Resource) (s : LocalNode) (k : UInt32),
    types.Nodup → s.DistinctRequests →
      (∃ t ∈ types, ∃ r ∈ s.queue t, r.resourceQuantity ≤ s.avail t) →
      ∃ t r, ServesFirst s (chkLoop types s (-1) k).1 t r
  | [], _, _, _, _, h => by
    obtain ⟨t, ht, _⟩ := h
    cases ht
  | t :: types, s, k, hnd, hs, h => by
    obtain ⟨ht, hnd⟩ := List.nodup_cons.mp hnd
    rw [chkLoop, if_pos rfl]
    cases hfit : firstFitting (s.avail t) (s.queue t) with
    | none =>
      refine served_chkLoop types s k hnd hs ?_
      obtain ⟨u, hu, r, hr, hle⟩ := h
      rcases List.mem_cons.mp hu with rfl | hu
      · exact absurd (firstFitting_none.mp hfit r hr) (UInt32.not_lt.mpr hle)
      · exact ⟨u, hu, r, hr, hle⟩
    | some r =>
      exact ⟨t, r, (servesFirst_grantQueued hs hfit).untouched (untouched_chkLoop types _ _ _ ht)⟩

/-- One call of `chk_job_request` is first-fit, whatever the random start: each type is
left as it is or its first request that fits is served, and some type is served if any
request fits. -/
theorem chkJobRequest_firstFit {s : LocalNode} (hs : s.DistinctRequests) (rnd : Nat)
    (outSocket : UInt32) :
    (∀ t, StepOn s (chkJobRequest s rnd outSocket).1 t) ∧
      ((∃ t, ∃ r ∈ s.queue t, r.resourceQuantity ≤ s.avail t) →
        ∃ t r, ServesFirst s (chkJobRequest s rnd outSocket).1 t r) := by
  obtain ⟨hnd, hall⟩ := rotation_spec rnd
  refine ⟨stepOn_chkLoop _ s (-1) outSocket hnd hs, fun hfits => ?_⟩
  obtain ⟨t, r, hr, hle⟩ := hfits
  exact served_chkLoop _ s outSocket hnd hs ⟨t, hall t, r, hr, hle⟩

/-- Two requests wait for two CPUs: the first one is too large. -/
def twoWaiting : LocalNode :=
  (createLocalNode 2 0 0).setQueue .cpu [⟨5, 7, 3, .cpu⟩, ⟨6, 7, 2, .cpu⟩]

theorem chkJobRequest_firstFit_twoWaiting :
    twoWaiting.DistinctRequests ∧
      ∃ t r, ServesFirst twoWaiting (chkJobRequest twoWaiting 1 0).1 t r := by
  have hs : twoWaiting.DistinctRequests := by
    intro t
    cases t <;> simp [twoWaiting, createLocalNode, createLocalResource, ElemJobRequest.SameKey]
  refine ⟨hs, (chkJobRequest_firstFit hs 1 0).2 ⟨.cpu, ⟨6, 7, 2, .cpu⟩, ?_, ?_⟩⟩
  · simp [twoWaiting]
  · decide

end LocalNode

end ResourceManager
