import ResourceManager.Inventory.Events
import ResourceManager.Library.BoundedLog

/-!
# The end of a job and the end of a socket

Jobs of different peers may have the same id. What the inventory does for one socket leaves
the reservations and the requests of the other sockets alone (`operations_isolated`). The
converse is limited: a release forgets the requests of the job that still wait, and a
disconnection reclaims what fits in `to_delete`.
-/

namespace ResourceManager

open HashTable Library.BoundedLog Library.KeyedList Library.Runs Queue

namespace LocalNode

/-! ## The other sockets -/

/-- The reservations of the sockets other than `socket` are the same, and so are their
requests and the order of these. -/
structure IsolatedFrom (socket : UInt32) (s s' : LocalNode) : Prop where
  total : s'.resources.total = s.resources.total
  held : ∀ x : ElemActiveJob, x.socket ≠ socket → (x ∈ s'.held ↔ x ∈ s.held)
  queue : ∀ t, ((s'.queue t).filter fun r => r.socket ≠ socket) =
    (s.queue t).filter fun r => r.socket ≠ socket

theorem isolated_refl (socket : UInt32) (s : LocalNode) : IsolatedFrom socket s s where
  total := rfl
  held _ _ := Iff.rfl
  queue _ := rfl

theorem IsolatedFrom.mem_queue {k : UInt32} {s s' : LocalNode} (h : IsolatedFrom k s s')
    (t : Resource) {r : ElemJobRequest} (hr : r.socket ≠ k) : r ∈ s'.queue t ↔ r ∈ s.queue t := by
  have hmem : r ∈ (s'.queue t).filter (fun r => r.socket ≠ k) ↔
      r ∈ (s.queue t).filter fun r => r.socket ≠ k := by
    rw [h.queue t]
  simpa [hr] using hmem

theorem isolated_newJobRequest (s : LocalNode) (j k q : UInt32) (t : Resource) :
    IsolatedFrom k s (newJobRequest s j k q t).1 := by
  unfold newJobRequest
  split
  · exact isolated_refl k s
  · split
    · refine ⟨rfl, fun _ _ => Iff.rfl, fun u => ?_⟩
      rw [queue, queue_setQueue, queueAdd_eq]
      by_cases hu : u = t
      · subst hu
        rw [if_pos rfl, List.filter_append]
        simp
      · rw [if_neg hu]
    · refine ⟨rfl, fun x hx => ?_, fun _ => rfl⟩
      rw [mem_held_take]
      constructor
      · rintro (rfl | ⟨hmem, _⟩)
        · exact absurd rfl hx
        · exact hmem
      · exact fun hmem => Or.inr ⟨hmem, fun hkey => hx hkey.2.1⟩

theorem isolated_delActiveJob (s : LocalNode) (j k : UInt32) :
    IsolatedFrom k s (delActiveJob s j k) where
  total := (returns_delActiveJob s j k).total
  held x hx := by
    rw [mem_held_delActiveJob]
    exact and_iff_left fun hkey => hx hkey.2
  queue t := by
    rw [queue_delActiveJob]

theorem isolated_freeAll (s : LocalNode) (k : UInt32) :
    IsolatedFrom k s (freeAllResourcesFromSocket s k) where
  total := by
    rw [freeAll_eq]
    exact (returns_swept s k).total
  held x hx := by
    rw [mem_held_freeAll]
    exact and_iff_left fun hmem => hx (mem_sweep hmem).2
  queue t := by
    rw [queue_freeAll, List.filter_filter]
    simp

/-- What a socket asks for, releases or leaves behind does not touch the other sockets,
whatever ids they use. -/
theorem operations_isolated (s : LocalNode) (socket : UInt32) :
    (∀ jobId quantity type,
      IsolatedFrom socket s (newJobRequest s jobId socket quantity type).1) ∧
      (∀ jobId, IsolatedFrom socket s (delActiveJob s jobId socket)) ∧
      IsolatedFrom socket s (freeAllResourcesFromSocket s socket) :=
  ⟨fun j q t => isolated_newJobRequest s j socket q t, fun j => isolated_delActiveJob s j socket,
    isolated_freeAll s socket⟩

/-! ## The end of a job -/

/-- The job has no reservation and no waiting request. -/
def Ended (s : LocalNode) (jobId socket : UInt32) : Prop :=
  (∀ x ∈ s.held, ¬(x.jobId = jobId ∧ x.socket = socket)) ∧
    ∀ t, ∀ r ∈ s.queue t, ¬(r.jobId = jobId ∧ r.socket = socket)

section Grant

variable {s : LocalNode} {t : Resource} {r : ElemJobRequest} {j k : UInt32}

theorem ended_grantQueued (h : r ∈ s.queue t) (hs : s.Ended j k) :
    (grantQueued s t r).Ended j k := by
  refine ⟨fun x hx => ?_, fun u x hx => ?_⟩
  · rcases mem_held_take.mp hx with rfl | ⟨hmem, _⟩
    · exact hs.2 t r h
    · exact hs.1 x hmem
  · exact hs.2 u x ((queue_grantQueued_sublist s t u r).subset hx)

/-- A job that waits or holds something still does so after a grant. -/
theorem not_ended_grantQueued (h : r ∈ s.queue t) (hs : ¬ s.Ended j k) :
    ¬ (grantQueued s t r).Ended j k := by
  intro hend
  refine hs ⟨fun x hx hkey => ?_, fun u x hx hkey => ?_⟩
  · obtain ⟨y, hy, hykey⟩ := holds_grantQueued s t r ⟨x, hx, hkey⟩
    exact hend.1 y hy hykey
  · have hgone : x ∉ (grantQueued s t r).queue u := fun hmem => hend.2 u x hmem hkey
    rw [queue_grantQueued] at hgone
    split at hgone
    · rename_i hu
      subst hu
      -- the request left the queue, so the grant was for its job
      obtain ⟨q₁, y, q₂, hq, hy, _, hdel⟩ := queueDelete_split (fun x => compJobRequest x r)
        ⟨r, h, compJobRequest_eq_zero.mpr ⟨rfl, rfl, rfl⟩⟩
      obtain ⟨hj, _, hk⟩ := compJobRequest_eq_zero.mp hy
      rw [hdel] at hgone
      have hxy : x = y := by
        rw [hq] at hx
        simp only [List.mem_append, List.mem_cons] at hx hgone
        tauto
      subst hxy
      refine hend.1 ⟨r.jobId, r.socket, r.resourceQuantity, u⟩ (mem_held_take.mpr (Or.inl rfl)) ?_
      exact ⟨hj.symm.trans hkey.1, hk.symm.trans hkey.2⟩
    · exact hgone hx

end Grant

theorem Woken.ended_iff {s s' : LocalNode} {gs : List ElemJobRequest} (h : Woken s gs s')
    (j k : UInt32) : s'.Ended j k ↔ s.Ended j k := by
  induction h with
  | nil => exact Iff.rfl
  | cons hfit _ ih =>
    have hmem := (firstFitting_some hfit).1
    refine ih.trans ⟨fun hend => ?_, ended_grantQueued hmem⟩
    by_contra hs
    exact not_ended_grantQueued hmem hs hend

/-- A RELEASE ends the job on its socket exactly when none of its requests waits. -/
theorem ended_handleRelease_iff (s : LocalNode) (rand : Nat → Nat) (socket jobId : UInt32) :
    (handleRelease s rand socket jobId []).1.Ended jobId socket ↔
      ∀ t, ∀ r ∈ s.queue t, ¬(r.jobId = jobId ∧ r.socket = socket) := by
  obtain ⟨gs, s', hrun, hwoken, _⟩ := handleRelease_spec s rand socket jobId []
  rw [hrun, hwoken.ended_iff, Ended]
  simp only [queue_delActiveJob]
  refine and_iff_right fun x hx => ?_
  exact (mem_held_delActiveJob.mp hx).2

/-- The job 1 of socket 5 holds the CPU and waits for the GPU when it is released. -/
theorem ended_handleRelease_waiting : ¬ ∀ (es : List InventoryEvent) (rand : Nat → Nat)
    (socket jobId : UInt32), (handleRelease (run inventoryStep (createLocalNode 1 1 0) es) rand
      socket jobId []).1.Ended jobId socket := by
  intro h
  have hend := h [.reserve 5 1 (some .cpu) 1, .reserve 6 2 (some .gpu) 1,
    .reserve 5 1 (some .gpu) 1] (fun _ => 0) 5 1
  refine hend.2 .gpu ⟨1, 5, 1, .gpu⟩ ?_ ⟨rfl, rfl⟩
  decide +kernel

/-! ## The end of a socket -/

/-- The reservations of a socket. -/
def heldBy (s : LocalNode) (socket : UInt32) : List ElemActiveJob :=
  s.held.filter fun x => x.socket = socket

/-- The units of type `t` that a socket holds. -/
def unitsHeldBy (s : LocalNode) (socket : UInt32) (t : Resource) : Nat :=
  ((s.heldBy socket).map (ElemActiveJob.unitsOf t)).sum

/-- The socket holds nothing and waits for nothing. -/
def Idle (s : LocalNode) (socket : UInt32) : Prop :=
  (∀ x ∈ s.held, x.socket ≠ socket) ∧ ∀ t, ∀ r ∈ s.queue t, r.socket ≠ socket

theorem IsolatedFrom.idle_iff {k u : UInt32} {s s' : LocalNode} (h : IsolatedFrom k s s')
    (hu : u ≠ k) : s'.Idle u ↔ s.Idle u := by
  constructor
  · rintro ⟨hheld, hqueue⟩
    refine ⟨fun x hx hxu => ?_, fun t r hr hru => ?_⟩
    · subst hxu
      exact hheld x ((h.held x hu).mpr hx) rfl
    · subst hru
      exact hqueue t r ((h.mem_queue t hu).mpr hr) rfl
  · rintro ⟨hheld, hqueue⟩
    refine ⟨fun x hx hxu => ?_, fun t r hr hru => ?_⟩
    · subst hxu
      exact hheld x ((h.held x hu).mp hx) rfl
    · subst hru
      exact hqueue t r ((h.mem_queue t hu).mp hr) rfl

/-- `s'` has nothing of the socket, and its units are available again. -/
structure Vacated (socket : UInt32) (s s' : LocalNode) : Prop where
  idle : s'.Idle socket
  avail : ∀ t, (s'.avail t).toNat = (s.avail t).toNat + s.unitsHeldBy socket t

/-- Nothing stays exactly when `to_delete` has room for all. -/
theorem held_freeAll_iff (s : LocalNode) (k : UInt32) :
    (∀ x ∈ (freeAllResourcesFromSocket s k).held, x.socket ≠ k) ↔
      (s.heldBy k).length ≤ maxSweep := by
  unfold heldBy
  rw [← filter_take_all_iff s.activeJobs.nodup_datos]
  simp only [mem_held_freeAll, sweep_eq, and_imp, decide_eq_false_iff_not]

theorem waiting_freeAll (s : LocalNode) (k : UInt32) (t : Resource) :
    ∀ r ∈ (freeAllResourcesFromSocket s k).queue t, r.socket ≠ k := by
  intro r hr
  rw [queue_freeAll] at hr
  simpa using (List.mem_filter.mp hr).2

theorem setQueue_self (s : LocalNode) (t : Resource) : s.setQueue t (s.queue t) = s := by
  unfold setQueue
  rw [queue, Function.update_eq_self]

/-- For an idle socket nothing is done. -/
theorem freeAll_of_idle {s : LocalNode} {k : UInt32} (h : s.Idle k) :
    freeAllResourcesFromSocket s k = s := by
  have hsweep : sweep s k = [] := by
    rw [sweep_eq, List.take_eq_nil_iff, List.filter_eq_nil_iff]
    exact Or.inr fun x hx => by simpa using h.1 x hx
  have hqueue : ∀ t, (s.queue t).filter (fun e => !decide (e.socket = k)) = s.queue t := fun t =>
    List.filter_eq_self.mpr fun r hr => by simpa using h.2 t r hr
  rw [freeAll_eq, swept, hsweep, List.foldl_nil]
  simp only [Resource.all, List.foldl_cons, List.foldl_nil, hqueue, setQueue_self]

/-- If two sockets are freed with the same result, both are idle. -/
theorem idle_of_freeAll_eq {s : LocalNode} {k u : UInt32} (hne : k ≠ u)
    (h : freeAllResourcesFromSocket s k = freeAllResourcesFromSocket s u) : s.Idle k := by
  constructor
  · -- what `k` holds is still there when `u` is freed, so the sweep of `k` is empty
    have hnone : ∀ x ∈ s.held, x.socket = k → x ∉ sweep s k := by
      intro x hx hk
      have hu : x ∈ (freeAllResourcesFromSocket s u).held :=
        mem_held_freeAll.mpr ⟨hx, fun hmem => hne (hk.symm.trans (mem_sweep hmem).2)⟩
      rw [← h] at hu
      exact (mem_held_freeAll.mp hu).2
    have hsweep : sweep s k = [] :=
      List.eq_nil_iff_forall_not_mem.mpr fun x hx =>
        hnone x (mem_sweep hx).1 (mem_sweep hx).2 hx
    rw [sweep_eq, List.take_eq_nil_iff, List.filter_eq_nil_iff] at hsweep
    intro x hx hk
    rcases hsweep with hzero | hall
    · cases hzero
    · exact hall x hx (decide_eq_true hk)
  · intro t r hr hk
    have hu : r ∈ (freeAllResourcesFromSocket s u).queue t := by
      rw [queue_freeAll, List.mem_filter]
      exact ⟨hr, by simpa using fun he : r.socket = u => hne (hk.symm.trans he)⟩
    rw [← h] at hu
    exact waiting_freeAll s k t r hu hk

/-- In a reachable state the units of a socket fit in `avail`. -/
theorem unitsHeldBy_fits {s : LocalNode} (hs : s.Committed) (socket : UInt32) (t : Resource) :
    (s.avail t).toNat + s.unitsHeldBy socket t < 2 ^ 32 := by
  have hsub : s.unitsHeldBy socket t ≤ s.units t :=
    (List.filter_sublist.map _).sum_le_sum fun _ _ => Nat.zero_le _
  have hfit := hs t
  have hlt := (s.total t).toNat_lt
  unfold accounted at hfit
  omega

/-- A dead socket leaves nothing behind, and `avail` grows by what it held, exactly when it
has at most 100 reservations; that the sum fits in 32 bits holds in every reachable state. -/
theorem vacated_freeAll_iff (s : LocalNode) (socket : UInt32) :
    Vacated socket s (freeAllResourcesFromSocket s socket) ↔
      (s.heldBy socket).length ≤ maxSweep ∧
        ∀ t, (s.avail t).toNat + s.unitsHeldBy socket t < 2 ^ 32 := by
  constructor
  · intro h
    refine ⟨(held_freeAll_iff s socket).mp h.idle.1, fun t => ?_⟩
    rw [← h.avail]
    exact ((freeAllResourcesFromSocket s socket).avail t).toNat_lt
  · rintro ⟨hlen, hfit⟩
    refine ⟨⟨(held_freeAll_iff s socket).mpr hlen, waiting_freeAll s socket⟩, fun t => ?_⟩
    · have hsweep : sweep s socket = s.heldBy socket := by
        rw [sweep_eq]
        exact List.take_of_length_le hlen
      rw [avail_freeAll_eq, hsweep, UInt32.toNat_add, UInt32.toNat_ofNat', Nat.add_mod_mod]
      exact Nat.mod_eq_of_lt (hfit t)

/-- One socket reserves a CPU for each of 101 jobs and dies. -/
theorem vacated_freeAll_full : ¬ ∀ (es : List InventoryEvent) (socket : UInt32),
    Vacated socket (run inventoryStep (createLocalNode 101 0 0) es)
      (freeAllResourcesFromSocket (run inventoryStep (createLocalNode 101 0 0) es) socket) := by
  intro h
  have hlen := (held_freeAll_iff _ _).mp
    (h ((List.range 101).map fun i => .reserve 5 (UInt32.ofNat i) (some .cpu) 1) 5).idle.1
  revert hlen
  decide +kernel

end LocalNode

end ResourceManager
