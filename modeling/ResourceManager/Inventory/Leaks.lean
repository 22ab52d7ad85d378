import ResourceManager.Inventory.Events

/-!
# Units that never come back

A grant under a key that already has an entry replaces the entry, and the units of the old
one are lost: they are neither available nor reserved. `FreshKeys s e` excludes such a
grant in the event `e`; a run of events that satisfy it loses nothing (`no_unit_leaks`).
For a release, which may wake several requests, `FreshKeys` looks at the waiting requests
that fit in what is available together with what the release frees.
-/

namespace ResourceManager

open HashTable Library.Runs LocalNode Queue

namespace LocalNode

/-- Every unit is available or reserved. -/
def Balanced (s : LocalNode) : Prop := ∀ t, (s.total t).toNat = (s.avail t).toNat + s.units t

/-- The number of waiting requests of type `t` under the key `(jobId, socket)`. -/
def waitingUnder (s : LocalNode) (jobId socket : UInt32) (t : Resource) : Nat :=
  (s.queue t).countP fun r => r.jobId = jobId ∧ r.socket = socket

theorem Balanced.committed {s : LocalNode} (h : s.Balanced) : s.Committed :=
  fun t => (h t).ge

/-! ## What is reserved under a key -/

/-- The reservation under a key depends on the entries with this key only. -/
theorem reserved_congr {s s' : LocalNode} {j k : UInt32} {t : Resource}
    (h : ∀ x : ElemActiveJob, x.jobId = j ∧ x.socket = k ∧ x.resourceType = t →
      (x ∈ s'.held ↔ x ∈ s.held)) : s'.reserved j k t = s.reserved j k t := by
  have hfind : s'.activeJobs.buscar ⟨j, k, 0, t⟩ = s.activeJobs.buscar ⟨j, k, 0, t⟩ := by
    apply Option.ext
    intro x
    rw [Tabla.buscar_eq_some, Tabla.buscar_eq_some, igual_activeJob]
    exact and_congr_left fun hx => h x hx
  rw [reserved, reserved, hfind]

theorem reserved_eq_zero {s : LocalNode} {j k : UInt32} {t : Resource}
    (h : ∀ x ∈ s.held, ¬(x.jobId = j ∧ x.socket = k ∧ x.resourceType = t)) :
    s.reserved j k t = 0 := by
  rw [reserved, Tabla.buscar_eq_none.mpr fun x hx hxk => h x hx (igual_activeJob.mp hxk)]

theorem reserved_take_of_ne {s : LocalNode} {id socket q : UInt32} {t : Resource}
    {j k : UInt32} {u : Resource} (h : ¬(j = id ∧ k = socket ∧ u = t)) :
    (s.take id socket q t).reserved j k u = s.reserved j k u := by
  refine reserved_congr fun x hx => ?_
  obtain ⟨rfl, rfl, rfl⟩ := hx
  rw [mem_held_take]
  constructor
  · rintro (rfl | ⟨hx, _⟩)
    · exact absurd ⟨rfl, rfl, rfl⟩ h
    · exact hx
  · exact fun hx => Or.inr ⟨hx, h⟩

theorem reserved_delActiveJob_self (s : LocalNode) (j k : UInt32) (t : Resource) :
    (delActiveJob s j k).reserved j k t = 0 :=
  reserved_eq_zero fun _ hx hxk => (mem_held_delActiveJob.mp hx).2 ⟨hxk.1, hxk.2.1⟩

theorem reserved_delActiveJob_of_ne {s : LocalNode} {j k j' k' : UInt32}
    (h : ¬(j' = j ∧ k' = k)) (t : Resource) :
    (delActiveJob s j k).reserved j' k' t = s.reserved j' k' t := by
  refine reserved_congr fun x hx => ?_
  obtain ⟨rfl, rfl, rfl⟩ := hx
  rw [mem_held_delActiveJob]
  exact and_iff_left h

/-! ## Wake-ups under fresh keys -/

/-- A waiting request that fits has no reservation under its key and waits only once. -/
def FitsFresh (s : LocalNode) : Prop := ∀ t, ∀ r ∈ s.queue t, r.resourceQuantity ≤ s.avail t →
  s.reserved r.jobId r.socket t = 0 ∧ s.waitingUnder r.jobId r.socket t = 1

/-- The grant of the only request under its key leaves no request under the key. -/
theorem not_mem_queueDelete {q : List ElemJobRequest} {r x : ElemJobRequest} (hr : r ∈ q)
    (hcount : (q.countP fun r' => r'.jobId = r.jobId ∧ r'.socket = r.socket) = 1)
    (hx : x ∈ queueDelete (fun x => compJobRequest x r) q) :
    ¬(x.jobId = r.jobId ∧ x.socket = r.socket) := by
  obtain ⟨q₁, y, q₂, hq, hy, _, hdel⟩ := queueDelete_split
    (fun x => compJobRequest x r) ⟨r, hr, compJobRequest_eq_zero.mpr ⟨rfl, rfl, rfl⟩⟩
  obtain ⟨hyj, _, hyk⟩ := compJobRequest_eq_zero.mp hy
  rw [hq, List.countP_append, List.countP_cons_of_pos (by simp [hyj, hyk])] at hcount
  rw [hdel, List.mem_append] at hx
  rcases hx with hx | hx
  · have hzero : (q₁.countP fun r' => r'.jobId = r.jobId ∧ r'.socket = r.socket) = 0 := by omega
    simpa using List.countP_eq_zero.mp hzero x hx
  · have hzero : (q₂.countP fun r' => r'.jobId = r.jobId ∧ r'.socket = r.socket) = 0 := by omega
    simpa using List.countP_eq_zero.mp hzero x hx

theorem fitsFresh_grantQueued {s : LocalNode} {t : Resource} {r : ElemJobRequest}
    (h : firstFitting (s.avail t) (s.queue t) = some r) (hs : s.FitsFresh) :
    (grantQueued s t r).FitsFresh := by
  obtain ⟨hr, hfit⟩ := firstFitting_some h
  intro u x hx hxfit
  have hxq : x ∈ s.queue u := (queue_grantQueued_sublist s t u r).subset hx
  obtain ⟨hfree, hcount⟩ := hs u x hxq (UInt32.le_trans hxfit (avail_grantQueued_le h u))
  have hne : ¬(x.jobId = r.jobId ∧ x.socket = r.socket ∧ u = t) := by
    rintro ⟨hj, hk, rfl⟩
    rw [queue_grantQueued, if_pos rfl] at hx
    exact not_mem_queueDelete hr (hs u r hr hfit).2 hx ⟨hj, hk⟩
  constructor
  · exact (reserved_take_of_ne hne).trans hfree
  · have hle := (queue_grantQueued_sublist s t u r).countP_le
      (p := fun r' => r'.jobId = x.jobId ∧ r'.socket = x.socket)
    have hpos : 0 < (grantQueued s t r).waitingUnder x.jobId x.socket u :=
      List.countP_pos_iff.mpr ⟨x, hx, by simp⟩
    unfold waitingUnder at hcount hpos ⊢
    omega

/-- A wake-up run over fresh keys keeps the account. -/
theorem Woken.accounted {s s' : LocalNode} {gs : List ElemJobRequest} (h : Woken s gs s')
    (hs : s.FitsFresh) (t : Resource) : s'.accounted t = s.accounted t := by
  induction h with
  | nil => rfl
  | cons hfit hrest ih =>
    rename_i s s' u r gs
    obtain ⟨hr, hle⟩ := firstFitting_some hfit
    have hone := accounted_grantQueued hfit t
    rw [ih (fitsFresh_grantQueued hfit hs)]
    by_cases ht : t = u
    · subst ht
      rw [if_pos rfl, (hs t r hr hle).1] at hone
      exact hone
    · rw [if_neg ht] at hone
      exact hone

end LocalNode

/-! ## Runs -/

/-- The event grants nothing under a key that has units already. -/
def FreshKeys (s : LocalNode) : InventoryEvent → Prop
  | .reserve socket jobId type cant =>
    ∀ t, type = some t → cant ≤ s.total t → cant ≤ s.avail t → s.reserved jobId socket t = 0
  | .release socket jobId _ => ∀ t, ∀ r ∈ s.queue t,
    r.resourceQuantity.toNat ≤ (s.avail t).toNat + s.reserved jobId socket t →
      ((r.jobId = jobId ∧ r.socket = socket) ∨ s.reserved r.jobId r.socket t = 0) ∧
        s.waitingUnder r.jobId r.socket t = 1
  | .disconnected _ => True

instance : ∀ (s : LocalNode) (e : InventoryEvent), Decidable (FreshKeys s e)
  | s, .reserve socket jobId type cant => inferInstanceAs (Decidable (∀ t, type = some t →
      cant ≤ s.total t → cant ≤ s.avail t → s.reserved jobId socket t = 0))
  | s, .release socket jobId _ => inferInstanceAs (Decidable (∀ t, ∀ r ∈ s.queue t,
      r.resourceQuantity.toNat ≤ (s.avail t).toNat + s.reserved jobId socket t →
        ((r.jobId = jobId ∧ r.socket = socket) ∨ s.reserved r.jobId r.socket t = 0) ∧
          s.waitingUnder r.jobId r.socket t = 1))
  | _, .disconnected _ => .isTrue trivial

theorem fitsFresh_delActiveJob {s : LocalNode} (hs : s.Committed) {k j : UInt32}
    {rand : Nat → Nat} (h : FreshKeys s (.release k j rand)) :
    (delActiveJob s j k).FitsFresh := by
  intro t r hr hfit
  have hqueue := (reclaimed_delActiveJob hs j k).queue t
  rw [hqueue] at hr
  have hle := UInt32.le_iff_toNat_le.mp hfit
  rw [avail_delActiveJob hs] at hle
  obtain ⟨hkey, hcount⟩ := h t r hr hle
  refine ⟨?_, by rw [waitingUnder, hqueue]; exact hcount⟩
  by_cases hself : r.jobId = j ∧ r.socket = k
  · rw [hself.1, hself.2]
    exact reserved_delActiveJob_self s j k t
  · rw [reserved_delActiveJob_of_ne hself]
    exact hkey.resolve_left hself

theorem accounted_inventoryStep {s : LocalNode} (hs : s.Committed) {e : InventoryEvent}
    (h : FreshKeys s e) (t : Resource) : (inventoryStep s e).accounted t = s.accounted t := by
  cases e with
  | reserve k j type q =>
    have hres := reserved_handleReserve s k j type q []
    show (handleReserve s k j type q []).1.accounted t = s.accounted t
    generalize handleReserve s k j type q [] = res at hres
    cases hres with
    | refused => rfl
    | queued => rfl
    | taken u hu htotal havail =>
      have hone := accounted_take havail j k t
      by_cases ht : t = u
      · subst ht
        rw [if_pos rfl, h t hu htotal havail] at hone
        exact hone
      · rw [if_neg ht] at hone
        exact hone
  | release k j rand =>
    obtain ⟨gs, s', hrun, hwoken, _⟩ := handleRelease_spec s rand k j []
    rw [inventoryStep, hrun, hwoken.accounted (fitsFresh_delActiveJob hs h)]
    exact (reclaimed_delActiveJob hs j k).accounted t
  | disconnected k => exact accounted_freeAll hs k t

theorem balanced_inventoryStep (s : LocalNode) (e : InventoryEvent) (hs : s.Balanced)
    (h : FreshKeys s e) : (inventoryStep s e).Balanced := by
  intro t
  rw [total_inventoryStep hs.committed]
  exact (hs t).trans (accounted_inventoryStep hs.committed h t).symm

/-- A run whose grants all have fresh keys accounts for every unit. -/
theorem no_unit_leaks (cpu gpu ram : UInt32) (es : List InventoryEvent)
    (h : Along inventoryStep FreshKeys (createLocalNode cpu gpu ram) es) (t : Resource) :
    ((run inventoryStep (createLocalNode cpu gpu ram) es).total t).toNat =
      ((run inventoryStep (createLocalNode cpu gpu ram) es).avail t).toNat +
        (run inventoryStep (createLocalNode cpu gpu ram) es).units t := by
  have hinit : (createLocalNode cpu gpu ram).Balanced :=
    fun t => (accounted_createLocalNode cpu gpu ram t).symm
  exact run_invariant balanced_inventoryStep hinit h t

/-- Two jobs take the same units one after the other. -/
theorem no_unit_leaks_handover :
    let s := run inventoryStep (createLocalNode 3 0 0)
      [.reserve 5 1 (some .cpu) 2, .reserve 6 1 (some .cpu) 3, .release 5 1 fun _ => 0]
    (s.total .cpu).toNat = (s.avail .cpu).toNat + s.units .cpu :=
  no_unit_leaks 3 0 0
    [.reserve 5 1 (some .cpu) 2, .reserve 6 1 (some .cpu) 3, .release 5 1 fun _ => 0]
    (by decide) .cpu

/-- A second RESERVE for a job that holds units: the first unit is lost. -/
theorem unit_leaks : ¬ ∀ (cpu gpu ram : UInt32) (es : List InventoryEvent) (t : Resource),
    ((run inventoryStep (createLocalNode cpu gpu ram) es).total t).toNat -
        ((run inventoryStep (createLocalNode cpu gpu ram) es).avail t).toNat ≤
      (run inventoryStep (createLocalNode cpu gpu ram) es).units t := by
  intro h
  exact absurd (h 3 0 0 [.reserve 5 1 (some .cpu) 1, .reserve 5 1 (some .cpu) 1] .cpu) (by decide)

end ResourceManager
