import ResourceManager.Inventory.Moves

/-!
# Reclamation

`del_active_job` and `free_all_resources_from_socket` return reservations to the inventory
one after the other. `Reclaimed s s' js` says what the state `s'` is when the reservations
`js` of `s` have been returned.
-/

namespace ResourceManager

open HashTable Library.KeyedList Queue

namespace LocalNode

theorem mem_held_giveBack {s : LocalNode} {job key x : ElemActiveJob}
    (h : s.activeJobs.buscar key = some job) :
    x ∈ (s.giveBack job key).held ↔ x ∈ s.held ∧ x ≠ job := by
  obtain ⟨hmem, hkey⟩ := Tabla.buscar_eq_some.mp h
  rw [LocalNode.held, activeJobs_giveBack, Tabla.mem_eliminar]
  refine and_congr_right fun hx => not_congr ⟨fun hxk => ?_, fun he => he ▸ hkey⟩
  exact Tabla.eq_of_igual hx hmem (Legal.equiv.trans hxk (Legal.equiv.symm hkey))

theorem ofNat_unitsOf (job : ElemActiveJob) (t : Resource) :
    UInt32.ofNat (ElemActiveJob.unitsOf t job) =
      if job.resourceType = t then job.resourceQuantity else 0 := by
  unfold ElemActiveJob.unitsOf
  split
  · exact UInt32.ofNat_toNat
  · rfl

structure Reclaimed (s s' : LocalNode) (js : List ElemActiveJob) : Prop where
  moves : Moves s s'
  queue : ∀ t, s'.queue t = s.queue t
  held : ∀ x, x ∈ s'.held ↔ x ∈ s.held ∧ x ∉ js
  avail : ∀ t, (s'.avail t).toNat = (s.avail t).toNat + (js.map (ElemActiveJob.unitsOf t)).sum
  accounted : ∀ t, s'.accounted t = s.accounted t

namespace Reclaimed

theorem nil (s : LocalNode) : Reclaimed s s [] where
  moves := .refl
  queue _ := rfl
  held x := by simp
  avail t := by simp
  accounted _ := rfl

theorem trans {s s₁ s' : LocalNode} {js js' : List ElemActiveJob} (h : Reclaimed s s₁ js)
    (h' : Reclaimed s₁ s' js') : Reclaimed s s' (js ++ js') where
  moves := h.moves.trans h'.moves
  queue t := (h'.queue t).trans (h.queue t)
  held x := by
    rw [h'.held, h.held, List.mem_append]
    tauto
  avail t := by
    rw [h'.avail, h.avail, List.map_append, List.sum_append, Nat.add_assoc]
  accounted t := (h'.accounted t).trans (h.accounted t)

/-- One reservation is returned. -/
theorem one {s : LocalNode} (hs : s.Committed) {job key : ElemActiveJob}
    (h : s.activeJobs.buscar key = some job) : Reclaimed s (s.giveBack job key) [job] where
  moves := .single (.giveBack s job key h (hs.room h))
  queue _ := rfl
  held x := by
    rw [mem_held_giveBack h, List.mem_singleton]
  avail t := by
    rw [avail_giveBack_toNat (hs.room h) key t, List.map_singleton, List.sum_singleton]
  accounted t := accounted_giveBack hs h t

theorem committed {s s' : LocalNode} {js : List ElemActiveJob} (h : Reclaimed s s' js)
    (hs : s.Committed) : s'.Committed := h.moves.committed hs

end Reclaimed

/-- The reservations `js` are found and returned, one after the other. -/
inductive Returns : LocalNode → List ElemActiveJob → LocalNode → Prop
  | nil (s) : Returns s [] s
  | cons {s s' job key js} (h : s.activeJobs.buscar key = some job)
      (hrest : Returns (s.giveBack job key) js s') : Returns s (job :: js) s'

namespace Returns

variable {s s₁ s' : LocalNode} {js js' : List ElemActiveJob}

theorem append (h : Returns s js s₁) (h' : Returns s₁ js' s') : Returns s (js ++ js') s' := by
  induction h with
  | nil => exact h'
  | cons hfind _ ih => exact .cons hfind (ih h')

theorem total (h : Returns s js s') : s'.resources.total = s.resources.total := by
  induction h with
  | nil => rfl
  | cons _ _ ih => exact ih

theorem queue (h : Returns s js s') :
    s'.resources.requestQueue = s.resources.requestQueue := by
  induction h with
  | nil => rfl
  | cons _ _ ih => exact ih

theorem held (h : Returns s js s') (x : ElemActiveJob) :
    x ∈ s'.held ↔ x ∈ s.held ∧ x ∉ js := by
  induction h with
  | nil => simp
  | cons hfind _ ih =>
    rw [ih, mem_held_giveBack hfind, List.mem_cons]
    tauto

theorem avail (h : Returns s js s') (t : Resource) :
    s'.avail t = s.avail t + UInt32.ofNat (js.map (ElemActiveJob.unitsOf t)).sum := by
  induction h with
  | nil => simp
  | @cons s s' job key js hfind _ ih =>
    have hone : (s.giveBack job key).avail t =
        s.avail t + UInt32.ofNat (ElemActiveJob.unitsOf t job) := by
      rw [ofNat_unitsOf, LocalNode.avail, avail_giveBack]
      by_cases ht : t = job.resourceType
      · subst ht
        rw [if_pos rfl, if_pos rfl]
      · rw [if_neg ht, if_neg (Ne.symm ht), UInt32.add_zero]
    rw [ih, hone, List.map_cons, List.sum_cons, UInt32.ofNat_add, UInt32.add_assoc]

theorem reclaimed (h : Returns s js s') (hs : s.Committed) : Reclaimed s s' js := by
  induction h with
  | nil => exact .nil _
  | cons hfind _ ih =>
    have hone := Reclaimed.one hs hfind
    exact hone.trans (ih (hone.committed hs))

end Returns

/-! ## `del_active_job` -/

/-- The reservations of the job `jobId` of `socket` whose types are in `types`. -/
def reservations (s : LocalNode) (jobId socket : UInt32) (types : List Resource) :
    List ElemActiveJob :=
  types.flatMap fun t => (s.activeJobs.buscar ⟨jobId, socket, 0, t⟩).toList

theorem returns_delActiveJobType (s : LocalNode) (j k : UInt32) (t : Resource) :
    Returns s (s.activeJobs.buscar ⟨j, k, 0, t⟩).toList (delActiveJobType j k s t) := by
  unfold delActiveJobType
  dsimp only
  cases h : s.activeJobs.buscar ⟨j, k, 0, t⟩ with
  | none => exact .nil s
  | some job => exact .cons h (.nil _)

theorem buscar_delActiveJobType (s : LocalNode) (j k : UInt32) {t u : Resource} (h : u ≠ t) :
    (delActiveJobType j k s t).activeJobs.buscar ⟨j, k, 0, u⟩ =
      s.activeJobs.buscar ⟨j, k, 0, u⟩ := by
  unfold delActiveJobType
  dsimp only
  split
  · rfl
  · rw [activeJobs_giveBack, Tabla.buscar_eliminar, if_neg]
    rw [igual_activeJob]
    exact fun he => h he.2.2.symm

theorem returns_types (j k : UInt32) : ∀ (types : List Resource), types.Nodup →
    ∀ s : LocalNode, Returns s (s.reservations j k types) (types.foldl (delActiveJobType j k) s)
  | [], _, s => .nil s
  | t :: types, hnd, s => by
    obtain ⟨ht, hnd⟩ := List.nodup_cons.mp hnd
    have hone := returns_delActiveJobType s j k t
    have hrest := returns_types j k types hnd (delActiveJobType j k s t)
    have hsame : (delActiveJobType j k s t).reservations j k types =
        s.reservations j k types := by
      unfold reservations
      refine List.flatMap_congr fun u hu => ?_
      rw [buscar_delActiveJobType s j k (fun he : u = t => ht (he ▸ hu))]
    rw [hsame] at hrest
    simpa only [List.foldl_cons, reservations, List.flatMap_cons] using hone.append hrest

theorem returns_delActiveJob (s : LocalNode) (j k : UInt32) :
    Returns s (s.reservations j k Resource.all) (delActiveJob s j k) :=
  returns_types j k Resource.all (by decide) s

theorem reclaimed_delActiveJob {s : LocalNode} (hs : s.Committed) (j k : UInt32) :
    Reclaimed s (delActiveJob s j k) (s.reservations j k Resource.all) :=
  (returns_delActiveJob s j k).reclaimed hs

theorem mem_reservations {s : LocalNode} {j k : UInt32} {x : ElemActiveJob} :
    x ∈ s.reservations j k Resource.all ↔ x ∈ s.held ∧ x.jobId = j ∧ x.socket = k := by
  simp only [reservations, List.mem_flatMap, Option.mem_toList, Tabla.buscar_eq_some,
    igual_activeJob]
  constructor
  · rintro ⟨t, _, hx, hj, hk, _⟩
    exact ⟨hx, hj, hk⟩
  · rintro ⟨hx, hj, hk⟩
    exact ⟨x.resourceType, Resource.mem_all _, hx, hj, hk, rfl⟩

theorem sum_reservations (s : LocalNode) (j k : UInt32) (t : Resource) :
    ((s.reservations j k Resource.all).map (ElemActiveJob.unitsOf t)).sum =
      s.reserved j k t := by
  have hone : ∀ u, (((s.activeJobs.buscar ⟨j, k, 0, u⟩).toList).map
      (ElemActiveJob.unitsOf t)).sum = if u = t then s.reserved j k t else 0 := by
    intro u
    cases h : s.activeJobs.buscar ⟨j, k, 0, u⟩ with
    | none =>
      split
      · rename_i he
        subst he
        rw [reserved, h]
        rfl
      · rfl
    | some x =>
      have hx := igual_activeJob.mp (Tabla.buscar_eq_some.mp h).2
      rw [Option.toList_some, List.map_singleton, List.sum_singleton, ElemActiveJob.unitsOf,
        hx.2.2]
      dsimp only
      split
      · rename_i he
        subst he
        rw [reserved, h]
      · rfl
  simp only [reservations, Resource.all, List.flatMap_cons, List.flatMap_nil, List.map_append,
    List.sum_append, List.map_nil, List.sum_nil, hone]
  cases t <;> simp

/-- After a release nothing is reserved for the job. -/
theorem mem_held_delActiveJob {s : LocalNode} {j k : UInt32} {x : ElemActiveJob} :
    x ∈ (delActiveJob s j k).held ↔ x ∈ s.held ∧ ¬(x.jobId = j ∧ x.socket = k) := by
  rw [(returns_delActiveJob s j k).held, mem_reservations]
  tauto

theorem queue_delActiveJob (s : LocalNode) (j k : UInt32) (t : Resource) :
    (delActiveJob s j k).queue t = s.queue t := by
  rw [queue, (returns_delActiveJob s j k).queue]

/-- What the job holds of each type is added to `avail`, with the wrap-around of `unsigned`. -/
theorem avail_delActiveJob_eq (s : LocalNode) (j k : UInt32) (t : Resource) :
    (delActiveJob s j k).avail t = s.avail t + UInt32.ofNat (s.reserved j k t) := by
  rw [(returns_delActiveJob s j k).avail, sum_reservations]

theorem avail_delActiveJob {s : LocalNode} (hs : s.Committed) (j k : UInt32) (t : Resource) :
    ((delActiveJob s j k).avail t).toNat = (s.avail t).toNat + s.reserved j k t := by
  rw [(reclaimed_delActiveJob hs j k).avail, sum_reservations]

/-! ## Purges of the queues -/

/-- The purge of a queue ends, however many more steps it is given, and is a filter. -/
def PurgesAsFilter (coincide : ElemJobRequest → Bool)
    (compare : ElemJobRequest → ElemJobRequest → Int) : Prop :=
  ∀ (q : List ElemJobRequest) (n : ℕ), pasosPurga q.length ≤ n →
    purgar coincide compare n q q = some (q.filter fun e => !coincide e)

/-- The comparator also looks at the type, which the test does not; but it compares with an
element that passes the test, so what is deleted passes it as well. -/
theorem purgar_jobRequest (j k : UInt32) :
    PurgesAsFilter (fun e => e.jobId = j ∧ e.socket = k) compJobRequest := by
  intro q n hn
  apply purgar_spec _ _ q hn
  · intro e _
    exact compJobRequest_eq_zero.mpr ⟨rfl, rfl, rfl⟩
  · intro x e he hx
    obtain ⟨hjob, _, hsocket⟩ := compJobRequest_eq_zero.mp hx
    rwa [hjob, hsocket]

theorem purgar_socket (k : UInt32) :
    PurgesAsFilter (fun e => e.socket = k) fun x _ => compJobRequestBySocket x k := by
  intro q n hn
  apply purgar_spec _ _ q hn
  · intro e he
    exact compJobRequestBySocket_eq_zero.mpr (of_decide_eq_true he)
  · intro x _ _ hx
    exact decide_eq_true (compJobRequestBySocket_eq_zero.mp hx)

theorem purgeQueue_eq {coincide : ElemJobRequest → Bool}
    {compare : ElemJobRequest → ElemJobRequest → Int} (h : PurgesAsFilter coincide compare) :
    purgeQueue coincide compare = fun s t =>
      s.setQueue t ((s.queue t).filter fun e => !coincide e) := by
  funext s t
  rw [purgeQueue, h _ _ le_rfl, Option.getD_some]

theorem queue_foldl_filter (s : LocalNode) (keep : ElemJobRequest → Bool) (t : Resource) :
    (Resource.all.foldl (fun s t => s.setQueue t ((s.queue t).filter keep)) s).queue t =
      (s.queue t).filter keep := by
  cases t <;> simp [Resource.all]

theorem delPending_eq (s : LocalNode) (j k : UInt32) :
    delPendingJobRequests s j k = Resource.all.foldl
      (fun s t => s.setQueue t
        ((s.queue t).filter fun e => !decide (e.jobId = j ∧ e.socket = k))) s := by
  unfold delPendingJobRequests
  rw [purgeQueue_eq (purgar_jobRequest j k)]

theorem queue_delPending (s : LocalNode) (j k : UInt32) (t : Resource) :
    (delPendingJobRequests s j k).queue t =
      (s.queue t).filter fun e => !decide (e.jobId = j ∧ e.socket = k) := by
  rw [delPending_eq, queue_foldl_filter]

/-- The inventory and the reservations are not touched. -/
theorem delPending_frame (s : LocalNode) (j k : UInt32) :
    (delPendingJobRequests s j k).total = s.total ∧ (delPendingJobRequests s j k).avail = s.avail ∧
      (delPendingJobRequests s j k).activeJobs = s.activeJobs := by
  rw [delPending_eq]
  exact ⟨rfl, rfl, rfl⟩

/-! ## `free_all_resources_from_socket` -/

theorem returns_list : ∀ (js : List ElemActiveJob) {s : LocalNode}, js.Nodup →
    (∀ x ∈ js, x ∈ s.held) → Returns s js (js.foldl (fun s d => s.giveBack d d) s)
  | [], s, _, _ => .nil s
  | d :: js, s, hnd, hmem => by
    obtain ⟨hd, hnd⟩ := List.nodup_cons.mp hnd
    have hfind : s.activeJobs.buscar d = some d :=
      Tabla.buscar_eq_some.mpr ⟨hmem d List.mem_cons_self, Legal.equiv.refl d⟩
    refine .cons hfind (returns_list js hnd fun x hx => ?_)
    rw [mem_held_giveBack hfind]
    exact ⟨hmem x (List.mem_cons_of_mem d hx), fun he => hd (he ▸ hx)⟩

theorem sweep_eq (s : LocalNode) (k : UInt32) :
    sweep s k = (s.held.filter fun x => x.socket = k).take maxSweep := by
  rw [sweep, Tabla.visitar_recolectar, List.map_id]

theorem mem_sweep {s : LocalNode} {k : UInt32} {x : ElemActiveJob} (h : x ∈ sweep s k) :
    x ∈ s.held ∧ x.socket = k := by
  rw [sweep_eq] at h
  simpa using List.mem_of_mem_take h

/-- The state between the two phases of `free_all_resources_from_socket`. -/
def swept (s : LocalNode) (socket : UInt32) : LocalNode :=
  (sweep s socket).foldl (fun s deadJob => s.giveBack deadJob deadJob) s

theorem returns_swept (s : LocalNode) (k : UInt32) : Returns s (sweep s k) (swept s k) := by
  refine returns_list (sweep s k) ?_ fun x hx => (mem_sweep hx).1
  rw [sweep_eq]
  exact (s.activeJobs.nodup_datos.filter _).sublist (List.take_sublist _ _)

theorem reclaimed_swept {s : LocalNode} (hs : s.Committed) (k : UInt32) :
    Reclaimed s (swept s k) (sweep s k) :=
  (returns_swept s k).reclaimed hs

theorem freeAll_eq (s : LocalNode) (k : UInt32) :
    freeAllResourcesFromSocket s k = Resource.all.foldl
      (fun s t => s.setQueue t ((s.queue t).filter fun e => !decide (e.socket = k)))
      (swept s k) := by
  unfold freeAllResourcesFromSocket swept
  rw [purgeQueue_eq (purgar_socket k)]

theorem queue_freeAll (s : LocalNode) (k : UInt32) (t : Resource) :
    (freeAllResourcesFromSocket s k).queue t =
      (s.queue t).filter fun e => !decide (e.socket = k) := by
  have hqueue : (swept s k).queue t = s.queue t := by
    rw [queue, (returns_swept s k).queue]
  rw [freeAll_eq, queue_foldl_filter, hqueue]

/-- The sweep stops at the capacity of `to_delete`. -/
theorem mem_held_freeAll {s : LocalNode} {k : UInt32} {x : ElemActiveJob} :
    x ∈ (freeAllResourcesFromSocket s k).held ↔ x ∈ s.held ∧ x ∉ sweep s k := by
  rw [← (returns_swept s k).held, freeAll_eq]
  rfl

theorem avail_freeAll_eq (s : LocalNode) (k : UInt32) (t : Resource) :
    (freeAllResourcesFromSocket s k).avail t =
      s.avail t + UInt32.ofNat ((sweep s k).map (ElemActiveJob.unitsOf t)).sum := by
  rw [← (returns_swept s k).avail, freeAll_eq]
  rfl

theorem avail_freeAll {s : LocalNode} (hs : s.Committed) (k : UInt32) (t : Resource) :
    ((freeAllResourcesFromSocket s k).avail t).toNat =
      (s.avail t).toNat + ((sweep s k).map (ElemActiveJob.unitsOf t)).sum := by
  rw [← (reclaimed_swept hs k).avail, freeAll_eq]
  rfl

theorem accounted_freeAll {s : LocalNode} (hs : s.Committed) (k : UInt32) (t : Resource) :
    (freeAllResourcesFromSocket s k).accounted t = s.accounted t := by
  rw [← (reclaimed_swept hs k).accounted, freeAll_eq]
  rfl

theorem moves_freeAll {s : LocalNode} (hs : s.Committed) (k : UInt32) :
    Moves s (freeAllResourcesFromSocket s k) := by
  rw [freeAll_eq]
  exact (((reclaimed_swept hs k).moves.tail (.setQueue _ _ _)).tail (.setQueue _ _ _)).tail
    (.setQueue _ _ _)

/-- Both loops that restart from the head end, from every queue, and leave the other
requests in their order. -/
theorem purges_are_filters (s : LocalNode) (jobId socket : UInt32) (type : Resource) :
    (∀ n, pasosPurga (s.queue type).length ≤ n →
        purgar (fun e => e.jobId = jobId ∧ e.socket = socket) compJobRequest n (s.queue type)
            (s.queue type) =
          some ((s.queue type).filter fun e => ¬ (e.jobId = jobId ∧ e.socket = socket)) ∧
        purgar (fun e => e.socket = socket) (fun x _ => compJobRequestBySocket x socket) n
            (s.queue type) (s.queue type) =
          some ((s.queue type).filter fun e => e.socket ≠ socket)) ∧
      (delPendingJobRequests s jobId socket).queue type =
        ((s.queue type).filter fun e => ¬ (e.jobId = jobId ∧ e.socket = socket)) ∧
      (freeAllResourcesFromSocket s socket).queue type =
        (s.queue type).filter fun e => e.socket ≠ socket := by
  simp only [ne_eq, decide_not]
  exact ⟨fun n hn => ⟨purgar_jobRequest jobId socket _ n hn, purgar_socket socket _ n hn⟩,
    queue_delPending s jobId socket type, queue_freeAll s socket type⟩

end LocalNode

end ResourceManager
