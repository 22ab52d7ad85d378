import ResourceManager.Inventory.Events

/-!
# Requests that are not woken

Units come back to the inventory on RELEASE and on a disconnection. `handle_release` offers
them to the waiting requests until `chk_job_request` returns `-1`, which it also does after
granting a request whose id reads as `-1`. The branch `ACTION_DISCONNECTED` offers them to
nobody. `NothingMissed s e` says that the units that `e` frees are of no use to the
requests that are not offered them; after a run of such events no waiting request fits.
-/

namespace ResourceManager

open HashTable Library.Runs LocalNode Queue

namespace LocalNode

/-- The units of type `t` that the disconnection of `socket` frees. -/
def sweptUnits (s : LocalNode) (socket : UInt32) (t : Resource) : Nat :=
  ((sweep s socket).map (ElemActiveJob.unitsOf t)).sum

instance (s : LocalNode) : Decidable s.NoneFits :=
  inferInstanceAs (Decidable (∀ t, ∀ r ∈ s.queue t, s.avail t < r.resourceQuantity))

/-- After a disconnection nobody fits exactly when the freed units suffice for nobody. -/
theorem noneFits_freeAll {s : LocalNode} (hs : s.Committed) (k : UInt32) :
    (freeAllResourcesFromSocket s k).NoneFits ↔ ∀ t, ∀ r ∈ s.queue t, r.socket ≠ k →
      (s.avail t).toNat + s.sweptUnits k t < r.resourceQuantity.toNat := by
  unfold NoneFits
  simp only [queue_freeAll, UInt32.lt_iff_toNat_lt, avail_freeAll hs, List.mem_filter,
    Bool.not_eq_true', decide_eq_false_iff_not, and_imp]
  rfl

theorem noneFits_handleReserve {s : LocalNode} (h : s.NoneFits) (k j : UInt32)
    (type : Option Resource) (q : UInt32) (outbox : List OutMsg) :
    (handleReserve s k j type q outbox).1.NoneFits := by
  have hres := reserved_handleReserve s k j type q outbox
  generalize handleReserve s k j type q outbox = res at hres
  cases hres with
  | refused => exact h
  | queued t _ _ havail =>
    intro u r hr
    rw [queue, queue_setQueue] at hr
    split at hr
    · rename_i hu
      subst hu
      rcases List.mem_append.mp hr with hr | hr
      · exact h u r hr
      · rw [List.mem_singleton.mp hr]
        exact havail
    · exact h u r hr
  | taken t _ _ havail =>
    intro u r hr
    have hle := avail_take_toNat havail j k u
    have hlt := UInt32.lt_iff_toNat_lt.mp (h u r hr)
    rw [UInt32.lt_iff_toNat_lt]
    dsimp only
    omega

end LocalNode

/-- The event frees no unit that a request it does not wake is waiting for. The id
`4294967295` is the one that reads as `-1`. -/
def NothingMissed (s : LocalNode) : InventoryEvent → Prop
  | .reserve .. => True
  | .release socket jobId _ => ∀ t, ∀ r ∈ s.queue t, r.jobId = 4294967295 →
    (s.avail t).toNat + s.reserved jobId socket t < r.resourceQuantity.toNat
  | .disconnected socket => ∀ t, ∀ r ∈ s.queue t, r.socket ≠ socket →
    (s.avail t).toNat + s.sweptUnits socket t < r.resourceQuantity.toNat

instance : ∀ (s : LocalNode) (e : InventoryEvent), Decidable (NothingMissed s e)
  | _, .reserve .. => .isTrue trivial
  | s, .release socket jobId _ => inferInstanceAs (Decidable (∀ t, ∀ r ∈ s.queue t,
      r.jobId = 4294967295 →
        (s.avail t).toNat + s.reserved jobId socket t < r.resourceQuantity.toNat))
  | s, .disconnected socket => inferInstanceAs (Decidable (∀ t, ∀ r ∈ s.queue t,
      r.socket ≠ socket → (s.avail t).toNat + s.sweptUnits socket t < r.resourceQuantity.toNat))

theorem noneFits_inventoryStep (s : LocalNode) (e : InventoryEvent)
    (h : s.Committed ∧ s.NoneFits) (hmiss : NothingMissed s e) :
    (inventoryStep s e).Committed ∧ (inventoryStep s e).NoneFits := by
  refine ⟨committed_inventoryStep s e h.1, ?_⟩
  cases e with
  | reserve k j type q => exact noneFits_handleReserve h.2 k j type q []
  | release k j rand =>
    obtain ⟨gs, s', hrun, hwoken, hnone⟩ := handleRelease_spec s rand k j []
    rw [inventoryStep, hrun]
    refine hnone fun r hr hsilent => ?_
    obtain ⟨t, hmem, hfit⟩ := hwoken.mem_queue r hr
    rw [(reclaimed_delActiveJob h.1 j k).queue] at hmem
    have hlt := hmiss t r hmem (toInt32_eq_neg_one.mp hsilent)
    have hle := UInt32.le_iff_toNat_le.mp hfit
    rw [avail_delActiveJob h.1] at hle
    omega
  | disconnected k => exact (noneFits_freeAll h.1 k).mpr hmiss

/-- After every event of a run in which nothing is missed, no waiting request fits. -/
theorem no_lost_wakeup (cpu gpu ram : UInt32) (es : List InventoryEvent)
    (h : Along inventoryStep NothingMissed (createLocalNode cpu gpu ram) es) :
    (run inventoryStep (createLocalNode cpu gpu ram) es).NoneFits := by
  have hinit : (createLocalNode cpu gpu ram).Committed ∧ (createLocalNode cpu gpu ram).NoneFits :=
    ⟨committed_createLocalNode cpu gpu ram, fun _ _ hr => absurd hr List.not_mem_nil⟩
  exact (run_invariant noneFits_inventoryStep hinit h).2

/-- A release offers its units, a disconnection frees what nobody waits for. -/
theorem no_lost_wakeup_release :
    (run inventoryStep (createLocalNode 3 0 0)
      [.reserve 5 1 (some .cpu) 2, .reserve 6 1 (some .cpu) 3, .release 5 1 fun _ => 0,
        .disconnected 6]).NoneFits :=
  no_lost_wakeup 3 0 0
    [.reserve 5 1 (some .cpu) 2, .reserve 6 1 (some .cpu) 3, .release 5 1 fun _ => 0,
      .disconnected 6] (by decide)

/-- The peer that holds the unit disconnects; the request that waits for it is not woken. -/
theorem lost_wakeup : ¬ ∀ (cpu gpu ram : UInt32) (es : List InventoryEvent),
    (run inventoryStep (createLocalNode cpu gpu ram) es).NoneFits := by
  intro h
  exact absurd (h 1 0 0 [.reserve 5 1 (some .cpu) 1, .reserve 6 2 (some .cpu) 1, .disconnected 5])
    (by decide)

end ResourceManager
