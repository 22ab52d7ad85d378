import ResourceManager.Inventory.Wake
import ResourceManager.Library.Runs

/-!
# Runs of the inventory

A node's inventory changes on RESERVE, RELEASE and the disconnection of a peer. In every
state that a run of such events reaches, the available and the reserved units fit in the
total, and the arithmetic of the next event is exact (`no_overcommitment`).
-/

namespace ResourceManager

open HashTable Library.Runs LocalNode

inductive InventoryEvent where
  | reserve (socket jobId : UInt32) (type : Option Resource) (cant : UInt32)
  /-- `rand` gives the values of `rand()` in the wake-up loop. -/
  | release (socket jobId : UInt32) (rand : Nat → Nat)
  | disconnected (socket : UInt32)

/-- The inventory after an event. -/
def inventoryStep (s : LocalNode) : InventoryEvent → LocalNode
  | .reserve socket jobId type cant => (handleReserve s socket jobId type cant []).1
  | .release socket jobId rand => (handleRelease s rand socket jobId []).1
  | .disconnected socket => freeAllResourcesFromSocket s socket

/-- The same event, as the agent receives it. -/
def InventoryEvent.toAgentEvent (connections : Connections) (senderIp : Option Ip) :
    InventoryEvent → AgentEvent
  | .reserve socket jobId type cant => .reserve socket jobId type cant
  | .release socket jobId rand => .release socket jobId rand
  | .disconnected socket => .disconnected connections senderIp socket

/-- The inventory of an agent changes by `inventoryStep`. -/
theorem inventory_resourceAdapterPatch (node : NodeData) (connections : Connections)
    (senderIp : Option Ip) (e : InventoryEvent) :
    (resourceAdapterPatch node (e.toAgentEvent connections senderIp)).1.inventory =
      inventoryStep node.inventory e := by
  cases e <;> rfl

/-- The three ends of a RESERVE. -/
inductive Reserved (s : LocalNode) (k j : UInt32) (type : Option Resource) (q : UInt32)
    (outbox : List OutMsg) : LocalNode × List OutMsg → Prop
  | refused (h : ∀ t, type = some t → s.total t < q) :
      Reserved s k j type q outbox (s, addToOutbox outbox (.toFd k (.denied j)))
  | queued (t) (ht : type = some t) (htotal : q ≤ s.total t) (havail : s.avail t < q) :
      Reserved s k j type q outbox (s.setQueue t (s.queue t ++ [⟨j, k, q, t⟩]), outbox)
  | taken (t) (ht : type = some t) (htotal : q ≤ s.total t) (havail : q ≤ s.avail t) :
      Reserved s k j type q outbox
        (s.take j k q t, addToOutbox outbox (.toFd k (.granted j.toNat)))

theorem reserved_handleReserve (s : LocalNode) (k j : UInt32) (type : Option Resource)
    (q : UInt32) (outbox : List OutMsg) :
    Reserved s k j type q outbox (handleReserve s k j type q outbox) := by
  cases type with
  | none => exact .refused (by simp)
  | some t =>
    unfold handleReserve newJobRequest
    dsimp only
    by_cases htotal : s.total t < q
    · rw [if_pos htotal]
      exact .refused fun u hu => by
        cases hu
        exact htotal
    · rw [if_neg htotal]
      by_cases havail : s.avail t < q
      · rw [if_pos havail, Queue.queueAdd_eq]
        exact .queued t rfl (UInt32.not_lt.mp htotal) havail
      · rw [if_neg havail]
        exact .taken t rfl (UInt32.not_lt.mp htotal) (UInt32.not_lt.mp havail)

/-- Every event is a sequence of exact writes. -/
theorem moves_inventoryStep {s : LocalNode} (hs : s.Committed) (e : InventoryEvent) :
    Moves s (inventoryStep s e) := by
  cases e with
  | reserve k j type q =>
    have h := reserved_handleReserve s k j type q []
    show Moves s (handleReserve s k j type q []).1
    generalize handleReserve s k j type q [] = res at h
    cases h with
    | refused => exact .refl
    | queued t => exact .single (.setQueue _ _ _)
    | taken t _ _ havail => exact .single (.take _ _ _ _ _ havail)
  | release k j rand =>
    obtain ⟨gs, s', hrun, hwoken, _⟩ := handleRelease_spec s rand k j []
    rw [inventoryStep, hrun]
    exact (reclaimed_delActiveJob hs j k).moves.trans hwoken.moves
  | disconnected k => exact moves_freeAll hs k

theorem committed_inventoryStep (s : LocalNode) (e : InventoryEvent) (hs : s.Committed) :
    (inventoryStep s e).Committed := (moves_inventoryStep hs e).committed hs

theorem total_inventoryStep {s : LocalNode} (hs : s.Committed) (e : InventoryEvent)
    (t : Resource) : (inventoryStep s e).total t = s.total t :=
  (moves_inventoryStep hs e).total t

theorem units_createLocalNode (cpu gpu ram : UInt32) (t : Resource) :
    (createLocalNode cpu gpu ram).units t = 0 := by
  rw [units, held, createLocalNode, createActiveJobsTable, Tabla.datos_nuevo]
  rfl

theorem accounted_createLocalNode (cpu gpu ram : UInt32) (t : Resource) :
    (createLocalNode cpu gpu ram).accounted t = ((createLocalNode cpu gpu ram).total t).toNat := by
  rw [accounted, units_createLocalNode]
  rfl

theorem committed_createLocalNode (cpu gpu ram : UInt32) :
    (createLocalNode cpu gpu ram).Committed :=
  fun t => (accounted_createLocalNode cpu gpu ram t).le

theorem committed_run (cpu gpu ram : UInt32) (es : List InventoryEvent) :
    (run inventoryStep (createLocalNode cpu gpu ram) es).Committed :=
  run_invariant_all committed_inventoryStep (committed_createLocalNode cpu gpu ram)

theorem total_run (cpu gpu ram : UInt32) (es : List InventoryEvent) (t : Resource) :
    (run inventoryStep (createLocalNode cpu gpu ram) es).total t =
      (createLocalNode cpu gpu ram).total t := by
  have h : (run inventoryStep (createLocalNode cpu gpu ram) es).Committed ∧
      (run inventoryStep (createLocalNode cpu gpu ram) es).total t =
        (createLocalNode cpu gpu ram).total t :=
    run_invariant_all
      (I := fun s => s.Committed ∧ s.total t = (createLocalNode cpu gpu ram).total t)
      (fun s e hs => ⟨committed_inventoryStep s e hs.1, by rw [total_inventoryStep hs.1, hs.2]⟩)
      ⟨committed_createLocalNode cpu gpu ram, rfl⟩
  exact h.2

/-- No unit is promised twice, in any run. The next event subtracts only what is available
and adds only up to the total. -/
theorem no_overcommitment (cpu gpu ram : UInt32) (es : List InventoryEvent) (t : Resource) :
    let s := run inventoryStep (createLocalNode cpu gpu ram) es
    s.total t = (createLocalNode cpu gpu ram).total t ∧
      (s.avail t).toNat + s.units t ≤ (s.total t).toNat ∧ s.avail t ≤ s.total t ∧
      ∀ e, Moves s (inventoryStep s e) := by
  intro s
  have hs : s.Committed := committed_run cpu gpu ram es
  refine ⟨total_run cpu gpu ram es t, hs t, ?_, moves_inventoryStep hs⟩
  rw [UInt32.le_iff_toNat_le]
  exact le_trans (Nat.le_add_right _ _) (hs t)

end ResourceManager
