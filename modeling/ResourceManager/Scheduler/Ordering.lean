import ResourceManager.Scheduler.Requests
import Mathlib.Tactic
import Mathlib.Data.Char
import Mathlib.Data.List.Lex
import Mathlib.Data.Prod.Lex
import Mathlib.Data.Sum.Order

/-!
# Order of the generated requests

The comparison of `generate_job_request` is the lexicographic order of a key
(`Petition.le_iff_key`). The keys of the petitions are pairwise different, because the
addresses of the nodes are, and the resources within a node; no stage before the sort puts a
node twice. So the sorted list is strictly increasing (`generateJobRequest_ordered`).
-/

namespace ResourceManager.Scheduler

/-! ## The key -/

/-- Numbers come before lists. -/
def Port.key : Port → ℤ ⊕ₗ List Char
  | .integer n => toLex (.inl n)
  | .text s => toLex (.inr s)

/-- `{Ip, Port, resource_order(Resource)}`. -/
def Petition.key (p : Petition) : List Char ×ₗ (ℤ ⊕ₗ List Char) ×ₗ ℕ :=
  toLex (p.ip, toLex (p.port.key, resourceOrder p.name))

theorem Port.key_inj {a b : Port} : a.key = b.key ↔ a = b := by
  cases a <;> cases b <;> simp [Port.key]

theorem resourceOrder_inj {a b : ResourceName} : resourceOrder a = resourceOrder b ↔ a = b := by
  cases a <;> cases b <;> decide

theorem Port.lt_iff_key {a b : Port} : a.lt b = true ↔ a.key < b.key := by
  cases a with
  | integer m =>
    cases b with
    | integer n => rw [Port.key, Port.key, Sum.Lex.inl_lt_inl_iff, Port.lt, decide_eq_true_eq]
    | text t => exact iff_of_true rfl (Sum.Lex.inl_lt_inr m t)
  | text s =>
    cases b with
    | integer n => exact iff_of_false Bool.false_ne_true Sum.Lex.not_inr_lt_inl
    | text t => rw [Port.key, Port.key, Sum.Lex.inr_lt_inr_iff, Port.lt, decide_eq_true_eq]

theorem Petition.key_inj {p q : Petition} :
    p.key = q.key ↔ (p.ip, p.port, p.name) = (q.ip, q.port, q.name) := by
  simp only [Petition.key, EmbeddingLike.apply_eq_iff_eq, Prod.mk.injEq, Port.key_inj,
    resourceOrder_inj]

theorem Petition.le_iff_key {p q : Petition} : p.le q = true ↔ p.key ≤ q.key := by
  rw [Petition.key, Petition.key, Prod.Lex.toLex_le_toLex, Prod.Lex.toLex_le_toLex, Petition.le,
    Bool.or_eq_true, Bool.and_eq_true, Bool.or_eq_true, Bool.and_eq_true, Port.lt_iff_key,
    beq_iff_eq, beq_iff_eq, decide_eq_true_eq, decide_eq_true_eq, Port.key_inj]

theorem pairwise_key_le (ps : List Petition) :
    (ps.mergeSort Petition.le).Pairwise fun p q => p.key ≤ q.key := by
  have hsorted : (ps.mergeSort Petition.le).Pairwise fun p q => p.le q = true := by
    apply List.pairwise_mergeSort
    · intro a b c hab hbc
      exact Petition.le_iff_key.mpr
        ((Petition.le_iff_key.mp hab).trans (Petition.le_iff_key.mp hbc))
    · intro a b
      rw [Bool.or_eq_true, Petition.le_iff_key, Petition.le_iff_key]
      exact le_total a.key b.key
  exact hsorted.imp fun h => Petition.le_iff_key.mp h

/-- Different keys are sorted strictly. -/
theorem pairwise_key_lt {ps : List Petition} (h : ps.Pairwise fun p q => p.key ≠ q.key) :
    (ps.mergeSort Petition.le).Pairwise fun p q => p.key < q.key := by
  have hne : (ps.mergeSort Petition.le).Pairwise fun p q => p.key ≠ q.key :=
    (List.mergeSort_perm ps _).symm.pairwise h Ne.symm
  exact (List.pairwise_and_iff.mpr ⟨pairwise_key_le ps, hne⟩).imp fun h => lt_of_le_of_ne h.1 h.2

/-! ## The petitions of a node -/

/-- What the node has reported of a resource. -/
def Node.reported (node : Node) : ResourceName → Option ℤ
  | .cpu => node.cpu
  | .mem => node.mem
  | .gpu => node.gpu

/-- The petition is one that the node can grant, judging by its record. -/
def Admissible (node : Node) (p : Petition) : Prop :=
  p.ip = node.ip ∧ p.port = .text node.port ∧
    ∃ max, node.reported p.name = some max ∧ 1 ≤ p.amount ∧ p.amount ≤ max

/-- The resources with a positive amount. -/
def availableResources (node : Node) : List (ResourceName × ℤ) :=
  [(ResourceName.cpu, node.cpu), (.mem, node.mem), (.gpu, node.gpu)].filterMap fun r =>
    match r.2 with
    | none => none
    | some n => if 0 < n then some (r.1, n) else none

theorem pickResources_eq (draw : ResourceName → ℕ) (node : Node) :
    (pickResources draw node).getD [] = (availableResources node).map fun r =>
      ⟨node.ip, .text node.port, r.1, uniform (draw r.1) r.2.toNat⟩ := by
  unfold pickResources
  dsimp only
  split
  · rename_i h
    have hnone : availableResources node = [] := h
    rw [hnone]
    rfl
  · rfl

theorem mem_availableResources {node : Node} {r : ResourceName × ℤ}
    (h : r ∈ availableResources node) : node.reported r.1 = some r.2 ∧ 0 < r.2 := by
  obtain ⟨entry, hentry, hr⟩ := List.mem_filterMap.mp h
  have hreported : node.reported entry.1 = entry.2 := by
    simp only [List.mem_cons, List.not_mem_nil, or_false] at hentry
    rcases hentry with rfl | rfl | rfl <;> rfl
  split at hr
  · cases hr
  · rename_i n hn
    split at hr
    · rename_i hpos
      cases hr
      exact ⟨hreported.trans hn, hpos⟩
    · cases hr

/-- A filter that keeps a component keeps it in order. -/
theorem map_filterMap_sublist {α β κ : Type*} {f : α → Option β} (g : α → κ) {g' : β → κ}
    (h : ∀ a b, f a = some b → g' b = g a) (l : List α) :
    ((l.filterMap f).map g').Sublist (l.map g) := by
  induction l with
  | nil => exact List.Sublist.refl _
  | cons a l ih =>
    rw [List.filterMap_cons, List.map_cons]
    cases hf : f a with
    | none => exact ih.cons (g a)
    | some b =>
      rw [List.map_cons, h a b hf]
      exact ih.cons_cons (g a)

theorem nodup_availableResources (node : Node) :
    ((availableResources node).map Prod.fst).Nodup := by
  have hnames : [ResourceName.cpu, .mem, .gpu].Nodup := by decide
  refine hnames.sublist (map_filterMap_sublist Prod.fst (fun r r' hr => ?_) _)
  split at hr
  · cases hr
  · split at hr
    · cases hr
      rfl
    · cases hr

theorem uniform_mem (draw : ℕ) {max : ℕ} (h : 0 < max) :
    1 ≤ uniform draw max ∧ uniform draw max ≤ max :=
  ⟨Nat.succ_pos _, Nat.mod_lt draw h⟩

theorem admissible_of_mem {draw : ResourceName → ℕ} {node : Node} {p : Petition}
    (h : p ∈ (pickResources draw node).getD []) : Admissible node p := by
  rw [pickResources_eq] at h
  obtain ⟨r, hr, rfl⟩ := List.mem_map.mp h
  obtain ⟨hreported, hpos⟩ := mem_availableResources hr
  have hmax : 0 < r.2.toNat := by omega
  obtain ⟨hone, hle⟩ := uniform_mem (draw r.1) hmax
  refine ⟨rfl, rfl, r.2, hreported, ?_, ?_⟩
  · dsimp only
    omega
  · dsimp only
    omega

/-- Within a node the resources are different, between nodes the addresses. -/
theorem key_ne_of_admissible {node node' : Node} {p p' : Petition} (h : Admissible node p)
    (h' : Admissible node' p') (hne : (node.ip, node.port) ≠ (node'.ip, node'.port)) :
    p.key ≠ p'.key := by
  intro hkey
  rw [Petition.key_inj, h.1, h.2.1, h'.1, h'.2.1, Prod.mk.injEq, Prod.mk.injEq,
    Port.text.injEq] at hkey
  exact hne (Prod.ext hkey.1 hkey.2.1)

theorem pairwise_pickResources (draw : ResourceName → ℕ) (node : Node) :
    ((pickResources draw node).getD []).Pairwise fun p q => p.key ≠ q.key := by
  have hnodup := List.pairwise_map.mp (nodup_availableResources node)
  rw [pickResources_eq, List.pairwise_map]
  refine hnodup.imp fun hne hkey => hne ?_
  rw [Petition.key_inj, Prod.mk.injEq, Prod.mk.injEq] at hkey
  exact hkey.2.2

/-! ## The selected nodes -/

theorem shuffle_perm (key : ℕ → ℕ) (nodes : List Node) : (shuffle key nodes).Perm nodes := by
  have hpairs : (nodes.mapIdx fun i node => (key i, node)).map Prod.snd = nodes := by
    rw [List.mapIdx_eq_zipIdx_map, List.map_map]
    exact List.zipIdx_map_fst 0 nodes
  have hperm := (List.mergeSort_perm (nodes.mapIdx fun i node => (key i, node))
    fun p q => p.1 ≤ q.1).map Prod.snd
  rwa [hpairs] at hperm

theorem mem_of_mem_pickRandom {key : ℕ → ℕ} {n : ℕ} {nodes : List Node} {node : Node}
    (h : node ∈ pickRandom key n nodes) : node ∈ nodes :=
  (shuffle_perm key nodes).subset (List.mem_of_mem_take h)

/-- No node is selected twice. -/
theorem nodup_pickRandom {nodes : List Node} (h : (nodes.map fun n => (n.ip, n.port)).Nodup)
    (key : ℕ → ℕ) (n : ℕ) : ((pickRandom key n nodes).map fun n => (n.ip, n.port)).Nodup := by
  have hshuffled := ((shuffle_perm key nodes).map fun n => (n.ip, n.port)).nodup_iff.mpr h
  exact hshuffled.sublist ((List.take_sublist n _).map _)

/-- The petitions before the sort. -/
def petitions (draws : Draws) (selected : List Node) : List Petition :=
  (selected.mapIdx fun i node => (pickResources (draws.amount i) node).getD []).flatten

theorem exists_of_mem_petitions {draws : Draws} {selected : List Node} {p : Petition}
    (h : p ∈ petitions draws selected) : ∃ node ∈ selected, Admissible node p := by
  obtain ⟨ps, hps, hp⟩ := List.mem_flatten.mp h
  obtain ⟨i, hi, rfl⟩ := List.mem_mapIdx.mp hps
  exact ⟨selected[i], List.getElem_mem hi, admissible_of_mem hp⟩

theorem pairwise_petitions {draws : Draws} {selected : List Node}
    (h : (selected.map fun n => (n.ip, n.port)).Nodup) :
    (petitions draws selected).Pairwise fun p q => p.key ≠ q.key := by
  have hnodes : selected.zipIdx.Pairwise fun a b => (a.1.ip, a.1.port) ≠ (b.1.ip, b.1.port) := by
    have hmap := List.pairwise_map.mp h
    rw [← List.zipIdx_map_fst 0 selected, List.pairwise_map] at hmap
    exact hmap
  rw [petitions, List.pairwise_flatten, List.mapIdx_eq_zipIdx_map]
  constructor
  · intro ps hps
    obtain ⟨entry, _, rfl⟩ := List.mem_map.mp hps
    exact pairwise_pickResources (draws.amount entry.2) entry.1
  · rw [List.pairwise_map]
    exact hnodes.imp fun hne p hp q hq =>
      key_ne_of_admissible (admissible_of_mem hp) (admissible_of_mem hq) hne

/-! ## The request -/

theorem pairwise_request (draws : Draws) (jobId : ℤ) {nodes : List Node}
    (h : (nodes.map fun n => (n.ip, n.port)).Nodup) :
    (generateJobRequest draws jobId nodes .dev).2.Pairwise fun p q => p.key < q.key :=
  pairwise_key_lt (pairwise_petitions (nodup_pickRandom h _ _))

theorem admissible_of_mem_request {draws : Draws} {jobId : ℤ} {nodes : List Node} {p : Petition}
    (h : p ∈ (generateJobRequest draws jobId nodes .dev).2) :
    ∃ node ∈ nodes, Admissible node p := by
  have hmem := List.mem_mergeSort.mp h
  obtain ⟨node, hnode, hadmissible⟩ := exists_of_mem_petitions hmem
  exact ⟨node, mem_of_mem_pickRandom hnode, hadmissible⟩

/-- In the DEV environment the petitions come in strictly increasing order of ip, port and
resource. Each one asks a node of the list for a resource that it has reported, for one unit
at least and no more than reported. No resource of a node is asked for twice. -/
theorem generateJobRequest_ordered (draws : Draws) (jobId : ℤ) (nodes : List Node)
    (h : (nodes.map fun n => (n.ip, n.port)).Nodup) :
    let request := (generateJobRequest draws jobId nodes .dev).2
    request.Pairwise (fun p q => p.key < q.key) ∧
      (∀ p ∈ request, ∃ node ∈ nodes, Admissible node p) ∧
      (request.map fun p => (p.ip, p.port, p.name)).Nodup := by
  intro request
  have hsorted : request.Pairwise fun p q => p.key < q.key := pairwise_request draws jobId h
  refine ⟨hsorted, fun p hp => admissible_of_mem_request hp, ?_⟩
  rw [List.Nodup, List.pairwise_map]
  exact hsorted.imp fun hlt he => hlt.ne (Petition.key_inj.mpr he)

/-- Two nodes on one host: the ports are texts, so `10000` comes before `9000`. -/
def twoNodes : List Node :=
  [⟨"10.0.0.2".toList, "9000".toList, some 4, none, some 1⟩,
    ⟨"10.0.0.2".toList, "10000".toList, some 2, some 8, some 0⟩]

/-- Both nodes are selected, the second one first. -/
def twoDraws : Draws := ⟨1, fun i => 1 - i, fun i _ => i⟩

theorem generateJobRequest_ordered_twoNodes :
    let request := (generateJobRequest twoDraws 1 twoNodes .dev).2
    request.Pairwise (fun p q => p.key < q.key) ∧
      (∀ p ∈ request, ∃ node ∈ twoNodes, Admissible node p) ∧
      (request.map fun p => (p.ip, p.port, p.name)).Nodup :=
  generateJobRequest_ordered twoDraws 1 twoNodes (by decide)

end ResourceManager.Scheduler
