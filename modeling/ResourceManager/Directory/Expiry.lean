import ResourceManager.Resources.KnownNodes

/-!
# Nodes that have fallen silent

`remove_inactive_nodes` collects during a traversal, in an array of `max_size` entries, and
deletes afterwards, by key. What it leaves and what it returns are the directory split in two
(`removeInactiveNodes_exact`).
-/

namespace ResourceManager

open HashTable

/-- The address by which the directory knows a node. -/
abbrev ElemKnownNodes.address (node : ElemKnownNodes) : Ip × UInt32 :=
  (node.nodeIp, node.nodePort)

/-- The node has been silent for longer than the timeout. -/
def Expired (now : Int) (node : ElemKnownNodes) : Prop := announceTimeout < now - node.timeStamp

instance (now : Int) : DecidablePred (Expired now) :=
  fun node => inferInstanceAs (Decidable (announceTimeout < now - node.timeStamp))

section

variable {nodes : KnownNodes} {now : Int} {maxSize : ℕ}

theorem nodup_addresses (nodes : KnownNodes) : (nodes.datos.map (·.address)).Nodup := by
  apply List.Nodup.map_on _ nodes.nodup_datos
  intro a ha b hb hab
  exact Tabla.eq_of_igual ha hb (igual_knownNode.mpr hab)

theorem inactiveNodes_eq (nodes : KnownNodes) (now : Int) (maxSize : ℕ) :
    inactiveNodes nodes now maxSize = (nodes.datos.filter (Expired now ·)).take maxSize := by
  rw [inactiveNodes, Tabla.visitar_recolectar, List.map_id]
  rfl

theorem inactiveNodes_sublist (nodes : KnownNodes) (now : Int) (maxSize : ℕ) :
    (inactiveNodes nodes now maxSize).Sublist nodes.datos := by
  rw [inactiveNodes_eq]
  exact (List.take_sublist _ _).trans List.filter_sublist

theorem length_inactiveNodes (nodes : KnownNodes) (now : Int) (maxSize : ℕ) :
    (inactiveNodes nodes now maxSize).length =
      min maxSize (nodes.datos.countP (Expired now ·)) := by
  rw [inactiveNodes_eq, List.length_take, List.countP_eq_length_filter]

theorem expired_of_inactive {node : ElemKnownNodes}
    (h : node ∈ inactiveNodes nodes now maxSize) : Expired now node := by
  rw [inactiveNodes_eq] at h
  exact of_decide_eq_true (List.mem_filter.mp (List.mem_of_mem_take h)).2

/-- An empty directory needs no array: nothing is collected. -/
theorem removeInactiveNodes_empty (h : nodes.nelems = 0) :
    removeInactiveNodes nodes now maxSize = (nodes, []) := by
  rw [Tabla.nelems_eq_length, List.length_eq_zero_iff] at h
  rw [removeInactiveNodes, inactiveNodes_eq, h, List.filter_nil, List.take_nil]
  rfl

/-! ## The two parts of the directory -/

theorem mem_left_iff {node : ElemKnownNodes} :
    node ∈ (removeInactiveNodes nodes now maxSize).1.datos ↔
      node ∈ nodes.datos ∧ node.address ∉ (removeInactiveNodes nodes now maxSize).2 := by
  simp only [removeInactiveNodes, Tabla.datos_foldl_eliminar, List.mem_filter, decide_eq_true_eq,
    igual_knownNode, List.mem_map, not_exists, not_and]
  exact and_congr_right fun _ => forall₂_congr fun _ _ => not_congr eq_comm

/-- The collected nodes, and they only, are missing. -/
theorem datos_perm (nodes : KnownNodes) (now : Int) (maxSize : ℕ) :
    nodes.datos.Perm (inactiveNodes nodes now maxSize ++
      (removeInactiveNodes nodes now maxSize).1.datos) := by
  have hsub := inactiveNodes_sublist nodes now maxSize
  have hdisjoint : (inactiveNodes nodes now maxSize).Disjoint
      (removeInactiveNodes nodes now maxSize).1.datos := by
    intro node hdead hleft
    exact (mem_left_iff.mp hleft).2 (List.mem_map_of_mem hdead)
  rw [List.perm_ext_iff_of_nodup nodes.nodup_datos
    ((hsub.nodup nodes.nodup_datos).append (Tabla.nodup_datos _) hdisjoint)]
  intro node
  rw [List.mem_append, mem_left_iff]
  constructor
  · intro hnode
    by_cases hdead : node.address ∈ (removeInactiveNodes nodes now maxSize).2
    · obtain ⟨other, hother, he⟩ := List.mem_map.mp hdead
      have hsame := Tabla.eq_of_igual (hsub.subset hother) hnode (igual_knownNode.mpr he)
      exact Or.inl (hsame ▸ hother)
    · exact Or.inr ⟨hnode, hdead⟩
  · rintro (hdead | hleft)
    · exact hsub.subset hdead
    · exact hleft.1

theorem buscar_left (key : ElemKnownNodes) :
    (removeInactiveNodes nodes now maxSize).1.buscar key =
      if key.address ∈ (removeInactiveNodes nodes now maxSize).2 then none
      else nodes.buscar key := by
  split
  · rename_i hdead
    rw [Tabla.buscar_eq_none]
    intro node hnode he
    rw [igual_knownNode] at he
    apply (mem_left_iff.mp hnode).2
    rwa [ElemKnownNodes.address, he]
  · rename_i hleft
    apply Option.ext
    intro node
    rw [Tabla.buscar_eq_some, Tabla.buscar_eq_some, mem_left_iff, igual_knownNode]
    constructor
    · rintro ⟨⟨hnode, _⟩, he⟩
      exact ⟨hnode, he⟩
    · rintro ⟨hnode, he⟩
      refine ⟨⟨hnode, ?_⟩, he⟩
      rwa [ElemKnownNodes.address, he]

end

/-- Of the expired nodes as many as there is room for are removed, and their addresses are
returned, each once; the other nodes remain as they were, the counter with them, and a
search finds what it found before. -/
theorem removeInactiveNodes_exact (nodes : KnownNodes) (now : Int) (maxSize : ℕ) :
    ∃ removed : List ElemKnownNodes,
      nodes.datos.Perm (removed ++ (removeInactiveNodes nodes now maxSize).1.datos) ∧
      removed.length = min maxSize (nodes.datos.countP (Expired now ·)) ∧
      (∀ node ∈ removed, Expired now node) ∧
      (removeInactiveNodes nodes now maxSize).2 = removed.map (·.address) ∧
      (removeInactiveNodes nodes now maxSize).2.Nodup ∧
      (removeInactiveNodes nodes now maxSize).1.nelems + removed.length = nodes.nelems ∧
      (∀ node ∈ (removeInactiveNodes nodes now maxSize).1.datos,
        (removeInactiveNodes nodes now maxSize).1.buscar node = some node) ∧
      ∀ key, (removeInactiveNodes nodes now maxSize).1.buscar key =
        if key.address ∈ (removeInactiveNodes nodes now maxSize).2 then none
        else nodes.buscar key := by
  have hperm := datos_perm nodes now maxSize
  refine ⟨inactiveNodes nodes now maxSize, hperm, length_inactiveNodes nodes now maxSize,
    fun node => expired_of_inactive, rfl, ?_, ?_, fun node hnode => ?_, buscar_left⟩
  · exact ((inactiveNodes_sublist nodes now maxSize).map _).nodup (nodup_addresses nodes)
  · rw [Tabla.nelems_eq_length, Tabla.nelems_eq_length, hperm.length_eq, List.length_append,
      Nat.add_comm]
  · exact Tabla.buscar_eq_some.mpr ⟨hnode, Legal.equiv.refl node⟩

end ResourceManager
