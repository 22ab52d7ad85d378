import ResourceManager.Resources.Types
import ResourceManager.HashTable.Table

/-!
# The directory of `known_nodes.c`

Remote nodes, with what they last announced and when. `time(NULL)` is the argument `now`.
-/

namespace ResourceManager

open HashTable

/-- `elem_known_nodes_t`. -/
structure ElemKnownNodes where
  nodeIp : Ip
  nodePort : UInt32
  avail : Resource → UInt32
  timeStamp : Int

/-- `ANNOUNCE_TIMEOUT`, in seconds. -/
def announceTimeout : Int := 15

/-- `comp_known_node`. -/
def compKnownNode (a b : ElemKnownNodes) : Int :=
  if a.nodeIp ≠ b.nodeIp ∨ a.nodePort ≠ b.nodePort then 1 else 0

/-- `hash_known_node`. -/
def hashKnownNode (elem : ElemKnownNodes) : UInt32 :=
  let hash := elem.nodeIp.text.foldl
    (fun (hash : UInt32) (c : Char) => ((hash <<< 5) + hash) + UInt32.ofNat (c.toNat % 256)) 5381
  ((hash <<< 5) + hash) + elem.nodePort

def knownNodeFns : Funciones ElemKnownNodes := ⟨compKnownNode, hashKnownNode⟩

theorem igual_knownNode {a b : ElemKnownNodes} :
    Igual knownNodeFns a b ↔ (a.nodeIp, a.nodePort) = (b.nodeIp, b.nodePort) := by
  simp only [Igual, knownNodeFns, compKnownNode, Prod.mk.injEq]
  split
  · rename_i h
    exact iff_of_false one_ne_zero fun he => h.elim (fun h => h he.1) fun h => h he.2
  · rename_i h
    exact iff_of_true rfl (by tauto)

instance : Legal knownNodeFns :=
  Legal.ofKey _ (fun _ _ => igual_knownNode) fun a b h => by
    simp only [Prod.mk.injEq] at h
    simp only [knownNodeFns, hashKnownNode, h.1, h.2]

abbrev KnownNodes := Tabla knownNodeFns

/-- `create_known_nodes`. -/
def createKnownNodes : KnownNodes := Tabla.crear knownNodeFns 11 Tabla.eleven_pos

/-- `create_elem_known_node`. -/
def createElemKnownNode (ip : Ip) (port cpu ram gpu : UInt32) (now : Int) : ElemKnownNodes where
  nodeIp := ip
  nodePort := port
  avail
    | .cpu => cpu
    | .ram => ram
    | .gpu => gpu
  timeStamp := now

/-- `update_known_node`. -/
def updateKnownNode (nodes : KnownNodes) (now : Int) (ip : Ip) (port cpu ram gpu : UInt32) :
    KnownNodes :=
  nodes.insertar (createElemKnownNode ip port cpu ram gpu now)

/-- The nodes that `check_inactive_node` collects. -/
def inactiveNodes (nodes : KnownNodes) (now : Int) (maxSize : Nat) : List ElemKnownNodes :=
  nodes.visitarExtra
    (Tabla.recolectar maxSize
      (fun node => decide (announceTimeout < now - node.timeStamp)) id) []

/-- `remove_inactive_nodes`: the directory without them, and their addresses. -/
def removeInactiveNodes (nodes : KnownNodes) (now : Int) (maxSize : Nat) :
    KnownNodes × List (Ip × UInt32) :=
  let toDelete := inactiveNodes nodes now maxSize
  (toDelete.foldl (fun nodes node => nodes.eliminar node) nodes,
    toDelete.map fun node => (node.nodeIp, node.nodePort))

section Inactive

variable {nodes : KnownNodes} {now : Int} {maxSize : Nat}

theorem mem_removeInactiveNodes {node : ElemKnownNodes}
    (h : node ∈ (removeInactiveNodes nodes now maxSize).1.datos) : node ∈ nodes.datos := by
  rw [removeInactiveNodes, Tabla.datos_foldl_eliminar] at h
  exact List.mem_of_mem_filter h

/-- The addresses are those of nodes of the directory. -/
theorem node_of_removed {d : Ip × UInt32} (h : d ∈ (removeInactiveNodes nodes now maxSize).2) :
    ∃ node ∈ nodes.datos, (node.nodeIp, node.nodePort) = d := by
  obtain ⟨node, hnode, rfl⟩ := List.mem_map.mp h
  rw [inactiveNodes, Tabla.visitar_recolectar, List.map_id] at hnode
  exact ⟨node, List.mem_of_mem_filter (List.mem_of_mem_take hnode), rfl⟩

end Inactive

end ResourceManager
