import Mathlib.Tactic

/-!
# Deadlock freedom by ordered acquisition

Agents hold resources and wait for resources. When the resources are ordered and an agent
only waits for resources above all those it holds, no chain of agents, each waiting for a
resource that the next one holds, returns to its start. If moreover no resource has
infinitely many above it and each resource waited for is held by someone, every chain can
be prolonged until it ends at an agent that waits for nothing.
-/

namespace ResourceManager.Library.OrderedAcquisition

variable {Agent Res : Type*} (holds waits : Agent → Res → Prop)

/-- `J` waits for a resource that `K` holds. -/
def WaitsFor (J K : Agent) : Prop := ∃ r, waits J r ∧ holds K r

variable {holds waits}

/-- Along a chain the resources rise: the last one held is above the first one waited
for. -/
theorem chain_le [Preorder Res] (hord : ∀ J r r', holds J r → waits J r' → r < r')
    {J K : Agent} (h : Relation.TransGen (WaitsFor holds waits) J K) :
    ∃ r r', waits J r ∧ holds K r' ∧ r ≤ r' := by
  induction h with
  | single hJK =>
    obtain ⟨r, hw, hh⟩ := hJK
    exact ⟨r, r, hw, hh, le_rfl⟩
  | tail _ hKL ih =>
    obtain ⟨r, r', hw, hh, hle⟩ := ih
    obtain ⟨q, hwq, hhq⟩ := hKL
    exact ⟨r, q, hw, hhq, hle.trans (hord _ _ _ hh hwq).le⟩

theorem no_cycle [Preorder Res] (hord : ∀ J r r', holds J r → waits J r' → r < r')
    (J : Agent) : ¬ Relation.TransGen (WaitsFor holds waits) J J := by
  intro h
  obtain ⟨r, r', hw, hh, hle⟩ := chain_le hord h
  exact absurd (hle.trans_lt (hord J r' r hh hw)) (lt_irrefl _)

/-- From an agent that waits there is a chain to one that waits for nothing. -/
theorem exists_not_waiting [Preorder Res] [WellFoundedGT Res]
    (hord : ∀ J r r', holds J r → waits J r' → r < r')
    (hheld : ∀ J r, waits J r → ∃ K, holds K r) {J : Agent} {r : Res} (h : waits J r) :
    ∃ K, Relation.TransGen (WaitsFor holds waits) J K ∧ ∀ r, ¬ waits K r := by
  induction r using WellFoundedGT.induction generalizing J with
  | _ r ih =>
    obtain ⟨K, hK⟩ := hheld J r h
    have hJK : WaitsFor holds waits J K := ⟨r, h, hK⟩
    by_cases hw : ∃ r', waits K r'
    · obtain ⟨r', hr'⟩ := hw
      obtain ⟨L, hKL, hL⟩ := ih r' (hord K r r' hK hr') hr'
      exact ⟨L, .head hJK hKL, hL⟩
    · exact ⟨K, .single hJK, fun r' hr' => hw ⟨r', hr'⟩⟩

end ResourceManager.Library.OrderedAcquisition
