import ResourceManager.Cluster.Deadlock
import ResourceManager.Directory.Announce
import ResourceManager.Directory.Expiry
import ResourceManager.Scheduler.Ordering
import ResourceManager.Scheduler.Submission

/-!
# Requests for the nodes of a directory

The scheduler sorts texts, the agents compare what they have parsed. For the nodes of a
directory the two orders agree, so the requests that the scheduler generates are read as
increasing ones (`generated_increasing`), which is what deadlock freedom asks for.
-/

namespace ResourceManager

open Scheduler Library.Numerals

/-- The petition asks `node` for what it has announced. -/
def AsksFor (node : ElemKnownNodes) (t : ResourceToken) : Prop :=
  (t.ip, t.port) = node.address ∧ 1 ≤ t.cant ∧ t.cant ≤ node.avail t.type

theorem reported_nodeRecord (node : ElemKnownNodes) (r : Resource) :
    (nodeRecord node).reported r.atom = some ((node.avail r).toNat : ℤ) := by
  cases r <;> rfl

theorem exists_atom (name : ResourceName) : ∃ r : Resource, r.atom = name := by
  cases name
  · exact ⟨.cpu, rfl⟩
  · exact ⟨.ram, rfl⟩
  · exact ⟨.gpu, rfl⟩

/-- A petition that a record admits is the tuple of a token. -/
theorem exists_tuple {node : ElemKnownNodes} {p : Petition}
    (h : Admissible (nodeRecord node) p) : ∃ t, AsksFor node t ∧ t.tuple true = p := by
  obtain ⟨hip, hport, max, hmax, hone, hle⟩ := h
  obtain ⟨r, hr⟩ := exists_atom p.name
  rw [← hr, reported_nodeRecord, Option.some.injEq] at hmax
  have hlt := (node.avail r).toNat_lt
  have hcant : (UInt32.ofNat p.amount.toNat).toNat = p.amount.toNat :=
    UInt32.toNat_ofNat_of_lt' (show p.amount.toNat < 2 ^ 32 by omega)
  refine ⟨⟨node.nodeIp, node.nodePort, r, UInt32.ofNat p.amount.toNat⟩, ⟨rfl, ?_, ?_⟩, ?_⟩
  · rw [UInt32.le_iff_toNat_le, hcant]
    show 1 ≤ _
    omega
  · rw [UInt32.le_iff_toNat_le, hcant]
    show _ ≤ (node.avail r).toNat
    omega
  · have hamount : (((UInt32.ofNat p.amount.toNat).toNat : ℕ) : ℤ) = p.amount := by
      rw [hcant]
      omega
    rw [ResourceToken.tuple]
    dsimp only
    rw [hr, hamount, if_pos rfl]
    cases p
    cases hip
    cases hport
    rfl

theorem exists_tuples {kept : List ElemKnownNodes} : ∀ {ps : List Petition},
    (∀ p ∈ ps, ∃ node ∈ kept.map nodeRecord, Admissible node p) →
      ∃ ts : List ResourceToken, (ts.map fun t => t.tuple true) = ps ∧
        ∀ t ∈ ts, ∃ node ∈ kept, AsksFor node t
  | [], _ => ⟨[], rfl, fun t ht => absurd ht List.not_mem_nil⟩
  | p :: ps, h => by
    obtain ⟨record, hrecord, hadmissible⟩ := h p List.mem_cons_self
    obtain ⟨node, hnode, rfl⟩ := List.mem_map.mp hrecord
    obtain ⟨t, ht, rfl⟩ := exists_tuple hadmissible
    obtain ⟨ts, rfl, hts⟩ := exists_tuples fun p hp => h p (List.mem_cons_of_mem _ hp)
    exact ⟨t :: ts, rfl, List.forall_mem_cons.mpr ⟨⟨node, hnode, ht⟩, hts⟩⟩

/-- Tuples are sorted as their tokens. -/
theorem tuple_key_lt {t t' : ResourceToken} :
    (t.tuple true).key < (t'.tuple true).key ↔ t.target < t'.target := by
  have horder : ∀ r : Resource, resourceOrder r.atom = r.order := fun r => by cases r <;> rfl
  show _ ↔ t.target.key < t'.target.key
  rw [Petition.key, Petition.key, NodeResource.key, NodeResource.key]
  simp only [Prod.Lex.toLex_lt_toLex, ResourceToken.tuple, if_true, Port.key, horder,
    Sum.Lex.inr_lt_inr_iff, EmbeddingLike.apply_eq_iff_eq, Sum.inr.injEq, printUnsigned]

/-- Different addresses have different texts. -/
theorem nodup_records {kept : List ElemKnownNodes} (h : (kept.map (·.address)).Nodup) :
    ((kept.map nodeRecord).map fun n => (n.ip, n.port)).Nodup := by
  rw [List.map_map, List.Nodup, List.pairwise_map]
  refine (List.pairwise_map.mp h).imp fun {a b} hne he => hne ?_
  obtain ⟨hip, hport⟩ := Prod.mk.inj he
  have hvalue : a.nodePort.toNat = b.nodePort.toNat := by
    rw [← (decimal_toDigits a.nodePort.toNat).value, ← (decimal_toDigits b.nodePort.toNat).value]
    exact congrArg (fun digits => Nat.ofDigitChars 10 digits 0) hport
  refine Prod.ext ?_ (UInt32.toNat_inj.mp hvalue)
  show a.nodeIp = b.nodeIp
  rw [← ofText_text a.nodeIp, ← ofText_text b.nodeIp]
  exact congrArg Ip.ofText hip

/-- In every directory that the agent can reach: the line generated for its nodes, or for
some of them, is read by the agent as strictly increasing petitions, each for an amount that
the node has announced. -/
theorem generated_increasing (es : List DirectoryEvent) (draws : Draws) (jobId : UInt32)
    {kept : List ElemKnownNodes} (hkept : kept.Sublist (directory es).datos) :
    ∃ text, (generateJobRequest draws jobId.toNat (kept.map nodeRecord) .dev).1 = text ++ ['\n'] ∧
      Increasing (requestTokens text) ∧
      ∀ t ∈ requestTokens text, ∃ node ∈ kept, AsksFor node t := by
  have hnodup := nodup_records ((nodup_addresses (directory es)).sublist (hkept.map _))
  obtain ⟨ts, hts, hasked⟩ := exists_tuples
    fun p (hp : p ∈ (generateJobRequest draws jobId.toNat (kept.map nodeRecord) .dev).2) =>
      admissible_of_mem_request hp
  have hquads : ∀ t ∈ ts, DottedQuad t.ip := by
    intro t ht
    obtain ⟨node, hnode, haddress, _⟩ := hasked t ht
    have hip : t.ip = node.nodeIp := congrArg Prod.fst haddress
    exact hip ▸ (admitted_directory es node (hkept.subset hnode)).1
  have hline : (generateJobRequest draws jobId.toNat (kept.map nodeRecord) .dev).1 =
      requestText jobId ts ++ ['\n'] := by
    have htuples := jobRequestLine_tuples jobId (ts.map fun t => (t, true))
    have hfst : (Prod.fst ∘ fun t : ResourceToken => (t, true)) = id := rfl
    rw [List.map_map, List.map_map, hfst, List.map_id] at htuples
    show jobRequestLine _ (generateJobRequest draws jobId.toNat (kept.map nodeRecord) .dev).2 = _
    rw [← hts]
    exact htuples
  have hsorted := pairwise_request draws jobId.toNat hnodup
  rw [← hts, List.pairwise_map] at hsorted
  refine ⟨requestText jobId ts, hline, ?_, ?_⟩
  · rw [requestTokens_text jobId hquads]
    exact hsorted.imp tuple_key_lt.mp
  · rw [requestTokens_text jobId hquads]
    exact hasked

end ResourceManager
