import ResourceManager.Inventory.Reclaim
import ResourceManager.Comms.ResourceAdapter

/-!
# The wake-up loop

`Woken s gs s'`: the waiting requests `gs` are granted one after the other, each of them
the first of its queue that fits. A release is a reclamation followed by such a run
(`handleRelease_spec`). An id that reads as `-1` is granted like any other, but
`chk_job_request` then reports that nothing was granted: the request is not announced, and
the loop may end there.
-/

namespace ResourceManager

open HashTable Queue

theorem firstFitting_some {a : UInt32} {q : List ElemJobRequest} {r : ElemJobRequest}
    (h : firstFitting a q = some r) : r ∈ q ∧ r.resourceQuantity ≤ a := by
  induction q with
  | nil => cases h
  | cons x q ih =>
    rw [firstFitting] at h
    split at h
    · obtain ⟨hmem, hfit⟩ := ih h
      exact ⟨List.mem_cons_of_mem x hmem, hfit⟩
    · rename_i hx
      cases h
      exact ⟨List.mem_cons_self, UInt32.not_lt.mp hx⟩

theorem firstFitting_none {a : UInt32} {q : List ElemJobRequest} :
    firstFitting a q = none ↔ ∀ r ∈ q, a < r.resourceQuantity := by
  induction q with
  | nil => simp [firstFitting]
  | cons x q ih =>
    rw [firstFitting, List.forall_mem_cons]
    split
    · rename_i hx
      simp only [ih, hx, true_and]
    · rename_i hx
      simp only [hx, false_and, reduceCtorEq]

/-- The id is returned as `-1`: the grant is not announced. -/
def ElemJobRequest.Silent (r : ElemJobRequest) : Prop := r.jobId.toInt32 = -1

instance : DecidablePred ElemJobRequest.Silent :=
  fun r => inferInstanceAs (Decidable (r.jobId.toInt32 = -1))

/-- The GRANTED of a queued request. -/
def grantMsg (r : ElemJobRequest) : OutMsg := .toFd r.socket (.granted r.jobId.toInt32.toInt)

/-- The messages for the requests `gs`. -/
def announced (gs : List ElemJobRequest) : List OutMsg :=
  (gs.filter fun r => ¬ r.Silent).map grantMsg

theorem announced_append (gs hs : List ElemJobRequest) :
    announced (gs ++ hs) = announced gs ++ announced hs := by
  simp [announced]

theorem announced_silent {gs : List ElemJobRequest} (h : ∀ r ∈ gs, r.Silent) :
    announced gs = [] := by
  simpa [announced] using h

namespace LocalNode

/-- No waiting request fits in what is available. -/
def NoneFits (s : LocalNode) : Prop := ∀ t, ∀ r ∈ s.queue t, s.avail t < r.resourceQuantity

inductive Woken : LocalNode → List ElemJobRequest → LocalNode → Prop
  | nil (s) : Woken s [] s
  | cons {s s' t r gs} (hfit : firstFitting (s.avail t) (s.queue t) = some r)
      (h : Woken (grantQueued s t r) gs s') : Woken s (r :: gs) s'

theorem queue_grantQueued (s : LocalNode) (t u : Resource) (r : ElemJobRequest) :
    (grantQueued s t r).queue u =
      if u = t then queueDelete (fun x => compJobRequest x r) (s.queue t) else s.queue u := by
  rw [queue, grantQueued, queue_setQueue, queue_take]

theorem queue_grantQueued_sublist (s : LocalNode) (t u : Resource) (r : ElemJobRequest) :
    ((grantQueued s t r).queue u).Sublist (s.queue u) := by
  rw [queue_grantQueued]
  split
  · rename_i hu
    subst hu
    exact queueDelete_sublist _ _
  · exact List.Sublist.refl _

theorem waiting_grantQueued {s : LocalNode} {t : Resource} {r : ElemJobRequest}
    (h : r ∈ s.queue t) : (grantQueued s t r).waiting + 1 = s.waiting := by
  have hlen := queueDelete_length (fun x => compJobRequest x r)
    ⟨r, h, compJobRequest_eq_zero.mpr ⟨rfl, rfl, rfl⟩⟩
  unfold waiting
  simp only [queue_grantQueued]
  cases t <;> simp only [reduceCtorEq, if_true, if_false] <;> omega

theorem accounted_grantQueued {s : LocalNode} {t : Resource} {r : ElemJobRequest}
    (h : firstFitting (s.avail t) (s.queue t) = some r) (u : Resource) :
    (grantQueued s t r).accounted u + (if u = t then s.reserved r.jobId r.socket u else 0) =
      s.accounted u :=
  accounted_take (firstFitting_some h).2 r.jobId r.socket u

theorem avail_grantQueued_le {s : LocalNode} {t : Resource} {r : ElemJobRequest}
    (h : firstFitting (s.avail t) (s.queue t) = some r) (u : Resource) :
    (grantQueued s t r).avail u ≤ s.avail u := by
  have := avail_take_toNat (firstFitting_some h).2 r.jobId r.socket u
  have htake : (grantQueued s t r).avail u =
    (s.take r.jobId r.socket r.resourceQuantity t).avail u := rfl
  rw [htake, UInt32.le_iff_toNat_le]
  omega

theorem holds_grantQueued (s : LocalNode) (t : Resource) (r : ElemJobRequest) {j k : UInt32}
    (hx : ∃ x ∈ s.held, x.jobId = j ∧ x.socket = k) :
    ∃ x ∈ (grantQueued s t r).held, x.jobId = j ∧ x.socket = k := by
  obtain ⟨x, hmem, hj, hk⟩ := hx
  by_cases hkey : x.jobId = r.jobId ∧ x.socket = r.socket ∧ x.resourceType = t
  · -- the entry is overwritten by one with the same key
    refine ⟨⟨r.jobId, r.socket, r.resourceQuantity, t⟩, mem_held_take.mpr (Or.inl rfl), ?_, ?_⟩
    · exact hkey.1.symm.trans hj
    · exact hkey.2.1.symm.trans hk
  · exact ⟨x, mem_held_take.mpr (Or.inr ⟨hmem, hkey⟩), hj, hk⟩

namespace Woken

theorem append {s s₁ s' : LocalNode} {gs hs : List ElemJobRequest} (h : Woken s gs s₁)
    (h' : Woken s₁ hs s') : Woken s (gs ++ hs) s' := by
  induction h with
  | nil => exact h'
  | cons hfit _ ih => exact .cons hfit (ih h')

theorem moves {s s' : LocalNode} {gs : List ElemJobRequest} (h : Woken s gs s') :
    Moves s s' := by
  induction h with
  | nil => exact .refl
  | cons hfit _ ih =>
    exact .head (.take _ _ _ _ _ (firstFitting_some hfit).2) (.head (.setQueue _ _ _) ih)

theorem waiting {s s' : LocalNode} {gs : List ElemJobRequest} (h : Woken s gs s') :
    s'.waiting + gs.length = s.waiting := by
  induction h with
  | nil => rfl
  | cons hfit _ ih =>
    have := waiting_grantQueued (firstFitting_some hfit).1
    rw [List.length_cons]
    omega

/-- What is granted was waiting, and fitted at the start. -/
theorem mem_queue {s s' : LocalNode} {gs : List ElemJobRequest} (h : Woken s gs s') :
    ∀ r ∈ gs, ∃ t, r ∈ s.queue t ∧ r.resourceQuantity ≤ s.avail t := by
  induction h with
  | nil => simp
  | cons hfit _ ih =>
    intro r hr
    rcases List.mem_cons.mp hr with rfl | hr
    · exact ⟨_, firstFitting_some hfit⟩
    · obtain ⟨t, hmem, hle⟩ := ih r hr
      exact ⟨t, (queue_grantQueued_sublist _ _ t _).subset hmem,
        UInt32.le_trans hle (avail_grantQueued_le hfit t)⟩

/-- A job that has a reservation still has one. -/
theorem holds {s s' : LocalNode} {gs : List ElemJobRequest} (h : Woken s gs s') {j k : UInt32}
    (hx : ∃ x ∈ s.held, x.jobId = j ∧ x.socket = k) : ∃ x ∈ s'.held, x.jobId = j ∧ x.socket = k := by
  induction h with
  | nil => exact hx
  | cons _ _ ih =>
    apply ih
    obtain ⟨x, hmem, hj, hk⟩ := hx
    exact holds_grantQueued _ _ _ ⟨x, hmem, hj, hk⟩

/-- What is granted is held at the end. -/
theorem granted_holds {s s' : LocalNode} {gs : List ElemJobRequest} (h : Woken s gs s') :
    ∀ r ∈ gs, ∃ x ∈ s'.held, x.jobId = r.jobId ∧ x.socket = r.socket := by
  induction h with
  | nil => simp
  | cons _ hrest ih =>
    intro r hr
    rcases List.mem_cons.mp hr with rfl | hr
    · exact hrest.holds ⟨_, mem_held_take.mpr (Or.inl rfl), rfl, rfl⟩
    · exact ih r hr

end Woken

/-! ## `chk_job_request` -/

/-- What one call of `chk_job_request` over `types` can do: it grants requests that read
as `-1`, and stops after the first one that does not. -/
inductive Checked (types : List Resource) (s : LocalNode) : LocalNode × Int32 × UInt32 → Prop
  | quiet {gs s' k} (h : Woken s gs s') (hsilent : ∀ r ∈ gs, r.Silent)
      (hnone : gs = [] → ∀ t ∈ types, firstFitting (s.avail t) (s.queue t) = none) :
      Checked types s (s', -1, k)
  | told {gs r s'} (h : Woken s (gs ++ [r]) s') (hsilent : ∀ r ∈ gs, r.Silent)
      (hr : ¬ r.Silent) : Checked types s (s', r.jobId.toInt32, r.socket)

theorem chkLoop_of_ne {out : Int32} (h : out ≠ -1) :
    ∀ (types : List Resource) (s : LocalNode) (k : UInt32), chkLoop types s out k = (s, out, k)
  | [], _, _ => rfl
  | _ :: _, _, _ => by rw [chkLoop, if_neg h]

theorem checked_chkLoop : ∀ (types : List Resource) (s : LocalNode) (k : UInt32),
    Checked types s (chkLoop types s (-1) k)
  | [], s, _ => .quiet (.nil s) (by simp) (by simp)
  | t :: types, s, k => by
    rw [chkLoop, if_pos rfl]
    cases hfit : firstFitting (s.avail t) (s.queue t) with
    | none =>
      have hrest := checked_chkLoop types s k
      generalize chkLoop types s (-1) k = res at hrest ⊢
      cases hrest with
      | quiet h hsilent hnone =>
        refine .quiet h hsilent fun hgs u hu => ?_
        rcases List.mem_cons.mp hu with rfl | hu
        · exact hfit
        · exact hnone hgs u hu
      | told h hsilent hr => exact .told h hsilent hr
    | some r =>
      dsimp only
      by_cases hr : r.Silent
      · rw [show r.jobId.toInt32 = -1 from hr]
        have hrest := checked_chkLoop types (grantQueued s t r) r.socket
        generalize chkLoop types (grantQueued s t r) (-1) r.socket = res at hrest ⊢
        cases hrest with
        | quiet h hsilent _ =>
          exact .quiet (.cons hfit h) (List.forall_mem_cons.mpr ⟨hr, hsilent⟩) (by simp)
        | told h hsilent hr' =>
          exact .told (.cons hfit h) (List.forall_mem_cons.mpr ⟨hr, hsilent⟩) hr'
      · rw [chkLoop_of_ne hr]
        have hone : Woken s ([] ++ [r]) (grantQueued s t r) := .cons hfit (.nil _)
        exact .told hone (by simp) hr

/-- Whatever `rand()` returns, each type is tried once. -/
theorem rotation_spec (rnd : Nat) :
    [Resource.ofIndex (rnd % 3 % 3), Resource.ofIndex ((rnd % 3 + 1) % 3),
        Resource.ofIndex ((rnd % 3 + 2) % 3)].Nodup ∧
      ∀ t, t ∈ [Resource.ofIndex (rnd % 3 % 3), Resource.ofIndex ((rnd % 3 + 1) % 3),
        Resource.ofIndex ((rnd % 3 + 2) % 3)] := by
  have hlt : rnd % 3 < 3 := Nat.mod_lt _ (by omega)
  generalize rnd % 3 = init at hlt
  interval_cases init <;> exact ⟨by decide, fun t => by cases t <;> decide⟩

theorem checked_chkJobRequest (s : LocalNode) (rnd : Nat) (k : UInt32) :
    Checked Resource.all s (chkJobRequest s rnd k) := by
  have hloop := checked_chkLoop [Resource.ofIndex (rnd % 3 % 3),
    Resource.ofIndex ((rnd % 3 + 1) % 3), Resource.ofIndex ((rnd % 3 + 2) % 3)] s k
  rw [chkJobRequest]
  generalize chkLoop _ s (-1) k = res at hloop ⊢
  cases hloop with
  | quiet h hsilent hnone =>
    exact .quiet h hsilent fun hgs t _ => hnone hgs t ((rotation_spec rnd).2 t)
  | told h hsilent hr => exact .told h hsilent hr

/-! ## The loop -/

theorem wakeLoop_spec (rand : Nat → Nat) : ∀ (n : Nat) (s : LocalNode) (k : UInt32)
    (outbox : List OutMsg), s.waiting < n →
      ∃ gs s', wakeLoop rand n s k outbox = some (s', (announced gs).foldl addToOutbox outbox) ∧
        Woken s gs s' ∧ ((∀ r ∈ gs, ¬ r.Silent) → s'.NoneFits) := by
  intro n
  induction n with
  | zero =>
    intro s k outbox hn
    omega
  | succ n ih =>
    intro s k outbox hn
    rw [wakeLoop]
    have hchecked := checked_chkJobRequest s (rand n) k
    generalize chkJobRequest s (rand n) k = res at hchecked
    cases hchecked with
    | quiet h hsilent hnone =>
      rename_i gs s' k'
      refine ⟨gs, s', ?_, h, fun hloud => ?_⟩
      · rw [announced_silent hsilent]
        simp
      · have hgs : gs = [] := by
          rw [List.eq_nil_iff_forall_not_mem]
          exact fun r hr => hloud r hr (hsilent r hr)
        subst hgs
        cases h
        exact fun t => firstFitting_none.mp (hnone rfl t (Resource.mem_all t))
    | told h hsilent hr =>
      rename_i gs r s'
      have hlen := h.waiting
      rw [List.length_append, List.length_singleton] at hlen
      obtain ⟨gs', s'', hrun, hwoken, hnone⟩ := ih s' r.socket
        (addToOutbox outbox (grantMsg r)) (by omega)
      have hr' : r.jobId.toInt32 ≠ -1 := hr
      refine ⟨(gs ++ [r]) ++ gs', s'', ?_, h.append hwoken, fun hloud => ?_⟩
      · dsimp only
        rw [if_neg hr']
        have hone : announced [r] = [grantMsg r] := by
          simp [announced, show ¬ r.Silent from hr]
        rw [announced_append, announced_append, announced_silent hsilent, hone, List.nil_append,
          List.foldl_append]
        exact hrun
      · exact hnone fun g hg => hloud g (List.mem_append_right _ hg)

theorem wakeLoop_isSome (rand : Nat → Nat) (s : LocalNode) (k : UInt32) (outbox : List OutMsg) :
    (wakeLoop rand (s.waiting + 1) s k outbox).isSome := by
  obtain ⟨gs, s', hrun, _⟩ := wakeLoop_spec rand (s.waiting + 1) s k outbox (Nat.lt_succ_self _)
  rw [hrun]
  rfl

theorem handleRelease_spec (s : LocalNode) (rand : Nat → Nat) (k j : UInt32)
    (outbox : List OutMsg) :
    ∃ gs s', handleRelease s rand k j outbox =
        (s', (announced gs).foldl addToOutbox outbox) ∧
      Woken (delActiveJob s j k) gs s' ∧ ((∀ r ∈ gs, ¬ r.Silent) → s'.NoneFits) := by
  obtain ⟨gs, s', hrun, hwoken, hnone⟩ := wakeLoop_spec rand _ (delActiveJob s j k) 0 outbox
    (Nat.lt_succ_self _)
  refine ⟨gs, s', ?_, hwoken, hnone⟩
  rw [handleRelease, hrun, Option.getD_some]

end LocalNode

end ResourceManager
