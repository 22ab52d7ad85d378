import ResourceManager.Inventory.Wake
import ResourceManager.Inventory.Events

/-!
# The grants that a release announces

First-fit serves the requests of a queue one after the other: `servedFrom` lists them. A
release serves those of the three queues, interleaved as `rand()` decides, and announces
them. The id of a queued grant is printed with `%d`, `-1` means that nothing was granted,
and the outbox has `MAX_OUTBOX` entries: every grant is announced with the id as it was
received exactly when all ids are less than `2 ^ 31` and the grants fit in the outbox
(`announcesGrants_iff`).
-/

namespace ResourceManager

open HashTable Queue Library.Runs

/-- The requests that first-fit serves one after the other from a queue, at most `n`. -/
def servedFrom : Nat → UInt32 → List ElemJobRequest → List ElemJobRequest
  | 0, _, _ => []
  | n + 1, avail, queue =>
    match firstFitting avail queue with
    | none => []
    | some r => r :: servedFrom n (avail - r.resourceQuantity)
        (queueDelete (fun x => compJobRequest x r) queue)

theorem servedFrom_none {a : UInt32} {q : List ElemJobRequest} (h : firstFitting a q = none)
    (n : Nat) : servedFrom n a q = [] := by
  cases n with
  | zero => rfl
  | succ n => rw [servedFrom, h]

theorem servedFrom_some {a : UInt32} {q : List ElemJobRequest} {r : ElemJobRequest}
    (h : firstFitting a q = some r) : servedFrom q.length a q =
      r :: servedFrom (queueDelete (fun x => compJobRequest x r) q).length
        (a - r.resourceQuantity) (queueDelete (fun x => compJobRequest x r) q) := by
  have hlen := queueDelete_length (fun x => compJobRequest x r)
    ⟨r, (firstFitting_some h).1, compJobRequest_eq_zero.mpr ⟨rfl, rfl, rfl⟩⟩
  rw [← hlen, servedFrom, h]

/-- The GRANTED for a request, with the id as it was received. -/
def grantLine (r : ElemJobRequest) : OutMsg := .toFd r.socket (.granted r.jobId.toNat)

theorem grantLine_inj {x y : ElemJobRequest} (h : grantLine x = grantLine y) :
    x.jobId = y.jobId ∧ x.socket = y.socket := by
  simp only [grantLine, OutMsg.toFd, OutMsg.mk.injEq, Message.granted.injEq, true_and] at h
  refine ⟨UInt32.toNat_inj.mp (Int.ofNat.inj h.2), ?_⟩
  rw [← UInt32.toUInt32_toInt32 x.socket, h.1, UInt32.toUInt32_toInt32]

/-- Below `2 ^ 31` the two ways to print an id agree. -/
theorem grantMsg_eq_grantLine {r : ElemJobRequest} (h : r.jobId < 2147483648) :
    grantMsg r = grantLine r := by
  rw [grantMsg, grantLine, toInt_toInt32 h]

theorem not_silent_of_lt {r : ElemJobRequest} (h : r.jobId < 2147483648) : ¬ r.Silent := by
  intro hsilent
  rw [toInt32_eq_neg_one.mp hsilent] at h
  exact absurd h (by decide)

/-- A message for an id that is printed as it was received. -/
theorem lt_of_grantMsg_eq {x r : ElemJobRequest} (h : grantMsg x = grantLine r) :
    r.jobId < 2147483648 := by
  simp only [grantMsg, grantLine, OutMsg.toFd, OutMsg.mk.injEq, Message.granted.injEq,
    true_and] at h
  have hlt := Int32.toInt_lt x.jobId.toInt32
  rw [UInt32.lt_iff_toNat_lt]
  show r.jobId.toNat < 2147483648
  omega

namespace LocalNode

/-! ## The three queues together -/

def allQueues (s : LocalNode) : List ElemJobRequest := Resource.all.flatMap s.queue

/-- The requests that first-fit serves. -/
def allServed (s : LocalNode) : List ElemJobRequest :=
  Resource.all.flatMap fun t => servedFrom (s.queue t).length (s.avail t) (s.queue t)

/-- The requests that first-fit serves when the job has returned its units. -/
def servedByRelease (s : LocalNode) (jobId socket : UInt32) : List ElemJobRequest :=
  Resource.all.flatMap fun t => servedFrom (s.queue t).length
    (s.avail t + UInt32.ofNat (s.reserved jobId socket t)) (s.queue t)

theorem allServed_delActiveJob (s : LocalNode) (j k : UInt32) :
    (delActiveJob s j k).allServed = s.servedByRelease j k := by
  unfold allServed servedByRelease
  simp only [avail_delActiveJob_eq, queue_delActiveJob]

/-- One list of a family gets an element more. -/
theorem perm_flatMap_of_one {f f' : Resource → List ElemJobRequest} {t : Resource}
    {x : ElemJobRequest} (hsame : ∀ u, u ≠ t → f' u = f u) (hone : (x :: f' t).Perm (f t)) :
    ∀ {types : List Resource}, types.Nodup → t ∈ types →
      (x :: types.flatMap f').Perm (types.flatMap f)
  | [], _, ht => by cases ht
  | u :: types, hnd, ht => by
    obtain ⟨hu, hnd⟩ := List.nodup_cons.mp hnd
    rw [List.flatMap_cons, List.flatMap_cons]
    by_cases hut : u = t
    · subst hut
      have hrest : types.flatMap f' = types.flatMap f :=
        List.flatMap_congr fun v hv => hsame v fun he => hu (he ▸ hv)
      rw [hrest]
      exact hone.append_right _
    · rw [hsame u hut]
      have htypes : t ∈ types := by
        rcases List.mem_cons.mp ht with he | ht
        · exact absurd he.symm hut
        · exact ht
      exact List.perm_middle.symm.trans ((perm_flatMap_of_one hsame hone hnd htypes).append_left _)

section Grant

variable {s : LocalNode} {t : Resource} {r : ElemJobRequest}

theorem perm_allServed_grantQueued (h : firstFitting (s.avail t) (s.queue t) = some r) :
    (r :: (grantQueued s t r).allServed).Perm s.allServed := by
  have havail : ∀ u, (grantQueued s t r).avail u =
      if u = t then s.avail t - r.resourceQuantity else s.avail u := fun u =>
    avail_take s r.jobId r.socket r.resourceQuantity t u
  refine perm_flatMap_of_one (fun u hu => ?_) ?_ (by decide) (Resource.mem_all t)
  · rw [queue_grantQueued, havail, if_neg hu, if_neg hu]
  · rw [queue_grantQueued, havail, if_pos rfl, if_pos rfl, servedFrom_some h]

/-- The request that leaves the queue has the id and the socket of the granted one. -/
theorem perm_allQueues_grantQueued (h : firstFitting (s.avail t) (s.queue t) = some r) :
    ∃ x, grantLine x = grantLine r ∧ (x :: (grantQueued s t r).allQueues).Perm s.allQueues := by
  obtain ⟨q₁, x, q₂, hq, hx, _, hdel⟩ := queueDelete_split (fun x => compJobRequest x r)
    ⟨r, (firstFitting_some h).1, compJobRequest_eq_zero.mpr ⟨rfl, rfl, rfl⟩⟩
  obtain ⟨hj, _, hk⟩ := compJobRequest_eq_zero.mp hx
  refine ⟨x, by rw [grantLine, grantLine, hj, hk], ?_⟩
  refine perm_flatMap_of_one (fun u hu => ?_) ?_ (by decide) (Resource.mem_all t)
  · rw [queue_grantQueued, if_neg hu]
  · rw [queue_grantQueued, if_pos rfl, hdel, hq]
    exact List.perm_middle.symm

end Grant

namespace Woken

variable {s s' : LocalNode} {gs : List ElemJobRequest}

/-- What has been granted, and what would still be granted, is what was to be served. -/
theorem perm_served (h : Woken s gs s') : (gs ++ s'.allServed).Perm s.allServed := by
  induction h with
  | nil => exact List.Perm.refl _
  | cons hfit _ ih => exact (ih.cons _).trans (perm_allServed_grantQueued hfit)

theorem moved (h : Woken s gs s') : ∃ moved, s.allQueues.Perm (moved ++ s'.allQueues) ∧
    moved.map grantLine = gs.map grantLine := by
  induction h with
  | nil => exact ⟨[], List.Perm.refl _, rfl⟩
  | cons hfit _ ih =>
    obtain ⟨moved, hperm, hmap⟩ := ih
    obtain ⟨x, hx, hone⟩ := perm_allQueues_grantQueued hfit
    exact ⟨x :: moved, hone.symm.trans (hperm.cons x), by rw [List.map_cons, List.map_cons, hx, hmap]⟩

end Woken

theorem allServed_of_noneFits {s : LocalNode} (h : s.NoneFits) : s.allServed = [] := by
  unfold allServed
  simp only [fun t => servedFrom_none (firstFitting_none.mpr (h t)), List.flatMap_eq_nil_iff,
    implies_true]

/-! ## Announcements -/

/-- The loop of the release ends; each request that leaves a queue is held and is announced
by one GRANTED with its id; and nothing else is sent. -/
def AnnouncesGrants (s : LocalNode) (rand : Nat → Nat) (socket jobId : UInt32) : Prop :=
  (wakeLoop rand ((delActiveJob s jobId socket).waiting + 1) (delActiveJob s jobId socket) 0
    []).isSome ∧
  ∃ moved, s.allQueues.Perm (moved ++ (handleRelease s rand socket jobId []).1.allQueues) ∧
    (∀ r ∈ moved, ∃ x ∈ (handleRelease s rand socket jobId []).1.held,
      x.jobId = r.jobId ∧ x.socket = r.socket) ∧
    (handleRelease s rand socket jobId []).2.Perm (moved.map grantLine)

theorem length_announced_le (gs : List ElemJobRequest) : (announced gs).length ≤ gs.length := by
  rw [announced, List.length_map]
  exact List.length_filter_le _ _

theorem announced_of_loud {gs : List ElemJobRequest} (h : ∀ r ∈ gs, ¬ r.Silent) :
    announced gs = gs.map grantMsg := by
  rw [announced, List.filter_eq_self.mpr fun r hr => decide_eq_true (h r hr)]

/-- The messages that fit in the outbox are the expected ones. -/
theorem announced_take_perm_iff (gs : List ElemJobRequest) :
    ((announced gs).take maxOutbox).Perm (gs.map grantLine) ↔
      (∀ r ∈ gs, r.jobId < 2147483648) ∧ gs.length ≤ maxOutbox := by
  constructor
  · intro hperm
    have hlen := hperm.length_eq
    have hle := length_announced_le gs
    rw [List.length_take, List.length_map] at hlen
    have hall : (gs.filter fun r => ¬ r.Silent).length = gs.length := by
      rw [announced, List.length_map] at hlen hle
      omega
    have hloud : ∀ r ∈ gs, ¬ r.Silent := fun r hr =>
      of_decide_eq_true (List.length_filter_eq_length_iff.mp hall r hr)
    refine ⟨fun r hr => ?_, by omega⟩
    have hmem := hperm.symm.subset (List.mem_map_of_mem hr)
    rw [announced_of_loud hloud] at hmem
    obtain ⟨x, _, hx⟩ := List.mem_map.mp (List.mem_of_mem_take hmem)
    exact lt_of_grantMsg_eq hx
  · rintro ⟨hlt, hlen⟩
    rw [announced_of_loud fun r hr => not_silent_of_lt (hlt r hr),
      List.map_congr_left fun r hr => grantMsg_eq_grantLine (hlt r hr),
      List.take_of_length_le (by rw [List.length_map]; exact hlen)]

/-- Every queued grant is announced exactly once and with its own id exactly when the ids
of the requests that the release serves are less than `2 ^ 31` and their number is at most
`MAX_OUTBOX`. -/
theorem announcesGrants_iff (s : LocalNode) (rand : Nat → Nat) (socket jobId : UInt32) :
    AnnouncesGrants s rand socket jobId ↔
      (∀ r ∈ s.servedByRelease jobId socket, r.jobId < 2147483648) ∧
        (s.servedByRelease jobId socket).length ≤ maxOutbox := by
  obtain ⟨gs, s', hrun, hwoken, hnone⟩ := handleRelease_spec s rand socket jobId []
  obtain ⟨moved, hmoved, hmap⟩ := hwoken.moved
  have hqueues : (delActiveJob s jobId socket).allQueues = s.allQueues :=
    List.flatMap_congr fun t _ => queue_delActiveJob s jobId socket t
  have hserved := hwoken.perm_served
  rw [allServed_delActiveJob] at hserved
  rw [hqueues] at hmoved
  rw [foldl_addToOutbox_nil] at hrun
  unfold AnnouncesGrants
  rw [hrun]
  constructor
  · rintro ⟨_, moved', hmoved', _, hout⟩
    have hsame : moved'.Perm moved :=
      (List.perm_append_right_iff _).mp (hmoved'.symm.trans hmoved)
    have hgs : (∀ r ∈ gs, r.jobId < 2147483648) ∧ gs.length ≤ maxOutbox := by
      apply (announced_take_perm_iff gs).mp
      rw [← hmap]
      exact hout.trans (hsame.map grantLine)
    -- no grant is silent, so the loop went on until nothing fitted
    rw [allServed_of_noneFits (hnone fun r hr => not_silent_of_lt (hgs.1 r hr)),
      List.append_nil] at hserved
    exact ⟨fun r hr => hgs.1 r (hserved.symm.subset hr), hserved.length_eq ▸ hgs.2⟩
  · rintro ⟨hlt, hlen⟩
    refine ⟨wakeLoop_isSome _ _ _ _, moved, hmoved, fun r hr => ?_, ?_⟩
    · have hline : grantLine r ∈ gs.map grantLine := hmap ▸ List.mem_map_of_mem hr
      obtain ⟨g, hg, he⟩ := List.mem_map.mp hline
      obtain ⟨hj, hk⟩ := grantLine_inj he
      rw [← hj, ← hk]
      exact hwoken.granted_holds g hg
    · rw [hmap, announced_take_perm_iff]
      refine ⟨fun r hr => hlt r (hserved.subset (List.mem_append_left _ hr)), ?_⟩
      have htotal := hserved.length_eq
      rw [List.length_append] at htotal
      omega

/-- The peer on socket 6 waits with the id 3000000000, which is announced as a negative
number. -/
theorem announcesGrants_negative : ¬ ∀ (es : List InventoryEvent) (rand : Nat → Nat)
    (socket jobId : UInt32),
    AnnouncesGrants (run inventoryStep (createLocalNode 1 0 0) es) rand socket jobId := by
  intro h
  obtain ⟨_, moved, _, _, hperm⟩ := h
    [.reserve 5 1 (some .cpu) 1, .reserve 6 3000000000 (some .cpu) 1] (fun _ => 0) 5 1
  have hsent : OutMsg.toFd 6 (.granted (-1294967296)) ∈
      (handleRelease (run inventoryStep (createLocalNode 1 0 0) [.reserve 5 1 (some .cpu) 1,
        .reserve 6 3000000000 (some .cpu) 1]) (fun _ => 0) 5 1 []).2 := by
    decide +kernel
  obtain ⟨r, _, hr⟩ := List.mem_map.mp (hperm.subset hsent)
  simp only [grantLine, OutMsg.toFd, OutMsg.mk.injEq, Message.granted.injEq, true_and] at hr
  omega

end LocalNode

end ResourceManager
