import ResourceManager.Cluster.Lifecycle
import ResourceManager.Coordinator.Stage
import ResourceManager.Inventory.Events

/-!
# Packets and nodes as one job sees them

The packets in flight that name a job, and what a node reserves and queues under its id and
the descriptor of its coordinator: how they change when a packet leaves the network, when
messages are sent, and when the node handles a request.
-/

namespace ResourceManager

open HashTable

variable {C : Type}

/-! ## Packets of a job -/

namespace Packet

/-- The job whose petition in progress this packet carries. -/
def token : Packet C → Option (C × UInt32)
  | request c _ (.reserve j _ _) => some (c, j)
  | reply _ c (.granted n) => some (c, scanUnsigned n)
  | reply _ c (.denied j) => some (c, j)
  | _ => none

/-- The job that this packet releases. -/
def release : Packet C → Option (C × UInt32)
  | request c _ (.release j _ _) => some (c, j)
  | _ => none

def node : Packet C → Addr
  | request _ a _ | reply a _ _ => a

/-- The packet names no job but `x`. -/
def About (x : C × UInt32) (pkt : Packet C) : Prop :=
  ∀ y, pkt.token = some y ∨ pkt.release = some y → y = x

end Packet

theorem exists_split {α : Type} {l : List α} {i : Nat} {x : α} (h : l[i]? = some x) :
    ∃ l₁ l₂, l = l₁ ++ x :: l₂ ∧ l.eraseIdx i = l₁ ++ l₂ := by
  obtain ⟨hlt, rfl⟩ := List.getElem?_eq_some_iff.mp h
  refine ⟨l.take i, l.drop (i + 1), ?_, List.eraseIdx_eq_take_drop_succ l i⟩
  rw [← List.drop_eq_getElem_cons, List.take_append_drop]

section Net

variable [DecidableEq C]

def tokens (net : List (Packet C)) (c : C) (j : UInt32) : List (Packet C) :=
  net.filter fun pkt => pkt.token = some (c, j)

def releases (net : List (Packet C)) (c : C) (j : UInt32) : List Addr :=
  (net.filter fun pkt => pkt.release = some (c, j)).map Packet.node

theorem tokens_append (net net' : List (Packet C)) (c : C) (j : UInt32) :
    tokens (net ++ net') c j = tokens net c j ++ tokens net' c j := List.filter_append _ _

theorem releases_append (net net' : List (Packet C)) (c : C) (j : UInt32) :
    releases (net ++ net') c j = releases net c j ++ releases net' c j := by
  simp [releases]

theorem tokens_eq_nil {net : List (Packet C)} {c : C} {j : UInt32}
    (h : ∀ pkt ∈ net, pkt.token ≠ some (c, j)) : tokens net c j = [] := by
  simpa [tokens] using h

theorem releases_eq_nil {net : List (Packet C)} {c : C} {j : UInt32}
    (h : ∀ pkt ∈ net, pkt.release ≠ some (c, j)) : releases net c j = [] := by
  simpa [releases] using h

theorem tokens_eraseIdx {net : List (Packet C)} {i : Nat} {pkt : Packet C} {c : C} {j : UInt32}
    (h : net[i]? = some pkt) (hne : pkt.token ≠ some (c, j)) :
    tokens (net.eraseIdx i) c j = tokens net c j := by
  obtain ⟨l₁, l₂, hnet, herase⟩ := exists_split h
  rw [herase, hnet]
  simp [tokens, hne]

theorem releases_eraseIdx {net : List (Packet C)} {i : Nat} {pkt : Packet C} {c : C} {j : UInt32}
    (h : net[i]? = some pkt) (hne : pkt.release ≠ some (c, j)) :
    releases (net.eraseIdx i) c j = releases net c j := by
  obtain ⟨l₁, l₂, hnet, herase⟩ := exists_split h
  rw [herase, hnet]
  simp [releases, hne]

/-- The only packet that carries a petition leaves. -/
theorem tokens_eraseIdx_self {net : List (Packet C)} {i : Nat} {pkt pkt' : Packet C} {c : C}
    {j : UInt32} (h : net[i]? = some pkt) (hpkt : pkt.token = some (c, j))
    (hone : tokens net c j = [pkt']) : pkt = pkt' ∧ tokens (net.eraseIdx i) c j = [] := by
  obtain ⟨l₁, l₂, hnet, herase⟩ := exists_split h
  rw [hnet, tokens, List.filter_append, List.filter_cons_of_pos (by simpa using hpkt)] at hone
  rw [herase, tokens, List.filter_append]
  have hlen := congrArg List.length hone
  simp only [List.length_append, List.length_cons, List.length_nil] at hlen
  have h₁ : (l₁.filter fun pkt => pkt.token = some (c, j)) = [] :=
    List.length_eq_zero_iff.mp (by omega)
  have h₂ : (l₂.filter fun pkt => pkt.token = some (c, j)) = [] :=
    List.length_eq_zero_iff.mp (by omega)
  rw [h₁, h₂] at hone ⊢
  simp only [List.nil_append, List.cons.injEq, and_true] at hone
  exact ⟨hone, rfl⟩

theorem releases_eraseIdx_self {net : List (Packet C)} {i : Nat} {pkt : Packet C} {c : C}
    {j : UInt32} (h : net[i]? = some pkt) (hpkt : pkt.release = some (c, j)) :
    ∃ l₁ l₂, releases net c j = l₁ ++ pkt.node :: l₂ ∧
      releases (net.eraseIdx i) c j = l₁ ++ l₂ := by
  obtain ⟨l₁, l₂, hnet, herase⟩ := exists_split h
  refine ⟨releases l₁ c j, releases l₂ c j, ?_, ?_⟩
  · simp [releases, hnet, hpkt]
  · rw [herase, releases_append]

end Net

/-! ## Messages of an outbox -/

theorem sent_append (c : C) (out out' : List OutMsg) :
    sent c (out ++ out') = sent c out ++ sent c out' := List.filterMap_append

theorem replies_append (w : Wiring C) (a : Addr) (out out' : List OutMsg) :
    replies w a (out ++ out') = replies w a out ++ replies w a out' := List.filterMap_append

theorem replies_toFd (w : Wiring C) (a : Addr) (c : C) (m : Message) :
    replies w a [.toFd (w.sock a c) m] = [.reply a c m] := by
  simp [replies, OutMsg.toFd, w.sock_ne a c, w.peer_sock]

/-- The descriptors of a node tell the coordinators apart. -/
theorem Wiring.sock_inj (w : Wiring C) {a : Addr} {c c' : C} (h : w.sock a c = w.sock a c') :
    c = c' := by
  have := w.peer_sock a c
  rw [h, w.peer_sock] at this
  exact (Option.some.inj this).symm

theorem Wiring.key_ne (w : Wiring C) (a : Addr) {c c' : C} {j j' : UInt32}
    (hne : (c', j') ≠ (c, j)) : ¬(j' = j ∧ w.sock a c' = w.sock a c) := by
  rintro ⟨rfl, hk⟩
  exact hne (by rw [w.sock_inj hk])

/-! ## A job at a node -/

namespace LocalNode

/-- What waits in a queue for the job `j` of the descriptor `k`. -/
def requests (n : LocalNode) (j k : UInt32) (t : Resource) : List ElemJobRequest :=
  (n.queue t).filter fun r => r.jobId = j ∧ r.socket = k

/-- The node has done nothing for the job `j` of the descriptor `k`. -/
structure SameJob (n n' : LocalNode) (j k : UInt32) : Prop where
  requests : ∀ t, n'.requests j k t = n.requests j k t
  held : ∀ q t, ⟨j, k, q, t⟩ ∈ n'.held ↔ ⟨j, k, q, t⟩ ∈ n.held

theorem SameJob.refl (n : LocalNode) (j k : UInt32) : SameJob n n j k :=
  ⟨fun _ => rfl, fun _ _ => Iff.rfl⟩

theorem sameJob_take (n : LocalNode) (q : UInt32) (t : Resource) {j k j' k' : UInt32}
    (h : ¬(j' = j ∧ k' = k)) : SameJob n (n.take j k q t) j' k' where
  requests _ := rfl
  held q' t' := by
    rw [mem_held_take]
    constructor
    · rintro (he | ⟨hmem, _⟩)
      · simp only [ElemActiveJob.mk.injEq] at he
        exact absurd ⟨he.1, he.2.1⟩ h
      · exact hmem
    · exact fun hmem => Or.inr ⟨hmem, fun he => h ⟨he.1, he.2.1⟩⟩

theorem held_take (n : LocalNode) (j k q q' : UInt32) (t u : Resource) :
    ⟨j, k, q', u⟩ ∈ (n.take j k q t).held ↔
      if u = t then q' = q else ⟨j, k, q', u⟩ ∈ n.held := by
  rw [mem_held_take]
  split
  · rename_i hu
    subst hu
    simp
  · rename_i hu
    simp [hu]

theorem requests_enqueue (n : LocalNode) (r : ElemJobRequest) (t u : Resource) (j k : UInt32) :
    (n.setQueue t (n.queue t ++ [r])).requests j k u =
      n.requests j k u ++ if u = t ∧ r.jobId = j ∧ r.socket = k then [r] else [] := by
  unfold requests
  rw [LocalNode.queue, queue_setQueue]
  by_cases hu : u = t
  · subst hu
    by_cases hr : r.jobId = j ∧ r.socket = k
    · simp [hr]
    · simp [hr]
  · simp [hu]

theorem sameJob_enqueue (n : LocalNode) (q : UInt32) (t : Resource) {j k j' k' : UInt32}
    (h : ¬(j' = j ∧ k' = k)) :
    SameJob n (n.setQueue t (n.queue t ++ [⟨j, k, q, t⟩])) j' k' where
  requests u := by
    rw [requests_enqueue, if_neg (fun he => h ⟨he.2.1.symm, he.2.2.symm⟩), List.append_nil]
  held _ _ := Iff.rfl

theorem sameJob_delActiveJob {n : LocalNode} {j k j' k' : UInt32}
    (h : ¬(j' = j ∧ k' = k)) : SameJob n (delActiveJob n j k) j' k' where
  requests t := by
    unfold requests
    rw [queue_delActiveJob]
  held q t := by
    rw [mem_held_delActiveJob]
    exact and_iff_left h

/-- A request leaves its queue, and no other one does. -/
theorem requests_grantQueued {n : LocalNode} {t : Resource} {r : ElemJobRequest}
    (ht : r.resourceType = t) (hr : n.requests r.jobId r.socket t = [r]) (j k : UInt32)
    (u : Resource) : (grantQueued n t r).requests j k u =
      if u = t ∧ r.jobId = j ∧ r.socket = k then [] else n.requests j k u := by
  unfold requests at hr ⊢
  rw [queue_grantQueued]
  by_cases hu : u = t
  · subst hu
    have hmem : r ∈ n.queue u := by
      have : r ∈ (n.queue u).filter fun x => x.jobId = r.jobId ∧ x.socket = r.socket := by
        rw [hr]
        exact List.mem_cons_self
      exact (List.mem_filter.mp this).1
    obtain ⟨q₁, x, q₂, hq, hx, _, hdel⟩ :=
      Queue.queueDelete_split (fun x => compJobRequest x r)
        ⟨r, hmem, compJobRequest_eq_zero.mpr ⟨rfl, rfl, rfl⟩⟩
    obtain ⟨hj, _, hk⟩ := compJobRequest_eq_zero.mp hx
    rw [if_pos rfl, hdel]
    rw [hq] at hr ⊢
    by_cases hjk : r.jobId = j ∧ r.socket = k
    · obtain ⟨rfl, rfl⟩ := hjk
      rw [if_pos ⟨rfl, rfl, rfl⟩]
      have hlen := congrArg List.length hr
      rw [List.filter_append, List.filter_cons_of_pos (by simp [hj, hk])] at hlen
      rw [List.filter_append]
      simp only [List.length_append, List.length_cons, List.length_nil] at hlen
      exact List.length_eq_zero_iff.mp (by rw [List.length_append]; omega)
    · rw [if_neg (fun he => hjk he.2), List.filter_append, List.filter_append,
        List.filter_cons_of_neg (by simpa [hj, hk] using hjk)]
  · rw [if_neg hu, if_neg (fun he => hu he.1)]

theorem sameJob_grantQueued {n : LocalNode} {t : Resource} {r : ElemJobRequest}
    (ht : r.resourceType = t) (hr : n.requests r.jobId r.socket t = [r]) {j k : UInt32}
    (h : ¬(j = r.jobId ∧ k = r.socket)) : SameJob n (grantQueued n t r) j k where
  requests u := by
    rw [requests_grantQueued ht hr, if_neg (fun he => h ⟨he.2.1.symm, he.2.2.symm⟩)]
  held := (sameJob_take n r.resourceQuantity t h).held

end LocalNode
end ResourceManager
