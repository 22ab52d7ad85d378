import ResourceManager.Cluster.View

/-!
# The cluster as one job sees it

`Represents w s c j b`: in the cluster `s` the job `j` of the coordinator `c` is in the
state `b`. It reads the record of the job, the packets that name it, and what the nodes
reserve and queue under its id and the descriptors of `c`. A step of the cluster that
touches none of these leaves the job where it is (`SameView`); the steps that do are
described one by one.
-/

namespace ResourceManager

open HashTable LocalNode

variable {C : Type}

/-- The packets that carry the petition in progress. -/
inductive Carried (c : C) (j : UInt32) : Place → List (Packet C) → Prop
  | nowhere : Carried c j .nowhere []
  | queued (p) : Carried c j (.queued p) []
  | sent (p : ResourceToken) :
      Carried c j (.sent p) [.request c p.target.addr (.reserve j p.type p.cant)]
  | granted (p : ResourceToken) (n) :
      Carried c j (.granted p) [.reply p.target.addr c (.granted n)]
  | denied (p : ResourceToken) : Carried c j (.denied p) [.reply p.target.addr c (.denied j)]

/-- What waits for the job in the queue of `r`, under the descriptor `k`. -/
def Place.waiting (j k : UInt32) (r : NodeResource) : Place → List ElemJobRequest
  | queued p => if p.target = r then [⟨j, k, p.cant, p.type⟩] else []
  | nowhere | sent _ | granted _ | denied _ => []

theorem Place.waiting_next (j k : UInt32) (r : NodeResource) (p : Option ResourceToken) :
    (next p).waiting j k r = [] := by cases p <;> rfl

section Definitions

variable [DecidableEq C]

structure Represents (w : Wiring C) (s : Cluster C) (c : C) (j : UInt32) (b : JobState) :
    Prop where
  asked : s.asked c j = b.asked
  absent : b.present = false → (s.jobs c).job j = none
  present : b.present = true →
    ∃ job, (s.jobs c).job j = some job ∧ Stage job b.petitions b.done
  tokens : Carried c j b.place (tokens s.net c j)
  releases : releases s.net c j = b.releases
  requests : ∀ a t, (s.node a).requests j (w.sock a c) t = b.place.waiting j (w.sock a c) ⟨a, t⟩
  held : ∀ a t q, ⟨j, w.sock a c, q, t⟩ ∈ (s.node a).held ↔ b.held ⟨a, t⟩ = some q

/-- Nothing has happened to the job `j` of `c`. -/
structure SameView (w : Wiring C) (s s' : Cluster C) (c : C) (j : UInt32) : Prop where
  asked : s'.asked c j = s.asked c j
  job : (s'.jobs c).job j = (s.jobs c).job j
  tokens : ResourceManager.tokens s'.net c j = ResourceManager.tokens s.net c j
  releases : ResourceManager.releases s'.net c j = ResourceManager.releases s.net c j
  node : ∀ a, SameJob (s.node a) (s'.node a) j (w.sock a c)

end Definitions

variable [DecidableEq C] {w : Wiring C} {s s' : Cluster C} {c : C} {j : UInt32} {b : JobState}

theorem Represents.frame (h : Represents w s c j b) (hv : SameView w s s' c j) :
    Represents w s' c j b where
  asked := hv.asked.trans h.asked
  absent hb := hv.job.trans (h.absent hb)
  present hb := by
    rw [hv.job]
    exact h.present hb
  tokens := by
    rw [hv.tokens]
    exact h.tokens
  releases := hv.releases.trans h.releases
  requests a t := ((hv.node a).requests t).trans (h.requests a t)
  held a t q := ((hv.node a).held q t).trans (h.held a t q)

/-! ## Messages sent -/

theorem tokens_singleton {pkt : Packet C} (h : pkt.token = some (c, j)) :
    tokens [pkt] c j = [pkt] := by
  simp [tokens, h]

/-- A node sends no RELEASE. -/
theorem releases_replies (w : Wiring C) (a : Addr) (out : List OutMsg) (c : C) (j : UInt32) :
    releases (replies w a out) c j = [] := by
  refine releases_eq_nil fun pkt hpkt => ?_
  obtain ⟨m, _, hm⟩ := List.mem_filterMap.mp hpkt
  split at hm
  · cases hm
  · obtain ⟨c', _, rfl⟩ := Option.map_eq_some_iff.mp hm
    simp [Packet.release]

omit [DecidableEq C] in
/-- The messages of a rollback that leave the agent. -/
theorem sent_rollbackMsgs (c : C) (notice : Option (UInt32 → Message)) (jobs : OwnedJobs)
    (j : UInt32) : sent c (rollbackMsgs (fun _ => false) notice jobs j) =
      (getGrantedResources jobs j maxJobResources).map fun p =>
        .request c p.addr (.release j p.type p.quantity) := by
  have hnotice : sent c (notice.toList.map fun msg =>
      .toFd (getJobOwnerSocket jobs j) (msg j)) = [] := by cases notice <;> rfl
  rw [rollbackMsgs, sent_append, hnotice, List.append_nil, sent, List.filterMap_map,
    ← List.filterMap_eq_map]
  simp only [Bool.not_false, List.filter_true]
  rfl

theorem tokens_requests (c : C) (j : UInt32) (ps : List JobPetition) :
    tokens (ps.map fun p => .request c p.addr (.release j p.type p.quantity)) c j = [] := by
  refine tokens_eq_nil fun pkt hpkt => ?_
  obtain ⟨p, _, rfl⟩ := List.mem_map.mp hpkt
  simp [Packet.token]

theorem releases_requests (c : C) (j : UInt32) (ps : List JobPetition) :
    releases (ps.map fun p => .request c p.addr (.release j p.type p.quantity)) c j =
      ps.map fun p => p.addr := by
  induction ps with
  | nil => rfl
  | cons p ps ih => simpa [releases, Packet.release, Packet.node] using ih

theorem held_reserve {b : JobState} (p : ResourceToken) (t : Resource) (q : UInt32) :
    (if t = p.type then q = p.cant else b.held ⟨p.target.addr, t⟩ = some q) ↔
      (b.reserve p).held ⟨p.target.addr, t⟩ = some q := by
  unfold JobState.reserve
  by_cases ht : t = p.type
  · subst ht
    rw [if_pos rfl]
    simp [eq_comm]
  · rw [if_neg ht]
    simp [ht]

/-! ## Steps that leave a job alone -/

namespace SameView

theorem trans {s'' : Cluster C} (h : SameView w s s' c j) (h' : SameView w s' s'' c j) :
    SameView w s s'' c j where
  asked := h'.asked.trans h.asked
  job := h'.job.trans h.job
  tokens := h'.tokens.trans h.tokens
  releases := h'.releases.trans h.releases
  node a := ⟨fun t => ((h'.node a).requests t).trans ((h.node a).requests t),
    fun q t => ((h'.node a).held q t).trans ((h.node a).held q t)⟩

variable {c' : C} {j' : UInt32}

theorem drop {i : Nat} {pkt : Packet C} (hi : s.net[i]? = some pkt)
    (habout : pkt.About (c, j)) (hne : (c', j') ≠ (c, j)) : SameView w s (s.drop i) c' j' where
  asked := rfl
  job := rfl
  tokens := tokens_eraseIdx hi fun h => hne (habout _ (Or.inl h))
  releases := releases_eraseIdx hi fun h => hne (habout _ (Or.inr h))
  node _ := .refl _ _ _

/-- A packet that names no job leaves. -/
theorem drop_inert {i : Nat} {pkt : Packet C} (hi : s.net[i]? = some pkt)
    (htoken : pkt.token = none) (hrelease : pkt.release = none) :
    SameView w s (s.drop i) c' j' where
  asked := rfl
  job := rfl
  tokens := tokens_eraseIdx hi (by rw [htoken]; simp)
  releases := releases_eraseIdx hi (by rw [hrelease]; simp)
  node _ := .refl _ _ _

theorem atCoordinator {result : OwnedJobs × List OutMsg}
    (hjob : ∀ i, i ≠ j → result.1.job i = (s.jobs c).job i)
    (habout : ∀ pkt ∈ sent c result.2, pkt.About (c, j)) (hne : (c', j') ≠ (c, j)) :
    SameView w s (s.atCoordinator c result) c' j' where
  asked := rfl
  job := by
    by_cases hc : c' = c
    · subst hc
      show (Function.update s.jobs c' result.1 c').job j' = _
      rw [Function.update_self]
      exact hjob j' fun he => hne (by rw [he])
    · show (Function.update s.jobs c result.1 c').job j' = _
      rw [Function.update_of_ne hc]
  tokens := by
    show ResourceManager.tokens (s.net ++ sent c result.2) c' j' = _
    rw [tokens_append, tokens_eq_nil fun pkt hpkt h => hne (habout pkt hpkt _ (Or.inl h)),
      List.append_nil]
  releases := by
    show ResourceManager.releases (s.net ++ sent c result.2) c' j' = _
    rw [releases_append, releases_eq_nil fun pkt hpkt h => hne (habout pkt hpkt _ (Or.inr h)),
      List.append_nil]
  node _ := .refl _ _ _

theorem atNode {a : Addr} {result : LocalNode × List OutMsg}
    (hnode : SameJob (s.node a) result.1 j' (w.sock a c'))
    (habout : ∀ pkt ∈ replies w a result.2, pkt.About (c, j)) (hne : (c', j') ≠ (c, j)) :
    SameView w s (s.atNode w a result) c' j' where
  asked := rfl
  job := rfl
  tokens := by
    show ResourceManager.tokens (s.net ++ replies w a result.2) c' j' = _
    rw [tokens_append, tokens_eq_nil fun pkt hpkt h => hne (habout pkt hpkt _ (Or.inl h)),
      List.append_nil]
  releases := by
    show ResourceManager.releases (s.net ++ replies w a result.2) c' j' = _
    rw [releases_append, releases_eq_nil fun pkt hpkt h => hne (habout pkt hpkt _ (Or.inr h)),
      List.append_nil]
  node a' := by
    by_cases ha : a' = a
    · subst ha
      show SameJob _ (Function.update s.node a' result.1 a') _ _
      rw [Function.update_self]
      exact hnode
    · show SameJob _ (Function.update s.node a result.1 a') _ _
      rw [Function.update_of_ne ha]
      exact .refl _ _ _

theorem ask (tokens : List ResourceToken) (hne : (c', j') ≠ (c, j)) :
    SameView w s (s.ask c j tokens) c' j' where
  asked := by
    show Function.update s.asked c (Function.update (s.asked c) j (some tokens)) c' j' = _
    by_cases hc : c' = c
    · subst hc
      rw [Function.update_self, Function.update_of_ne fun he => hne (by rw [he])]
    · rw [Function.update_of_ne hc]
  job := rfl
  tokens := rfl
  releases := rfl
  node _ := .refl _ _ _

end SameView

/-! ## Where the petition is -/

namespace Represents

variable {i : Nat}

theorem mem_tokens {net : List (Packet C)} {pkt : Packet C} (hi : net[i]? = some pkt)
    (hpkt : pkt.token = some (c, j)) : pkt ∈ ResourceManager.tokens net c j :=
  List.mem_filter.mpr ⟨List.mem_of_getElem? hi, by simpa using hpkt⟩

theorem place_sent (h : Represents w s c j b) {a : Addr} {t : Resource} {q : UInt32}
    (hi : s.net[i]? = some (.request c a (.reserve j t q))) :
    b.place = .sent ⟨a.ip, a.port, t, q⟩ := by
  have hmem := mem_tokens (c := c) (j := j) hi rfl
  have hcarried := h.tokens
  generalize ResourceManager.tokens s.net c j = net at hmem hcarried
  generalize b.place = place at hcarried ⊢
  cases hcarried with
  | nowhere | queued => cases hmem
  | sent p =>
    simp only [List.mem_singleton, Packet.request.injEq, Message.reserve.injEq, true_and] at hmem
    obtain ⟨rfl, rfl, rfl⟩ := hmem
    rfl
  | granted p n | denied p => simp at hmem

theorem place_granted (h : Represents w s c j b) {a : Addr} {n : Int}
    (hn : scanUnsigned n = j) (hi : s.net[i]? = some (.reply a c (.granted n))) :
    ∃ p, b.place = .granted p ∧ p.target.addr = a := by
  have hmem := mem_tokens (c := c) (j := j) hi (by rw [Packet.token, hn])
  have hcarried := h.tokens
  generalize ResourceManager.tokens s.net c j = net at hmem hcarried
  generalize b.place = place at hcarried ⊢
  cases hcarried with
  | nowhere | queued => cases hmem
  | sent p | denied p => simp at hmem
  | granted p m =>
    simp only [List.mem_singleton, Packet.reply.injEq] at hmem
    exact ⟨p, rfl, hmem.1.symm⟩

theorem place_denied (h : Represents w s c j b) {a : Addr}
    (hi : s.net[i]? = some (.reply a c (.denied j))) : ∃ p, b.place = .denied p := by
  have hmem := mem_tokens (c := c) (j := j) hi rfl
  have hcarried := h.tokens
  generalize ResourceManager.tokens s.net c j = net at hmem hcarried
  generalize b.place = place at hcarried ⊢
  cases hcarried with
  | nowhere | queued => cases hmem
  | sent p | granted p n => simp at hmem
  | denied p => exact ⟨p, rfl⟩

/-- The petition in progress is taken out of the network. -/
theorem drop_token (h : Represents w s c j b) {pkt : Packet C} (hi : s.net[i]? = some pkt)
    (hpkt : pkt.token = some (c, j)) (hrelease : pkt.release = none) :
    Represents w (s.drop i) c j { b with place := .nowhere } := by
  have hmem := mem_tokens hi hpkt
  have hone : ∃ pkt', ResourceManager.tokens s.net c j = [pkt'] ∧
      ∀ k r, b.place.waiting j k r = [] := by
    have hcarried := h.tokens
    generalize ResourceManager.tokens s.net c j = net at hmem hcarried
    generalize b.place = place at hcarried ⊢
    cases hcarried with
    | nowhere | queued => cases hmem
    | sent p | granted p n | denied p => exact ⟨_, rfl, fun _ _ => rfl⟩
  obtain ⟨pkt', hone, hwaiting⟩ := hone
  refine ⟨h.asked, h.absent, h.present, ?_, ?_, fun a t => ?_, h.held⟩
  · show Carried c j .nowhere (ResourceManager.tokens (s.net.eraseIdx i) c j)
    rw [(tokens_eraseIdx_self hi hpkt hone).2]
    exact .nowhere
  · show ResourceManager.releases (s.net.eraseIdx i) c j = b.releases
    rw [releases_eraseIdx hi (by rw [hrelease]; simp)]
    exact h.releases
  · show (s.node a).requests j (w.sock a c) t = []
    rw [h.requests, hwaiting]

/-- A RELEASE is taken out of the network. -/
theorem drop_release (h : Represents w s c j b) {pkt : Packet C} (hi : s.net[i]? = some pkt)
    (hpkt : pkt.release = some (c, j)) (htoken : pkt.token = none) :
    ∃ l₁ l₂, b.releases = l₁ ++ pkt.node :: l₂ ∧
      Represents w (s.drop i) c j { b with releases := l₁ ++ l₂ } := by
  obtain ⟨l₁, l₂, hold, hnew⟩ := releases_eraseIdx_self hi hpkt
  refine ⟨l₁, l₂, h.releases.symm.trans hold, h.asked, h.absent, h.present, ?_, hnew, h.requests,
    h.held⟩
  show Carried c j b.place (ResourceManager.tokens (s.net.eraseIdx i) c j)
  rw [tokens_eraseIdx hi (by rw [htoken]; simp)]
  exact h.tokens

/-! ## What the handlers do -/

/-- A coordinator has changed the record of the job and sent messages about it. -/
theorem atCoordinator (h : Represents w s c j b) {result : OwnedJobs × List OutMsg}
    {present : Bool} {done : Nat} {place : Place}
    (habsent : present = false → result.1.job j = none)
    (hpresent : present = true → ∃ job, result.1.job j = some job ∧ Stage job b.petitions done)
    (htokens : Carried c j place
      (ResourceManager.tokens s.net c j ++ ResourceManager.tokens (sent c result.2) c j))
    (hwaiting : ∀ k r, place.waiting j k r = b.place.waiting j k r) :
    Represents w (s.atCoordinator c result) c j
      { b with
        present := present
        done := done
        place := place
        releases := b.releases ++ ResourceManager.releases (sent c result.2) c j } where
  asked := h.asked
  absent hb := by
    show (Function.update s.jobs c result.1 c).job j = none
    rw [Function.update_self]
    exact habsent hb
  present hb := by
    show ∃ job, (Function.update s.jobs c result.1 c).job j = some job ∧ Stage job b.petitions done
    rw [Function.update_self]
    exact hpresent hb
  tokens := by
    show Carried c j place (ResourceManager.tokens (s.net ++ sent c result.2) c j)
    rw [tokens_append]
    exact htokens
  releases := by
    show ResourceManager.releases (s.net ++ sent c result.2) c j = _
    rw [releases_append, h.releases]
  requests a t := (h.requests a t).trans (hwaiting _ _).symm
  held := h.held

/-- A node has changed what it reserves and queues for the job, and answered. -/
theorem atNode (h : Represents w s c j b) {a : Addr} {result : LocalNode × List OutMsg}
    {place : Place} {held : NodeResource → Option UInt32}
    (htokens : Carried c j place
      (ResourceManager.tokens s.net c j ++ ResourceManager.tokens (replies w a result.2) c j))
    (hrequests : ∀ t, result.1.requests j (w.sock a c) t =
      place.waiting j (w.sock a c) ⟨a, t⟩)
    (hrequests' : ∀ a' ≠ a, ∀ k t, place.waiting j k ⟨a', t⟩ = b.place.waiting j k ⟨a', t⟩)
    (hheld : ∀ t q, ⟨j, w.sock a c, q, t⟩ ∈ result.1.held ↔ held ⟨a, t⟩ = some q)
    (hheld' : ∀ a' ≠ a, ∀ t, held ⟨a', t⟩ = b.held ⟨a', t⟩) :
    Represents w (s.atNode w a result) c j { b with place := place, held := held } where
  asked := h.asked
  absent := h.absent
  present := h.present
  tokens := by
    show Carried c j place (ResourceManager.tokens (s.net ++ replies w a result.2) c j)
    rw [tokens_append]
    exact htokens
  releases := by
    show ResourceManager.releases (s.net ++ replies w a result.2) c j = _
    rw [releases_append, releases_replies, List.append_nil]
    exact h.releases
  requests a' t := by
    show (Function.update s.node a result.1 a').requests j (w.sock a' c) t = _
    by_cases ha : a' = a
    · subst ha
      rw [Function.update_self]
      exact hrequests t
    · rw [Function.update_of_ne ha, h.requests]
      exact (hrequests' a' ha _ t).symm
  held a' t q := by
    show _ ∈ (Function.update s.node a result.1 a').held ↔ held ⟨a', t⟩ = some q
    by_cases ha : a' = a
    · subst ha
      rw [Function.update_self]
      exact hheld t q
    · rw [Function.update_of_ne ha, h.held, hheld' a' ha]

/-- Nothing of a job waits unless its petition is in a queue. -/
theorem requests_nil (h : Represents w s c j b) (hb : b.place = .nowhere) (a : Addr)
    (t : Resource) : (s.node a).requests j (w.sock a c) t = [] := by
  rw [h.requests, hb]
  rfl

theorem tokens_nil (h : Represents w s c j b) (hb : b.place = .nowhere) :
    ResourceManager.tokens s.net c j = [] := by
  have hcarried := h.tokens
  rw [hb] at hcarried
  generalize ResourceManager.tokens s.net c j = net at hcarried ⊢
  cases hcarried
  rfl

section Node

variable (h : Represents w s c j b) (hb : b.place = .nowhere) (p : ResourceToken)
include h hb

theorem refuse : Represents w (s.atNode w p.target.addr (s.node p.target.addr,
    [.toFd (w.sock p.target.addr c) (.denied j)])) c j { b with place := .denied p } := by
  refine h.atNode ?_ (fun t => h.requests_nil hb _ t) (fun a' _ k t => by rw [hb]; rfl)
    (h.held _) fun _ _ _ => rfl
  rw [h.tokens_nil hb, replies_toFd, List.nil_append, tokens_singleton rfl]
  exact .denied p

theorem enqueue : Represents w (s.atNode w p.target.addr
    ((s.node p.target.addr).setQueue p.type ((s.node p.target.addr).queue p.type ++
      [⟨j, w.sock p.target.addr c, p.cant, p.type⟩]), [])) c j { b with place := .queued p } := by
  refine h.atNode ?_ (fun t => ?_) (fun a' ha k t => ?_) (h.held _) fun _ _ _ => rfl
  · rw [h.tokens_nil hb]
    exact .queued p
  · rw [requests_enqueue, h.requests_nil hb, List.nil_append, Place.waiting]
    simp [eq_comm]
  · rw [hb, Place.waiting, if_neg]
    · rfl
    · intro he
      exact ha (congrArg NodeResource.addr he).symm

theorem grant : Represents w (s.atNode w p.target.addr
    ((s.node p.target.addr).take j (w.sock p.target.addr c) p.cant p.type,
      [.toFd (w.sock p.target.addr c) (.granted j.toNat)])) c j
    { b.reserve p with place := .granted p } := by
  refine h.atNode ?_ (fun t => h.requests_nil hb _ t) (fun a' _ k t => by rw [hb]; rfl)
    (fun t q => ?_) fun a' ha t => ?_
  · rw [h.tokens_nil hb, replies_toFd, List.nil_append,
      tokens_singleton (by rw [Packet.token, scanUnsigned_toNat])]
    exact .granted p _
  · rw [held_take, h.held]
    exact held_reserve p t q
  · exact Function.update_of_ne (fun he => ha (congrArg NodeResource.addr he)) _ _

end Node

/-- The node reclaims what it reserved for the job. -/
theorem reclaim (h : Represents w s c j b) (a : Addr) :
    Represents w (s.atNode w a (delActiveJob (s.node a) j (w.sock a c), [])) c j
      { b with held := fun r => if r.addr = a then none else b.held r } := by
  refine h.atNode ?_ (fun t => ?_) (fun _ _ _ _ => rfl) (fun t q => ?_) fun a' ha t => if_neg ha
  · show Carried c j b.place (_ ++ [])
    rw [List.append_nil]
    exact h.tokens
  · rw [← h.requests]
    unfold LocalNode.requests
    rw [queue_delActiveJob]
  · rw [mem_held_delActiveJob]
    simp

/-- A request of the job is granted out of its queue; the answer can be lost. -/
theorem wake (h : Represents w s c j b) {p : ResourceToken} (hp : b.place = .queued p)
    {out : List OutMsg} {place : Place}
    (hout : out = [grantMsg ⟨j, w.sock p.target.addr c, p.cant, p.type⟩] ∧ place = .granted p ∨
      out = [] ∧ place = .nowhere) :
    Represents w (s.atNode w p.target.addr (grantQueued (s.node p.target.addr) p.type
      ⟨j, w.sock p.target.addr c, p.cant, p.type⟩, out)) c j
      { b.reserve p with place := place } := by
  have hnone : ∀ k r, place.waiting j k r = [] := by
    rcases hout with ⟨_, rfl⟩ | ⟨_, rfl⟩ <;> exact fun _ _ => rfl
  have hnet : ResourceManager.tokens s.net c j = [] := by
    have hcarried := h.tokens
    rw [hp] at hcarried
    generalize ResourceManager.tokens s.net c j = net at hcarried ⊢
    cases hcarried
    rfl
  have hown : (s.node p.target.addr).requests j (w.sock p.target.addr c) p.type =
      [⟨j, w.sock p.target.addr c, p.cant, p.type⟩] := by
    rw [h.requests, hp, Place.waiting, if_pos rfl]
  refine h.atNode ?_ (fun t => ?_) (fun a' ha k t => ?_) (fun t q => ?_) fun a' ha t => ?_
  · rw [hnet, List.nil_append]
    rcases hout with ⟨rfl, rfl⟩ | ⟨rfl, rfl⟩
    · rw [grantMsg, replies_toFd, tokens_singleton (by rw [Packet.token, scanUnsigned_toInt])]
      exact .granted p _
    · exact .nowhere
  · rw [hnone]
    refine (requests_grantQueued (t := p.type)
      (r := ⟨j, w.sock p.target.addr c, p.cant, p.type⟩) rfl hown j _ t).trans ?_
    split
    · rfl
    · rename_i ht
      rw [h.requests, hp, Place.waiting, if_neg]
      intro he
      exact ht ⟨(congrArg NodeResource.type he).symm, rfl, rfl⟩
  · rw [hnone, hp, Place.waiting, if_neg]
    intro he
    exact ha (congrArg NodeResource.addr he).symm
  · show _ ∈ ((s.node p.target.addr).take j _ p.cant p.type).held ↔ _
    rw [held_take, h.held]
    exact held_reserve p t q
  · exact Function.update_of_ne (fun he => ha (congrArg NodeResource.addr he)) _ _

/-! ## The end of a job -/

theorem rollback (h : Represents w s c j b) (notice : Option (UInt32 → Message)) :
    Represents w (s.atCoordinator c (removeOwnedJob (s.jobs c) j,
      rollbackMsgs (fun _ => false) notice (s.jobs c) j)) c j b.abandon := by
  have hmsgs := sent_rollbackMsgs c notice (s.jobs c) j
  have hreleases : ResourceManager.releases (sent c
      (rollbackMsgs (fun _ => false) notice (s.jobs c) j)) c j =
        if b.present then (b.petitions.take b.done).map fun p => p.target.addr else [] := by
    rw [hmsgs, releases_requests]
    cases hb : b.present with
    | false => rw [getGrantedResources_none (h.absent hb)]; rfl
    | true =>
      obtain ⟨job, hjob, hstage⟩ := h.present hb
      rw [getGrantedResources_eq hjob, hstage.granted (List.length_take_le _ _), grantedPetitions,
        List.map_map]
      rfl
  have htokens : Carried c j b.place (ResourceManager.tokens s.net c j ++
      ResourceManager.tokens (sent c (rollbackMsgs (fun _ => false) notice (s.jobs c) j)) c j) := by
    rw [hmsgs, tokens_requests, List.append_nil]
    exact h.tokens
  have hown : Represents w (s.atCoordinator c (removeOwnedJob (s.jobs c) j,
      rollbackMsgs (fun _ => false) notice (s.jobs c) j)) c j
      { b with present := false, releases := b.releases ++ _ } :=
    h.atCoordinator (fun _ => by rw [job_removeOwnedJob, if_pos rfl]) (fun hp => by cases hp)
      htokens fun _ _ => rfl
  rw [hreleases] at hown
  exact hown

end Represents
end ResourceManager
