import ResourceManager.Grid.Client

/-!
# What a client has in its hands

A grant passes from the line of the agent to the mailbox of the scheduler, to the process of
the job, to its JOB_RELEASE and back to the agent. No step of the client makes a second one
of it (`claims_move`). The requests on their way to the agent have different ids that
`unique_integer` has returned and that have not been asked for, and are for nodes that the
agent has listed (`Sound.move`).
-/

namespace ResourceManager

open Scheduler

/-! ## Claims -/

/-- The job that a line grants. -/
def grantOf (line : List Char) : Option ℤ :=
  match handlePacket line with
  | .jobGranted id => some id
  | _ => none

namespace Scheduler

/-- The job that a message of the mailbox grants. -/
def Term.grant : Term → Option ℤ
  | .packetReceived packet => grantOf packet
  | _ => none

def Directive.requestId : Directive → Option ℤ
  | .jobDirective id .request _ => some id
  | _ => none

def Directive.releaseId : Directive → Option ℤ
  | .jobDirective id .release _ => some id
  | _ => none

end Scheduler

namespace Client

variable (x : Client)

/-- The directives that the agent has not read. -/
def unread : List Directive := x.outgoing ++ x.up

/-- The jobs that a grant, a process or a JOB_RELEASE of the client is about. -/
def claims : List ℤ :=
  x.down.filterMap grantOf ++ x.scheduler.mailbox.filterMap Term.grant ++
    x.scheduler.working.map Prod.fst ++ x.unread.filterMap Directive.releaseId

theorem count_claims (id : ℤ) : x.claims.count id = (x.down.filterMap grantOf).count id +
    (x.scheduler.mailbox.filterMap Term.grant).count id +
      (x.scheduler.working.map Prod.fst).count id +
        (x.unread.filterMap Directive.releaseId).count id := by
  simp only [claims, List.count_append]

end Client

section Steps

variable {c : Setup} {x x' : Client} {calls : ℕ} {msg : Term} {iteration : Iteration}

theorem grant_sender (directive : Directive) : (sender directive .ok).grant = none := by
  cases directive <;> rfl

theorem newLoads_eq_nil {effects : List Scheduler.Effect}
    (h : ∀ e ∈ effects, ∀ id senderPid, e ≠ .simulateLoad id senderPid) :
    newLoads effects = [] := by
  rw [newLoads, List.filterMap_eq_nil_iff]
  intro e he
  cases e with
  | simulateLoad id senderPid => exact absurd rfl (h _ he id senderPid)
  | sends | resends | requestNodes | stateTick => rfl

/-- An iteration spawns a process for a message that grants its job, and sends no JOB_RELEASE. -/
theorem Scheduler.Iterates.claims (h : Iterates c calls msg iteration) :
    (iteration.effects.filterMap Scheduler.Effect.directive).filterMap Directive.releaseId = [] ∧
      ∀ id, ((newLoads iteration.effects).map Prod.fst).count id ≤ (msg.grant.toList).count id := by
  cases h with
  | @dispatch packet nodes senderId n outcome h =>
    have hloads : newLoads ((List.range n).map fun i =>
        Scheduler.Effect.sends senderId (requestDirective c nodes (calls + i))) = [] := by
      refine newLoads_eq_nil fun e he id senderPid hload => ?_
      obtain ⟨i, _, rfl⟩ := List.mem_map.mp he
      cases hload
    refine ⟨?_, fun id => ?_⟩
    · rw [List.filterMap_filterMap, List.filterMap_eq_nil_iff]
      intro e he
      obtain ⟨i, _, rfl⟩ := List.mem_map.mp he
      rfl
    · rw [hloads]
      exact Nat.zero_le _
  | @spawn packet id senderPid outcome h =>
    refine ⟨rfl, fun id' => ?_⟩
    have hgrant : (Term.packetReceived packet).grant = some id := by
      show grantOf packet = some id
      rw [grantOf, h]
    rw [hgrant]
    exact Nat.le_refl _
  | quiet outcome hcalls heffects =>
    refine ⟨?_, fun id => ?_⟩
    · rw [List.filterMap_filterMap, List.filterMap_eq_nil_iff]
      intro e he
      rcases heffects e he with ⟨pid, rfl⟩ | rfl <;> rfl
    · rw [newLoads_eq_nil]
      · exact Nat.zero_le _
      · intro e he id' senderPid hload
        rcases heffects e he with ⟨pid, rfl⟩ | rfl <;> cases hload

/-- No step makes a second claim of one. -/
theorem claims_move (h : ClientMove c x x') (id : ℤ) : x'.claims.count id ≤ x.claims.count id := by
  rw [Client.count_claims, Client.count_claims]
  cases h with
  | quiet s directives hmailbox hcalls hworking hdirectives =>
    obtain ⟨msgs, hmsgs, hpackets⟩ := hmailbox
    have hgrants : msgs.filterMap Term.grant = [] := by
      rw [List.filterMap_eq_nil_iff]
      intro msg hmem
      cases msg with
      | packetReceived packet => exact absurd hmem (hpackets packet)
      | _ => rfl
    have hreleases : directives.filterMap Directive.releaseId = [] := by
      rw [List.filterMap_eq_nil_iff]
      intro d hd
      rw [hdirectives d hd]
      rfl
    have hcount := (hworking.map Prod.fst).count_le id
    simp only [Client.unread, hmsgs, List.filterMap_append, List.count_append, hgrants, hreleases,
      List.count_nil]
    omega
  | iterate s msg iteration hperm hiterates hcalls hworking =>
    obtain ⟨hreleases, hloads⟩ := hiterates.claims
    have hmail := (hperm.filterMap Term.grant).count_eq id
    have hload := hloads id
    rw [← List.singleton_append, List.filterMap_append, List.count_append] at hmail
    have hmsg : [msg].filterMap Term.grant = msg.grant.toList := by
      cases hg : msg.grant <;> simp [hg]
    rw [hmsg] at hmail
    simp only [Client.unread, hworking, List.map_append, List.filterMap_append, List.count_append,
      hreleases, List.count_nil]
    omega
  | release s id' senderPid hmailbox hcalls hworking =>
    have hcount := (hworking.map Prod.fst).count_eq id
    rw [List.map_cons, List.count_cons] at hcount
    have hnew : [Directive.jobDirective id' .release (jobReleaseLine id')].filterMap
        Directive.releaseId = [id'] := rfl
    simp only [Client.unread, hmailbox, List.filterMap_append, List.count_append, hnew,
      List.count_singleton]
    simp only [beq_iff_eq] at hcount ⊢
    omega
  | send s directive outgoing hout hmailbox hcalls hworking =>
    have hnew : [sender directive .ok].filterMap Term.grant = [] := by
      rw [List.filterMap_cons_none (grant_sender directive)]
      rfl
    simp only [Client.unread, hmailbox, hworking, hout, List.filterMap_append, List.count_append,
      hnew, List.count_nil, ← List.singleton_append (l := outgoing)]
    omega
  | recv s line down hdown hmailbox hcalls hworking =>
    have hnew : [Term.packetReceived line].filterMap Term.grant = [line].filterMap grantOf := rfl
    simp only [Client.unread, hmailbox, hworking, hdown, List.filterMap_append, List.count_append,
      hnew, ← List.singleton_append (l := down)]
    omega

end Steps

/-! ## Requests -/

/-- The directive is a command of the scheduler; a request is for nodes of a list `L`. -/
def Scheduler.Directive.Wellformed (c : Setup) (L : List Node → Prop) : Directive → Prop
  | .getNodes => True
  | .jobDirective id .release packet => packet = jobReleaseLine id
  | .jobDirective id .request packet =>
    ∃ k nodes, L nodes ∧ .jobDirective id .request packet = requestDirective c nodes k

/-- The scheduler has lists `L` of the agent, and what it has sent are requests for them under
ids of their own, and JOB_RELEASEs. The ids `A` have been asked for before. -/
structure Client.Sound (c : Setup) (L : List Node → Prop) (A : ℤ → Prop) (x : Client) : Prop where
  lines : ∀ line ∈ x.down, ∀ nodes, handlePacket line = .nodeRecords nodes → L nodes
  packets : ∀ packet, .packetReceived packet ∈ x.scheduler.mailbox →
    ∀ nodes, handlePacket packet = .nodeRecords nodes → L nodes
  wellformed : ∀ d ∈ x.unread, d.Wellformed c L
  distinct : (x.unread.filterMap Directive.requestId).Nodup
  used : ∀ id ∈ x.unread.filterMap Directive.requestId,
    ∃ k < x.scheduler.calls, c.unique.value k = id
  asked : ∀ id, A id → (∃ k < x.scheduler.calls, c.unique.value k = id) ∧
    id ∉ x.unread.filterMap Directive.requestId

section Requests

variable {c : Setup} {L : List Node → Prop} {A : ℤ → Prop} {x x' : Client} {calls : ℕ} {msg : Term}
  {iteration : Iteration}

theorem Client.Sound.mono {L' : List Node → Prop} (hL : ∀ nodes, L nodes → L' nodes)
    (h : x.Sound c L A) : x.Sound c L' A := by
  refine ⟨fun line hline nodes hnodes => hL nodes (h.lines line hline nodes hnodes),
    fun packet hpacket nodes hnodes => hL nodes (h.packets packet hpacket nodes hnodes),
    fun d hd => ?_, h.distinct, h.used, h.asked⟩
  have hwell := h.wellformed d hd
  cases d with
  | getNodes => trivial
  | jobDirective id kind packet =>
    cases kind with
    | release => exact hwell
    | request =>
      obtain ⟨k, nodes, hnodes, hdirective⟩ := hwell
      exact ⟨k, nodes, hL nodes hnodes, hdirective⟩

/-- An iteration sends requests for the list it has taken, under new ids. -/
theorem Scheduler.Iterates.requests (h : Iterates c calls msg iteration) :
    calls ≤ iteration.calls ∧
      (∀ d ∈ iteration.effects.filterMap Scheduler.Effect.directive, ∃ packet nodes k,
        msg = .packetReceived packet ∧ handlePacket packet = .nodeRecords nodes ∧
          d = requestDirective c nodes k) ∧
      ((iteration.effects.filterMap Scheduler.Effect.directive).filterMap
        Directive.requestId).Nodup ∧
      ∀ id ∈ (iteration.effects.filterMap Scheduler.Effect.directive).filterMap Directive.requestId,
        ∃ k, calls ≤ k ∧ k < iteration.calls ∧ c.unique.value k = id := by
  cases h with
  | @dispatch packet nodes senderId n outcome h =>
    have hdirectives : ((List.range n).map fun i =>
        Scheduler.Effect.sends senderId (requestDirective c nodes (calls + i))).filterMap
          Scheduler.Effect.directive =
          (List.range n).map fun i => requestDirective c nodes (calls + i) := by
      rw [List.filterMap_map, ← List.filterMap_eq_map]
      rfl
    have hids : ((List.range n).map fun i => requestDirective c nodes (calls + i)).filterMap
        Directive.requestId = (List.range n).map fun i => c.unique.value (calls + i) := by
      rw [List.filterMap_map, ← List.filterMap_eq_map]
      rfl
    dsimp only
    rw [hdirectives, hids]
    refine ⟨Nat.le_add_right calls n, fun d hd => ?_, ?_, fun id hid => ?_⟩
    · obtain ⟨i, _, rfl⟩ := List.mem_map.mp hd
      exact ⟨packet, nodes, calls + i, rfl, h, rfl⟩
    · refine List.nodup_range.map fun i i' he => ?_
      exact Nat.add_left_cancel (c.unique.injective he)
    · obtain ⟨i, hi, rfl⟩ := List.mem_map.mp hid
      have := List.mem_range.mp hi
      exact ⟨calls + i, by omega, by omega, rfl⟩
  | spawn senderPid outcome h =>
    exact ⟨Nat.le_refl calls, fun d hd => absurd hd List.not_mem_nil, List.nodup_nil,
      fun id hid => absurd hid List.not_mem_nil⟩
  | @quiet _ outcome effects calls' hcalls heffects =>
    have hnone : effects.filterMap Scheduler.Effect.directive = [] := by
      rw [List.filterMap_eq_nil_iff]
      intro e he
      rcases heffects e he with ⟨pid, rfl⟩ | rfl <;> rfl
    dsimp only
    rw [hnone]
    exact ⟨hcalls, fun d hd => absurd hd List.not_mem_nil, List.nodup_nil,
      fun id hid => absurd hid List.not_mem_nil⟩

/-- The directives `ds` have been added, their requests under new ids. -/
theorem Client.Sound.add (h : x.Sound c L A) {ds : List Directive}
    (hlines : ∀ line ∈ x'.down, ∀ nodes, handlePacket line = .nodeRecords nodes → L nodes)
    (hpackets : ∀ packet, .packetReceived packet ∈ x'.scheduler.mailbox →
      ∀ nodes, handlePacket packet = .nodeRecords nodes → L nodes)
    (hperm : x'.unread.Perm (x.unread ++ ds)) (hcalls : x.scheduler.calls ≤ x'.scheduler.calls)
    (hds : ∀ d ∈ ds, d.Wellformed c L) (hnodup : (ds.filterMap Directive.requestId).Nodup)
    (hnew : ∀ id ∈ ds.filterMap Directive.requestId,
      ∃ k, x.scheduler.calls ≤ k ∧ k < x'.scheduler.calls ∧ c.unique.value k = id) :
    x'.Sound c L A := by
  have hids := hperm.filterMap Directive.requestId
  rw [List.filterMap_append] at hids
  refine ⟨hlines, hpackets, fun d hd => ?_, hids.nodup_iff.mpr ?_, fun id hid => ?_,
    fun id hid => ?_⟩
  · rcases List.mem_append.mp (hperm.mem_iff.mp hd) with hd | hd
    · exact h.wellformed d hd
    · exact hds d hd
  · refine List.nodup_append.mpr ⟨h.distinct, hnodup, ?_⟩
    rintro id hid _ hid' rfl
    obtain ⟨k, hk, hvalue⟩ := h.used id hid
    obtain ⟨k', hk', _, hvalue'⟩ := hnew id hid'
    have := c.unique.injective (hvalue.trans hvalue'.symm)
    omega
  · rcases List.mem_append.mp (hids.mem_iff.mp hid) with hid | hid
    · obtain ⟨k, hk, hvalue⟩ := h.used id hid
      exact ⟨k, by omega, hvalue⟩
    · obtain ⟨k, _, hk, hvalue⟩ := hnew id hid
      exact ⟨k, hk, hvalue⟩
  · obtain ⟨⟨k, hk, hvalue⟩, hnot⟩ := h.asked id hid
    refine ⟨⟨k, by omega, hvalue⟩, fun hmem => ?_⟩
    rcases List.mem_append.mp (hids.mem_iff.mp hmem) with hmem | hmem
    · exact hnot hmem
    · obtain ⟨k', hk', _, hvalue'⟩ := hnew id hmem
      have := c.unique.injective (hvalue.trans hvalue'.symm)
      omega

/-- What the sender process gets comes before what it has sent. -/
theorem perm_unread (outgoing up ds : List Directive) :
    (outgoing ++ ds ++ up).Perm (outgoing ++ up ++ ds) := by
  rw [List.append_assoc, List.append_assoc]
  exact List.perm_append_comm.append_left outgoing

theorem Client.Sound.move (h : x.Sound c L A) (hmove : ClientMove c x x') : x'.Sound c L A := by
  cases hmove with
  | quiet s directives hmailbox hcalls hworking hdirectives =>
    obtain ⟨msgs, hmsgs, hnone⟩ := hmailbox
    have hids : directives.filterMap Directive.requestId = [] := by
      rw [List.filterMap_eq_nil_iff]
      intro d hd
      rw [hdirectives d hd]
      rfl
    refine h.add h.lines (fun packet hpacket => ?_) (perm_unread _ _ directives) hcalls.ge
      (fun d hd => ?_) ?_ ?_
    · dsimp only at hpacket
      rw [hmsgs] at hpacket
      exact h.packets packet ((List.mem_append.mp hpacket).resolve_right (hnone packet))
    · rw [hdirectives d hd]
      trivial
    · rw [hids]
      exact List.nodup_nil
    · rw [hids]
      exact fun id hid => absurd hid List.not_mem_nil
  | iterate s msg iteration hperm hiterates hcalls hworking =>
    obtain ⟨hle, hrequests, hnodup, hnew⟩ := hiterates.requests
    refine h.add h.lines (fun packet hpacket => ?_) (perm_unread _ _ _) (hcalls ▸ hle)
      (fun d hd => ?_) hnodup fun id hid => ?_
    · exact h.packets packet (hperm.mem_iff.mpr (List.mem_cons_of_mem _ hpacket))
    · obtain ⟨packet, nodes, k, rfl, hpacket, rfl⟩ := hrequests d hd
      have hlist := h.packets packet (hperm.mem_iff.mpr List.mem_cons_self) nodes hpacket
      exact ⟨k, nodes, hlist, rfl⟩
    · obtain ⟨k, hk, hlt, hvalue⟩ := hnew id hid
      exact ⟨k, hk, hcalls ▸ hlt, hvalue⟩
  | release s id senderPid hmailbox hcalls hworking =>
    refine h.add h.lines (fun packet hpacket => ?_) (perm_unread _ _ _) hcalls.ge
      (fun d hd => ?_) List.nodup_nil fun id hid => absurd hid List.not_mem_nil
    · dsimp only at hpacket
      rw [hmailbox] at hpacket
      exact h.packets packet hpacket
    · rw [List.mem_singleton.mp hd]
      rfl
  | send s directive outgoing hout hmailbox hcalls hworking =>
    refine h.add h.lines (fun packet hpacket => ?_) ?_ hcalls.ge
      (fun d hd => absurd hd List.not_mem_nil) List.nodup_nil
      fun id hid => absurd hid List.not_mem_nil
    · dsimp only at hpacket
      rw [hmailbox] at hpacket
      rcases List.mem_append.mp hpacket with hpacket | hpacket
      · exact h.packets packet hpacket
      · have he := List.mem_singleton.mp hpacket
        cases directive <;> cases he
    · show (outgoing ++ (x.up ++ [directive])).Perm (x.outgoing ++ x.up ++ [])
      rw [hout, ← List.append_assoc, List.append_nil]
      exact List.perm_append_singleton _ _
  | recv s line down hdown hmailbox hcalls hworking =>
    refine h.add (fun line' hline' => ?_) (fun packet hpacket => ?_)
      (List.Perm.of_eq (List.append_nil _).symm) hcalls.ge
      (fun d hd => absurd hd List.not_mem_nil) List.nodup_nil fun id hid => absurd hid List.not_mem_nil
    · exact h.lines line' (hdown ▸ List.mem_cons_of_mem _ hline')
    · dsimp only at hpacket
      rw [hmailbox] at hpacket
      rcases List.mem_append.mp hpacket with hpacket | hpacket
      · exact h.packets packet hpacket
      · cases List.mem_singleton.mp hpacket
        exact h.lines line (hdown ▸ List.mem_cons_self)

end Requests

end ResourceManager
