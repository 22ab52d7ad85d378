import ResourceManager.Cluster.Grantees
import ResourceManager.Grid.Requests

/-!
# The clients are in step with the cluster

What a client has in its hands, grants, processes and JOB_RELEASEs, are granted jobs of the
cluster, each once, and what it still asks for has not been asked for (`Client.InStep`). So a
JOB_REQUEST that an agent reads is a new one, in order, for what the nodes have, and a
JOB_RELEASE is one of a granted job. Every ordinary event keeps this (`Grid.InStep.step`).
-/

namespace ResourceManager

open Scheduler Library.Runs

variable {C : Type}

/-- The client of `c`, whose agent has the directory `nodes`, is in step with the cluster `s`. -/
structure Client.InStep (setup : Setup) (capacity : Addr → Resource → UInt32)
    (nodes : KnownNodes) (s : Cluster C) (c : C) (x : Client) : Prop where
  sound : x.Sound setup (Listed capacity nodes)
    fun id => ∃ j : UInt32, id = (j.toNat : ℤ) ∧ s.asked c j ≠ none
  small : ∀ d ∈ x.up, d.Small
  once : ∀ id, x.claims.count id ≤ 1
  granted : ∀ id ∈ x.claims, ∃ j : UInt32, id = (j.toNat : ℤ) ∧ s.Granted (c, j)
  undenied : ∀ line ∈ x.down, ∀ id, handlePacket line ≠ .jobDenied id

/-- The cluster has taken the steps `as`, and the clients are in step with it. -/
structure Grid.InStep [DecidableEq C] (setup : C → Setup) (w : Wiring C)
    (capacity : Addr → Resource → UInt32) (as : List (Action C)) (g : Grid C) : Prop where
  orderly : Along (Cluster.step w)
    (fun s act => s.Orderly w act ∧ s.Scheduled capacity g.directory act)
    (Cluster.initial capacity) as
  reached : run (Cluster.step w) (Cluster.initial capacity) as = g.cluster
  modest : Modest (orderlyRules capacity) g.cluster
  client : ∀ c, (g.client c).InStep (setup c) capacity (g.directory c) g.cluster c
  known : ∀ c, ∀ node ∈ (g.directory c).datos, Known capacity node
  air : ∀ p ∈ g.air, Announced capacity p

/-! ## Lines for a client -/

theorem natCast_toNat_inj {j j' : UInt32} (h : (j.toNat : ℤ) = j'.toNat) : j = j' :=
  UInt32.toNat_inj.mp (by exact_mod_cast h)

namespace Client.InStep

variable {setup : Setup} {capacity : Addr → Resource → UInt32} {nodes nodes' : KnownNodes}
  {s s' : Cluster C} {c : C} {x x' : Client}

/-- The agent has come to know more nodes. -/
theorem mono (h : x.InStep setup capacity nodes s c)
    (hentry : ∀ a, HasEntry nodes a → HasEntry nodes' a) : x.InStep setup capacity nodes' s c :=
  { h with sound := h.sound.mono fun _ => Listed.mono hentry }

/-- A step of the client's processes. -/
theorem move (h : x.InStep setup capacity nodes s c) (hmove : ClientMove setup x x')
    (hsmall : ∀ d ∈ x'.up, d.Small) : x'.InStep setup capacity nodes s c where
  sound := h.sound.move hmove
  small := hsmall
  once id := (claims_move hmove id).trans (h.once id)
  granted id hid := by
    refine h.granted id ?_
    have hpos := List.count_pos_iff.mpr hid
    have hle := claims_move hmove id
    exact List.count_pos_iff.mp (by omega)
  undenied line hline := by
    refine h.undenied line ?_
    cases hmove with
    | recv s line' down hdown => exact hdown ▸ List.mem_cons_of_mem _ hline
    | quiet | iterate | release | send => exact hline

/-- The agent has read the first directive. -/
theorem pop (h : x.InStep setup capacity nodes s c) {d : Directive} {up : List Directive}
    (hup : x.up = d :: up) :
    Client.InStep setup capacity nodes s c { x with up := up } ∧
      (∀ id ∈ d.releaseId, id ∉ ({ x with up := up } : Client).claims) ∧
      (∀ id ∈ d.requestId, id ∉ ({ x with up := up } : Client).unread.filterMap
        Directive.requestId) := by
  have hperm : x.unread.Perm (d :: ({ x with up := up } : Client).unread) := by
    show (x.outgoing ++ x.up).Perm (d :: (x.outgoing ++ up))
    rw [hup]
    exact List.perm_middle
  have hrequests := hperm.filterMap Directive.requestId
  have hreleases := hperm.filterMap Directive.releaseId
  have hclaims : ∀ id, x.claims.count id =
      ({ x with up := up } : Client).claims.count id + d.releaseId.toList.count id := by
    intro id
    have hcount := hreleases.count_eq id
    rw [Client.count_claims, Client.count_claims, hcount]
    cases hid : d.releaseId with
    | none =>
      rw [List.filterMap_cons_none hid]
      rfl
    | some i =>
      rw [List.filterMap_cons_some hid, List.count_cons, Option.toList_some, List.count_singleton]
      dsimp only
      omega
  have hdistinct := hrequests.nodup_iff.mp h.sound.distinct
  have hsub : ∀ id ∈ ({ x with up := up } : Client).unread.filterMap Directive.requestId,
      id ∈ x.unread.filterMap Directive.requestId := by
    intro id hid
    refine hrequests.mem_iff.mpr ?_
    exact ((List.sublist_cons_self d _).filterMap _).subset hid
  refine ⟨⟨⟨h.sound.lines, h.sound.packets, fun e he => ?_, ?_, fun id hid => ?_, fun id hid => ?_⟩,
    fun e he => ?_, fun id => ?_, fun id hid => ?_, h.undenied⟩, fun id hid hmem => ?_,
    fun id hid hmem => ?_⟩
  · exact h.sound.wellformed e (hperm.mem_iff.mpr (List.mem_cons_of_mem d he))
  · exact hdistinct.sublist ((List.sublist_cons_self d _).filterMap _)
  · exact h.sound.used id (hsub id hid)
  · obtain ⟨hused, hnot⟩ := h.sound.asked id hid
    exact ⟨hused, fun hmem => hnot (hsub id hmem)⟩
  · exact h.small e (hup ▸ List.mem_cons_of_mem d he)
  · have := h.once id
    have := hclaims id
    omega
  · refine h.granted id (List.count_pos_iff.mp ?_)
    have := List.count_pos_iff.mpr hid
    have := hclaims id
    omega
  · have hid : d.releaseId = some id := hid
    have hpos := List.count_pos_iff.mpr hmem
    have hsum := hclaims id
    have hone := h.once id
    rw [hid, Option.toList_some, List.count_singleton_self] at hsum
    omega
  · have hid : d.requestId = some id := hid
    rw [List.filterMap_cons_some hid] at hdistinct
    exact (List.nodup_cons.mp hdistinct).1 hmem

/-- Lines have been sent to the client: those of lists are known, those of grants are new. -/
theorem tell (h : x.InStep setup capacity nodes s c) {lines : List (List Char)}
    (hlists : ∀ line ∈ lines, ∀ records, handlePacket line = .nodeRecords records →
      Listed capacity nodes records)
    (hgrants : ∀ id, (lines.filterMap grantOf).count id + x.claims.count id ≤ 1)
    (hgranted : ∀ id ∈ lines.filterMap grantOf, ∃ j : UInt32, id = (j.toNat : ℤ) ∧ s.Granted (c, j))
    (hundenied : ∀ line ∈ lines, ∀ id, handlePacket line ≠ .jobDenied id) :
    Client.InStep setup capacity nodes s c { x with down := x.down ++ lines } := by
  have hcount : ∀ id, ({ x with down := x.down ++ lines } : Client).claims.count id =
      (lines.filterMap grantOf).count id + x.claims.count id := by
    intro id
    simp only [Client.count_claims, List.filterMap_append, List.count_append, Client.unread]
    omega
  refine ⟨⟨fun line hline => ?_, h.sound.packets, h.sound.wellformed, h.sound.distinct, h.sound.used,
    h.sound.asked⟩, h.small, fun id => ?_, fun id hid => ?_, fun line hline => ?_⟩
  · rcases List.mem_append.mp hline with hline | hline
    · exact h.sound.lines line hline
    · exact hlists line hline
  · rw [hcount]
    exact hgrants id
  · have hpos := List.count_pos_iff.mpr hid
    rw [hcount] at hpos
    rcases Nat.eq_zero_or_pos ((lines.filterMap grantOf).count id) with hzero | hnew
    · exact h.granted id (List.count_pos_iff.mp (by omega))
    · exact hgranted id (List.count_pos_iff.mp hnew)
  · rcases List.mem_append.mp hline with hline | hline
    · exact h.undenied line hline
    · exact hundenied line hline

/-- The cluster has taken a step that leaves what the client claims as it is. -/
theorem frame (h : x.InStep setup capacity nodes s c)
    (hkeep : ∀ j : UInt32, (j.toNat : ℤ) ∈ x.claims → s.Granted (c, j) → s'.Granted (c, j))
    (hasked : ∀ j, s'.asked c j ≠ none → s.asked c j ≠ none ∨
      (∃ k < x.scheduler.calls, setup.unique.value k = j.toNat) ∧
        (j.toNat : ℤ) ∉ x.unread.filterMap Directive.requestId) :
    x.InStep setup capacity nodes s' c where
  sound := by
    refine ⟨h.sound.lines, h.sound.packets, h.sound.wellformed, h.sound.distinct, h.sound.used, ?_⟩
    rintro _ ⟨j, rfl, hj⟩
    rcases hasked j hj with hold | hnew
    · exact h.sound.asked _ ⟨j, rfl, hold⟩
    · exact hnew
  small := h.small
  once := h.once
  granted id hid := by
    obtain ⟨j, rfl, hj⟩ := h.granted id hid
    exact ⟨j, rfl, hkeep j hid hj⟩
  undenied := h.undenied

/-- The cluster has taken a step, and its notices are on their way. -/
theorem advance [DecidableEq C] (h : x.InStep setup capacity nodes s c) (htold : Advice s s' s'.told)
    (hundenied : ∀ a c j, Packet.reply a c (.denied j) ∉ s.net)
    (hkeep : ∀ j : UInt32, (j.toNat : ℤ) ∈ x.claims → s.Granted (c, j) → s'.Granted (c, j))
    (hasked : ∀ j, s'.asked c j ≠ none → s.asked c j ≠ none ∨
      (∃ k < x.scheduler.calls, setup.unique.value k = j.toNat) ∧
        (j.toNat : ℤ) ∉ x.unread.filterMap Directive.requestId) :
    Client.InStep setup capacity nodes s' c { x with down := x.down ++ s'.noticesTo c } := by
  have hframe := h.frame hkeep hasked
  unfold Cluster.noticesTo
  generalize s'.told = told at htold
  cases htold with
  | granted y hbefore hafter =>
    by_cases hc : y.1 = c
    · subst hc
      have hlines : [(y.1, Message.jobGranted y.2)].filterMap
          (fun p => if p.1 = y.1 then some p.2.text else none) = [(Message.jobGranted y.2).text] := by
        simp
      have hgrant : [(Message.jobGranted y.2).text].filterMap grantOf = [(y.2.toNat : ℤ)] := by
        simp [grantOf, handlePacket_jobGranted]
      rw [hlines]
      refine hframe.tell (fun line hline nodes hnodes => ?_) (fun id => ?_) (fun id hid => ?_)
        fun line hline id hid => ?_
      · rw [List.mem_singleton.mp hline, handlePacket_jobGranted] at hnodes
        cases hnodes
      · rw [hgrant, List.count_singleton]
        have hone := h.once id
        by_cases hid : (y.2.toNat : ℤ) = id
        · have hnone : x.claims.count id = 0 := by
            refine List.count_eq_zero.mpr fun hmem => ?_
            obtain ⟨j, hj, hgranted⟩ := h.granted id hmem
            rw [← natCast_toNat_inj (hid.trans hj)] at hgranted
            exact hbefore hgranted
          rw [hnone]
          split <;> omega
        · rw [if_neg (by simpa using hid)]
          omega
      · rw [hgrant] at hid
        exact ⟨y.2, List.mem_singleton.mp hid, hafter⟩
      · rw [List.mem_singleton.mp hline, handlePacket_jobGranted] at hid
        cases hid
    · have hlines : [(y.1, Message.jobGranted y.2)].filterMap
          (fun p => if p.1 = c then some p.2.text else none) = [] := by
        simp [hc]
      rw [hlines, List.append_nil]
      exact hframe
  | ended hended =>
    have htimeout : ∀ line ∈ told.filterMap (fun p => if p.1 = c then some p.2.text else none),
        ∃ j : UInt32, handlePacket line = .jobTimeout j.toNat := by
      intro line hline
      obtain ⟨n, hn, he⟩ := List.mem_filterMap.mp hline
      split at he
      · obtain ⟨j, hj | ⟨_, a, hdenied⟩⟩ := hended n hn
        · refine ⟨j, ?_⟩
          rw [← Option.some.inj he, hj, handlePacket_jobTimeout]
        · exact absurd hdenied (hundenied a n.1 j)
      · cases he
    have hnone : (told.filterMap fun p => if p.1 = c then some p.2.text else none).filterMap
        grantOf = [] := by
      refine List.filterMap_eq_nil_iff.mpr fun line hline => ?_
      obtain ⟨j, hj⟩ := htimeout line hline
      rw [grantOf, hj]
    refine hframe.tell (fun line hline nodes hnodes => ?_) (fun id => ?_) (fun id hid => ?_)
      fun line hline id hid => ?_
    · obtain ⟨j, hj⟩ := htimeout line hline
      rw [hj] at hnodes
      cases hnodes
    · rw [hnone, List.count_nil, Nat.zero_add]
      exact h.once id
    · rw [hnone] at hid
      exact absurd hid List.not_mem_nil
    · obtain ⟨j, hj⟩ := htimeout line hline
      rw [hj] at hid
      cases hid

end Client.InStep

/-! ## Events -/

namespace Grid.InStep

variable [DecidableEq C] {setup : C → Setup} {w : Wiring C}
  {capacity : Addr → Resource → UInt32} {as : List (Action C)} {g : Grid C} {c : C}

theorem healthy (h : g.InStep setup w capacity as) : ∃ b, Healthy w capacity g.cluster b :=
  h.reached ▸ Healthy.run (along_mono (fun _ _ ha => ha.1) h.orderly)

/-- The client of `c` has moved. -/
theorem setClient (h : g.InStep setup w capacity as) {x : Client}
    (hx : x.InStep (setup c) capacity (g.directory c) g.cluster c) :
    (g.setClient c x).InStep setup w capacity as where
  orderly := h.orderly
  reached := h.reached
  modest := h.modest
  client c' := by
    show (Function.update g.client c x c').InStep _ _ _ _ _
    by_cases hc : c' = c
    · subst hc
      rw [Function.update_self]
      exact hx
    · rw [Function.update_of_ne hc]
      exact h.client c'
  known := h.known
  air := h.air

/-- The cluster has taken a step. -/
theorem act (h : g.InStep setup w capacity as) {act : Action C} (horderly : g.cluster.Orderly w act)
    (hscheduled : g.cluster.Scheduled capacity g.directory act)
    (hfits : g.cluster.Asks (fun ps => ∀ p ∈ ps, p.cant ≤ capacity p.target.addr p.type) act)
    (htold : Advice g.cluster (g.cluster.step w act) (g.cluster.step w act).told)
    (hkeep : ∀ c (j : UInt32), (j.toNat : ℤ) ∈ (g.client c).claims → g.cluster.Granted (c, j) →
      (g.cluster.step w act).Granted (c, j))
    (hasked : ∀ c j, (g.cluster.step w act).asked c j ≠ none → g.cluster.asked c j ≠ none ∨
      (∃ k < (g.client c).scheduler.calls, (setup c).unique.value k = j.toNat) ∧
        (j.toNat : ℤ) ∉ (g.client c).unread.filterMap Directive.requestId) :
    (g.act w act).InStep setup w capacity (as ++ [act]) := by
  obtain ⟨b, hb⟩ := h.healthy
  refine ⟨along_append.mpr ⟨h.orderly, ?_⟩, ?_, h.modest.step hb.tracks hfits, fun c' => ?_,
    h.known, h.air⟩
  · rw [h.reached]
    exact ⟨⟨horderly, hscheduled⟩, trivial⟩
  · rw [run_append, h.reached]
    rfl
  · exact (h.client c').advance htold h.modest.undenied (hkeep c') (hasked c')

theorem timeout (h : g.InStep setup w capacity as) {now : Int}
    (hordinary : g.Ordinary w (.timeout c now)) :
    (g.act w (.timeout c now)).InStep setup w capacity (as ++ [.timeout c now]) := by
  have hsteady : Steady g.cluster (g.cluster.step w (.timeout c now)) := Tracks.steady_timeout now
  exact h.act ⟨trivial, trivial, hordinary⟩ trivial trivial hsteady.told
    (fun c' j _ hj => hsteady.granted (c', j) hj) fun _ _ => Or.inl

theorem deliver (h : g.InStep setup w capacity as) {i : Nat} {rand : Nat → Nat}
    (hordinary : g.Ordinary w (.deliver i rand)) (hi : i < g.cluster.net.length) :
    (g.act w (.deliver i rand)).InStep setup w capacity (as ++ [.deliver i rand]) := by
  obtain ⟨b, hb⟩ := h.healthy
  have hsteady := hb.tracks.steady_deliver hi rand
  refine h.act ⟨trivial, hordinary, fun x hx => absurd hx List.not_mem_nil⟩ trivial trivial
    hsteady.told (fun c' j _ hj => hsteady.granted (c', j) hj) fun c' j hj => Or.inl ?_
  have hasked : (g.cluster.step w (.deliver i rand)).asked = g.cluster.asked :=
    Cluster.asked_of_productive hi
  rwa [hasked] at hj

/-- The agent handles the JOB_REQUEST of a new job. -/
theorem jobRequest (h : g.InStep setup w capacity as) (now : Int) (k j : UInt32)
    {ps : List ResourceToken} (hps : Servable capacity (g.directory c) ps) (hj : j ≠ 4294967295)
    (hcalls : ∃ k < (g.client c).scheduler.calls, (setup c).unique.value k = j.toNat)
    (hnew : g.cluster.asked c j = none)
    (hunread : (j.toNat : ℤ) ∉ (g.client c).unread.filterMap Directive.requestId) :
    (g.act w (.jobRequest c now k j ps)).InStep setup w capacity
      (as ++ [.jobRequest c now k j ps]) := by
  obtain ⟨b, hb⟩ := h.healthy
  have hsteady := hb.tracks.steady_jobRequest hnew now k ps
  refine h.act ⟨⟨hnew, hps.sendable⟩, hj, fun x hx => absurd hx List.not_mem_nil⟩
    (fun p hp => ⟨hps.known p hp, hps.fits p hp⟩) ⟨hnew, hps.fits⟩ hsteady.told
    (fun c' i _ hi => hsteady.granted (c', i) hi) fun c' i hi => ?_
  by_cases hx : (c', i) = (c, j)
  · obtain ⟨rfl, rfl⟩ := Prod.mk.inj hx
    exact Or.inr ⟨hcalls, hunread⟩
  · have hsame := (SameView.ask ps hx : SameView w (g.cluster.atCoordinator c
      (handleJobRequest (g.cluster.jobs c) now k j ps [])) _ c' i).asked
    exact Or.inl (hsame ▸ hi)

/-- The agent handles the JOB_RELEASE of a granted job. -/
theorem jobRelease (h : g.InStep setup w capacity as) {j : UInt32} (hj : g.cluster.Granted (c, j))
    (hclaims : (j.toNat : ℤ) ∉ (g.client c).claims) :
    (g.act w (.jobRelease c j)).InStep setup w capacity (as ++ [.jobRelease c j]) := by
  obtain ⟨b, hb⟩ := h.healthy
  refine h.act ⟨trivial, trivial, fun x hx => ?_⟩ hj trivial
    (.silent (told_jobRelease g.cluster c j)) (fun c' i hi hgranted => granted_jobRelease hgranted ?_) fun _ _ => Or.inl
  · rw [List.mem_singleton.mp hx]
    exact hb.tracks.settled_of_granted hj
  · intro hx
    obtain ⟨rfl, rfl⟩ := Prod.mk.inj hx
    exact hclaims hi

/-- The agent sends its list of nodes. -/
theorem nodes (h : g.InStep setup w capacity as) (a : Arrival) : (g.tell c
    ((handleGetNodesResponse (g.directory c) a.socket []).map fun m => m.message.text)).InStep
      setup w capacity as := by
  have hlines : (handleGetNodesResponse (g.directory c) a.socket []).map (fun m => m.message.text) =
      [nodesResponse (g.directory c)] := rfl
  have hresult := handlePacket_nodesResponse (h.known c)
  have hgrant : [nodesResponse (g.directory c)].filterMap grantOf = [] := by
    refine List.filterMap_cons_none ?_
    rcases hresult with ⟨records, hrecords, _⟩ | ⟨reason, hreason⟩
    · rw [grantOf, hrecords]
    · rw [grantOf, hreason]
  rw [hlines]
  refine h.setClient ((h.client c).tell (fun line hline records hrecords => ?_) (fun id => ?_)
    (fun id hid => ?_) fun line hline id hid => ?_)
  · rw [List.mem_singleton.mp hline] at hrecords
    rcases hresult with ⟨records', hrecords', hlisted⟩ | ⟨reason, hreason⟩
    · obtain rfl := Term.nodeRecords.inj (hrecords'.symm.trans hrecords)
      exact hlisted
    · rw [hreason] at hrecords
      cases hrecords
  · rw [hgrant, List.count_nil, Nat.zero_add]
    exact (h.client c).once id
  · rw [hgrant] at hid
    exact absurd hid List.not_mem_nil
  · rw [List.mem_singleton.mp hline] at hid
    rcases hresult with ⟨records, hrecords, _⟩ | ⟨reason, hreason⟩
    · rw [hrecords] at hid
      cases hid
    · rw [hreason] at hid
      cases hid

/-- An announcement is heard. -/
theorem hear (h : g.InStep setup w capacity as) {now : Int} {i : Nat} {p : Ip × List Char}
    (hp : g.air[i]? = some p) : Grid.InStep setup w capacity as
      { g with
        directory := Function.update g.directory c
          (handleNodeAnnounced (g.directory c) now p.1 (processDiscoveryDatagram p.2)) } := by
  have hheard : ∀ c', (∀ node ∈ (Function.update g.directory c (handleNodeAnnounced (g.directory c)
      now p.1 (processDiscoveryDatagram p.2)) c').datos, Known capacity node) ∧
        ∀ a, HasEntry (g.directory c') a → HasEntry (Function.update g.directory c
          (handleNodeAnnounced (g.directory c) now p.1 (processDiscoveryDatagram p.2)) c') a := by
    intro c'
    by_cases hc : c' = c
    · subst hc
      rw [Function.update_self]
      exact known_handleNodeAnnounced (h.known c') (h.air p (List.mem_of_getElem? hp)) now
    · rw [Function.update_of_ne hc]
      exact ⟨h.known c', fun _ => id⟩
  exact ⟨along_mono (fun _ _ ha => ⟨ha.1, ha.2.mono fun c' => (hheard c').2⟩) h.orderly, h.reached,
    h.modest, fun c' => (h.client c').mono (hheard c').2, fun c' => (hheard c').1, h.air⟩

/-- A node announces no more than it has. -/
theorem announce (h : g.InStep setup w capacity as) {a : Addr} (ha : Public a) :
    Grid.InStep setup w capacity as
      { g with
        air := g.air ++ (handleGetResources (g.cluster.node a) a.port.toInt32 []).map
          fun m => (a.ip, m.message.text) } := by
  refine ⟨h.orderly, h.reached, h.modest, h.client, h.known, fun p hp => ?_⟩
  rcases List.mem_append.mp hp with hp | hp
  · exact h.air p hp
  · obtain ⟨b, hb⟩ := h.healthy
    refine announced_handleGetResources ha (fun r => ?_) p hp
    have hle : ((g.cluster.node a).avail r).toNat ≤ ((g.cluster.node a).total r).toNat :=
      (Nat.le_add_right _ _).trans ((hb.tracks.node a).committed r)
    rw [(hb.tracks.node a).total r] at hle
    exact UInt32.le_iff_toNat_le.mpr hle

/-! ## Commands -/

section Serve

variable {a : Arrival}

omit [DecidableEq C] in
/-- The agent reads a packet that is one line. -/
theorem foldl_lines {σ : Type} (patch : σ → List Char → σ) (s : σ) {packet line : List Char}
    (hsize : packet.length < bufferSize) (hnul : '\x00' ∉ packet) (hlines : lines packet = [line]) :
    handleClientMessage patch s (receiveTcpMessage packet) = patch s line := by
  rw [receiveTcpMessage, List.take_of_length_le (by omega), handleClientMessage_eq patch s hnul,
    hlines, List.foldl_cons, List.foldl_nil]

omit [DecidableEq C] in
theorem actions_command {d : Directive} {up : List Directive} (hup : (g.client c).up = d :: up)
    (hsize : d.packet.length < bufferSize) (hnul : '\x00' ∉ d.packet) {line : List Char}
    (hlines : lines d.packet = [line]) :
    g.actions (.command c a) = (lineAction c { a with line := line }).toList := by
  have hreceived : lines (cString (receiveTcpMessage d.packet ++ ['\x00'])) = [line] := by
    rw [receiveTcpMessage, List.take_of_length_le (by omega), cString_append hnul, hlines]
  rw [Grid.actions, hup]
  dsimp only
  rw [hreceived]
  cases haction : lineAction c { a with line := line } with
  | none => exact List.filterMap_cons_none haction
  | some action => exact List.filterMap_cons_some haction

theorem serve_of_lineAction {action : Action C} (h : lineAction c a = some action) :
    g.serve w c a = g.act w action := by
  rw [lineAction] at h
  rw [Grid.serve]
  split at h
  · cases h
  · rename_i hget
    rw [if_neg hget]
    split at h
    · rw [← Option.some.inj h]
    · rw [← Option.some.inj h]
    · cases h

omit [DecidableEq C] in
theorem lineAction_request (jobId : UInt32) {ts : List ResourceToken}
    (h : ∀ t ∈ ts, DottedQuad t.ip) : lineAction c { a with line := requestText jobId ts } =
      some (.jobRequest c a.now a.socket jobId ts) := by
  have hget : ¬ "GET_NODES".toList.isPrefixOf (requestText jobId ts) := by
    unfold requestText
    exact Bool.false_ne_true
  rw [lineAction, if_neg hget, scanLine_requestText a jobId h]

omit [DecidableEq C] in
theorem lineAction_release (jobId : UInt32) :
    lineAction c { a with line := releaseText jobId } = some (.jobRelease c jobId) := by
  have hget : ¬ "GET_NODES".toList.isPrefixOf (releaseText jobId) := by
    unfold releaseText
    exact Bool.false_ne_true
  rw [lineAction, if_neg hget, scanLine_releaseText a jobId]

end Serve

/-- The agent handles a directive of its client. -/
theorem command (h : g.InStep setup w capacity as) (henv : ∀ c, (setup c).env = .dev)
    {d : Directive} {up : List Directive} (hup : (g.client c).up = d :: up)
    (hsize : d.packet.length < bufferSize) (a : Arrival) :
    (handleClientMessage (fun g line => g.serve w c { a with line := line })
      (g.setClient c { g.client c with up := up }) (receiveTcpMessage d.packet)).InStep
        setup w capacity (as ++ g.actions (.command c a)) := by
  have hmem : d ∈ (g.client c).unread := by
    refine List.mem_append_right _ ?_
    rw [hup]
    exact List.mem_cons_self
  have hwell := (h.client c).sound.wellformed d hmem
  have hsmall := (h.client c).small d (hup ▸ List.mem_cons_self)
  obtain ⟨hpop, hrelease, hrequest⟩ := (h.client c).pop hup
  have hown : (g.setClient c { g.client c with up := up }).client c =
      { g.client c with up := up } := Function.update_self c _ g.client
  have h' := h.setClient hpop
  cases d with
  | getNodes =>
    have hnul : '\x00' ∉ Directive.getNodes.packet := by decide +kernel
    have hnone : lineAction c { a with line := "GET_NODES".toList } = none := if_pos rfl
    rw [foldl_lines _ _ hsize hnul lines_getNodes, actions_command hup hsize hnul lines_getNodes,
      hnone, Option.toList_none, List.append_nil]
    exact h'.nodes { a with line := "GET_NODES".toList }
  | jobDirective id kind packet =>
    have hid : id < 4294967295 := hsmall
    cases kind with
    | request =>
      have hasked : id ∈ (g.client c).unread.filterMap Directive.requestId :=
        List.mem_filterMap.mpr ⟨_, hmem, rfl⟩
      obtain ⟨k, hk, hvalue⟩ := (h.client c).sound.used id hasked
      obtain ⟨j, hj⟩ : ∃ j : UInt32, id = (j.toNat : ℤ) := by
        have hpos := (setup c).unique.positive k
        have hlt : id.toNat < UInt32.size := by
          show id.toNat < 4294967296
          omega
        refine ⟨UInt32.ofNat id.toNat, ?_⟩
        rw [UInt32.toNat_ofNat_of_lt' hlt]
        omega
      obtain ⟨k', nodes, hlisted, hdirective⟩ := hwell
      obtain ⟨ts, hservable, hpacket⟩ := exists_servable hlisted ((setup c).draws k')
        ((setup c).unique.value k')
      rw [requestDirective, henv c, hpacket] at hdirective
      simp only [Directive.jobDirective.injEq, true_and] at hdirective
      obtain ⟨hvalue', rfl⟩ := hdirective
      subst hj
      rw [← hvalue'] at hup hsize ⊢
      obtain ⟨hnul, hlines⟩ := lines_request j hservable.quads
      have haction := lineAction_request (c := c) (a := a) j hservable.quads
      rw [foldl_lines _ _ hsize hnul hlines, serve_of_lineAction haction,
        actions_command hup hsize hnul hlines, haction, Option.toList_some]
      refine h'.jobRequest a.now a.socket j hservable ?_ ?_ ?_ ?_
      · rintro rfl
        exact absurd hid (by decide)
      · rw [hown]
        exact ⟨k, hk, hvalue⟩
      · by_contra hold
        exact ((h.client c).sound.asked _ ⟨j, rfl, hold⟩).2 hasked
      · rw [hown]
        exact hrequest _ rfl
    | release =>
      have hclaimed : id ∈ (g.client c).claims :=
        List.mem_append_right _ (List.mem_filterMap.mpr ⟨_, hmem, rfl⟩)
      obtain ⟨j, rfl, hgranted⟩ := (h.client c).granted id hclaimed
      have hpacket : packet = jobReleaseLine j.toNat := hwell
      subst hpacket
      have hnul := nul_notMem_jobReleaseLine j
      have hlines := lines_jobReleaseLine j
      have haction := lineAction_release (c := c) (a := a) j
      rw [foldl_lines _ _ hsize hnul hlines, serve_of_lineAction haction,
        actions_command hup hsize hnul hlines, haction, Option.toList_some]
      refine h'.jobRelease hgranted ?_
      rw [hown]
      exact hrelease _ rfl

/-! ## Steps and runs -/

theorem step (h : g.InStep setup w capacity as) (henv : ∀ c, (setup c).env = .dev)
    {e : GridEvent C} (he : g.Ordinary w e) :
    (gridStep setup w g e).InStep setup w capacity (as ++ g.actions e) := by
  cases e with
  | client c e =>
    rw [Grid.actions, List.append_nil]
    refine h.setClient ((h.client c).move (clientMove (setup c) (g.client c) e) fun d hd => ?_)
    cases e with
    | receive | execute i | notify i | requestNodes | stateTick => exact (h.client c).small d hd
    | recv =>
      rw [clientStep] at hd
      split at hd <;> exact (h.client c).small d hd
    | send =>
      rw [clientStep] at hd
      split at hd
      · exact (h.client c).small d hd
      · rename_i directive outgoing hout
        rcases List.mem_append.mp hd with hd | hd
        · exact (h.client c).small d hd
        · rw [List.mem_singleton.mp hd]
          exact he directive (by rw [hout]; rfl)
  | command c a =>
    rw [gridStep]
    split
    · rename_i hup
      rw [Grid.actions, hup, List.append_nil]
      exact h
    · rename_i directive up hup
      exact h.command henv hup (he directive (by rw [hup]; rfl)) a
  | timeout c now => exact h.timeout he
  | deliver i rand =>
    rw [gridStep, Grid.actions]
    split
    · rename_i hi
      exact h.deliver he hi
    · rw [List.append_nil]
      exact h
  | announce a =>
    rw [Grid.actions, List.append_nil]
    exact h.announce he
  | hear c now i =>
    rw [gridStep, Grid.actions, List.append_nil]
    split
    · exact h
    · rename_i senderIp text hp
      exact h.hear hp

theorem initial (setup : C → Setup) (w : Wiring C) (capacity : Addr → Resource → UInt32) :
    (Grid.initial capacity : Grid C).InStep setup w capacity [] where
  orderly := trivial
  reached := rfl
  modest := ⟨fun _ _ _ h => (nomatch h), fun _ _ _ => List.not_mem_nil⟩
  client c := by
    refine ⟨⟨fun _ hline => absurd hline List.not_mem_nil, fun packet hpacket => ?_,
      fun _ hd => absurd hd List.not_mem_nil, List.nodup_nil, fun _ hid => absurd hid List.not_mem_nil,
      ?_⟩, fun _ hd => absurd hd List.not_mem_nil, fun _ => Nat.zero_le 1,
      fun _ hid => absurd hid List.not_mem_nil, fun _ hline => absurd hline List.not_mem_nil⟩
    · have hmem : Term.packetReceived packet ∈ [Term.receiverPid 0, .senderPid 1] := hpacket
      simp at hmem
    · rintro _ ⟨j, _, hj⟩
      exact absurd rfl hj
  known c node hnode := by
    have hnil : (createKnownNodes).datos = [] := HashTable.Tabla.datos_nuevo 11 _
    rw [show (Grid.initial capacity : Grid C).directory c = createKnownNodes from rfl, hnil] at hnode
    exact absurd hnode List.not_mem_nil
  air _ hp := absurd hp List.not_mem_nil

theorem trace (henv : ∀ c, (setup c).env = .dev) :
    ∀ {es : List (GridEvent C)} {as : List (Action C)} {g : Grid C},
      g.InStep setup w capacity as → Along (gridStep setup w) (Grid.Ordinary w) g es →
        (Library.Runs.run (gridStep setup w) g es).InStep setup w capacity
          (as ++ g.trace setup w es)
  | [], _, _, h, _ => by
    rw [Grid.trace, List.append_nil]
    exact h
  | _ :: _, _, _, h, hordinary => by
    rw [Grid.trace, ← List.append_assoc]
    exact trace henv (h.step henv hordinary.1) hordinary.2

theorem run (henv : ∀ c, (setup c).env = .dev) {es : List (GridEvent C)}
    (h : Along (gridStep setup w) (Grid.Ordinary w) (Grid.initial capacity) es) :
    (Library.Runs.run (gridStep setup w) (Grid.initial capacity) es).InStep setup w capacity
      ((Grid.initial capacity).trace setup w es) :=
  trace henv (initial setup w capacity) h

end Grid.InStep

end ResourceManager
