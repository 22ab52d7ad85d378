import ResourceManager.Cluster.Represents

/-!
# The cluster and the lives of its jobs

`Tracks w R s b`: every job of the cluster `s` is in the state that `b` gives, and the
inventories of the nodes are in order. A step that concerns one job moves this job by a step
of its life cycle and leaves the others (`Tracks.update`).
-/

namespace ResourceManager

open HashTable LocalNode

variable {C : Type} {w : Wiring C} {R : Rules}

/-! ## Messages about one job -/

theorem about_rollbackMsgs (c : C) (notice : Option (UInt32 → Message)) (jobs : OwnedJobs)
    (j : UInt32) : ∀ pkt ∈ sent c (rollbackMsgs (fun _ => false) notice jobs j),
      pkt.About (c, j) := by
  intro pkt hpkt
  rw [sent_rollbackMsgs] at hpkt
  obtain ⟨p, _, rfl⟩ := List.mem_map.mp hpkt
  rintro y (hy | hy)
  · cases hy
  · exact (Option.some.inj hy).symm

theorem about_toFd (w : Wiring C) (a : Addr) (c : C) {j : UInt32} {m : Message}
    (hm : (Packet.reply a c m).About (c, j)) :
    ∀ pkt ∈ replies w a [.toFd (w.sock a c) m], pkt.About (c, j) := by
  intro pkt hpkt
  rw [replies_toFd] at hpkt
  rw [List.mem_singleton.mp hpkt]
  exact hm

theorem about_granted (a : Addr) (c : C) {j : UInt32} {n : Int} (hn : scanUnsigned n = j) :
    (Packet.reply a c (.granted n)).About (c, j) := by
  rintro y (hy | hy)
  · rw [Packet.token, hn] at hy
    exact (Option.some.inj hy).symm
  · cases hy

theorem about_denied (a : Addr) (c : C) (j : UInt32) :
    (Packet.reply a c (.denied j)).About (c, j) := by
  rintro y (hy | hy)
  · exact (Option.some.inj hy).symm
  · cases hy

theorem about_reserve (a : Addr) (c : C) (j : UInt32) (t : Resource) (q : UInt32) :
    (Packet.request c a (.reserve j t q)).About (c, j) := by
  rintro y (hy | hy)
  · exact (Option.some.inj hy).symm
  · cases hy

/-- The end of a job is not a JOB_GRANTED. -/
theorem granted_not_mem_rollbackMsgs (c c' : C) {notice : Option (UInt32 → Message)}
    (hnotice : ∀ msg ∈ notice, ∀ i j, msg i ≠ .jobGranted j) (jobs : OwnedJobs) (i j : UInt32) :
    (c', .jobGranted j) ∉ notices c (rollbackMsgs (fun _ => false) notice jobs i) := by
  intro hmem
  obtain ⟨m, hm, he⟩ := List.mem_filterMap.mp hmem
  split at he
  · rename_i hip
    simp only [Option.some.injEq, Prod.mk.injEq] at he
    rcases List.mem_append.mp hm with hm | hm
    · obtain ⟨p, _, rfl⟩ := List.mem_map.mp hm
      cases hip
    · obtain ⟨msg, hmsg, rfl⟩ := List.mem_map.mp hm
      exact hnotice msg (by simpa using hmsg) i j he.2
  · cases he

/-! ## Nodes -/

/-- The inventory of the node at `a` is in order, and coordinators made its requests. -/
structure NodeOk (w : Wiring C) (R : Rules) (a : Addr) (n : LocalNode) : Prop where
  committed : n.Committed
  total : ∀ t, n.total t = R.total ⟨a, t⟩
  sockets : ∀ t, ∀ r ∈ n.queue t, ∃ c, r.socket = w.sock a c

namespace NodeOk

variable {a : Addr} {n n' : LocalNode}

theorem moves (h : NodeOk w R a n) (hm : Moves n n')
    (hq : ∀ t, ∀ r ∈ n'.queue t, r ∈ n.queue t ∨ ∃ c, r.socket = w.sock a c) : NodeOk w R a n' where
  committed := hm.committed h.committed
  total t := (hm.total t).trans (h.total t)
  sockets t r hr := by
    rcases hq t r hr with hr | hr
    · exact h.sockets t r hr
    · exact hr

theorem take (h : NodeOk w R a n) {q : UInt32} {t : Resource} (hq : q ≤ n.avail t)
    (j k : UInt32) : NodeOk w R a (n.take j k q t) :=
  h.moves (.single (.take n j k q t hq)) fun _ _ hr => Or.inl hr

theorem enqueue (h : NodeOk w R a n) (c : C) (j q : UInt32) (t : Resource) :
    NodeOk w R a (n.setQueue t (n.queue t ++ [⟨j, w.sock a c, q, t⟩])) := by
  refine h.moves (.single (.setQueue n t _)) fun u r hr => ?_
  rw [LocalNode.queue, queue_setQueue] at hr
  split at hr
  · rename_i hu
    subst hu
    rcases List.mem_append.mp hr with hr | hr
    · exact Or.inl hr
    · rw [List.mem_singleton.mp hr]
      exact Or.inr ⟨c, rfl⟩
  · exact Or.inl hr

theorem delActiveJob (h : NodeOk w R a n) (j k : UInt32) :
    NodeOk w R a (ResourceManager.delActiveJob n j k) := by
  have hreclaimed := reclaimed_delActiveJob h.committed j k
  refine h.moves hreclaimed.moves fun t r hr => Or.inl ?_
  rw [← hreclaimed.queue]
  exact hr

theorem grantQueued (h : NodeOk w R a n) {t : Resource} {r : ElemJobRequest}
    (hfit : firstFitting (n.avail t) (n.queue t) = some r) :
    NodeOk w R a (ResourceManager.grantQueued n t r) :=
  h.moves (.head (.take _ _ _ _ _ (firstFitting_some hfit).2) (.single (.setQueue _ _ _)))
    fun u _ hr => Or.inl ((queue_grantQueued_sublist n t u r).subset hr)

end NodeOk

/-! ## The relation -/

variable [DecidableEq C]

/-- Every job of the cluster `s` is where `b` says. -/
structure Tracks (w : Wiring C) (R : Rules) (s : Cluster C) (b : C × UInt32 → JobState) :
    Prop where
  node : ∀ a, NodeOk w R a (s.node a)
  job : ∀ c j, Represents w s c j (b (c, j))
  sound : ∀ x, Sound R (b x)
  told : ∀ c j, (c, .jobGranted j) ∈ s.told →
    (b (c, j)).present = true ∧ (b (c, j)).done = (b (c, j)).petitions.length

/-- The jobs have moved, and the cluster `s'` shows them there. -/
def Advances (w : Wiring C) (R : Rules) (b : C × UInt32 → JobState) (s' : Cluster C) : Prop :=
  ∃ b', Tracks w R s' b' ∧ ∀ x, JobSteps R (b x) (b' x)

theorem jobSteps_update {b : C × UInt32 → JobState} {x : C × UInt32} {b₁ : JobState}
    (h : JobSteps R (b x) b₁) (y : C × UInt32) : JobSteps R (b y) (Function.update b x b₁ y) := by
  by_cases hy : y = x
  · subst hy
    rw [Function.update_self]
    exact h
  · rw [Function.update_of_ne hy]

namespace Advances

variable {b : C × UInt32 → JobState} {s' : Cluster C}

theorem of_update {x : C × UInt32} {b₁ : JobState} (hstep : JobStep R (b x) b₁)
    (h : Advances w R (Function.update b x b₁) s') : Advances w R b s' := by
  obtain ⟨b', htracks, hsteps⟩ := h
  exact ⟨b', htracks, fun y => (jobSteps_update (.single hstep) y).trans (hsteps y)⟩

end Advances

namespace Tracks

variable {s s' : Cluster C} {b : C × UInt32 → JobState} {c : C} {j : UInt32}

theorem advances (h : Tracks w R s b) : Advances w R b s := ⟨b, h, fun _ => .refl⟩

/-- One job has taken a step. -/
theorem update (h : Tracks w R s b) {b₁ : JobState} (hstep : JobStep R (b (c, j)) b₁)
    (hown : Represents w s' c j b₁)
    (hother : ∀ c' j', (c', j') ≠ (c, j) → SameView w s s' c' j')
    (hnode : ∀ a, NodeOk w R a (s'.node a))
    (htold : ∀ c' j', (c', .jobGranted j') ∈ s'.told →
      (c', j') = (c, j) ∧ b₁.present = true ∧ b₁.done = b₁.petitions.length) :
    Tracks w R s' (Function.update b (c, j) b₁) where
  node := hnode
  job c' j' := by
    by_cases hx : (c', j') = (c, j)
    · obtain ⟨rfl, rfl⟩ := Prod.mk.inj hx
      rw [Function.update_self]
      exact hown
    · rw [Function.update_of_ne hx]
      exact (h.job c' j').frame (hother c' j' hx)
  sound x := by
    by_cases hx : x = (c, j)
    · subst hx
      rw [Function.update_self]
      exact (h.sound _).step hstep
    · rw [Function.update_of_ne hx]
      exact h.sound x
  told c' j' hmem := by
    obtain ⟨hx, hpresent, hdone⟩ := htold c' j' hmem
    rw [hx, Function.update_self]
    exact ⟨hpresent, hdone⟩

/-- No job has taken a step. -/
theorem frame (h : Tracks w R s b) (hview : ∀ c j, SameView w s s' c j)
    (hnode : ∀ a, NodeOk w R a (s'.node a)) (htold : ∀ c j, (c, .jobGranted j) ∉ s'.told) :
    Tracks w R s' b where
  node := hnode
  job c j := (h.job c j).frame (hview c j)
  sound := h.sound
  told c j hmem := absurd hmem (htold c j)

theorem nodeOk_atNode (h : Tracks w R s b) {a : Addr} {result : LocalNode × List OutMsg}
    (hn : NodeOk w R a result.1) (a' : Addr) : NodeOk w R a' ((s.atNode w a result).node a') := by
  show NodeOk w R a' (Function.update s.node a result.1 a')
  by_cases ha : a' = a
  · subst ha
    rw [Function.update_self]
    exact hn
  · rw [Function.update_of_ne ha]
    exact h.node a'

end Tracks

end ResourceManager
