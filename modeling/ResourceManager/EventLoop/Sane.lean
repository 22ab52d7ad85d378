import ResourceManager.EventLoop.Discipline

/-!
# What all steps of the event loop keep

Whatever the threads do, the timers and the listeners stay armed, and no task and no worker is
about them.
-/

namespace ResourceManager

open Library.BoundedFifo Library.Runs

variable {n : ℕ} {c : ServerFds} {s : EventLoop n}

namespace EventLoop

theorem neg_one_mem_own : (-1 : Int32) ∈ s.own c := List.mem_cons_self

theorem notMem_own {fd : Int32} (hreal : fd ≠ -1) (htcp : fd ≠ s.tcpTimerFd)
    (hudpTimer : fd ≠ c.udpTimerFd) (hgc : fd ≠ c.gcTimerFd)
    (hlistener : ¬(fd = c.tcpPublicFd ∨ fd = c.erlangTcpFd)) : fd ∉ s.own c := by
  rintro hfd
  simp only [own, List.mem_cons, List.not_mem_nil, or_false] at hfd
  tauto

/-! ## Registrations -/

theorem allowed_rearm {list : InterestList} {own : List Int32} {udpFd fd : Int32}
    (h : ∀ x i, list x = some i → i.Allowed own udpFd x) (hreal : (-1 : Int32) ∈ own)
    (hfd : fd ∉ own) : ∀ x i, rearmEpollFd list fd x = some i → i.Allowed own udpFd x := by
  intro x i hx
  unfold rearmEpollFd at hx
  cases hlist : list fd with
  | none =>
    rw [hlist] at hx
    exact h x i hx
  | some j =>
    rw [hlist] at hx
    dsimp only at hx
    rw [Function.update_apply] at hx
    split at hx
    · rename_i he
      cases hx
      subst he
      exact ⟨fun he => hfd (he ▸ hreal), fun _ => rfl, fun _ => ⟨rfl, hfd⟩, fun ho => by cases ho⟩
    · exact h x i hx

theorem allowed_remove {list : InterestList} {own : List Int32} {udpFd fd : Int32}
    (h : ∀ x i, list x = some i → i.Allowed own udpFd x) :
    ∀ x i, removeFromEpollInterestList list fd x = some i → i.Allowed own udpFd x := by
  intro x i hx
  unfold removeFromEpollInterestList at hx
  rw [Function.update_apply] at hx
  split at hx
  · cases hx
  · exact h x i hx

theorem allowed_add {list : InterestList} {own : List Int32} {udpFd fd : Int32} {events : Interest}
    (h : ∀ x i, list x = some i → i.Allowed own udpFd x) (hfd : events.Allowed own udpFd fd) :
    ∀ x i, addToEpollInterestList list fd events x = some i → i.Allowed own udpFd x := by
  intro x i hx
  unfold addToEpollInterestList at hx
  cases hlist : list fd with
  | some j =>
    rw [hlist] at hx
    exact h x i hx
  | none =>
    rw [hlist] at hx
    dsimp only at hx
    rw [Function.update_apply] at hx
    split at hx
    · rename_i he
      cases hx
      exact he ▸ hfd
    · exact h x i hx

/-! ## Sane states -/

namespace Sane

variable (h : s.Sane c)

include h

theorem udp_notMem_own : c.udpFd ∉ s.own c := by
  have hdistinct := c.distinct
  have htimer := h.tcpTimer
  simp only [List.nodup_cons, List.mem_cons, List.not_mem_nil, not_or] at hdistinct htimer
  simp only [own, List.mem_cons, List.not_mem_nil, not_or]
  grind

/-- The descriptors of the timers and the listeners are never disarmed. -/
theorem own_armed {fd : Int32} (hfd : fd ∈ s.own c) : s.disarmed fd = false := by
  unfold disarmed
  cases hi : s.interest fd with
  | none => rfl
  | some i =>
    have hallowed := h.registered fd i hi
    rw [Option.any_some, Bool.not_eq_false']
    by_contra harmed
    exact (hallowed.oneshot (hallowed.disarmed (Bool.eq_false_iff.mpr harmed))).2 hfd

theorem withInterest {list : InterestList}
    (hlist : ∀ fd i, list fd = some i → i.Allowed (s.own c) c.udpFd fd) :
    Sane c { s with interest := list } :=
  ⟨h.queue, h.tcpTimer, hlist, h.nodup, h.real, h.outputs, h.tasks, h.workers⟩

theorem push {task : WorkerTask} (htask : ∀ fd ∈ task.subject c, fd ∉ s.own c) :
    (s.push task).Sane c := by
  obtain ⟨hholds, hwaiting⟩ := waiting_push h.queue task
  refine ⟨hholds, h.tcpTimer, h.registered, h.nodup, h.real, h.outputs, fun t ht => ?_, h.workers⟩
  rw [show (s.push task).queue.waiting = _ from hwaiting] at ht
  split at ht
  · rcases List.mem_append.mp ht with ht | ht
    · exact h.tasks t ht
    · rw [List.mem_singleton.mp ht]
      exact htask
  · exact h.tasks t ht

theorem setPhase (w : Fin n) {phase : WorkerPhase} (hphase : ∀ fd ∈ phase.about c, fd ∉ s.own c) :
    (s.setPhase w phase).Sane c := by
  refine ⟨h.queue, h.tcpTimer, h.registered, h.nodup, h.real, h.outputs, h.tasks,
    fun w' fd hfd => ?_⟩
  change fd ∈ (Function.update s.phase w phase w').about c at hfd
  rw [Function.update_apply] at hfd
  split at hfd
  · exact hphase fd hfd
  · exact h.workers w' fd hfd

/-- The rest of the batch. -/
theorem rest {e : EpollEvent} {batch : List EpollEvent} (hbatch : s.batch = e :: batch) :
    Sane c { s with batch := batch } := by
  have hmem : ∀ e' ∈ batch, e' ∈ s.batch := fun e' he' => hbatch ▸ List.mem_cons_of_mem e he'
  have hnodup := h.nodup
  rw [hbatch, List.map_cons] at hnodup
  exact ⟨h.queue, h.tcpTimer, h.registered, (List.nodup_cons.mp hnodup).2,
    fun e' he' => h.real e' (hmem e' he'), fun e' he' => h.outputs e' (hmem e' he'), h.tasks,
    h.workers⟩

theorem handleTcpTimerExpiration : (s.handleTcpTimerExpiration c).Sane c := by
  have hsub : ∀ fd, fd ∉ s.own c → fd ∉ (s.handleTcpTimerExpiration c).own c := by
    intro fd hfd
    simp only [own, EventLoop.handleTcpTimerExpiration, List.mem_cons, List.not_mem_nil, not_or,
      or_false] at hfd ⊢
    exact ⟨hfd.1, hfd.1, hfd.2.2⟩
  have hdistinct := c.distinct
  simp only [List.nodup_cons, List.mem_cons, List.not_mem_nil, not_or, or_false] at hdistinct
  have hinput : ∀ fd, fd ≠ -1 →
      Interest.input.Allowed ((s.handleTcpTimerExpiration c).own c) c.udpFd fd := fun fd hfd =>
    ⟨hfd, fun he => (by cases he), fun he => (by cases he), fun he => (by cases he)⟩
  have hold : ∀ fd i, s.interest fd = some i →
      i.Allowed ((s.handleTcpTimerExpiration c).own c) c.udpFd fd := by
    intro fd i hi
    obtain ⟨hreal, hdisarmed, honeshot, houtput⟩ := h.registered fd i hi
    exact ⟨hreal, hdisarmed, fun he => ⟨(honeshot he).1, hsub fd (honeshot he).2⟩,
      fun he => ⟨hsub fd (houtput he).1, (houtput he).2⟩⟩
  refine ⟨h.queue, ?_, ?_, h.nodup, h.real,
    fun e he ho => ⟨hsub _ (h.outputs e he ho).1, (h.outputs e he ho).2⟩,
    fun t ht fd hfd => hsub fd (h.tasks t ht fd hfd), fun w fd hfd => hsub fd (h.workers w fd hfd)⟩
  · simp only [EventLoop.handleTcpTimerExpiration, List.mem_cons, List.not_mem_nil, not_or,
      or_false]
    tauto
  · exact allowed_add (allowed_add (allowed_remove hold) (hinput _ (Ne.symm hdistinct.1.1)))
      (hinput _ (Ne.symm hdistinct.1.2.1))

theorem handleNewTcpConnection {clientFd : Int32} (hfd : clientFd ≠ -1 → s.Unused c clientFd) :
    (s.handleNewTcpConnection clientFd).Sane c := by
  unfold EventLoop.handleNewTcpConnection
  split
  · rename_i hvalid
    have hown := (hfd hvalid.1).2.1
    refine h.withInterest (allowed_add h.registered
      ⟨hvalid.1, fun _ => rfl, fun _ => ⟨rfl, hown⟩, ?_⟩)
    intro ho
    cases ho
  · exact h

theorem handleConnectionSuccess {currFd : Int32} (hfd : currFd ∉ s.own c) (connected : Bool) :
    (s.handleConnectionSuccess currFd connected).Sane c := by
  unfold EventLoop.handleConnectionSuccess
  split
  · exact h.withInterest (allowed_rearm h.registered neg_one_mem_own hfd)
  · exact h.withInterest (allowed_remove h.registered)

theorem dispatchEvent {e : EpollEvent} (hreal : e.fd ≠ -1) {clientFd : Int32}
    (hfd : clientFd ≠ -1 → s.Unused c clientFd) (connected : Bool) :
    (s.dispatchEvent c e clientFd connected).Sane c := by
  unfold EventLoop.dispatchEvent
  split
  · exact h.handleTcpTimerExpiration
  rename_i htcp
  split
  · exact h.push fun fd he => by cases he
  rename_i hudpTimer
  split
  · exact h.push fun fd he => by cases he
  rename_i hgc
  split
  · refine h.push fun fd he => ?_
    cases he
    exact h.udp_notMem_own
  split
  · exact h.handleNewTcpConnection hfd
  rename_i hlistener
  have hown : e.fd ∉ s.own c := notMem_own hreal htcp hudpTimer hgc hlistener
  dsimp only
  have hinput : EventLoop.Sane c (if e.input = true then s.push ⟨e.fd, .tcpClientMsg⟩ else s) ∧
      e.fd ∉ (if e.input = true then s.push ⟨e.fd, .tcpClientMsg⟩ else s).own c := by
    split
    · refine ⟨h.push fun fd he => ?_, hown⟩
      cases he
      exact hown
    · exact ⟨h, hown⟩
  split
  · exact hinput.1.handleConnectionSuccess hinput.2 connected
  · exact hinput.1

theorem wait {ready : List EpollEvent} (hkernel : Kernel c s (.wait ready)) :
    (loopStep c s (.wait ready)).Sane c := by
  obtain ⟨-, hnodup, hready⟩ := hkernel
  refine ⟨h.queue, h.tcpTimer, fun fd i hi => ?_, hnodup, fun e he => ?_, fun e he ho => ?_,
    h.tasks, h.workers⟩
  · dsimp only [loopStep] at hi
    split at hi
    · obtain ⟨j, hj, rfl⟩ := Option.map_eq_some_iff.mp hi
      have hallowed := h.registered fd j hj
      unfold Interest.reported
      split
      · rename_i honeshot
        exact ⟨hallowed.real, fun _ => honeshot, hallowed.oneshot, hallowed.output⟩
      · exact hallowed
    · exact h.registered fd i hi
  · obtain ⟨i, hi, -⟩ := hready e he
    exact (h.registered e.fd i hi).real
  · obtain ⟨i, hi, -, -, hout⟩ := hready e he
    exact (h.registered e.fd i hi).output (hout ho)

/-- A worker takes the first task. -/
theorem take (w : Fin n) : (s.take w).Sane c := by
  unfold EventLoop.take
  split
  · rcases waiting_pop h.queue with hnone | ⟨task, waiting, hwaiting, hout, hholds, heq⟩
    · split
      · rename_i hpop
        rw [hpop] at hnone
        cases hnone
      · exact h
    · split
      · rename_i queue _ hpop
        rw [hpop] at hout hholds heq
        cases hout
        have hqueue : Sane c { s with queue := queue } :=
          ⟨hholds, h.tcpTimer, h.registered, h.nodup, h.real, h.outputs,
            fun t ht => h.tasks t (hwaiting ▸ List.mem_cons_of_mem task (heq ▸ ht)), h.workers⟩
        exact hqueue.setPhase w (h.tasks task (hwaiting ▸ List.mem_cons_self))
      · exact h
  · exact h

theorem close (w : Fin n) : (s.close w).Sane c := by
  unfold EventLoop.close
  split
  · rename_i fd hw
    refine (h.withInterest (allowed_remove h.registered)).setPhase w fun x hx => ?_
    cases hx
    exact h.workers w fd (by rw [hw]; rfl)
  · exact h

theorem closeZombie (w : Fin n) (zombieFd : Int32) : (s.closeZombie w zombieFd).Sane c := by
  unfold EventLoop.closeZombie
  split
  · exact h.withInterest (allowed_remove h.registered)
  · exact h

theorem finish (w : Fin n) : (s.finish c w).Sane c := by
  unfold EventLoop.finish
  split
  · rename_i fd hw
    refine h.setPhase w fun x hx => ?_
    cases hx
    exact h.workers w fd (by rw [hw]; rfl)
  · refine h.setPhase w fun x hx => ?_
    cases hx
    exact h.udp_notMem_own
  · exact h.setPhase w fun x hx => by cases hx
  · exact h

theorem rearm (w : Fin n) : (s.rearm w).Sane c := by
  unfold EventLoop.rearm
  split
  · rename_i fd hw
    have hfd := h.workers w fd (by rw [hw]; rfl)
    exact (h.withInterest (allowed_rearm h.registered neg_one_mem_own hfd)).setPhase w
      fun x hx => by cases hx
  · rename_i fd hw
    have hfd := h.workers w fd (by rw [hw]; rfl)
    exact (h.withInterest (allowed_rearm h.registered neg_one_mem_own hfd)).setPhase w
      fun x hx => by cases hx
  · exact h

theorem connect {newFd : Int32} (hfd : newFd ≠ -1 → s.Unused c newFd) :
    (s.connect newFd).Sane c := by
  unfold EventLoop.connect
  split
  · rename_i hvalid
    have hunused := (hfd hvalid.1).2
    refine h.withInterest (allowed_add h.registered ⟨hvalid.1, fun he => ?_, fun he => ?_,
      fun _ => hunused⟩)
    · cases he
    · cases he
  · exact h

theorem step {e : LoopEvent n} (hkernel : Kernel c s e) : (loopStep c s e).Sane c := by
  cases e with
  | wait ready => exact h.wait hkernel
  | dispatch clientFd connected =>
    unfold loopStep
    dsimp only
    split
    · exact h
    · rename_i e batch hbatch
      exact (h.rest hbatch).dispatchEvent (h.real e (hbatch ▸ List.mem_cons_self)) hkernel connected
  | connect newFd => exact h.connect hkernel
  | take w => exact h.take w
  | close w => exact h.close w
  | closeZombie w zombieFd => exact h.closeZombie w zombieFd
  | finish w => exact h.finish w
  | rearm w => exact h.rearm w

end Sane

end EventLoop

end ResourceManager
