import ResourceManager.EventLoop.Sane

/-!
# When a step of the event loop keeps the discipline

A step leads from a disciplined state to a disciplined one exactly when it is clean, which is
shown for each step by what it does to the descriptors that are disarmed and to what is
outstanding.
-/

namespace ResourceManager

open Library.BoundedFifo Library.Runs

variable {n : ℕ} {c : ServerFds} {s : EventLoop n}

namespace EventLoop

theorem Disciplined.le_one (hs : s.Disciplined c) (fd : Int32) : s.outstanding c fd ≤ 1 :=
  (hs.one fd).trans_le (Bool.toNat_le _)

theorem Disciplined.disarmed_iff (hs : s.Disciplined c) (fd : Int32) :
    s.disarmed fd = true ↔ 1 ≤ s.outstanding c fd := by
  rw [hs.one fd]
  cases s.disarmed fd <;> decide

/-- What a worker is about is disarmed. -/
theorem Disciplined.worker (hs : s.Disciplined c) {w : Fin n} {fd : Int32}
    (hw : (s.phase w).subject c = some fd) : s.outstanding c fd = 1 ∧ s.disarmed fd = true := by
  have hle := le_outstanding (c := c) w hw
  exact ⟨le_antisymm (hs.le_one fd) hle, (hs.disarmed_iff fd).mpr hle⟩

/-- A step that only arms `fd`. -/
theorem arm_iff {s' : EventLoop n} (hs : s.Disciplined c) {fd : Int32}
    (hout : ∀ fd', s'.outstanding c fd' = s.outstanding c fd')
    (hdisarmed : ∀ fd', s'.disarmed fd' = if fd' = fd then false else s.disarmed fd')
    (hapart : ∀ e ∈ s'.batch, e.output = true → s'.subject c e = none) :
    s'.Disciplined c ↔ s.disarmed fd = false := by
  constructor
  · intro hs'
    have hnone := hs'.one fd
    rw [hdisarmed fd, if_pos rfl, hout fd, hs.one fd] at hnone
    exact Bool.toNat_eq_zero.mp hnone
  · intro harmed
    refine ⟨fun fd' => ?_, hapart⟩
    rw [hout, hdisarmed, hs.one fd']
    split
    · rename_i he
      rw [he, harmed]
    · rfl

/-- A step that arms `fd` and has done what there was to do about it. -/
theorem settle {s' : EventLoop n} (hs : s.Disciplined c) {fd : Int32}
    (hone : s.outstanding c fd = 1)
    (hout : ∀ fd', s'.outstanding c fd' + (if fd' = fd then 1 else 0) = s.outstanding c fd')
    (hdisarmed : ∀ fd', s'.disarmed fd' = if fd' = fd then false else s.disarmed fd')
    (hapart : ∀ e ∈ s'.batch, e.output = true → s'.subject c e = none) : s'.Disciplined c := by
  refine ⟨fun fd' => ?_, hapart⟩
  have hfd' := hout fd'
  rw [hdisarmed fd']
  split at hfd'
  · rename_i he
    rw [if_pos he, Bool.toNat_false]
    subst he
    omega
  · rename_i hne
    rw [if_neg hne, ← hs.one fd']
    exact hfd'

theorem fd_eq {e : EpollEvent} {fd : Int32} (he : s.subject c e = some fd) : e.fd = fd := by
  unfold subject at he
  split at he
  · cases he
  split at he
  · exact Option.some_inj.mp he
  · cases he

theorem subject_eq {e : EpollEvent} (he : s.subject c e ≠ none) : s.subject c e = some e.fd := by
  obtain ⟨fd, hsome⟩ := Option.ne_none_iff_exists'.mp he
  rw [hsome, fd_eq hsome]

/-! ## Workers -/

theorem outstanding_setPhase (w : Fin n) (p : WorkerPhase) (fd : Int32) :
    (s.setPhase w p).outstanding c fd + (if (s.phase w).subject c = some fd then 1 else 0) =
      s.outstanding c fd + if p.subject c = some fd then 1 else 0 := by
  have hsum := sum_setPhase (c := c) s.phase w p fd
  rw [count_toList, count_toList] at hsum
  have hattended : (s.setPhase w p).attended c fd =
      ∑ w', ((Function.update s.phase w p w').subject c).toList.count fd := rfl
  have hout : (s.setPhase w p).outstanding c fd =
      s.reported c fd + s.queued c fd + (s.setPhase w p).attended c fd := rfl
  rw [hout, hattended, outstanding, attended]
  omega

/-- The first task is taken from the queue. -/
theorem disciplined_taken (hs : s.Disciplined c) {w : Fin n} (hw : s.phase w = .waiting)
    {task : WorkerTask} {queue : TaskQueue} (hwaiting : s.queue.waiting = task :: queue.waiting) :
    (setPhase { s with queue := queue } w (.serving task)).Disciplined c := by
  refine ⟨fun fd => ?_, hs.apart⟩
  let taken : EventLoop n := { s with queue := queue }
  have hphase := outstanding_setPhase (c := c) (s := taken) w (.serving task) fd
  have hsubject : (taken.phase w).subject c = none := congrArg (WorkerPhase.subject c) hw
  have hqueued : s.queued c fd =
      (if task.subject c = some fd then 1 else 0) + taken.queued c fd := by
    unfold queued
    rw [hwaiting, count_filterMap_cons, count_toList]
  have htaken : taken.outstanding c fd =
      s.reported c fd + taken.queued c fd + s.attended c fd := rfl
  have hone := hs.one fd
  rw [outstanding] at hone
  rw [hsubject, if_neg (by simp), WorkerPhase.subject] at hphase
  show (taken.setPhase w (.serving task)).outstanding c fd = (s.disarmed fd).toNat
  omega

/-- What the first task is about is now what the worker is about. -/
theorem disciplined_take (h : s.Sane c) (hs : s.Disciplined c) (w : Fin n) :
    (s.take w).Disciplined c := by
  unfold EventLoop.take
  split
  · rename_i hw
    rcases waiting_pop h.queue with hnone | ⟨task, waiting, hwaiting, hout, -, heq⟩
    · split
      · rename_i hpop
        rw [hpop] at hnone
        cases hnone
      · exact hs
    · split
      · rename_i queue _ hpop
        rw [hpop] at hout heq
        cases hout
        rw [← heq] at hwaiting
        exact disciplined_taken hs hw hwaiting
      · exact hs
  · exact hs

/-- A worker is done with `fd`, for which it changes the interest list. -/
theorem disciplined_done (hs : s.Disciplined c) {w : Fin n} {fd : Int32} {list : InterestList}
    {phase : WorkerPhase} (hw : (s.phase w).subject c = some fd) (hphase : phase.subject c = none)
    (hlist : ∀ fd', (list fd').any (fun i => !i.armed) =
      if fd' = fd then false else s.disarmed fd') :
    (setPhase { s with interest := list } w phase).Disciplined c := by
  refine settle hs (hs.worker hw).1 (fun fd' => ?_) hlist hs.apart
  let armed : EventLoop n := { s with interest := list }
  have hsum := outstanding_setPhase (c := c) (s := armed) w phase fd'
  have hw' : (armed.phase w).subject c = some fd := hw
  have hsame : armed.outstanding c fd' = s.outstanding c fd' := rfl
  rw [hw', hphase, hsame] at hsum
  rw [if_congr (Option.some_inj.trans eq_comm) rfl rfl] at hsum
  exact hsum

theorem disciplined_close (hs : s.Disciplined c) (w : Fin n) : (s.close w).Disciplined c := by
  unfold EventLoop.close
  split
  · rename_i fd hw
    exact disciplined_done hs (hw ▸ rfl) rfl fun fd' => any_remove s.interest fd fd'
  · exact hs

/-- The descriptor is what the worker is about, before and after. -/
theorem disciplined_finish (hs : s.Disciplined c) (w : Fin n) : (s.finish c w).Disciplined c := by
  have hkeep : ∀ phase : WorkerPhase, phase.subject c = (s.phase w).subject c →
      (s.setPhase w phase).Disciplined c := by
    intro phase hphase
    refine ⟨fun fd => ?_, hs.apart⟩
    have hsum := outstanding_setPhase (c := c) (s := s) w phase fd
    rw [hphase, add_left_inj, hs.one fd] at hsum
    exact hsum
  unfold EventLoop.finish
  split
  · rename_i hw
    exact hkeep _ (hw ▸ rfl)
  · rename_i hw
    exact hkeep _ (hw ▸ rfl)
  · rename_i task hclient hdiscovery hw
    refine hkeep _ ?_
    obtain ⟨fd, type⟩ := task
    cases type with
    | tcpClientMsg => exact absurd rfl (hclient fd)
    | udpDiscovery => exact absurd rfl (hdiscovery fd)
    | udpAnnounce => exact hw ▸ rfl
    | garbageCollector => exact hw ▸ rfl
  · exact hs

theorem closeZombie_iff (hs : s.Disciplined c) (w : Fin n) (zombieFd : Int32) :
    (s.closeZombie w zombieFd).Disciplined c ↔
      ((∃ fd, s.phase w = .serving ⟨fd, .garbageCollector⟩) → s.disarmed zombieFd = false) := by
  unfold EventLoop.closeZombie
  split
  · rename_i fd hw
    rw [forall_prop_of_true ⟨fd, hw⟩]
    exact arm_iff hs (fun _ => rfl) (fun fd' => any_remove s.interest zombieFd fd') hs.apart
  · rename_i hw
    exact iff_of_true hs fun hgc => absurd hgc.choose_spec (hw _)

/-- A descriptor that the handler has closed may have been given out again. -/
theorem rearm_iff (hs : s.Disciplined c) (w : Fin n) :
    (s.rearm w).Disciplined c ↔ ∀ fd, s.phase w = .closed fd → s.disarmed fd = false := by
  unfold EventLoop.rearm
  split
  · rename_i fd hw
    refine iff_of_true ?_ fun fd' hclosed => ?_
    · exact disciplined_done hs (hw ▸ rfl) rfl fun fd' => any_rearm s.interest fd fd'
    · rw [hw] at hclosed
      cases hclosed
  · rename_i fd hw
    let armed : EventLoop n := { s with interest := rearmEpollFd s.interest fd }
    have hone : ∀ fd', (armed.setPhase w .waiting).outstanding c fd' = s.outstanding c fd' := by
      intro fd'
      have hsum := outstanding_setPhase (c := c) (s := armed) w .waiting fd'
      have hnone : (armed.phase w).subject c = none := congrArg (WorkerPhase.subject c) hw
      rw [hnone] at hsum
      exact add_right_cancel hsum
    refine (arm_iff hs hone (fun fd' => any_rearm s.interest fd fd') hs.apart).trans ?_
    rw [hw]
    constructor
    · rintro harmed fd' hfd'
      cases hfd'
      exact harmed
    · intro harmed
      exact harmed fd rfl
  · rename_i hreturned hclosed
    exact iff_of_true hs fun fd hw => absurd hw (hclosed fd)

/-! ## The main thread -/

theorem disciplined_connect (hs : s.Disciplined c) (newFd : Int32) :
    (s.connect newFd).Disciplined c := by
  unfold EventLoop.connect
  split
  · refine ⟨fun fd => ?_, hs.apart⟩
    have hsame := @any_add s.interest newFd fd .connecting rfl
    have hone := hs.one fd
    rw [disarmed, ← hsame] at hone
    exact hone
  · exact hs

theorem queued_push (h : s.Sane c) (task : WorkerTask) (fd : Int32) :
    (s.push task).queued c fd =
      s.queued c fd + if task.subject c = some fd ∧ s.queue.count < maxQueue then 1 else 0 := by
  have hwaiting : (s.push task).queue.waiting = _ := (waiting_push h.queue task).2
  unfold queued
  rw [hwaiting]
  split
  · rename_i hroom
    rw [List.filterMap_append, List.count_append, count_filterMap_cons, count_toList,
      List.filterMap_nil, List.count_nil, Nat.add_zero,
      if_congr (and_iff_left hroom).symm rfl rfl]
  · rename_i hroom
    rw [if_neg fun hand => hroom hand.2, Nat.add_zero]

theorem disarmed_handleTcpTimerExpiration (h : s.Sane c) (fd : Int32) :
    (s.handleTcpTimerExpiration c).disarmed fd = s.disarmed fd := by
  have htimer : s.tcpTimerFd ∈ s.own c := List.mem_cons_of_mem _ List.mem_cons_self
  have hlist := any_remove s.interest s.tcpTimerFd fd
  rw [← @any_add _ c.tcpPublicFd fd .input rfl, ← @any_add _ c.erlangTcpFd fd .input rfl] at hlist
  refine (show (s.handleTcpTimerExpiration c).disarmed fd = _ from hlist).trans ?_
  split
  · rename_i he
    rw [he, h.own_armed htimer]
  · rfl

theorem disarmed_handleConnectionSuccess (currFd fd : Int32) (connected : Bool) :
    (s.handleConnectionSuccess currFd connected).disarmed fd =
      if fd = currFd then false else s.disarmed fd := by
  unfold EventLoop.handleConnectionSuccess
  split
  · exact any_rearm s.interest currFd fd
  · exact any_remove s.interest currFd fd

/-- What `main` does with an event: it becomes a task, if there is room, and a connection that is
opened is armed. -/
structure Dispatched (c : ServerFds) (s s' : EventLoop n) (e : EpollEvent)
    (rest : List EpollEvent) : Prop where
  batch : s'.batch = rest
  phase : s'.phase = s.phase
  subject : ∀ e' ∈ rest, s'.subject c e' = s.subject c e'
  queued : ∀ fd, s'.queued c fd =
    s.queued c fd + if s.subject c e = some fd ∧ s.queue.count < maxQueue then 1 else 0
  disarmed : ∀ fd, s'.disarmed fd = if fd = e.fd ∧ e.output = true then false else s.disarmed fd

section Dispatch

variable (h : s.Sane c) {e : EpollEvent} {rest : List EpollEvent} (hbatch : s.batch = e :: rest)

include h hbatch

/-- The events of the timers, of the listeners and of the datagrams have no output. -/
theorem no_output (hfd : e.fd ∈ s.own c ∨ e.fd = c.udpFd) (fd : Int32) :
    ¬(fd = e.fd ∧ e.output = true) := by
  rintro ⟨-, hout⟩
  have hclient := h.outputs e (hbatch ▸ List.mem_cons_self) hout
  exact hfd.elim hclient.1 hclient.2

theorem dispatched_push {task : WorkerTask} (htask : task.subject c = s.subject c e)
    (hfd : e.fd ∈ s.own c ∨ e.fd = c.udpFd) :
    Dispatched c s (EventLoop.push { s with batch := rest } task) e rest := by
  refine ⟨rfl, rfl, fun _ _ => rfl, fun fd => ?_, fun fd => ?_⟩
  · rw [← htask]
    exact queued_push (h.rest hbatch) task fd
  · rw [if_neg (no_output h hbatch hfd fd)]
    rfl

/-- The listeners are about no task. -/
theorem dispatched_own {s' : EventLoop n} (hown : e.fd ∈ s.own c) (hb : s'.batch = rest)
    (hphase : s'.phase = s.phase) (hqueue : s'.queue = s.queue)
    (hsubject : ∀ e' ∈ rest, s'.subject c e' = s.subject c e')
    (hdisarmed : ∀ fd, s'.disarmed fd = s.disarmed fd) : Dispatched c s s' e rest := by
  refine ⟨hb, hphase, hsubject, fun fd => ?_, fun fd => ?_⟩
  · rw [subject, if_pos hown, if_neg (by rintro ⟨hsome, -⟩; cases hsome), queued, hqueue]
    rfl
  · rw [hdisarmed, if_neg (no_output h hbatch (Or.inl hown) fd)]

/-- The timer of the listeners occurs only once in a batch. -/
theorem dispatched_tcpTimer (hfd : e.fd = s.tcpTimerFd) :
    Dispatched c s (handleTcpTimerExpiration c { s with batch := rest }) e rest := by
  have hown : e.fd ∈ s.own c := hfd ▸ List.mem_cons_of_mem _ List.mem_cons_self
  have hrest := h.rest hbatch
  refine dispatched_own h hbatch hown rfl rfl rfl (fun e' he' => ?_)
    (disarmed_handleTcpTimerExpiration hrest)
  have hnodup := h.nodup
  rw [hbatch, List.map_cons, List.nodup_cons, hfd] at hnodup
  have hne : e'.fd ≠ s.tcpTimerFd := fun he => hnodup.1 (he ▸ List.mem_map_of_mem he')
  have hreal := hrest.real e' he'
  have hmem : e'.fd ∈ (handleTcpTimerExpiration c { s with batch := rest }).own c ↔
      e'.fd ∈ s.own c := by
    simp only [own, handleTcpTimerExpiration, List.mem_cons, hreal, hne, false_or]
  exact if_congr hmem rfl rfl

theorem dispatched_client (hown : e.fd ∉ s.own c) (hudp : e.fd ≠ c.udpFd) (connected : Bool) :
    Dispatched c s
      (let s : EventLoop n := { s with batch := rest }
       let s := if e.input then s.push ⟨e.fd, .tcpClientMsg⟩ else s
       if e.output then s.handleConnectionSuccess e.fd connected else s) e rest := by
  have hsubject : s.subject c e = if e.input = true then some e.fd else none := by
    rw [subject, if_neg hown, if_congr (or_iff_right hudp) rfl rfl]
  -- The state after the test for `EPOLLIN`.
  have hinput : ∃ queue : TaskQueue, (if e.input = true then
        EventLoop.push { s with batch := rest } ⟨e.fd, .tcpClientMsg⟩
      else { s with batch := rest }) = { s with batch := rest, queue := queue } ∧
      ∀ fd, ({ s with batch := rest, queue := queue } : EventLoop n).queued c fd =
        s.queued c fd + if s.subject c e = some fd ∧ s.queue.count < maxQueue then 1 else 0 := by
    rw [hsubject]
    split
    · exact ⟨_, rfl, queued_push (h.rest hbatch) ⟨e.fd, .tcpClientMsg⟩⟩
    · refine ⟨s.queue, rfl, fun fd => ?_⟩
      rw [if_neg (by rintro ⟨hsome, -⟩; cases hsome)]
      rfl
  obtain ⟨queue, heq, hqueued⟩ := hinput
  dsimp only
  rw [heq]
  split
  · rename_i hout
    have hkeep : ∃ list : InterestList, handleConnectionSuccess
        { s with batch := rest, queue := queue } e.fd connected =
          { s with batch := rest, queue := queue, interest := list } := by
      unfold handleConnectionSuccess
      split <;> exact ⟨_, rfl⟩
    have hdisarmed := fun fd => disarmed_handleConnectionSuccess
      (s := { s with batch := rest, queue := queue }) e.fd fd connected
    obtain ⟨list, hlist⟩ := hkeep
    rw [hlist] at hdisarmed ⊢
    refine ⟨rfl, rfl, fun _ _ => rfl, hqueued, fun fd => ?_⟩
    rw [if_congr (and_iff_left hout) rfl rfl]
    exact hdisarmed fd
  · rename_i hout
    refine ⟨rfl, rfl, fun _ _ => rfl, hqueued, fun fd => ?_⟩
    rw [if_neg fun hand => hout hand.2]
    rfl

theorem dispatched (clientFd : Int32) (connected : Bool) :
    Dispatched c s (dispatchEvent c { s with batch := rest } e clientFd connected) e rest := by
  have hreal := h.real e (hbatch ▸ List.mem_cons_self)
  have hnone : e.fd ∈ s.own c → none = s.subject c e := fun hown => (if_pos hown).symm
  unfold dispatchEvent
  split
  · rename_i htcp
    exact dispatched_tcpTimer h hbatch htcp
  rename_i htcp
  split
  · rename_i hudpTimer
    have hown : e.fd ∈ s.own c := by simp [own, hudpTimer]
    exact dispatched_push h hbatch (hnone hown) (Or.inl hown)
  rename_i hudpTimer
  split
  · rename_i hgc
    have hown : e.fd ∈ s.own c := by simp [own, hgc]
    exact dispatched_push h hbatch (hnone hown) (Or.inl hown)
  rename_i hgc
  split
  · rename_i hudp
    refine dispatched_push h hbatch ?_ (Or.inr hudp)
    rw [subject, hudp, if_neg h.udp_notMem_own, if_pos (Or.inl rfl)]
    rfl
  rename_i hudp
  split
  · rename_i hlistener
    have hown : e.fd ∈ s.own c := by rcases hlistener with he | he <;> simp [own, he]
    unfold handleNewTcpConnection
    split
    · refine dispatched_own h hbatch hown rfl rfl rfl (fun _ _ => rfl) fun fd => ?_
      exact @any_add s.interest clientFd fd .inputOnce rfl
    · exact dispatched_own h hbatch hown rfl rfl rfl (fun _ _ => rfl) fun _ => rfl
  rename_i hlistener
  exact dispatched_client h hbatch (notMem_own hreal htcp hudpTimer hgc hlistener) hudp connected

end Dispatch

theorem dispatch_iff (h : s.Sane c) (hs : s.Disciplined c) (clientFd : Int32) (connected : Bool) :
    (loopStep c s (.dispatch clientFd connected)).Disciplined c ↔
      ∀ e ∈ s.batch.head?, (s.subject c e ≠ none → s.queue.count < maxQueue) ∧
        (e.output = true → s.disarmed e.fd = false) := by
  unfold loopStep
  dsimp only
  split
  · rename_i hbatch
    rw [hbatch]
    exact iff_of_true hs fun e he => by cases he
  · rename_i e rest hbatch
    have hd := dispatched h hbatch clientFd connected
    have hmem : e ∈ s.batch := hbatch ▸ List.mem_cons_self
    -- What is outstanding, without the event and perhaps with a task.
    have hout : ∀ fd,
        (dispatchEvent c { s with batch := rest } e clientFd connected).outstanding c fd +
          (if s.subject c e = some fd then 1 else 0) = s.outstanding c fd +
            if s.subject c e = some fd ∧ s.queue.count < maxQueue then 1 else 0 := by
      intro fd
      have hreported : s.reported c fd = (if s.subject c e = some fd then 1 else 0) +
          (rest.filterMap (s.subject c)).count fd := by
        rw [reported, hbatch, count_filterMap_cons, count_toList]
      have hrest : (dispatchEvent c { s with batch := rest } e clientFd connected).reported c fd =
          (rest.filterMap (s.subject c)).count fd := by
        rw [reported, hd.batch, List.filterMap_congr hd.subject]
      rw [outstanding, outstanding, hrest, hd.queued, hreported, attended, attended, hd.phase]
      omega
    rw [hbatch]
    constructor
    · intro hs' e' he'
      cases he'
      have hone := hs'.one e.fd
      have hsame := hout e.fd
      refine ⟨fun hsubject => ?_, fun houtput => ?_⟩
      · by_contra hfull
        have hquiet : ¬(e.fd = e.fd ∧ e.output = true) :=
          fun hand => hsubject (hs.apart e hmem hand.2)
        rw [if_pos (subject_eq hsubject), if_neg fun hand => hfull hand.2] at hsame
        rw [hd.disarmed, if_neg hquiet, ← hs.one e.fd] at hone
        omega
      · have hnone := hs.apart e hmem houtput
        rw [hnone, if_neg (by rintro ⟨⟩), if_neg (by rintro ⟨⟨⟩, -⟩), hs.one e.fd] at hsame
        rw [hd.disarmed, if_pos ⟨rfl, houtput⟩] at hone
        exact Bool.toNat_eq_zero.mp (hsame.symm.trans hone)
    · intro hclean
      obtain ⟨hroom, harmed⟩ := hclean e rfl
      refine ⟨fun fd => ?_, fun e' he' houtput => ?_⟩
      · have hsame := hout fd
        have hand : (s.subject c e = some fd ∧ s.queue.count < maxQueue) ↔
            s.subject c e = some fd :=
          and_iff_left_of_imp fun hsome => hroom (by rw [hsome]; exact Option.some_ne_none fd)
        rw [if_congr hand rfl rfl, Nat.add_right_cancel_iff, hs.one fd] at hsame
        rw [hsame, hd.disarmed]
        split
        · rename_i hfd
          rw [hfd.1, harmed hfd.2]
        · rfl
      · rw [hd.batch] at he'
        rw [hd.subject e' he']
        exact hs.apart e' (hbatch ▸ List.mem_cons_of_mem e he') houtput

/-! ## The kernel -/

section Wait

variable {ready : List EpollEvent}

theorem subjects_sublist : (ready.filterMap (s.subject c)).Sublist (ready.map EpollEvent.fd) := by
  induction ready with
  | nil => exact List.Sublist.slnil
  | cons e ready ih =>
    rw [List.map_cons]
    by_cases he : s.subject c e = none
    · rw [List.filterMap_cons_none he]
      exact ih.cons e.fd
    · rw [List.filterMap_cons_some (subject_eq he)]
      exact ih.cons_cons e.fd

/-- Every event is of another descriptor. -/
theorem reported_wait (hnodup : (ready.map EpollEvent.fd).Nodup) (fd : Int32) :
    (loopStep c s (.wait ready)).reported c fd =
      if ∃ e ∈ ready, s.subject c e = some fd then 1 else 0 := by
  have hcount := (hnodup.sublist (subjects_sublist (c := c) (s := s))).count (a := fd)
  rw [if_congr List.mem_filterMap rfl rfl] at hcount
  exact hcount

theorem disarmed_wait (fd : Int32) : (loopStep c s (.wait ready)).disarmed fd =
    if fd ∈ ready.map EpollEvent.fd then (s.interest fd).any fun i => !i.reported.armed
    else s.disarmed fd := by
  have hinterest : (loopStep c s (.wait ready)).interest fd =
      if fd ∈ ready.map EpollEvent.fd then (s.interest fd).map Interest.reported
      else s.interest fd := rfl
  rw [disarmed, hinterest]
  split
  · exact Option.any_map
  · rfl

theorem not_armed_reported {i : Interest} (h : i.armed = true) :
    (!i.reported.armed) = i.oneshot := by
  unfold Interest.reported
  split
  · rename_i honeshot
    exact honeshot.symm
  · rename_i honeshot
    rw [h, Bool.eq_false_iff.mpr honeshot]
    rfl

/-- What is reported and does not become a task stays armed. -/
theorem oneshot_of_subject_none (h : s.Sane c) {e : EpollEvent} {i : Interest}
    (hi : s.interest e.fd = some i) (hreported : e.input = true ∨ e.output = true)
    (hout : e.output = true → i.output = true) (hsubject : s.subject c e = none) :
    i.oneshot = false := by
  refine Bool.eq_false_iff.mpr fun honeshot => ?_
  obtain ⟨hno, hown⟩ := (h.registered e.fd i hi).oneshot honeshot
  unfold subject at hsubject
  rw [if_neg hown] at hsubject
  split at hsubject
  · cases hsubject
  · rename_i hquiet
    rcases hreported with hin | ho
    · exact hquiet (Or.inr hin)
    · rw [hout ho] at hno
      cases hno

/-- An event that becomes a task is of a registration that it disarms. -/
theorem wait_iff (h : s.Sane c) (hs : s.Disciplined c) (hkernel : Kernel c s (.wait ready)) :
    (loopStep c s (.wait ready)).Disciplined c ↔
      ∀ e ∈ ready, s.subject c e ≠ none → ∃ i ∈ s.interest e.fd, i.oneshot = true := by
  obtain ⟨hempty, hnodup, hready⟩ := hkernel
  have hnothing : ∀ fd, s.reported c fd = 0 := fun fd => by
    rw [reported, hempty, List.filterMap_nil, List.count_nil]
  have hout : ∀ fd, (loopStep c s (.wait ready)).outstanding c fd =
      s.outstanding c fd + if ∃ e ∈ ready, s.subject c e = some fd then 1 else 0 := by
    intro fd
    rw [outstanding, outstanding, reported_wait hnodup, hnothing]
    change _ + s.queued c fd + s.attended c fd = _
    omega
  have harmed : ∀ e ∈ ready, ∃ i, s.interest e.fd = some i ∧ s.outstanding c e.fd = 0 ∧
      (loopStep c s (.wait ready)).disarmed e.fd = i.oneshot := by
    intro e he
    obtain ⟨i, hi, hi', -⟩ := hready e he
    have hi : s.interest e.fd = some i := hi
    refine ⟨i, hi, ?_, ?_⟩
    · rw [hs.one, disarmed, hi, Option.any_some, hi']
      rfl
    · rw [disarmed_wait, if_pos (List.mem_map_of_mem he), hi, Option.any_some]
      exact not_armed_reported hi'
  have houtput : ∀ e ∈ ready, e.output = true → ∀ i, s.interest e.fd = some i →
      i.oneshot = false := by
    intro e he ho i hi
    obtain ⟨j, hj, -, -, hout⟩ := hready e he
    have hij : i = j := Option.some_inj.mp (hi.symm.trans hj)
    refine Bool.eq_false_iff.mpr fun honeshot => ?_
    have hno := ((h.registered e.fd i hi).oneshot honeshot).1
    rw [hij, hout ho] at hno
    cases hno
  constructor
  · intro hs' e he hsubject
    obtain ⟨i, hi, hnone, hdisarmed⟩ := harmed e he
    have hone := hs'.one e.fd
    rw [hout, hnone, if_pos ⟨e, he, subject_eq hsubject⟩, hdisarmed] at hone
    exact ⟨i, hi, Bool.toNat_eq_one.mp hone.symm⟩
  · intro hclean
    refine ⟨fun fd => ?_, fun e he ho => ?_⟩
    · by_cases hfd : fd ∈ ready.map EpollEvent.fd
      · obtain ⟨e, he, rfl⟩ := List.mem_map.mp hfd
        obtain ⟨i, hi, hnone, hdisarmed⟩ := harmed e he
        rw [hout, hnone, hdisarmed, Nat.zero_add]
        by_cases hsubject : s.subject c e = none
        · obtain ⟨j, hj, -, hreported, ho⟩ := hready e he
          have hij : i = j := Option.some_inj.mp (hi.symm.trans hj)
          rw [oneshot_of_subject_none h hi hreported (fun he => hij ▸ ho he) hsubject]
          refine if_neg ?_
          rintro ⟨e', he', hsome⟩
          rw [List.inj_on_of_nodup_map hnodup he' he (fd_eq hsome), hsubject] at hsome
          cases hsome
        · obtain ⟨j, hj, honeshot⟩ := hclean e he hsubject
          have hij : i = j := Option.some_inj.mp (hi.symm.trans hj)
          rw [if_pos ⟨e, he, subject_eq hsubject⟩, hij, honeshot]
          rfl
      · rw [hout, disarmed_wait, if_neg hfd, ← hs.one fd]
        have hother : ¬∃ e ∈ ready, s.subject c e = some fd := by
          rintro ⟨e, he, hsome⟩
          exact hfd (fd_eq hsome ▸ List.mem_map_of_mem he)
        rw [if_neg hother, Nat.add_zero]
    · by_contra hsubject
      obtain ⟨i, hi, honeshot⟩ := hclean e he hsubject
      rw [houtput e he ho i hi] at honeshot
      cases honeshot

end Wait

theorem disciplined_iff (h : s.Sane c) (hs : s.Disciplined c) {e : LoopEvent n}
    (hkernel : Kernel c s e) : (loopStep c s e).Disciplined c ↔ Clean c s e := by
  cases e with
  | wait ready => exact wait_iff h hs hkernel
  | dispatch clientFd connected => exact dispatch_iff h hs clientFd connected
  | connect newFd => exact iff_of_true (disciplined_connect hs newFd) trivial
  | take w => exact iff_of_true (disciplined_take h hs w) trivial
  | close w => exact iff_of_true (disciplined_close hs w) trivial
  | closeZombie w zombieFd => exact closeZombie_iff hs w zombieFd
  | finish w => exact iff_of_true (disciplined_finish hs w) trivial
  | rearm w => exact rearm_iff hs w

/-! ## Runs -/

section Start

variable {tcpTimerFd : Int32} {tasks : ℤ → WorkerTask}

theorem waiting_start : (start c tcpTimerFd tasks n).queue.waiting = [] :=
  waiting_eq (holds_init tasks)

/-- The timers are always armed, and the datagrams are taken one at a time. -/
theorem allowed_start
    (htimer : tcpTimerFd ∉ [-1, c.tcpPublicFd, c.erlangTcpFd, c.udpFd, c.udpTimerFd, c.gcTimerFd])
    {fd : Int32} {i : Interest} (hi : (start c tcpTimerFd tasks n).interest fd = some i) :
    i.Allowed ((start c tcpTimerFd tasks n).own c) c.udpFd fd := by
  have hdistinct := c.distinct
  simp only [List.nodup_cons, List.mem_cons, List.not_mem_nil, not_or, or_false] at hdistinct htimer
  unfold start at hi
  dsimp only at hi
  split at hi
  · rename_i hfd
    cases hi
    refine ⟨?_, fun he => (by cases he), fun he => (by cases he), fun he => (by cases he)⟩
    rcases hfd with rfl | rfl | rfl
    · exact htimer.1
    · exact Ne.symm hdistinct.1.2.2.2.1
    · exact Ne.symm hdistinct.1.2.2.2.2
  split at hi
  · rename_i hother hudp
    cases hi
    refine ⟨?_, fun he => (by cases he), fun _ => ⟨rfl, ?_⟩, fun he => (by cases he)⟩
    · rw [hudp]
      exact Ne.symm hdistinct.1.2.2.1
    · rw [hudp]
      simp only [own, start, List.mem_cons, List.not_mem_nil, or_false]
      grind
  · cases hi

theorem sane_start
    (htimer : tcpTimerFd ∉ [-1, c.tcpPublicFd, c.erlangTcpFd, c.udpFd, c.udpTimerFd, c.gcTimerFd]) :
    (start c tcpTimerFd tasks n).Sane c where
  queue := by
    rw [waiting_start]
    exact holds_init tasks
  tcpTimer := fun hmem => htimer (List.mem_cons_of_mem _ hmem)
  registered := fun _ _ hi => allowed_start htimer hi
  nodup := List.nodup_nil
  real := fun _ he => (by cases he)
  outputs := fun _ he => (by cases he)
  tasks := fun t ht => by
    rw [waiting_start] at ht
    cases ht
  workers := fun _ _ hfd => (by cases hfd)

theorem disciplined_start : (start c tcpTimerFd tasks n).Disciplined c := by
  refine ⟨fun fd => ?_, fun e he => by cases he⟩
  have hattended : (start c tcpTimerFd tasks n).attended c fd = 0 :=
    Finset.sum_eq_zero fun w _ => rfl
  have hqueued : (start c tcpTimerFd tasks n).queued c fd = 0 := by
    rw [queued, waiting_start, List.filterMap_nil, List.count_nil]
  rw [outstanding, hattended, hqueued]
  unfold disarmed start
  dsimp only
  split
  · rfl
  · split <;> rfl

end Start

/-- Two workers are never about the same descriptor. -/
theorem Disciplined.workers_apart (hs : s.Disciplined c) {w w' : Fin n} {fd : Int32}
    (hw : (s.phase w).subject c = some fd) (hw' : (s.phase w').subject c = some fd) : w = w' := by
  by_contra hne
  have hle : ∑ v ∈ {w, w'}, ((s.phase v).subject c).toList.count fd ≤ s.attended c fd :=
    Finset.sum_le_sum_of_subset (Finset.subset_univ _)
  rw [Finset.sum_pair hne, hw, hw', Option.toList_some, List.count_singleton_self] at hle
  have hone := hs.le_one fd
  rw [outstanding] at hone
  omega

end EventLoop

/-- In a run of the event loop, the interest list, the batch, the queue and the workers are in
step in every state exactly when all its steps are clean; and then two workers never serve the
same connection. -/
theorem one_task_iff {n : ℕ} (c : ServerFds) (tcpTimerFd : Int32)
    (htimer : tcpTimerFd ∉ [-1, c.tcpPublicFd, c.erlangTcpFd, c.udpFd, c.udpTimerFd, c.gcTimerFd])
    (tasks : ℤ → WorkerTask) (es : List (LoopEvent n))
    (hkernel : Along (loopStep c) (Kernel c) (EventLoop.start c tcpTimerFd tasks n) es) :
    (Along (loopStep c) (fun s e => (loopStep c s e).Disciplined c)
        (EventLoop.start c tcpTimerFd tasks n) es ↔
      Along (loopStep c) (Clean c) (EventLoop.start c tcpTimerFd tasks n) es) ∧
    (Along (loopStep c) (Clean c) (EventLoop.start c tcpTimerFd tasks n) es →
      ∀ w w' fd,
        ((run (loopStep c) (EventLoop.start c tcpTimerFd tasks n) es).phase w).subject c = some fd →
        ((run (loopStep c) (EventLoop.start c tcpTimerFd tasks n) es).phase w').subject c = some fd →
          w = w') := by
  have hstart : (EventLoop.start c tcpTimerFd tasks n).Sane c := EventLoop.sane_start htimer
  have hiff := along_iff (I := EventLoop.Sane c) (U := EventLoop.Disciplined c)
    (fun _ _ h hk => h.step hk) (fun _ _ h hs hk => EventLoop.disciplined_iff h hs hk)
    hstart EventLoop.disciplined_start hkernel
  refine ⟨hiff, fun hclean w w' fd hw hw' => ?_⟩
  have hlast := run_invariant (I := EventLoop.Disciplined c) (fun _ _ _ hnext => hnext)
    EventLoop.disciplined_start (hiff.mpr hclean)
  exact hlast.workers_apart hw hw'

/-! ## Runs of two workers -/

def serverFds : ServerFds := ⟨4, 5, 6, 8, 9, by decide⟩

/-- The listeners are opened, and a client connects and sends a line. -/
def firstLine : List (LoopEvent 2) :=
  [.wait [⟨7, true, false⟩], .dispatch (-1) false, .wait [⟨4, true, false⟩], .dispatch 10 false,
    .wait [⟨10, true, false⟩], .dispatch (-1) false, .take 0]

/-- The worker rearms the connection, and a datagram arrives meanwhile. -/
def answered : List (LoopEvent 2) :=
  firstLine ++ [.wait [⟨6, true, false⟩], .dispatch (-1) false, .take 1, .finish 0, .rearm 0,
    .finish 1, .rearm 1]

/-- The client has closed the connection, and the next one is given the same descriptor before
the worker rearms it. -/
def reused : List (LoopEvent 2) :=
  firstLine ++ [.close 0, .wait [⟨4, true, false⟩], .dispatch 10 false, .wait [⟨10, true, false⟩],
    .dispatch (-1) false, .take 1, .rearm 0, .wait [⟨10, true, false⟩], .dispatch (-1) false,
    .take 0]

def emptyTasks : ℤ → WorkerTask := fun _ => ⟨-1, .udpAnnounce⟩

theorem one_task_iff_answered :
    Along (loopStep serverFds) (fun s e => (loopStep serverFds s e).Disciplined serverFds)
        (EventLoop.start serverFds 7 emptyTasks 2) answered ∧
      ¬Along (loopStep serverFds) (fun s e => (loopStep serverFds s e).Disciplined serverFds)
        (EventLoop.start serverFds 7 emptyTasks 2) reused :=
  ⟨(one_task_iff serverFds 7 (by decide) emptyTasks answered (by decide +kernel)).1.mpr
      (by decide +kernel),
    fun hs => absurd ((one_task_iff serverFds 7 (by decide) emptyTasks reused
      (by decide +kernel)).1.mp hs) (by decide +kernel)⟩

/-- Both workers serve the second client. -/
example : ∀ w, ((run (loopStep serverFds) (EventLoop.start serverFds 7 emptyTasks 2) reused).phase
    w).subject serverFds = some 10 := by
  decide +kernel

end ResourceManager
