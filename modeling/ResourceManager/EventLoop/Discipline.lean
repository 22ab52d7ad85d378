import ResourceManager.EventLoop.System

/-!
# One task for each descriptor

A registered connection is either armed, and then no thread has to do with it, or it has been
reported and exactly one event, task or worker is about it. So no two workers serve one
connection at the same time, and none is forgotten. `one_task_iff` says for which runs this
holds in every state.
-/

namespace ResourceManager

open Library.BoundedFifo Library.Runs

/-! ## What the threads have to do -/

/-- The tasks that wait, the oldest one first. -/
def TaskQueue.waiting (queue : TaskQueue) : List WorkerTask :=
  (List.range queue.count.toNat).map fun i : ℕ => queue.tasks ((queue.head + (i : ℤ)) % maxQueue)

/-- The descriptor that a task is about. -/
def WorkerTask.subject (c : ServerFds) (task : WorkerTask) : Option Int32 :=
  match task.type with
  | .tcpClientMsg => some task.fd
  | .udpDiscovery => some c.udpFd
  | .udpAnnounce | .garbageCollector => none

def WorkerPhase.subject (c : ServerFds) : WorkerPhase → Option Int32
  | .serving task => task.subject c
  | .returned fd => some fd
  | .waiting | .closed _ => none

namespace EventLoop

variable {n : ℕ} (c : ServerFds) (s : EventLoop n)

/-- The descriptors of the timers and the listeners. -/
def own : List Int32 :=
  [-1, s.tcpTimerFd, c.udpTimerFd, c.gcTimerFd, c.tcpPublicFd, c.erlangTcpFd]

/-- The descriptor of the task that `main` makes of an event. -/
def subject (e : EpollEvent) : Option Int32 :=
  if e.fd ∈ s.own c then none else if e.fd = c.udpFd ∨ e.input then some e.fd else none

/-- The events of the batch that are about a descriptor. -/
def reported (fd : Int32) : ℕ := (s.batch.filterMap (s.subject c)).count fd

/-- The tasks that wait and are about a descriptor. -/
def queued (fd : Int32) : ℕ := (s.queue.waiting.filterMap (WorkerTask.subject c)).count fd

/-- The workers that are about a descriptor. -/
def attended (fd : Int32) : ℕ := ∑ w, ((s.phase w).subject c).toList.count fd

def outstanding (fd : Int32) : ℕ := s.reported c fd + s.queued c fd + s.attended c fd

/-- The descriptor has been reported and not rearmed. -/
def disarmed (fd : Int32) : Bool := (s.interest fd).any fun i => !i.armed

/-- A descriptor that is disarmed has one task, any other has none; and no event is about both a
task and a connection that is being opened. -/
structure Disciplined : Prop where
  one : ∀ fd, s.outstanding c fd = (s.disarmed fd).toNat
  apart : ∀ e ∈ s.batch, e.output = true → s.subject c e = none

end EventLoop

/-! ## Conditions -/

/-- The kernel has given out a new descriptor. -/
def EventLoop.Unused {n : ℕ} (c : ServerFds) (s : EventLoop n) (fd : Int32) : Prop :=
  s.interest fd = none ∧ fd ∉ s.own c ∧ fd ≠ c.udpFd

/-- `epoll_wait` is called when the last batch has been dispatched, and reports what is
registered and armed; new descriptors are unused. -/
def Kernel {n : ℕ} (c : ServerFds) (s : EventLoop n) : LoopEvent n → Prop
  | .wait ready => s.batch = [] ∧ (ready.map EpollEvent.fd).Nodup ∧ ∀ e ∈ ready,
    ∃ i ∈ s.interest e.fd, i.armed = true ∧ (e.input = true ∨ e.output = true) ∧
      (e.output = true → i.output = true)
  | .dispatch clientFd _ => clientFd ≠ -1 → s.Unused c clientFd
  | .connect newFd => newFd ≠ -1 → s.Unused c newFd
  | _ => True

/-- A connection that is being opened has no input; the queue has room for a task; and what is
rearmed or closed for another reason than its task has no task. -/
def Clean {n : ℕ} (c : ServerFds) (s : EventLoop n) : LoopEvent n → Prop
  | .wait ready => ∀ e ∈ ready, s.subject c e ≠ none → ∃ i ∈ s.interest e.fd, i.oneshot = true
  | .dispatch _ _ => ∀ e ∈ s.batch.head?, (s.subject c e ≠ none → s.queue.count < maxQueue) ∧
    (e.output = true → s.disarmed e.fd = false)
  | .closeZombie w zombieFd =>
    (∃ fd, s.phase w = .serving ⟨fd, .garbageCollector⟩) → s.disarmed zombieFd = false
  | .rearm w => ∀ fd, s.phase w = .closed fd → s.disarmed fd = false
  | _ => True

instance {n : ℕ} (c : ServerFds) (s : EventLoop n) (fd : Int32) : Decidable (s.Unused c fd) :=
  inferInstanceAs (Decidable (_ ∧ _))

instance {n : ℕ} (c : ServerFds) (s : EventLoop n) (e : LoopEvent n) : Decidable (Kernel c s e) :=
  match e with
  | .wait _ => inferInstanceAs (Decidable (_ ∧ _))
  | .dispatch _ _ | .connect _ => inferInstanceAs (Decidable (_ → _))
  | .take _ | .close _ | .closeZombie _ _ | .finish _ | .rearm _ => .isTrue trivial

instance {n : ℕ} (c : ServerFds) (s : EventLoop n) (e : LoopEvent n) : Decidable (Clean c s e) :=
  match e with
  | .wait ready => inferInstanceAs (Decidable (∀ e ∈ ready, _))
  | .dispatch _ _ => inferInstanceAs (Decidable (∀ e ∈ s.batch.head?, _))
  | .closeZombie w zombieFd =>
    match hw : s.phase w with
    | .serving ⟨fd, .garbageCollector⟩ =>
      decidable_of_iff (s.disarmed zombieFd = false) ⟨fun h _ => h, fun h => h ⟨fd, hw⟩⟩
    | .serving ⟨_, .tcpClientMsg⟩ | .serving ⟨_, .udpDiscovery⟩ | .serving ⟨_, .udpAnnounce⟩
    | .waiting | .returned _ | .closed _ => .isTrue fun ⟨_, hgc⟩ => by rw [hw] at hgc; cases hgc
  | .rearm w =>
    match hw : s.phase w with
    | .closed fd => decidable_of_iff (s.disarmed fd = false)
      ⟨fun h fd' hfd => by rw [hw] at hfd; cases hfd; exact h, fun h => h fd hw⟩
    | .waiting | .serving _ | .returned _ => .isTrue fun _ hfd => by rw [hw] at hfd; cases hfd
  | .connect _ | .take _ | .close _ | .finish _ => .isTrue trivial

/-! ## What all steps keep -/

/-- The descriptor that a worker will rearm, or that its task is about. -/
def WorkerPhase.about (c : ServerFds) : WorkerPhase → Option Int32
  | .closed fd => some fd
  | phase => phase.subject c

/-- A registration of `fd`: only `EPOLLONESHOT` disarms, and it is used for connections that
stand and for datagrams. -/
structure Interest.Allowed (own : List Int32) (udpFd fd : Int32) (i : Interest) : Prop where
  real : fd ≠ -1
  disarmed : i.armed = false → i.oneshot = true
  oneshot : i.oneshot = true → i.output = false ∧ fd ∉ own
  output : i.output = true → fd ∉ own ∧ fd ≠ udpFd

/-- The queue is one, and tasks and workers are not about the timers and the listeners. -/
structure EventLoop.Sane {n : ℕ} (c : ServerFds) (s : EventLoop n) : Prop where
  queue : Holds s.queue s.queue.waiting
  tcpTimer : s.tcpTimerFd ∉ [c.tcpPublicFd, c.erlangTcpFd, c.udpFd, c.udpTimerFd, c.gcTimerFd]
  registered : ∀ fd i, s.interest fd = some i → i.Allowed (s.own c) c.udpFd fd
  nodup : (s.batch.map EpollEvent.fd).Nodup
  real : ∀ e ∈ s.batch, e.fd ≠ -1
  outputs : ∀ e ∈ s.batch, e.output = true → e.fd ∉ s.own c ∧ e.fd ≠ c.udpFd
  tasks : ∀ task ∈ s.queue.waiting, ∀ fd ∈ task.subject c, fd ∉ s.own c
  workers : ∀ w, ∀ fd ∈ (s.phase w).about c, fd ∉ s.own c

/-! ## The queue -/

theorem waiting_eq {queue : TaskQueue} {waiting : List WorkerTask} (h : Holds queue waiting) :
    queue.waiting = waiting := by
  have hcount : queue.count.toNat = waiting.length := by
    rw [h.count, Int.toNat_natCast]
  refine List.ext_getElem ?_ fun i hi hi' => ?_
  · rw [TaskQueue.waiting, List.length_map, List.length_range, hcount]
  · simp only [TaskQueue.waiting, List.getElem_map, List.getElem_range]
    exact h.cells i hi'

section Queue

variable {queue : TaskQueue} (h : Holds queue queue.waiting)

include h

theorem waiting_push (task : WorkerTask) :
    Holds (threadPoolPushTask queue task).1 (threadPoolPushTask queue task).1.waiting ∧
      (threadPoolPushTask queue task).1.waiting =
        if queue.count < maxQueue then queue.waiting ++ [task] else queue.waiting := by
  have hpush := (holds_push h task).2
  have heq := waiting_eq hpush
  have hroom : queue.count < maxQueue ↔ queue.waiting.length < 1024 := by
    rw [h.count, maxQueue]
    omega
  refine ⟨heq ▸ hpush, heq.trans ?_⟩
  rw [fifoStep, if_congr hroom rfl rfl]
  split <;> rfl

/-- Nothing waits, or the first task is delivered. -/
theorem waiting_pop : (workerThread queue).2 = .waiting ∨ ∃ task waiting,
    queue.waiting = task :: waiting ∧ (workerThread queue).2 = .delivered task ∧
      Holds (workerThread queue).1 (workerThread queue).1.waiting ∧
        (workerThread queue).1.waiting = waiting := by
  obtain ⟨hout, hpop⟩ := holds_pop h
  have heq := waiting_eq hpop
  cases hwaiting : queue.waiting with
  | nil =>
    rw [hwaiting] at hout
    exact Or.inl hout
  | cons task waiting =>
    rw [hwaiting] at hout hpop heq
    exact Or.inr ⟨task, waiting, rfl, hout, heq ▸ hpop, heq⟩

end Queue

/-! ## The interest list -/

section Interest

variable (list : InterestList) (fd fd' : Int32)

theorem any_rearm : (rearmEpollFd list fd fd').any (fun i => !i.armed) =
    if fd' = fd then false else (list fd').any fun i => !i.armed := by
  unfold rearmEpollFd
  cases hfd : list fd with
  | some i =>
    dsimp only
    rw [Function.update_apply]
    split <;> rfl
  | none =>
    dsimp only
    split
    · rename_i he
      rw [he, hfd]
      rfl
    · rfl

theorem any_remove : (removeFromEpollInterestList list fd fd').any (fun i => !i.armed) =
    if fd' = fd then false else (list fd').any fun i => !i.armed := by
  unfold removeFromEpollInterestList
  rw [Function.update_apply]
  split <;> rfl

/-- A new registration is armed. -/
theorem any_add {events : Interest} (h : events.armed = true) :
    (addToEpollInterestList list fd events fd').any (fun i => !i.armed) =
      (list fd').any fun i => !i.armed := by
  unfold addToEpollInterestList
  cases hfd : list fd with
  | some i => rfl
  | none =>
    dsimp only
    rw [Function.update_apply]
    split
    · rename_i he
      rw [he, hfd, Option.any_some, Option.any_none, h]
      rfl
    · rfl

end Interest

/-! ## Counting -/

section Counting

variable {n : ℕ} {c : ServerFds} {s : EventLoop n}

theorem count_filterMap_cons {α : Type} (f : α → Option Int32) (x : α) (xs : List α) (fd : Int32) :
    ((x :: xs).filterMap f).count fd = (f x).toList.count fd + (xs.filterMap f).count fd := by
  cases hx : f x with
  | none =>
    rw [List.filterMap_cons_none hx]
    exact (Nat.zero_add _).symm
  | some y =>
    rw [List.filterMap_cons_some hx, List.count_cons, Option.toList_some, List.count_singleton]
    exact Nat.add_comm _ _

theorem count_toList (o : Option Int32) (fd : Int32) :
    o.toList.count fd = if o = some fd then 1 else 0 := by
  cases o with
  | none => rfl
  | some x =>
    rw [Option.toList_some, List.count_singleton]
    simp only [beq_iff_eq, Option.some.injEq]

/-- A worker changes its phase. -/
theorem sum_setPhase (phase : Fin n → WorkerPhase) (w : Fin n) (p : WorkerPhase) (fd : Int32) :
    (∑ w', ((Function.update phase w p w').subject c).toList.count fd) +
        ((phase w).subject c).toList.count fd =
      (∑ w', ((phase w').subject c).toList.count fd) + (p.subject c).toList.count fd := by
  have hsplit := fun f : Fin n → ℕ => (Finset.add_sum_erase Finset.univ f (Finset.mem_univ w)).symm
  have hrest :
      ∑ w' ∈ Finset.univ.erase w, ((Function.update phase w p w').subject c).toList.count fd =
        ∑ w' ∈ Finset.univ.erase w, ((phase w').subject c).toList.count fd := by
    refine Finset.sum_congr rfl fun w' hw' => ?_
    rw [Function.update_of_ne (Finset.ne_of_mem_erase hw')]
  rw [hsplit fun w' => ((Function.update phase w p w').subject c).toList.count fd,
    hsplit fun w' => ((phase w').subject c).toList.count fd, hrest, Function.update_self]
  omega

/-- A worker has as much to do with a descriptor as there is to do. -/
theorem le_outstanding (w : Fin n) {fd : Int32} (h : (s.phase w).subject c = some fd) :
    1 ≤ s.outstanding c fd := by
  have hle := Finset.single_le_sum (f := fun w => ((s.phase w).subject c).toList.count fd)
    (fun _ _ => Nat.zero_le _) (Finset.mem_univ w)
  rw [h, Option.toList_some, List.count_singleton_self] at hle
  unfold EventLoop.outstanding EventLoop.attended
  omega

end Counting

end ResourceManager
