import ResourceManager.Library.BoundedFifo
import Mathlib.Tactic

/-!
# The tasks of the workers: `thread_pool.c`

`thread_pool_push_task` and the part of `worker_thread` that takes a task run under the lock
of the queue, so a run of the pool is a sequence of these two steps, by any threads in any
order. A worker that finds no task waits on the condition variable, which leaves the queue
as it is. The queue is a circular array with two indices and a counter; it refines a bounded
queue (`taskQueue_refines_fifo`).
-/

namespace ResourceManager

open Library.Runs Library.BoundedFifo

/-- `TaskType`. -/
inductive TaskType where
  | tcpClientMsg
  | udpDiscovery
  | udpAnnounce
  | garbageCollector
deriving DecidableEq

structure WorkerTask where
  fd : Int32
  type : TaskType
deriving DecidableEq

/-- `MAX_QUEUE`. -/
def maxQueue : ℤ := 1024

/-- `TaskQueue`, without its lock and its condition variable. -/
structure TaskQueue where
  tasks : ℤ → WorkerTask
  head : ℤ
  tail : ℤ
  count : ℤ

/-- The queue that `init_thread_pool` leaves; the array holds whatever it held. -/
def initThreadPool (tasks : ℤ → WorkerTask) : TaskQueue where
  tasks := tasks
  head := 0
  tail := 0
  count := 0

/-- `thread_pool_push_task`. -/
def threadPoolPushTask (queue : TaskQueue) (task : WorkerTask) : TaskQueue × Output WorkerTask :=
  if queue.count < maxQueue then
    ({ queue with
        tasks := Function.update queue.tasks queue.tail task
        tail := (queue.tail + 1).tmod maxQueue
        count := queue.count + 1 }, .accepted task)
  else (queue, .discarded task)

/-- The critical section of `worker_thread`. -/
def workerThread (queue : TaskQueue) : TaskQueue × Output WorkerTask :=
  if queue.count = 0 then (queue, .waiting)
  else
    let currentTask := queue.tasks queue.head
    ({ queue with
        head := (queue.head + 1).tmod maxQueue
        count := queue.count - 1 }, .delivered currentTask)

def taskQueueStep (queue : TaskQueue) : Event WorkerTask → TaskQueue × Output WorkerTask
  | .push task => threadPoolPushTask queue task
  | .pop => workerThread queue

/-! ## The queue that the array holds -/

/-- The indices are those of the array, and the counter is the distance between them. -/
structure TaskQueue.Consistent (queue : TaskQueue) : Prop where
  head : 0 ≤ queue.head ∧ queue.head < maxQueue
  tail : 0 ≤ queue.tail ∧ queue.tail < maxQueue
  count : 0 ≤ queue.count ∧ queue.count ≤ maxQueue
  distance : queue.tail = (queue.head + queue.count) % maxQueue

/-- The tasks `waiting` are in the array, the oldest one at `head`. -/
structure Holds (queue : TaskQueue) (waiting : List WorkerTask) : Prop where
  consistent : queue.Consistent
  count : queue.count = waiting.length
  cells : Circular queue.tasks maxQueue queue.head waiting

theorem maxQueue_pos : 0 < maxQueue := by decide

/-- The next index, as C computes it. -/
theorem next_index {i : ℤ} (h : 0 ≤ i) : (i + 1).tmod maxQueue = (i + 1) % maxQueue :=
  Int.tmod_eq_emod_of_nonneg (by omega)

theorem index_mem (i : ℤ) : 0 ≤ i % maxQueue ∧ i % maxQueue < maxQueue :=
  ⟨Int.emod_nonneg _ maxQueue_pos.ne', Int.emod_lt_of_pos _ maxQueue_pos⟩

theorem holds_init (tasks : ℤ → WorkerTask) : Holds (initThreadPool tasks) [] where
  consistent := ⟨⟨le_rfl, maxQueue_pos⟩, ⟨le_rfl, maxQueue_pos⟩, ⟨le_rfl, maxQueue_pos.le⟩, rfl⟩
  count := rfl
  cells := circular_nil _ _ _

section Steps

variable {queue : TaskQueue} {waiting : List WorkerTask}

theorem holds_push (h : Holds queue waiting) (task : WorkerTask) :
    (threadPoolPushTask queue task).2 = (fifoStep 1024 waiting (.push task)).2 ∧
      Holds (threadPoolPushTask queue task).1 (fifoStep 1024 waiting (.push task)).1 := by
  obtain ⟨hconsistent, hcount, hcells⟩ := h
  have hroom : queue.count < maxQueue ↔ waiting.length < 1024 := by
    rw [hcount, maxQueue]
    omega
  rw [threadPoolPushTask, fifoStep, if_congr hroom rfl rfl]
  split
  · rename_i hlt
    have hlt' := hroom.mpr hlt
    have hnext := next_index hconsistent.tail.1
    refine ⟨rfl, ⟨hconsistent.head, ?_, ⟨?_, ?_⟩, ?_⟩, ?_, ?_⟩
    · rw [hnext]
      exact index_mem _
    · exact Int.add_nonneg hconsistent.count.1 Int.one_nonneg
    · exact hlt'
    · rw [hnext, hconsistent.distance, Int.emod_add_emod, Int.add_assoc]
    · rw [List.length_append, List.length_singleton, Nat.cast_add, Nat.cast_one, hcount]
    · have hpush := hcells.push (by rwa [← hcount]) task
      rwa [← hcount, ← hconsistent.distance] at hpush
  · exact ⟨rfl, hconsistent, hcount, hcells⟩

theorem holds_pop (h : Holds queue waiting) :
    (workerThread queue).2 = (fifoStep 1024 waiting .pop).2 ∧
      Holds (workerThread queue).1 (fifoStep 1024 waiting .pop).1 := by
  obtain ⟨hconsistent, hcount, hcells⟩ := h
  unfold workerThread
  cases waiting with
  | nil =>
    have hnone : queue.count = 0 := hcount
    rw [if_pos hnone]
    exact ⟨rfl, hconsistent, hcount, hcells⟩
  | cons task waiting =>
    rw [List.length_cons, Nat.cast_add, Nat.cast_one] at hcount
    have hnext := next_index hconsistent.head.1
    have hsome : queue.count ≠ 0 := by omega
    rw [if_neg hsome]
    refine ⟨congrArg Output.delivered (hcells.first hconsistent.head.1 hconsistent.head.2),
      ⟨?_, hconsistent.tail, ⟨?_, ?_⟩, ?_⟩, ?_, ?_⟩
    · rw [hnext]
      exact index_mem _
    · dsimp only
      omega
    · have hle := hconsistent.count.2
      dsimp only
      omega
    · rw [hnext, Int.emod_add_emod, hconsistent.distance]
      congr 1
      ring
    · dsimp only [fifoStep]
      omega
    · rw [hnext]
      exact hcells.pop

/-- The array does what the bounded queue does. -/
theorem holds_step (h : Holds queue waiting) (e : Event WorkerTask) :
    (taskQueueStep queue e).2 = (fifoStep 1024 waiting e).2 ∧
      Holds (taskQueueStep queue e).1 (fifoStep 1024 waiting e).1 := by
  cases e with
  | push task => exact holds_push h task
  | pop => exact holds_pop h

end Steps

/-! ## Runs of the pool -/

/-- The queue after a run, and what has been seen. -/
def poolRun (tasks : ℤ → WorkerTask) (es : List (Event WorkerTask)) : TaskQueue :=
  final taskQueueStep (initThreadPool tasks) es

def poolOutputs (tasks : ℤ → WorkerTask) (es : List (Event WorkerTask)) :
    List (Output WorkerTask) :=
  outputs taskQueueStep (initThreadPool tasks) es

theorem pool_simulates (tasks : ℤ → WorkerTask) (es : List (Event WorkerTask)) :
    poolOutputs tasks es = outputs (fifoStep 1024) [] es ∧
      Holds (poolRun tasks es) (final (fifoStep 1024) [] es) :=
  outputs_eq_of_simulation (R := Holds) (fun _ _ e h => holds_step h e) (holds_init tasks)

/-- In every run: the pool shows what a bounded queue shows. The accepted tasks are the
delivered ones and then those that wait, whose number is the counter, and as many more
workers take exactly these. A push that follows is discarded exactly when `MAX_QUEUE`
accepted tasks wait. The indices and the counter are consistent. -/
theorem taskQueue_refines_fifo (tasks : ℤ → WorkerTask) (es : List (Event WorkerTask)) :
    poolOutputs tasks es = outputs (fifoStep 1024) [] es ∧
      (∃ waiting : List WorkerTask, (waiting.length : ℤ) = (poolRun tasks es).count ∧
        accepted (poolOutputs tasks es) = delivered (poolOutputs tasks es) ++ waiting ∧
        delivered (poolOutputs tasks (es ++ List.replicate waiting.length .pop)) =
          accepted (poolOutputs tasks es) ∧
        ∀ task, (threadPoolPushTask (poolRun tasks es) task).2 =
          if (waiting.length : ℤ) = maxQueue then .discarded task else .accepted task) ∧
      (poolRun tasks es).Consistent := by
  obtain ⟨houts, hholds⟩ := pool_simulates tasks es
  have hconserved := accepted_eq 1024 es []
  rw [List.nil_append, ← houts] at hconserved
  refine ⟨houts, ⟨_, hholds.count.symm, hconserved, ?_, fun task => ?_⟩, hholds.consistent⟩
  · rw [(pool_simulates tasks _).1, outputs_append, delivered_append, delivered_drain, ← houts,
      hconserved]
  · have hle := hholds.consistent.count.2
    unfold threadPoolPushTask
    rw [hholds.count] at hle ⊢
    split
    · rename_i hlt
      rw [if_neg (by omega)]
    · rename_i hfull
      rw [if_pos (by omega)]

end ResourceManager
