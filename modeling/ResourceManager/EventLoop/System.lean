import ResourceManager.Comms.Connections
import ResourceManager.Comms.ThreadPool
import Mathlib.Algebra.BigOperators.Fin

/-!
# The event loop and its workers

The loop of `main` takes what `epoll_wait` reports and hands it to the workers as tasks. A
connection is registered with `EPOLLONESHOT`: it is not reported again until the worker that
handles it rearms it. The steps of `main`, of the workers and of the kernel are interleaved in
any order.
-/

namespace ResourceManager

open Library.BoundedFifo

/-! ## The interest list -/

/-- A registration for `EPOLLIN`, perhaps with `EPOLLOUT` and `EPOLLONESHOT`. It is not armed
when `EPOLLONESHOT` has reported it. -/
structure Interest where
  output : Bool
  oneshot : Bool
  armed : Bool
deriving DecidableEq

namespace Interest

/-- `EPOLLIN` -/
def input : Interest := ⟨false, false, true⟩

/-- `EPOLLIN | EPOLLONESHOT` -/
def inputOnce : Interest := ⟨false, true, true⟩

/-- `EPOLLIN | EPOLLOUT` -/
def connecting : Interest := ⟨true, false, true⟩

/-- The registration has been reported. -/
def reported (i : Interest) : Interest := if i.oneshot then { i with armed := false } else i

end Interest

/-- What is registered for a descriptor. -/
abbrev InterestList := Int32 → Option Interest

/-- `add_to_epoll_interest_list`. -/
def addToEpollInterestList (list : InterestList) (fd : Int32) (events : Interest) : InterestList :=
  match list fd with
  | some _ => list
  | none => Function.update list fd (some events)

/-- `remove_from_epoll_interest_list`, and `close`, which removes a descriptor as well. -/
def removeFromEpollInterestList (list : InterestList) (fd : Int32) : InterestList :=
  Function.update list fd none

/-- `rearm_epoll_fd`, which fails silently. -/
def rearmEpollFd (list : InterestList) (fd : Int32) : InterestList :=
  match list fd with
  | some _ => Function.update list fd (some .inputOnce)
  | none => list

/-- `struct epoll_event`. -/
structure EpollEvent where
  fd : Int32
  input : Bool
  output : Bool
deriving DecidableEq

/-! ## The state -/

/-- The descriptors that `init_server` opens, apart from the timer of the listeners. -/
structure ServerFds where
  tcpPublicFd : Int32
  erlangTcpFd : Int32
  udpFd : Int32
  udpTimerFd : Int32
  gcTimerFd : Int32
  distinct : [-1, tcpPublicFd, erlangTcpFd, udpFd, udpTimerFd, gcTimerFd].Nodup

inductive WorkerPhase where
  | waiting
  | serving (task : WorkerTask)
  /-- The handler has returned; the descriptor is to be rearmed. -/
  | returned (fd : Int32)
  /-- The handler has closed the descriptor, which is to be rearmed nevertheless. -/
  | closed (fd : Int32)
deriving DecidableEq

/-- `batch` are the events of the last `epoll_wait` that have not been dispatched. -/
structure EventLoop (n : ℕ) where
  tcpTimerFd : Int32
  interest : InterestList
  batch : List EpollEvent
  queue : TaskQueue
  phase : Fin n → WorkerPhase

/-- After `init_server` and `init_thread_pool`. -/
def EventLoop.start (c : ServerFds) (tcpTimerFd : Int32) (tasks : ℤ → WorkerTask) (n : ℕ) :
    EventLoop n where
  tcpTimerFd := tcpTimerFd
  interest fd :=
    if fd = tcpTimerFd ∨ fd = c.udpTimerFd ∨ fd = c.gcTimerFd then some .input
    else if fd = c.udpFd then some .inputOnce
    else none
  batch := []
  queue := initThreadPool tasks
  phase _ := .waiting

/-! ## Steps -/

namespace EventLoop

variable {n : ℕ} (c : ServerFds) (s : EventLoop n)

/-- `thread_pool_push_task`. -/
def push (task : WorkerTask) : EventLoop n :=
  { s with queue := (threadPoolPushTask s.queue task).1 }

/-- `handle_tcp_timer_expiration`. -/
def handleTcpTimerExpiration : EventLoop n :=
  let interest := removeFromEpollInterestList s.interest s.tcpTimerFd
  let interest := addToEpollInterestList interest c.tcpPublicFd .input
  { s with
    tcpTimerFd := -1
    interest := addToEpollInterestList interest c.erlangTcpFd .input }

/-- `handle_new_tcp_connection`, when `accept` returns `clientFd`. -/
def handleNewTcpConnection (clientFd : Int32) : EventLoop n :=
  if clientFd ≠ -1 ∧ clientFd.toInt < maxFds then
    { s with interest := addToEpollInterestList s.interest clientFd .inputOnce }
  else s

/-- The end of `send_outbox`, in any thread, when `connect_to_tcp_node` returns `newFd`. -/
def connect (newFd : Int32) : EventLoop n :=
  if newFd ≠ -1 ∧ newFd.toInt < maxFds then
    { s with interest := addToEpollInterestList s.interest newFd .connecting }
  else s

/-- `handle_connection_success`, when `getsockopt` says whether the connection stands. -/
def handleConnectionSuccess (currFd : Int32) (connected : Bool) : EventLoop n :=
  if connected then { s with interest := rearmEpollFd s.interest currFd }
  else { s with interest := removeFromEpollInterestList s.interest currFd }

/-- One iteration of the loop over the events. -/
def dispatchEvent (e : EpollEvent) (clientFd : Int32) (connected : Bool) : EventLoop n :=
  if e.fd = s.tcpTimerFd then s.handleTcpTimerExpiration c
  else if e.fd = c.udpTimerFd then s.push ⟨-1, .udpAnnounce⟩
  else if e.fd = c.gcTimerFd then s.push ⟨-1, .garbageCollector⟩
  else if e.fd = c.udpFd then s.push ⟨c.udpFd, .udpDiscovery⟩
  else if e.fd = c.tcpPublicFd ∨ e.fd = c.erlangTcpFd then s.handleNewTcpConnection clientFd
  else
    let s := if e.input then s.push ⟨e.fd, .tcpClientMsg⟩ else s
    if e.output then s.handleConnectionSuccess e.fd connected else s

def setPhase (w : Fin n) (phase : WorkerPhase) : EventLoop n :=
  { s with phase := Function.update s.phase w phase }

/-- A worker takes a task, if there is one. -/
def take (w : Fin n) : EventLoop n :=
  match s.phase w with
  | .waiting =>
    match workerThread s.queue with
    | (queue, .delivered task) => { s with queue := queue }.setPhase w (.serving task)
    | _ => s
  | _ => s

/-- `handle_client_message` closes the connection that it serves. -/
def close (w : Fin n) : EventLoop n :=
  match s.phase w with
  | .serving ⟨fd, .tcpClientMsg⟩ =>
    { s with interest := removeFromEpollInterestList s.interest fd }.setPhase w (.closed fd)
  | _ => s

/-- `handle_check_deadnodes` closes the connection to a dead node. -/
def closeZombie (w : Fin n) (zombieFd : Int32) : EventLoop n :=
  match s.phase w with
  | .serving ⟨_, .garbageCollector⟩ =>
    { s with interest := removeFromEpollInterestList s.interest zombieFd }
  | _ => s

/-- The handler of a task returns. -/
def finish (w : Fin n) : EventLoop n :=
  match s.phase w with
  | .serving ⟨fd, .tcpClientMsg⟩ => s.setPhase w (.returned fd)
  | .serving ⟨_, .udpDiscovery⟩ => s.setPhase w (.returned c.udpFd)
  | .serving _ => s.setPhase w .waiting
  | _ => s

/-- The worker rearms a descriptor. -/
def rearm (w : Fin n) : EventLoop n :=
  match s.phase w with
  | .returned fd | .closed fd =>
    { s with interest := rearmEpollFd s.interest fd }.setPhase w .waiting
  | _ => s

end EventLoop

inductive LoopEvent (n : ℕ) where
  /-- `epoll_wait` returns. -/
  | wait (ready : List EpollEvent)
  /-- `main` dispatches the first event of the batch. -/
  | dispatch (clientFd : Int32) (connected : Bool)
  /-- `send_outbox` registers the connection that it has opened. -/
  | connect (newFd : Int32)
  | take (w : Fin n)
  | close (w : Fin n)
  | closeZombie (w : Fin n) (zombieFd : Int32)
  | finish (w : Fin n)
  | rearm (w : Fin n)

def loopStep {n : ℕ} (c : ServerFds) (s : EventLoop n) : LoopEvent n → EventLoop n
  | .wait ready =>
    { s with
      batch := ready
      interest := fun fd =>
        if fd ∈ ready.map EpollEvent.fd then (s.interest fd).map Interest.reported
        else s.interest fd }
  | .dispatch clientFd connected =>
    match s.batch with
    | [] => s
    | e :: batch => { s with batch := batch }.dispatchEvent c e clientFd connected
  | .connect newFd => s.connect newFd
  | .take w => s.take w
  | .close w => s.close w
  | .closeZombie w zombieFd => s.closeZombie w zombieFd
  | .finish w => s.finish c w
  | .rearm w => s.rearm w

end ResourceManager
