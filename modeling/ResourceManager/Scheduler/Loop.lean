import ResourceManager.Scheduler.Requests
import ResourceManager.Library.Runs
import Mathlib.Logic.Function.Basic

/-!
# The receive loop of `job_scheduler.erl`

`init/3` is the body of the loop for one message, `receive` the selective receive from the
mailbox, and `schedulerStep` runs the loop and the processes of `simulate_load` in any order,
with messages that arrive at any time. What `erlang:unique_integer` and `rand:uniform` return
are parameters.
-/

namespace ResourceManager.Scheduler

open Library.Runs

/-! ## The state -/

/-- What the map records for a job. -/
inductive JobStatus where
  | dispatched
  | pending
  | granted
deriving DecidableEq

/-- The map `State`: the keys are two atoms and the identifiers of jobs. -/
structure State where
  receiverPid : Option Pid
  senderPid : Option Pid
  jobs : ℤ → Option JobStatus

/-- `State#{JobId => status}` and `maps:put`. -/
def State.put (state : State) (jobId : ℤ) (status : JobStatus) : State :=
  { state with jobs := Function.update state.jobs jobId (some status) }

/-- `maps:remove`. -/
def State.remove (state : State) (jobId : ℤ) : State :=
  { state with jobs := Function.update state.jobs jobId none }

/-- The messages for the sender process. -/
inductive Directive where
  | getNodes
  | jobDirective (jobId : ℤ) (kind : Kind) (packet : List Char)
deriving DecidableEq

/-- What an iteration does besides its result. A process gets what it reads of `State`. -/
inductive Effect where
  | sends (pid : Pid) (directive : Directive)
  | simulateLoad (jobId : ℤ) (senderPid : Option Pid)
  /-- A process that sends the directive after `RETRY_DELAY`. -/
  | resends (pid : Pid) (directive : Directive)
  | requestNodes (pid : Pid)
  | stateTick
deriving DecidableEq

/-- How the body of `init/3` ends: with a call of `init/3`, an exception or `halt()`. -/
inductive Outcome where
  | continues (state : State)
  | crashes
  | halts

/-- `calls` counts the calls of `erlang:unique_integer` so far. -/
structure Iteration where
  outcome : Outcome
  effects : List Effect
  calls : ℕ

/-- The results of the calls of `erlang:unique_integer([positive])`. -/
structure UniqueInteger where
  value : ℕ → ℤ
  positive : ∀ n, 0 < value n
  injective : Function.Injective value

instance : Inhabited UniqueInteger where
  default :=
    { value := fun n => (n : ℤ) + 1
      positive := fun n => by omega
      injective := fun m n h => by
        dsimp only at h
        omega }

/-- What the loop is started with, and what its built-in functions return: the draws of a
job are those of its call of `unique_integer`. -/
structure Setup where
  nRequests : ℤ
  env : Env
  unique : UniqueInteger
  draws : ℕ → Draws

variable (c : Setup)

/-! ## One message -/

/-- The accumulator of the fold over `lists:seq(1, NRequests)`. -/
structure Dispatch where
  state : State
  effects : List Effect
  calls : ℕ

/-- The function that the fold applies. -/
def dispatchJob (nodes : List Node) (senderId : Pid) (acc : Dispatch) : Dispatch :=
  let jobId := c.unique.value acc.calls
  let jobRequest := (generateJobRequest (c.draws acc.calls) jobId nodes c.env).1
  { state := acc.state.put jobId .dispatched
    effects := acc.effects ++ [.sends senderId (.jobDirective jobId .request jobRequest)]
    calls := acc.calls + 1 }

/-- The fold of `dispatchJob`, `n` times. -/
def dispatchJobs (nodes : List Node) (senderId : Pid) (n : ℕ) (acc : Dispatch) : Dispatch :=
  (List.range n).foldl (fun acc _ => dispatchJob c nodes senderId acc) acc

/-- What one step of the fold keeps, the fold keeps. -/
theorem dispatchJobs_invariant {c : Setup} {nodes : List Node} {senderId : Pid}
    (P : Dispatch → Prop) (hP : ∀ acc, P acc → P (dispatchJob c nodes senderId acc)) (n : ℕ)
    {acc : Dispatch} (h : P acc) : P (dispatchJobs c nodes senderId n acc) :=
  @run_invariant_all _ _ (fun acc (_ : ℕ) => dispatchJob c nodes senderId acc) P
    (fun acc _ => hP acc) (List.range n) acc h

/-- The clause for `{node_records, NodeRecordList}`. There is no list from `1` to a number
below `0`, no `rand:uniform(0)`, and no request without a sender. -/
def handleNodeRecords (calls : ℕ) (state : State) (nodes : List Node) : Iteration :=
  if c.nRequests < 0 then ⟨.crashes, [], calls⟩
  else if c.nRequests = 0 then ⟨.continues state, [], calls⟩
  else
    match nodes, state.senderPid with
    | [], _ => ⟨.crashes, [], calls + 1⟩
    | _, none => ⟨.crashes, [], calls + 1⟩
    | nodes, some senderId =>
      let acc := dispatchJobs c nodes senderId c.nRequests.toNat ⟨state, [], calls⟩
      ⟨.continues acc.state, acc.effects, acc.calls⟩

/-- The clauses of `case handle_packet(Packet) of`. Those for the reports of the sender are
among them. -/
def handleResult (calls : ℕ) (state : State) : Term → Iteration
  | .nodeRecords nodes => handleNodeRecords c calls state nodes
  | .jobGranted jobId =>
    match state.jobs jobId with
    | some .pending | some .dispatched =>
      let state := state.put jobId .granted
      ⟨.continues state, [.simulateLoad jobId state.senderPid], calls⟩
    | some .granted => ⟨.continues state, [], calls⟩
    | none => ⟨.continues state, [], calls⟩
  | .jobDenied jobId => ⟨.continues (state.remove jobId), [], calls⟩
  | .jobTimeout jobId => ⟨.continues (state.remove jobId), [], calls⟩
  | .okJob jobId .request =>
    if state.jobs jobId = some .dispatched then ⟨.continues (state.put jobId .pending), [], calls⟩
    else ⟨.continues state, [], calls⟩
  | .okJob _ .release => ⟨.continues state, [], calls⟩
  | .errorJob jobId .request _ =>
    if state.jobs jobId = some .dispatched then ⟨.continues (state.remove jobId), [], calls⟩
    else ⟨.continues state, [], calls⟩
  | .errorJob jobId .release packet =>
    match state.senderPid with
    | none => ⟨.crashes, [], calls⟩
    | some senderId =>
      ⟨.continues state, [.resends senderId (.jobDirective jobId .release packet)], calls⟩
  | .skip _ => ⟨.continues state, [], calls⟩
  | _ => ⟨.crashes, [], calls⟩

/-- The body of `init/3` for a message; `none` when no clause of the `receive` matches. -/
def init (calls : ℕ) (state : State) : Term → Option Iteration
  | .receiverPid receiverId =>
    some ⟨.continues { state with receiverPid := some receiverId }, [], calls⟩
  | .senderPid senderId =>
    some ⟨.continues { state with senderPid := some senderId },
      [.requestNodes senderId, .stateTick], calls⟩
  | .jobRelease jobId => some ⟨.continues (state.remove jobId), [], calls⟩
  | .dumpState => some ⟨.continues state, [], calls⟩
  | .packetReceived packet => some (handleResult c calls state (handlePacket packet))
  | .okGetNodes => some ⟨.continues state, [], calls⟩
  | .error _ => some ⟨.halts, [], calls⟩
  | _ => none

/-! ## The mailbox -/

/-- The selective receive: the first message that a clause matches, the iteration, and the
mailbox without the message. -/
def receive (calls : ℕ) (state : State) : List Term → Option (Term × Iteration × List Term)
  | [] => none
  | msg :: mailbox =>
    match init c calls state msg with
    | some iteration => some (msg, iteration, mailbox)
    | none => (receive calls state mailbox).map fun r => (r.1, r.2.1, msg :: r.2.2)

/-! ## The loop and its processes -/

/-- What can be seen of the loop: the messages that it has taken from the mailbox, and the
effects, its own and those of its processes. -/
inductive SchedulerObs where
  | took (msg : Term)
  | did (effect : Effect)

/-- A process of `simulate_load` is in `working` until it has sent `JOB_RELEASE`, and then in
`notifying` until it has told the scheduler. The last observation is the first. -/
structure System where
  loop : Outcome
  mailbox : List Term
  calls : ℕ
  working : List (ℤ × Option Pid)
  notifying : List ℤ
  seen : List SchedulerObs

inductive SchedulerEvent where
  /-- A message arrives. -/
  | deliver (msg : Term)
  /-- The loop takes a message. -/
  | receive
  /-- A process of `simulate_load` has slept and sends `JOB_RELEASE`. -/
  | execute (i : ℕ)
  /-- It sends `{job_release, JobId}`. -/
  | notify (i : ℕ)
  /-- A linked process has ended with an error. -/
  | exit

/-- The processes that an iteration spawns. -/
def newLoads (effects : List Effect) : List (ℤ × Option Pid) :=
  effects.filterMap fun
    | .simulateLoad jobId senderPid => some (jobId, senderPid)
    | _ => none

/-- `"JOB_RELEASE " ++ integer_to_list(JobId) ++ "\n"` -/
def jobReleaseLine (jobId : ℤ) : List Char := "JOB_RELEASE ".toList ++ integerToList jobId ++ ['\n']

namespace System

/-- An iteration of the loop, if there is a message for it. -/
def iterate (s : System) : System :=
  match s.loop with
  | .continues state =>
    match receive c s.calls state s.mailbox with
    | none => s
    | some (msg, iteration, mailbox) =>
      { s with
        loop := iteration.outcome
        mailbox := mailbox
        calls := iteration.calls
        working := s.working ++ newLoads iteration.effects
        seen := (iteration.effects.map .did).reverse ++ .took msg :: s.seen }
  | _ => s

/-- An exit signal ends the loop. -/
def crash (s : System) : System :=
  match s.loop with
  | .continues _ => { s with loop := .crashes }
  | _ => s

/-- `simulate_load` up to the message for the sender. Without a sender it fails, and the
scheduler with it. -/
def execute (s : System) (i : ℕ) : System :=
  match s.loop, s.working[i]? with
  | .halts, _ => s
  | _, none => s
  | _, some (_, none) => { s with working := s.working.eraseIdx i }.crash
  | _, some (jobId, some senderId) =>
    { s with
      working := s.working.eraseIdx i
      notifying := s.notifying ++ [jobId]
      seen :=
        .did (.sends senderId (.jobDirective jobId .release (jobReleaseLine jobId))) :: s.seen }

/-- The end of `simulate_load`. -/
def notify (s : System) (i : ℕ) : System :=
  match s.loop, s.notifying[i]? with
  | .halts, _ => s
  | _, none => s
  | _, some jobId =>
    { s with notifying := s.notifying.eraseIdx i, mailbox := s.mailbox ++ [.jobRelease jobId] }

/-- `init/2`. -/
def start : System where
  loop := .continues ⟨none, none, fun _ => none⟩
  mailbox := []
  calls := 0
  working := []
  notifying := []
  seen := []

end System

def schedulerStep (s : System) : SchedulerEvent → System
  | .deliver msg => { s with mailbox := s.mailbox ++ [msg] }
  | .receive => s.iterate c
  | .execute i => s.execute i
  | .notify i => s.notify i
  | .exit => s.crash

end ResourceManager.Scheduler
