import ResourceManager.Grid.Lines
import ResourceManager.Scheduler.JobLife
import ResourceManager.Scheduler.Outcomes

/-!
# A client and its connection

The processes of one Erlang client, `conn_handler/2` having ended: the scheduler with the
processes of its jobs, the sender and the receiver, with the directives and the lines between
them and the agent. The connection is not lost, so `gen_tcp:send` returns `ok`, and a line is
received whole.
-/

namespace ResourceManager

open Scheduler

/-! ## The processes -/

/-- `outgoing` is the mailbox of the sender process, `up` is what it has sent and the agent
has not read, and `down` are the lines on the way to the receiver process. -/
structure Client where
  scheduler : System
  outgoing : List Directive
  up : List Directive
  down : List (List Char)

/-- The messages of `conn_handler/2` have arrived. -/
def Client.connected : Client where
  scheduler := { System.start with mailbox := [.receiverPid 0, .senderPid 1] }
  outgoing := []
  up := []
  down := []

inductive ClientEvent where
  /-- The loop of the scheduler takes a message. -/
  | receive
  /-- A process of `simulate_load` sends its JOB_RELEASE. -/
  | execute (i : ℕ)
  /-- It tells the scheduler. -/
  | notify (i : ℕ)
  /-- The process `request_nodes/1` wakes up. -/
  | requestNodes
  /-- The process `state_tick/1` wakes up. -/
  | stateTick
  /-- `sender/2` handles a directive. -/
  | send
  /-- `receiver/2` receives a line. -/
  | recv

/-- The directive that an effect sends to the sender process. -/
def Scheduler.Effect.directive : Scheduler.Effect → Option Directive
  | .sends _ directive => some directive
  | _ => none

/-- The directives that have been sent to the sender process, the first one first. -/
def directives (seen : List SchedulerObs) : List Directive :=
  seen.reverse.filterMap fun
    | .did effect => effect.directive
    | .took _ => none

namespace Client

variable (c : Setup) (x : Client)

/-- A message arrives at the scheduler. -/
def deliver (msg : Term) : Client :=
  { x with scheduler := schedulerStep c x.scheduler (.deliver msg) }

/-- A step of the scheduler or of a process of a job, with what it sends. -/
def advance (e : SchedulerEvent) : Client :=
  let s := schedulerStep c x.scheduler e
  { x with
    scheduler := s
    outgoing := x.outgoing ++ directives (s.seen.take (s.seen.length - x.scheduler.seen.length)) }

end Client

def clientStep (c : Setup) (x : Client) : ClientEvent → Client
  | .receive => x.advance c .receive
  | .execute i => x.advance c (.execute i)
  | .notify i => x.advance c (.notify i)
  | .requestNodes => { x with outgoing := x.outgoing ++ [.getNodes] }
  | .stateTick => x.deliver c .dumpState
  | .send =>
    match x.outgoing with
    | [] => x
    | directive :: outgoing =>
      { x.deliver c (sender directive .ok) with outgoing := outgoing, up := x.up ++ [directive] }
  | .recv =>
    match x.down with
    | [] => x
    | line :: down => { x.deliver c (.packetReceived line) with down := down }

/-! ## One iteration of the loop -/

namespace Scheduler

/-- The directive for the job of the `k`th call of `unique_integer`. -/
def requestDirective (c : Setup) (nodes : List Node) (k : ℕ) : Directive :=
  .jobDirective (c.unique.value k) .request
    (generateJobRequest (c.draws k) (c.unique.value k) nodes c.env).1

/-- What an iteration for a message does. -/
inductive Iterates (c : Setup) (calls : ℕ) : Term → Iteration → Prop
  | dispatch {packet nodes} (senderId n outcome)
      (h : handlePacket packet = .nodeRecords nodes) :
      Iterates c calls (.packetReceived packet) ⟨outcome,
        (List.range n).map fun i => .sends senderId (requestDirective c nodes (calls + i)),
        calls + n⟩
  | spawn {packet id} (senderPid outcome) (h : handlePacket packet = .jobGranted id) :
      Iterates c calls (.packetReceived packet) ⟨outcome, [.simulateLoad id senderPid], calls⟩
  | quiet {msg} (outcome) {effects calls'} (hcalls : calls ≤ calls')
      (heffects : ∀ e ∈ effects, (∃ pid, e = .requestNodes pid) ∨ e = .stateTick) :
      Iterates c calls msg ⟨outcome, effects, calls'⟩

section Iteration

variable {c : Setup} {calls : ℕ} {state : State} {msg : Term} {iteration : Iteration}

theorem dispatchJobs_eq (nodes : List Node) (senderId : Pid) (n : ℕ) (state : State) :
    (dispatchJobs c nodes senderId n ⟨state, [], calls⟩).effects =
        (List.range n).map (fun i => .sends senderId (requestDirective c nodes (calls + i))) ∧
      (dispatchJobs c nodes senderId n ⟨state, [], calls⟩).calls = calls + n := by
  unfold dispatchJobs
  induction n with
  | zero => exact ⟨rfl, rfl⟩
  | succ n ih =>
    obtain ⟨heffects, hcalls⟩ := ih
    rw [List.range_succ, List.foldl_append, List.foldl_cons, List.foldl_nil, List.map_append]
    constructor
    · show _ ++ [Scheduler.Effect.sends senderId _] = _
      rw [heffects, hcalls]
      rfl
    · show _ + 1 = _
      rw [hcalls]
      omega

theorem iterates_continues (state : State) : Iterates c calls msg ⟨.continues state, [], calls⟩ :=
  .quiet _ (Nat.le_refl calls) fun _ he => absurd he List.not_mem_nil

theorem iterates_handleNodeRecords {packet : List Char} {nodes : List Node}
    (h : handlePacket packet = .nodeRecords nodes) (state : State) :
    Iterates c calls (.packetReceived packet) (handleNodeRecords c calls state nodes) := by
  unfold handleNodeRecords
  split
  · exact .quiet _ (Nat.le_refl calls) fun _ he => absurd he List.not_mem_nil
  split
  · exact iterates_continues state
  split
  · exact .quiet _ (Nat.le_succ calls) fun _ he => absurd he List.not_mem_nil
  · exact .quiet _ (Nat.le_succ calls) fun _ he => absurd he List.not_mem_nil
  · rename_i senderId _ _
    dsimp only
    rw [(dispatchJobs_eq _ senderId _ state).1, (dispatchJobs_eq _ senderId _ state).2]
    exact .dispatch senderId _ _ h

theorem iterates_handleResult {packet : List Char} {t : Term} (ht : handlePacket packet = t)
    (state : State) : Iterates c calls (.packetReceived packet) (handleResult c calls state t) := by
  have hresult : IsResult t := ht ▸ isResult_handlePacket packet
  cases t with
  | nodeRecords nodes => exact iterates_handleNodeRecords ht state
  | jobGranted id =>
    unfold handleResult
    dsimp only
    split
    · exact .spawn _ _ ht
    · exact .spawn _ _ ht
    · exact iterates_continues state
    · exact iterates_continues state
  | jobDenied id => exact iterates_continues _
  | jobTimeout id => exact iterates_continues _
  | skip reason => exact iterates_continues state
  | _ => exact hresult.elim

theorem iterates_init (h : init c calls state msg = some iteration) :
    Iterates c calls msg iteration := by
  cases msg with
  | packetReceived packet =>
    cases h
    exact iterates_handleResult rfl state
  | senderPid pid =>
    cases h
    refine .quiet _ (Nat.le_refl calls) fun e he => ?_
    rcases List.mem_cons.mp he with rfl | he
    · exact Or.inl ⟨pid, rfl⟩
    · exact Or.inr (List.mem_singleton.mp he)
  | receiverPid | jobRelease | dumpState | okGetNodes =>
    cases h
    exact iterates_continues _
  | error reason =>
    cases h
    exact .quiet _ (Nat.le_refl calls) fun _ he => absurd he List.not_mem_nil
  | _ => cases h

/-- The message taken is one of the mailbox, and the others stay. -/
theorem perm_of_receive {msg : Term} {iteration : Iteration} : ∀ {mailbox rest : List Term},
    receive c calls state mailbox = some (msg, iteration, rest) → mailbox.Perm (msg :: rest)
  | [], _, h => by cases h
  | m :: mailbox, rest, h => by
    unfold receive at h
    split at h
    · cases h
      exact List.Perm.refl _
    · obtain ⟨⟨msg', iteration', rest'⟩, hreceive, he⟩ := Option.map_eq_some_iff.mp h
      cases he
      exact ((perm_of_receive hreceive).cons m).trans (List.Perm.swap _ _ _)

end Iteration

/-- A step of the loop: nothing, or an iteration for a message of the mailbox. -/
inductive Consumes (c : Setup) (s : System) : System → Prop
  | idle : Consumes c s s
  | took (msg iteration rest) (hperm : s.mailbox.Perm (msg :: rest))
      (hiterates : Iterates c s.calls msg iteration) :
      Consumes c s
        { s with
          loop := iteration.outcome
          mailbox := rest
          calls := iteration.calls
          working := s.working ++ newLoads iteration.effects
          seen := (iteration.effects.map .did).reverse ++ .took msg :: s.seen }

theorem consumes_iterate (c : Setup) (s : System) : Consumes c s (s.iterate c) := by
  unfold System.iterate
  split
  · split
    · exact .idle
    · rename_i msg iteration mailbox hreceive
      exact .took msg iteration mailbox (perm_of_receive hreceive)
        (iterates_init (receive_eq hreceive))
  · exact .idle

/-- A process of `simulate_load` sends its JOB_RELEASE, or nothing is seen of it. -/
theorem execute_cases (s : System) (i : ℕ) :
    (s.execute i).mailbox = s.mailbox ∧ (s.execute i).calls = s.calls ∧
      ((s.execute i).seen = s.seen ∧ (s.execute i).working.Sublist s.working ∨
        ∃ id senderId, s.working.Perm ((id, some senderId) :: (s.execute i).working) ∧
          (s.execute i).seen =
            .did (.sends senderId (.jobDirective id .release (jobReleaseLine id))) :: s.seen) := by
  unfold System.execute
  split
  · exact ⟨rfl, rfl, Or.inl ⟨rfl, List.Sublist.refl _⟩⟩
  · exact ⟨rfl, rfl, Or.inl ⟨rfl, List.Sublist.refl _⟩⟩
  · unfold System.crash
    split
    · exact ⟨rfl, rfl, Or.inl ⟨rfl, List.eraseIdx_sublist _ i⟩⟩
    · exact ⟨rfl, rfl, Or.inl ⟨rfl, List.eraseIdx_sublist _ i⟩⟩
  · rename_i id senderId hget hloop
    obtain ⟨hi, hget⟩ := List.getElem?_eq_some_iff.mp hget
    refine ⟨rfl, rfl, Or.inr ⟨id, senderId, ?_, rfl⟩⟩
    rw [← hget]
    exact (List.getElem_cons_eraseIdx_perm hi).symm

end Scheduler

/-! ## The steps of a client -/

theorem directives_iteration (effects : List Scheduler.Effect) (msg : Term) :
    directives ((effects.map .did).reverse ++ [.took msg]) =
      effects.filterMap Scheduler.Effect.directive := by
  rw [directives, List.reverse_append, List.reverse_reverse, List.reverse_singleton,
    List.filterMap_append, List.filterMap_map]
  exact List.nil_append _

namespace Client

variable {c : Setup} {x : Client} {e : SchedulerEvent}

theorem advance_eq (new : List SchedulerObs)
    (h : (schedulerStep c x.scheduler e).seen = new ++ x.scheduler.seen) :
    x.advance c e =
      ⟨schedulerStep c x.scheduler e, x.outgoing ++ directives new, x.up, x.down⟩ := by
  have htake : (schedulerStep c x.scheduler e).seen.take
      ((schedulerStep c x.scheduler e).seen.length - x.scheduler.seen.length) = new := by
    rw [h, List.length_append, Nat.add_sub_cancel, List.take_left]
  rw [advance, htake]

end Client

/-- What a step does to the mailbox, the processes and the connection. -/
inductive ClientMove (c : Setup) (x : Client) : Client → Prop
  /-- No packet, no process and no directive about a job comes in. -/
  | quiet (s directives) (hmailbox : ∃ msgs, s.mailbox = x.scheduler.mailbox ++ msgs ∧
        ∀ packet, .packetReceived packet ∉ msgs)
      (hcalls : s.calls = x.scheduler.calls) (hworking : s.working.Sublist x.scheduler.working)
      (hdirectives : ∀ d ∈ directives, d = .getNodes) :
      ClientMove c x ⟨s, x.outgoing ++ directives, x.up, x.down⟩
  | iterate (s msg iteration) (hperm : x.scheduler.mailbox.Perm (msg :: s.mailbox))
      (hiterates : Iterates c x.scheduler.calls msg iteration) (hcalls : s.calls = iteration.calls)
      (hworking : s.working = x.scheduler.working ++ newLoads iteration.effects) :
      ClientMove c x ⟨s, x.outgoing ++ iteration.effects.filterMap Scheduler.Effect.directive, x.up,
        x.down⟩
  | release (s id senderPid) (hmailbox : s.mailbox = x.scheduler.mailbox)
      (hcalls : s.calls = x.scheduler.calls)
      (hworking : x.scheduler.working.Perm ((id, senderPid) :: s.working)) :
      ClientMove c x ⟨s, x.outgoing ++ [.jobDirective id .release (jobReleaseLine id)], x.up, x.down⟩
  | send (s directive outgoing) (hout : x.outgoing = directive :: outgoing)
      (hmailbox : s.mailbox = x.scheduler.mailbox ++ [sender directive .ok])
      (hcalls : s.calls = x.scheduler.calls) (hworking : s.working = x.scheduler.working) :
      ClientMove c x ⟨s, outgoing, x.up ++ [directive], x.down⟩
  | recv (s line down) (hdown : x.down = line :: down)
      (hmailbox : s.mailbox = x.scheduler.mailbox ++ [.packetReceived line])
      (hcalls : s.calls = x.scheduler.calls) (hworking : s.working = x.scheduler.working) :
      ClientMove c x ⟨s, x.outgoing, x.up, down⟩

namespace Client

variable {c : Setup} {x : Client}

theorem move_idle : ClientMove c x x := by
  have hmove : ClientMove c x ⟨x.scheduler, x.outgoing ++ [], x.up, x.down⟩ :=
    .quiet _ [] ⟨[], (List.append_nil _).symm, fun _ => List.not_mem_nil⟩ rfl
      (List.Sublist.refl _) fun d hd => absurd hd List.not_mem_nil
  rwa [List.append_nil] at hmove

/-- A step of a process that is seen to do nothing. -/
theorem move_unseen {e : SchedulerEvent}
    (hseen : (schedulerStep c x.scheduler e).seen = x.scheduler.seen)
    (hmailbox : ∃ msgs, (schedulerStep c x.scheduler e).mailbox = x.scheduler.mailbox ++ msgs ∧
      ∀ packet, .packetReceived packet ∉ msgs)
    (hcalls : (schedulerStep c x.scheduler e).calls = x.scheduler.calls)
    (hworking : (schedulerStep c x.scheduler e).working.Sublist x.scheduler.working) :
    ClientMove c x (x.advance c e) := by
  rw [advance_eq [] hseen]
  exact .quiet _ _ hmailbox hcalls hworking fun d hd => absurd hd List.not_mem_nil

theorem move_receive : ClientMove c x (x.advance c .receive) := by
  have hconsumes : Consumes c x.scheduler (schedulerStep c x.scheduler .receive) :=
    consumes_iterate c x.scheduler
  have hadvance := @advance_eq c x .receive
  generalize schedulerStep c x.scheduler .receive = s at hconsumes hadvance
  cases hconsumes with
  | idle =>
    rw [hadvance [] rfl]
    exact .quiet _ _ ⟨[], (List.append_nil _).symm, fun _ => List.not_mem_nil⟩ rfl
      (List.Sublist.refl _) fun d hd => absurd hd List.not_mem_nil
  | took msg iteration rest hperm hiterates =>
    rw [hadvance ((iteration.effects.map .did).reverse ++ [.took msg])
      (by rw [List.append_assoc]; rfl), directives_iteration]
    exact .iterate _ msg iteration hperm hiterates rfl rfl

theorem move_execute (i : ℕ) : ClientMove c x (x.advance c (.execute i)) := by
  obtain ⟨hmailbox, hcalls, hexecute⟩ := execute_cases x.scheduler i
  rcases hexecute with ⟨hseen, hworking⟩ | ⟨id, senderId, hworking, hseen⟩
  · refine move_unseen hseen ⟨[], ?_, fun _ => List.not_mem_nil⟩ hcalls hworking
    rw [List.append_nil]
    exact hmailbox
  · rw [advance_eq [_] (e := .execute i) hseen]
    exact .release _ id (some senderId) hmailbox hcalls hworking

theorem move_notify (i : ℕ) : ClientMove c x (x.advance c (.notify i)) := by
  have hsame : ∃ msgs, x.scheduler.mailbox = x.scheduler.mailbox ++ msgs ∧
      ∀ packet, Term.packetReceived packet ∉ msgs :=
    ⟨[], (List.append_nil _).symm, fun _ => List.not_mem_nil⟩
  have hstep : schedulerStep c x.scheduler (.notify i) = x.scheduler.notify i := rfl
  have hunseen := @move_unseen c x (.notify i)
  rw [hstep] at hunseen
  unfold System.notify at hunseen
  split at hunseen
  · exact hunseen rfl hsame rfl (List.Sublist.refl _)
  · exact hunseen rfl hsame rfl (List.Sublist.refl _)
  · refine hunseen rfl ⟨_, rfl, fun packet hmem => ?_⟩ rfl (List.Sublist.refl _)
    cases List.mem_singleton.mp hmem

end Client

theorem clientMove (c : Setup) (x : Client) (e : ClientEvent) :
    ClientMove c x (clientStep c x e) := by
  cases e with
  | receive => exact Client.move_receive
  | execute i => exact Client.move_execute i
  | notify i => exact Client.move_notify i
  | requestNodes =>
    exact .quiet x.scheduler _ ⟨[], (List.append_nil _).symm, fun _ => List.not_mem_nil⟩ rfl
      (List.Sublist.refl _) fun d hd => List.mem_singleton.mp hd
  | stateTick =>
    have hstep : clientStep c x .stateTick = ⟨schedulerStep c x.scheduler (.deliver .dumpState),
        x.outgoing ++ [], x.up, x.down⟩ := by
      rw [List.append_nil]
      rfl
    rw [hstep]
    refine .quiet _ _ ⟨_, rfl, fun packet hmem => ?_⟩ rfl (List.Sublist.refl _)
      fun d hd => absurd hd List.not_mem_nil
    cases List.mem_singleton.mp hmem
  | send =>
    rw [clientStep]
    split
    · exact Client.move_idle
    · rename_i directive outgoing hout
      exact .send _ directive outgoing hout rfl rfl rfl
  | recv =>
    rw [clientStep]
    split
    · exact Client.move_idle
    · rename_i line down hdown
      exact .recv _ line down hdown rfl rfl rfl

end ResourceManager
