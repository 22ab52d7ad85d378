import ResourceManager.Cluster.System
import ResourceManager.Comms.Messages
import ResourceManager.Coordinator.Stage
import ResourceManager.Inventory.Events

/-!
# What the handlers put in an outbox

A coordinator sends requests to addresses and notices to the owners of its jobs; a node sends
answers to descriptors.
-/

namespace ResourceManager

open HashTable LocalNode

/-! ## Coordinators -/

/-- A request routed by address, or a notice for a descriptor with `P`. -/
inductive FromCoordinator (P : UInt32 → Prop) : OutMsg → Prop
  | request (ip port) {m : Message} (hm : m.Requests) : FromCoordinator P (.toAddr ip port m)
  | notice {socket} {m : Message} (hm : m.isNotice = true) (h : P socket) :
      FromCoordinator P (.toFd socket m)

/-- The owners of the stored jobs have `P`, and so have the addressees of the notices. -/
structure Addresses (P : UInt32 → Prop) (state : OwnedJobs × List OutMsg) : Prop where
  owners : ∀ i job, state.1.job i = some job → P job.ownerSocket
  outbox : ∀ m ∈ state.2, FromCoordinator P m

namespace Addresses

variable {P : UInt32 → Prop} {state : OwnedJobs × List OutMsg}

/-- The outbox is empty. -/
theorem nil {jobs : OwnedJobs} (h : ∀ i job, jobs.job i = some job → P job.ownerSocket) :
    Addresses P (jobs, []) :=
  ⟨h, fun _ hm => absurd hm List.not_mem_nil⟩

theorem add (h : Addresses P state) {m : OutMsg} (hm : FromCoordinator P m) :
    Addresses P (state.1, addToOutbox state.2 m) := by
  refine ⟨h.owners, fun m' hm' => ?_⟩
  rcases mem_addToOutbox hm' with hm' | rfl
  · exact h.outbox m' hm'
  · exact hm

/-- The descriptor that `get_job_owner_socket` returns, which is 0 without a job. -/
theorem owner (h : Addresses P state) (hzero : P 0) (i : UInt32) :
    P (getJobOwnerSocket state.1 i) := by
  unfold getJobOwnerSocket
  cases hjob : state.1.job i with
  | none => exact hzero
  | some job => exact h.owners i job hjob

theorem rollback (h : Addresses P state) (hzero : P 0) {notice : Option (UInt32 → Message)}
    (hnotice : ∀ msg ∈ notice, ∀ i, (msg i).isNotice = true) (i : UInt32) :
    Addresses P (rollback (fun _ => false) notice state i) := by
  constructor
  · intro j job hj
    rw [job_rollback] at hj
    split at hj
    · cases hj
    · exact h.owners j job hj
  · intro m hm
    rw [outbox_rollback] at hm
    rcases mem_foldl_addToOutbox hm with hm | hm
    · exact h.outbox m hm
    rcases List.mem_append.mp hm with hm | hm
    · obtain ⟨p, _, rfl⟩ := List.mem_map.mp hm
      exact .request _ _ (.release i p.type p.quantity)
    · obtain ⟨msg, hmsg, rfl⟩ := List.mem_map.mp hm
      exact .notice (hnotice msg (Option.mem_toList.mp hmsg) i) (h.owner hzero i)

theorem timeoutLoop (hzero : P 0) : ∀ {ids : List UInt32} {state : OwnedJobs × List OutMsg},
    Addresses P state → Addresses P (timeoutLoop ids state)
  | [], _, h => h
  | i :: ids, state, h => by
    rw [ResourceManager.timeoutLoop]
    split
    · exact h
    · refine timeoutLoop hzero (h.rollback hzero ?_ i)
      rintro msg hmsg i
      cases hmsg
      rfl

theorem dispatchNextReserve (h : Addresses P state) (i : UInt32) :
    Addresses P (dispatchNextReserve state.1 i state.2) := by
  constructor
  · intro j job hj
    rw [job_dispatchNextReserve] at hj
    split at hj
    · obtain ⟨old, hold, rfl⟩ := Option.map_eq_some_iff.mp hj
      rw [ownerSocket_dispatch]
      exact h.owners j old hold
    · exact h.owners j job hj
  · unfold ResourceManager.dispatchNextReserve
    split
    · exact h.outbox
    · rename_i p _
      exact (h.add (.request _ _ (.reserve i p.type p.quantity))).outbox

theorem markPetitionAsGranted {jobs : OwnedJobs} (h : Addresses P (jobs, [])) (i : UInt32) (ip : Ip)
    (port : UInt32) : Addresses P ((markPetitionAsGranted jobs i ip port).1, []) := by
  by_cases hexp : ∃ job, jobs.job i = some job ∧ job.Expects ip port
  · obtain ⟨job, hjob, hexp⟩ := hexp
    rw [mark_accepted hjob hexp]
    refine nil fun j job' hj => ?_
    rw [job_update] at hj
    split at hj
    · obtain ⟨old, hold, rfl⟩ := Option.map_eq_some_iff.mp hj
      exact h.owners j old hold
    · exact h.owners j job' hj
  · rw [mark_ignored fun job hjob hx => hexp ⟨job, hjob, hx⟩]
    exact h

theorem handleGranted {jobs : OwnedJobs} (h : Addresses P (jobs, [])) (hzero : P 0) (ip : Ip)
    (port i : UInt32) : Addresses P (handleGranted jobs ip port i []) := by
  have hmark := h.markPetitionAsGranted i ip port
  unfold ResourceManager.handleGranted
  split
  · exact h
  dsimp only
  split
  · exact hmark.add (.notice rfl (hmark.owner hzero i))
  split
  · exact hmark.dispatchNextReserve i
  · exact hmark

theorem handleJobRequest {jobs : OwnedJobs} (h : Addresses P (jobs, [])) (now : Int)
    {socket : UInt32} (hsocket : P socket) (i : UInt32) (tokens : List ResourceToken) :
    Addresses P (handleJobRequest jobs now socket i tokens []) := by
  constructor
  · intro j job hj
    rw [job_handleJobRequest] at hj
    split at hj
    · cases hj
      rw [ownerSocket_dispatch]
      exact hsocket
    · exact h.owners j job hj
  · unfold ResourceManager.handleJobRequest ResourceManager.dispatchNextReserve
    dsimp only
    split
    · exact h.outbox
    · rename_i p _
      exact (h.add (.request _ _ (.reserve i p.type p.quantity))).outbox

theorem handleJobRelease {jobs : OwnedJobs} (h : Addresses P (jobs, [])) (hzero : P 0) (i : UInt32) :
    Addresses P (handleJobRelease jobs i []) :=
  h.rollback hzero (fun _ hmsg => absurd hmsg (Option.not_mem_none _)) i

theorem onReply {jobs : OwnedJobs} (h : Addresses P (jobs, [])) (hzero : P 0) (a : Addr)
    (m : Message) : Addresses P (onReply jobs a m) := by
  cases m with
  | granted n => exact h.handleGranted hzero a.ip a.port (scanUnsigned n)
  | denied i =>
    have hnotice : ∀ msg ∈ some Message.jobDenied, ∀ i, (msg i).isNotice = true := by
      rintro msg hmsg i
      cases hmsg
      rfl
    exact h.rollback hzero hnotice i
  | reserve | release | jobGranted | jobDenied | jobTimeout | line => exact h

theorem onTimer {jobs : OwnedJobs} (h : Addresses P (jobs, [])) (hzero : P 0) (now : Int) :
    Addresses P (onTimer jobs now) :=
  timeoutLoop hzero h

end Addresses

/-! ## Nodes -/

/-- The answers of a node, routed by descriptor. -/
theorem answers_onRequest (n : LocalNode) (k : UInt32) (rand : Nat → Nat) (m : Message) :
    ∀ m' ∈ (onRequest n k rand m).2, m'.targetIp = none ∧ m'.message.Answers := by
  have hgranted : ∀ j : UInt32, Message.Answers (.granted j.toNat) := by
    intro j
    have hlt : (j.toNat : ℤ) < 2 ^ 32 := by exact_mod_cast j.toNat_lt
    exact .granted _ (by omega) hlt
  cases m with
  | reserve j t q =>
    have hreserved := reserved_handleReserve n k j (some t) q []
    rw [onRequest]
    generalize handleReserve n k j (some t) q [] = result at hreserved
    cases hreserved with
    | refused =>
      intro m' hm
      rw [addToOutbox_nil, List.mem_singleton] at hm
      subst hm
      exact ⟨rfl, .denied j⟩
    | queued => exact fun _ hm => absurd hm List.not_mem_nil
    | taken =>
      intro m' hm
      rw [addToOutbox_nil, List.mem_singleton] at hm
      subst hm
      exact ⟨rfl, hgranted j⟩
  | release j t q =>
    obtain ⟨gs, n', hrun, _⟩ := handleRelease_spec n rand k j []
    rw [onRequest, hrun]
    intro m' hm
    rcases mem_foldl_addToOutbox hm with hm | hm
    · cases hm
    · obtain ⟨g, _, rfl⟩ := List.mem_map.mp hm
      have hlow := Int32.le_toInt g.jobId.toInt32
      have hhigh := Int32.toInt_lt g.jobId.toInt32
      exact ⟨rfl, .granted _ (by omega) (by omega)⟩
  | granted | denied | jobGranted | jobDenied | jobTimeout | line =>
    exact fun _ hm => absurd hm List.not_mem_nil

/-! ## Packets -/

variable {C : Type}

/-- A packet carries a request to a node or an answer to a coordinator. -/
def Packet.Proper : Packet C → Prop
  | .request _ _ m => m.Requests
  | .reply _ _ m => m.Answers

theorem proper_sent {P : UInt32 → Prop} {state : OwnedJobs × List OutMsg} (h : Addresses P state)
    (c : C) : ∀ pkt ∈ sent c state.2, pkt.Proper := by
  intro pkt hpkt
  obtain ⟨m, hm, he⟩ := List.mem_filterMap.mp hpkt
  obtain ⟨ip, hip, rfl⟩ := Option.map_eq_some_iff.mp he
  cases h.outbox m hm with
  | request ip port hrequest => exact hrequest
  | notice => cases hip

theorem proper_replies {w : Wiring C} {a : Addr} {outbox : List OutMsg}
    (h : ∀ m ∈ outbox, m.targetIp = none ∧ m.message.Answers) :
    ∀ pkt ∈ replies w a outbox, pkt.Proper := by
  intro pkt hpkt
  obtain ⟨m, hm, he⟩ := List.mem_filterMap.mp hpkt
  split at he
  · cases he
  · obtain ⟨c, _, rfl⟩ := Option.map_eq_some_iff.mp he
    exact (h m hm).2

namespace Cluster

def Proper (s : Cluster C) : Prop := ∀ pkt ∈ s.net, pkt.Proper

namespace Proper

variable {s : Cluster C} (h : s.Proper)

include h

theorem drop (i : Nat) : (s.drop i).Proper := fun pkt hpkt => h pkt (List.mem_of_mem_eraseIdx hpkt)

theorem atNode {w : Wiring C} {a : Addr} {result : LocalNode × List OutMsg}
    (hresult : ∀ m ∈ result.2, m.targetIp = none ∧ m.message.Answers) :
    (s.atNode w a result).Proper := by
  intro pkt hpkt
  rcases List.mem_append.mp hpkt with hpkt | hpkt
  · exact h pkt hpkt
  · exact proper_replies hresult pkt hpkt

variable [DecidableEq C]

theorem atCoordinator {P : UInt32 → Prop} {c : C} {result : OwnedJobs × List OutMsg}
    (hresult : Addresses P result) : (s.atCoordinator c result).Proper := by
  intro pkt hpkt
  rcases List.mem_append.mp hpkt with hpkt | hpkt
  · exact h pkt hpkt
  · exact proper_sent hresult c pkt hpkt

theorem step {w : Wiring C} (act : Action C) : (s.step w act).Proper := by
  have hnil : ∀ jobs, Addresses (fun _ => True) (jobs, []) := fun jobs => .nil fun _ _ _ => trivial
  cases act with
  | jobRequest c now k j ps => exact h.atCoordinator ((hnil _).handleJobRequest now trivial j ps)
  | jobRelease c j => exact h.atCoordinator ((hnil _).handleJobRelease trivial j)
  | timeout c now => exact h.atCoordinator ((hnil _).onTimer trivial now)
  | deliver i rand =>
    rw [Cluster.step]
    split
    · exact h
    · exact (h.drop i).atNode (answers_onRequest _ _ _ _)
    · exact (h.drop i).atCoordinator ((hnil _).onReply trivial _ _)

end Proper

end Cluster

end ResourceManager
