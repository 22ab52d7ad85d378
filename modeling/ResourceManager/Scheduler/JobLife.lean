import ResourceManager.Scheduler.Loop
import ResourceManager.Library.Permits

/-!
# The life of a job

The dispatch of a job opens a permit to run it, `simulate_load` uses the permit, and a
denial, a timeout or a release revokes it. In every run the log of the scheduler is lawful
for every identifier, and no identifier is dispatched twice: so a job runs once at most, and
not after it has ended (`job_runs_once`).
-/

namespace ResourceManager.Scheduler

open Library.Runs Library.Permits

/-! ## The permit of a job -/

/-- What an effect means for the permit of a job. -/
def effectMark (id : ℤ) : Effect → Option Mark
  | .sends _ (.jobDirective jobId .request _) => if jobId = id then some .opens else none
  | .simulateLoad jobId _ => if jobId = id then some .uses else none
  | _ => none

/-- What a result of `handle_packet` means for the permit of a job. -/
def resultMark (id : ℤ) : Term → Option Mark
  | .jobDenied jobId => if jobId = id then some .revokes else none
  | .jobTimeout jobId => if jobId = id then some .revokes else none
  | _ => none

/-- What a message means for the permit of a job. -/
def messageMark (id : ℤ) : Term → Option Mark
  | .packetReceived packet => resultMark id (handlePacket packet)
  | .jobRelease jobId => if jobId = id then some .revokes else none
  | _ => none

def jobMark (id : ℤ) : SchedulerObs → Option Mark
  | .took msg => messageMark id msg
  | .did effect => effectMark id effect

/-- The loop sends a request for the job to the sender process. -/
def dispatches (id : ℤ) : SchedulerObs → Bool
  | .did (.sends _ (.jobDirective jobId .request _)) => jobId = id
  | _ => false

/-- A process of `simulate_load` is spawned for the job. -/
def spawns (id : ℤ) : SchedulerObs → Bool
  | .did (.simulateLoad jobId _) => jobId = id
  | _ => false

/-- The loop takes a message that says that the job is denied, timed out or released. -/
def ends (id : ℤ) : SchedulerObs → Bool
  | .took (.packetReceived packet) =>
    handlePacket packet = .jobDenied id || handlePacket packet = .jobTimeout id
  | .took (.jobRelease jobId) => jobId = id
  | _ => false

/-- A `JOB_RELEASE` is sent to the sender process, or will be after a delay. -/
def releases (id : ℤ) : SchedulerObs → Bool
  | .did (.sends _ (.jobDirective jobId .release _)) => jobId = id
  | .did (.resends _ (.jobDirective jobId .release _)) => jobId = id
  | _ => false

section Marks

variable {id : ℤ} {o : SchedulerObs} {m : Mark}

theorem resultMark_eq_some {t : Term} : resultMark id t = some m ↔
    m = .revokes ∧ (t = .jobDenied id ∨ t = .jobTimeout id) := by
  cases t <;> simp [resultMark, eq_comm, and_comm]

theorem messageMark_eq_some {msg : Term} : messageMark id msg = some m ↔
    m = .revokes ∧ ends id (.took msg) = true := by
  cases msg with
  | packetReceived packet =>
    rw [messageMark, resultMark_eq_some]
    simp [ends]
  | jobRelease jobId => simp [messageMark, ends, and_comm, @eq_comm _ m]
  | _ => simp [messageMark, ends]

theorem jobMark_eq_opens : jobMark id o = some .opens ↔ dispatches id o = true := by
  rcases o with msg | ⟨pid, _ | ⟨jobId, _ | _, packet⟩⟩ | _ | _ | _ | _ <;>
    simp [jobMark, effectMark, messageMark_eq_some, dispatches]

theorem jobMark_eq_uses : jobMark id o = some .uses ↔ spawns id o = true := by
  rcases o with msg | ⟨pid, _ | ⟨jobId, _ | _, packet⟩⟩ | _ | _ | _ | _ <;>
    simp [jobMark, effectMark, messageMark_eq_some, spawns]

theorem jobMark_eq_revokes : jobMark id o = some .revokes ↔ ends id o = true := by
  rcases o with msg | ⟨pid, _ | ⟨jobId, _ | _, packet⟩⟩ | _ | _ | _ | _ <;>
    simp [jobMark, effectMark, messageMark_eq_some, ends]

end Marks

/-! ## What the steps keep -/

/-- The state of a job allows a process only with an open permit, and only identifiers that
`unique_integer` has returned have been dispatched. -/
structure Life (unique : UniqueInteger) (id : ℤ) (state : State) (seen : List SchedulerObs)
    (calls : ℕ) : Prop where
  isOpen : ∀ status, state.jobs id = some status → status ≠ .granted → IsOpen (jobMark id) seen
  lawful : Lawful (jobMark id) seen
  used : ∀ o ∈ seen, jobMark id o = some .opens → ∃ k < calls, unique.value k = id
  once : count (jobMark id) .opens seen ≤ 1

section Life

variable {unique : UniqueInteger} {id : ℤ} {state state' : State} {seen : List SchedulerObs}
  {calls calls' : ℕ} {o : SchedulerObs}

theorem Life.calls_le (h : Life unique id state seen calls) (hle : calls ≤ calls') :
    Life unique id state seen calls' := by
  refine ⟨h.isOpen, h.lawful, fun o ho hmark => ?_, h.once⟩
  obtain ⟨k, hk, hvalue⟩ := h.used o ho hmark
  exact ⟨k, by omega, hvalue⟩

/-- The job may be granted or removed, or pending after it was dispatched. -/
theorem Life.state_change (h : Life unique id state seen calls)
    (hjobs : ∀ status, state'.jobs id = some status → status ≠ .granted →
      ∃ old, state.jobs id = some old ∧ old ≠ .granted) : Life unique id state' seen calls := by
  refine ⟨fun status hstatus hne => ?_, h.lawful, h.used, h.once⟩
  obtain ⟨old, hold, hne'⟩ := hjobs status hstatus hne
  exact h.isOpen old hold hne'

theorem Life.state_congr (h : Life unique id state seen calls)
    (hjobs : state'.jobs id = state.jobs id) : Life unique id state' seen calls :=
  h.state_change fun status hstatus hne => ⟨status, hjobs ▸ hstatus, hne⟩

/-- An observation other than a dispatch. -/
theorem Life.cons (h : Life unique id state seen calls) (ho : jobMark id o ≠ some .opens)
    (huse : jobMark id o = some .uses → IsOpen (jobMark id) seen)
    (hopen : ∀ status, state'.jobs id = some status → status ≠ .granted →
      IsOpen (jobMark id) (o :: seen)) : Life unique id state' (o :: seen) calls := by
  refine ⟨hopen, ⟨huse, h.lawful⟩, fun p hp hmark => ?_, ?_⟩
  · rcases List.mem_cons.mp hp with rfl | hp
    · exact absurd hmark ho
    · exact h.used p hp hmark
  · rw [count_cons_of_ne ho]
    exact h.once

/-- An observation that is not about the job. -/
theorem Life.quiet (h : Life unique id state seen calls) (ho : jobMark id o = none) :
    Life unique id state (o :: seen) calls := by
  apply h.cons
  · rw [ho]
    rintro ⟨⟩
  · rw [ho]
    rintro ⟨⟩
  · intro status hstatus hne
    rw [isOpen_cons_of_none ho]
    exact h.isOpen status hstatus hne

/-- The job ends. -/
theorem Life.revoke (h : Life unique id state seen calls) (ho : jobMark id o = some .revokes)
    (hjobs : state'.jobs id = none) : Life unique id state' (o :: seen) calls := by
  apply h.cons
  · rw [ho]
    rintro ⟨⟩
  · rw [ho]
    rintro ⟨⟩
  · intro status hstatus
    rw [hjobs] at hstatus
    cases hstatus

/-- A process is spawned for a job that has not been granted before. -/
theorem Life.use (h : Life unique id state seen calls) (ho : jobMark id o = some .uses)
    {status : JobStatus} (hstatus : state.jobs id = some status) (hne : status ≠ .granted)
    (hjobs : state'.jobs id = some .granted) : Life unique id state' (o :: seen) calls := by
  apply h.cons
  · rw [ho]
    rintro ⟨⟩
  · exact fun _ => h.isOpen status hstatus hne
  · intro status' hstatus' hne'
    rw [hjobs] at hstatus'
    exact absurd (Option.some.inj hstatus').symm hne'

/-- The identifier is new, so the job has not been dispatched before. -/
theorem Life.dispatch (h : Life unique id state seen calls) (hid : unique.value calls = id)
    (ho : jobMark id o = some .opens) : Life unique id state' (o :: seen) (calls + 1) := by
  refine ⟨fun _ _ _ => (isOpen_cons_of_some ho).mpr rfl, ⟨fun huse => ?_, h.lawful⟩,
    fun p _ _ => ?_, ?_⟩
  · rw [ho] at huse
    cases huse
  · exact ⟨calls, Nat.lt_succ_self calls, hid⟩
  · have hnone : count (jobMark id) .opens seen = 0 := by
      rw [count, List.countP_eq_zero]
      intro p hp hmark
      obtain ⟨k, hk, hvalue⟩ := h.used p hp (of_decide_eq_true hmark)
      have heq := unique.injective (hvalue.trans hid.symm)
      omega
    rw [count_cons_of_eq ho, hnone]

end Life

/-! ## One message -/

section Message

variable {c : Setup} {id : ℤ} {state : State} {seen : List SchedulerObs} {calls : ℕ}
  {o : SchedulerObs} {msg t : Term} {iteration : Iteration}

theorem jobs_put (state : State) (jobId : ℤ) (status : JobStatus) :
    (state.put jobId status).jobs id = if id = jobId then some status else state.jobs id :=
  Function.update_apply state.jobs jobId (some status) id

theorem jobs_remove (state : State) (jobId : ℤ) :
    (state.remove jobId).jobs id = if id = jobId then none else state.jobs id :=
  Function.update_apply state.jobs jobId none id

/-- One step of the fold. -/
theorem life_dispatchJob {acc : Dispatch} (nodes : List Node) (senderId : Pid)
    (h : Life c.unique id acc.state ((acc.effects.map .did).reverse ++ seen) acc.calls) :
    Life c.unique id (dispatchJob c nodes senderId acc).state
      (((dispatchJob c nodes senderId acc).effects.map .did).reverse ++ seen)
      (dispatchJob c nodes senderId acc).calls := by
  unfold dispatchJob
  dsimp only
  rw [List.map_append, List.reverse_append]
  simp only [List.map_cons, List.map_nil, List.reverse_singleton, List.cons_append, List.nil_append]
  by_cases hid : c.unique.value acc.calls = id
  · apply h.dispatch hid
    exact if_pos hid
  · refine ((h.quiet ?_).state_congr ?_).calls_le (Nat.le_succ _)
    · exact if_neg hid
    · rw [jobs_put, if_neg fun he => hid he.symm]

theorem life_dispatchJobs (nodes : List Node) (senderId : Pid) (n : ℕ) {acc : Dispatch}
    (h : Life c.unique id acc.state ((acc.effects.map .did).reverse ++ seen) acc.calls) :
    Life c.unique id (dispatchJobs c nodes senderId n acc).state
      (((dispatchJobs c nodes senderId n acc).effects.map .did).reverse ++ seen)
      (dispatchJobs c nodes senderId n acc).calls :=
  dispatchJobs_invariant (fun acc => Life c.unique id acc.state
    ((acc.effects.map .did).reverse ++ seen) acc.calls)
    (fun _ hacc => life_dispatchJob nodes senderId hacc) n h

/-- After an iteration: the state that the loop continues with, if it does, is right. -/
def Iteration.Right (iteration : Iteration) (c : Setup) (id : ℤ) (seen : List SchedulerObs) :
    Prop :=
  ∃ state, (∀ state', iteration.outcome = .continues state' → state' = state) ∧
    Life c.unique id state ((iteration.effects.map .did).reverse ++ seen) iteration.calls

theorem right_continues (h : Life c.unique id state seen calls) :
    Iteration.Right ⟨.continues state, [], calls⟩ c id seen :=
  ⟨state, fun _ he => (Outcome.continues.inj he).symm, h⟩

theorem right_crashes {calls' : ℕ} (h : Life c.unique id state seen calls) (hle : calls ≤ calls') :
    Iteration.Right ⟨.crashes, [], calls'⟩ c id seen :=
  ⟨state, fun _ he => Outcome.noConfusion he, h.calls_le hle⟩

theorem right_handleNodeRecords (h : Life c.unique id state seen calls) (nodes : List Node) :
    (handleNodeRecords c calls state nodes).Right c id seen := by
  unfold handleNodeRecords
  split
  · exact right_crashes h (Nat.le_refl calls)
  split
  · exact right_continues h
  split
  · exact right_crashes h (Nat.le_succ calls)
  · exact right_crashes h (Nat.le_succ calls)
  · rename_i senderId _ _
    refine ⟨_, fun _ he => (Outcome.continues.inj he).symm, ?_⟩
    exact life_dispatchJobs _ senderId _ h

/-- A clause that removes the job when it ends. -/
theorem right_remove (h : Life c.unique id state seen calls) {jobId : ℤ}
    (ho : jobMark id o = if jobId = id then some .revokes else none) :
    Iteration.Right ⟨.continues (state.remove jobId), [], calls⟩ c id (o :: seen) := by
  apply right_continues
  by_cases hid : jobId = id
  · rw [if_pos hid] at ho
    apply h.revoke ho
    rw [jobs_remove, if_pos hid.symm]
  · rw [if_neg hid] at ho
    apply (h.quiet ho).state_congr
    rw [jobs_remove, if_neg fun he => hid he.symm]

theorem right_jobGranted (h : Life c.unique id state seen calls) (ho : jobMark id o = none)
    (jobId : ℤ) : (handleResult c calls state (.jobGranted jobId)).Right c id (o :: seen) := by
  have hgrant : ∀ status, state.jobs jobId = some status → status ≠ .granted →
      Iteration.Right ⟨.continues (state.put jobId .granted),
        [.simulateLoad jobId (state.put jobId .granted).senderPid], calls⟩ c id (o :: seen) := by
    intro status hstatus hne
    refine ⟨_, fun _ he => (Outcome.continues.inj he).symm, ?_⟩
    show Life _ _ _ (.did (.simulateLoad jobId _) :: o :: seen) _
    by_cases hid : jobId = id
    · subst hid
      refine (h.quiet ho).use ?_ hstatus hne ?_
      · exact if_pos rfl
      · rw [jobs_put, if_pos rfl]
    · refine ((h.quiet ho).quiet ?_).state_congr ?_
      · exact if_neg hid
      · rw [jobs_put, if_neg fun he => hid he.symm]
  unfold handleResult
  dsimp only
  split
  · rename_i hstatus
    exact hgrant _ hstatus (by decide)
  · rename_i hstatus
    exact hgrant _ hstatus (by decide)
  · exact right_continues (h.quiet ho)
  · exact right_continues (h.quiet ho)

/-- The clauses for the reports of the sender touch only jobs that are dispatched. -/
theorem life_dispatched (h : Life c.unique id state seen calls) {state' : State} {jobId : ℤ}
    (hdispatched : state.jobs jobId = some .dispatched)
    (hother : id ≠ jobId → state'.jobs id = state.jobs id) : Life c.unique id state' seen calls := by
  apply h.state_change
  intro status hstatus hne
  by_cases hid : id = jobId
  · subst hid
    exact ⟨_, hdispatched, by decide⟩
  · rw [hother hid] at hstatus
    exact ⟨status, hstatus, hne⟩

theorem right_handleResult (h : Life c.unique id state seen calls)
    (ho : jobMark id o = resultMark id t) :
    (handleResult c calls state t).Right c id (o :: seen) := by
  cases t with
  | nodeRecords nodes => exact right_handleNodeRecords (h.quiet ho) nodes
  | jobGranted jobId => exact right_jobGranted h ho jobId
  | jobDenied jobId => exact right_remove h ho
  | jobTimeout jobId => exact right_remove h ho
  | okJob jobId kind =>
    have hquiet := h.quiet ho
    cases kind with
    | release => exact right_continues hquiet
    | request =>
      unfold handleResult
      dsimp only
      split
      · rename_i hdispatched
        apply right_continues
        refine life_dispatched hquiet hdispatched fun hne => ?_
        rw [jobs_put, if_neg hne]
      · exact right_continues hquiet
  | errorJob jobId kind packet =>
    have hquiet := h.quiet ho
    cases kind with
    | request =>
      unfold handleResult
      dsimp only
      split
      · rename_i hdispatched
        apply right_continues
        refine life_dispatched hquiet hdispatched fun hne => ?_
        rw [jobs_remove, if_neg hne]
      · exact right_continues hquiet
    | release =>
      unfold handleResult
      dsimp only
      split
      · exact right_crashes hquiet (Nat.le_refl calls)
      · exact ⟨state, fun _ he => (Outcome.continues.inj he).symm, hquiet.quiet rfl⟩
  | skip reason => exact right_continues (h.quiet ho)
  | _ => exact right_crashes (h.quiet ho) (Nat.le_refl calls)

theorem right_init (h : Life c.unique id state seen calls)
    (hinit : init c calls state msg = some iteration) :
    iteration.Right c id (.took msg :: seen) := by
  cases msg with
  | packetReceived packet =>
    cases hinit
    exact right_handleResult h rfl
  | jobRelease jobId =>
    cases hinit
    exact right_remove h rfl
  | receiverPid receiverId =>
    cases hinit
    exact right_continues ((h.quiet rfl).state_congr rfl)
  | senderPid senderId =>
    cases hinit
    refine ⟨_, fun _ he => (Outcome.continues.inj he).symm, ?_⟩
    exact (((h.quiet rfl).quiet rfl).quiet rfl).state_congr rfl
  | dumpState =>
    cases hinit
    exact right_continues (h.quiet rfl)
  | okGetNodes =>
    cases hinit
    exact right_continues (h.quiet rfl)
  | error reason =>
    cases hinit
    exact ⟨state, fun _ he => Outcome.noConfusion he, h.quiet rfl⟩
  | _ => cases hinit

/-! ## Effects and processes -/

/-- The effects of the fold are requests. -/
theorem effects_dispatchJobs (nodes : List Node) (senderId : Pid) (n : ℕ) (acc : Dispatch)
    (hacc : ∀ e ∈ acc.effects,
      ∃ jobId packet, e = .sends senderId (.jobDirective jobId .request packet)) :
    ∀ e ∈ (dispatchJobs c nodes senderId n acc).effects,
      ∃ jobId packet, e = .sends senderId (.jobDirective jobId .request packet) := by
  refine dispatchJobs_invariant (fun acc => ∀ e ∈ acc.effects,
    ∃ jobId packet, e = .sends senderId (.jobDirective jobId .request packet)) ?_ n hacc
  intro acc hacc e he
  rcases List.mem_append.mp he with he | he
  · exact hacc e he
  · exact ⟨_, _, List.mem_singleton.mp he⟩

/-- The loop itself never sends a `JOB_RELEASE`. -/
theorem releases_handleResult (hresult : IsResult t) :
    ∀ e ∈ (handleResult c calls state t).effects, releases id (.did e) = false := by
  intro e he
  cases t with
  | nodeRecords nodes =>
    unfold handleResult handleNodeRecords at he
    dsimp only at he
    split at he
    · cases he
    split at he
    · cases he
    split at he
    · cases he
    · cases he
    · obtain ⟨jobId, packet, rfl⟩ := effects_dispatchJobs _ _ _ _ (fun e he => by cases he) e he
      rfl
  | jobGranted jobId =>
    unfold handleResult at he
    dsimp only at he
    split at he
    · rw [List.mem_singleton.mp he]
      rfl
    · rw [List.mem_singleton.mp he]
      rfl
    · cases he
    · cases he
  | jobDenied jobId => cases he
  | jobTimeout jobId => cases he
  | skip reason => cases he
  | _ => exact hresult.elim

theorem releases_init (hinit : init c calls state msg = some iteration) :
    ∀ e ∈ iteration.effects, releases id (.did e) = false := by
  intro e he
  cases msg with
  | packetReceived packet =>
    cases hinit
    exact releases_handleResult (isResult_handlePacket packet) e he
  | senderPid senderId =>
    cases hinit
    rcases List.mem_cons.mp he with rfl | he
    · rfl
    · rw [List.mem_singleton.mp he]
      rfl
  | jobRelease | receiverPid | dumpState | okGetNodes | error =>
    cases hinit
    cases he
  | _ => cases hinit

theorem jobMark_took_ne_uses (id : ℤ) (msg : Term) : jobMark id (.took msg) ≠ some .uses := by
  rw [Ne, jobMark_eq_uses]
  exact Bool.false_ne_true

theorem jobMark_sends_ne_uses (id : ℤ) (pid : Pid) (directive : Directive) :
    jobMark id (.did (.sends pid directive)) ≠ some .uses := by
  rw [Ne, jobMark_eq_uses]
  exact Bool.false_ne_true

/-- Every process comes from a use of the permit. -/
theorem countP_newLoads (id : ℤ) (effects : List Effect) :
    (newLoads effects).countP (fun p => p.1 = id) =
      count (jobMark id) .uses (effects.map .did) := by
  induction effects with
  | nil => rfl
  | cons e effects ih =>
    rw [List.map_cons]
    cases e with
    | simulateLoad jobId senderPid =>
      show List.countP _ ((jobId, senderPid) :: newLoads effects) = _
      rw [List.countP_cons]
      by_cases hid : jobId = id
      · rw [if_pos (decide_eq_true hid), count_cons_of_eq, ih]
        exact if_pos hid
      · rw [if_neg (by simpa using hid), Nat.add_zero, count_cons_of_ne, ih]
        rw [show jobMark id (.did (.simulateLoad jobId senderPid)) = none from if_neg hid]
        rintro ⟨⟩
    | sends pid directive =>
      rw [count_cons_of_ne (jobMark_sends_ne_uses id pid directive), ← ih]
      rfl
    | resends | requestNodes | stateTick =>
      rw [count_cons_of_ne (by rintro ⟨⟩), ← ih]
      rfl

end Message

/-! ## Every run -/

theorem receive_eq {c : Setup} {calls : ℕ} {state : State} {msg : Term} {iteration : Iteration} :
    ∀ {mailbox rest : List Term}, receive c calls state mailbox = some (msg, iteration, rest) →
      init c calls state msg = some iteration
  | [], _, h => by cases h
  | m :: mailbox, rest, h => by
    unfold receive at h
    split at h
    · rename_i hinit
      cases h
      exact hinit
    · obtain ⟨⟨msg', iteration', rest'⟩, hreceive, he⟩ := Option.map_eq_some_iff.mp h
      cases he
      exact receive_eq hreceive

/-- What holds of a job in every state reached. -/
structure JobInv (c : Setup) (id : ℤ) (s : System) : Prop where
  alive : ∃ state, (∀ state', s.loop = .continues state' → state' = state) ∧
    Life c.unique id state s.seen s.calls
  loads : s.seen.countP (releases id) + s.working.countP (fun p => p.1 = id) ≤
    count (jobMark id) .uses s.seen

section Runs

variable {c : Setup} {id : ℤ} {s : System}

theorem jobInv_start : JobInv c id .start where
  alive := by
    refine ⟨⟨none, none, fun _ => none⟩, fun _ he => (Outcome.continues.inj he).symm, ?_⟩
    refine ⟨fun _ he => ?_, trivial, fun _ ho => ?_, Nat.zero_le 1⟩
    · cases he
    · cases ho
  loads := Nat.le_refl 0

theorem jobInv_crash (h : JobInv c id s) : JobInv c id s.crash := by
  unfold System.crash
  split
  · obtain ⟨⟨state, _, hlife⟩, hloads⟩ := h
    exact ⟨⟨state, fun _ he => Outcome.noConfusion he, hlife⟩, hloads⟩
  · exact h

theorem jobInv_iterate (h : JobInv c id s) : JobInv c id (s.iterate c) := by
  unfold System.iterate
  split
  · rename_i state hloop
    split
    · exact h
    · rename_i msg iteration mailbox hreceive
      have hinit := receive_eq hreceive
      obtain ⟨⟨_, hstate, hlife⟩, hloads⟩ := h
      obtain rfl := hstate state hloop
      refine ⟨right_init hlife hinit, ?_⟩
      have hreleases : (iteration.effects.map SchedulerObs.did).countP (releases id) = 0 := by
        rw [List.countP_eq_zero]
        intro o ho
        obtain ⟨e, he, rfl⟩ := List.mem_map.mp ho
        rw [releases_init hinit e he]
        exact Bool.false_ne_true
      have hcount : count (jobMark id) .uses ((iteration.effects.map .did).reverse ++
          .took msg :: s.seen) = (newLoads iteration.effects).countP (fun p => p.1 = id) +
            count (jobMark id) .uses s.seen := by
        rw [countP_newLoads, count, List.countP_append, List.countP_reverse]
        exact congrArg (_ + ·) (count_cons_of_ne (jobMark_took_ne_uses id msg))
      dsimp only
      rw [hcount, List.countP_append, List.countP_append, List.countP_reverse, hreleases,
        List.countP_cons_of_neg Bool.false_ne_true]
      omega
  · exact h

/-- A process that sends its `JOB_RELEASE` is no longer working. -/
theorem jobInv_execute (h : JobInv c id s) (i : ℕ) : JobInv c id (s.execute i) := by
  unfold System.execute
  split
  · exact h
  · exact h
  · rename_i jobId hget
    apply jobInv_crash
    refine ⟨h.alive, Nat.le_trans (Nat.add_le_add_left ?_ _) h.loads⟩
    exact (List.eraseIdx_sublist s.working i).countP_le
  · rename_i jobId senderId hget _
    obtain ⟨⟨state, hstate, hlife⟩, hloads⟩ := h
    refine ⟨⟨state, hstate, hlife.quiet rfl⟩, ?_⟩
    obtain ⟨hi, hget⟩ := List.getElem?_eq_some_iff.mp hget
    have hperm := (List.getElem_cons_eraseIdx_perm hi).countP_eq
      fun p : ℤ × Option Pid => p.1 = id
    rw [hget, List.countP_cons] at hperm
    dsimp only
    rw [count_cons_of_ne (jobMark_sends_ne_uses id senderId _), List.countP_cons]
    simp only [releases, decide_eq_true_eq] at hperm ⊢
    omega

theorem jobInv_notify (h : JobInv c id s) (i : ℕ) : JobInv c id (s.notify i) := by
  unfold System.notify
  split
  · exact h
  · exact h
  · exact ⟨h.alive, h.loads⟩

theorem jobInv_step (s : System) (e : SchedulerEvent) (h : JobInv c id s) :
    JobInv c id (schedulerStep c s e) := by
  cases e with
  | deliver msg => exact ⟨h.alive, h.loads⟩
  | receive => exact jobInv_iterate h
  | execute i => exact jobInv_execute h i
  | notify i => exact jobInv_notify h i
  | exit => exact jobInv_crash h

end Runs

/-- In every run, whatever messages arrive and in whatever order the processes go on: a job
runs once at most and is released once at most, it runs only after it has been dispatched,
and not after it has been dispatched and has ended. -/
theorem job_runs_once (c : Setup) (es : List SchedulerEvent) (id : ℤ) :
    (run (schedulerStep c) .start es).seen.countP (spawns id) ≤ 1 ∧
    (run (schedulerStep c) .start es).seen.countP (releases id) ≤ 1 ∧
    (∀ after o before, (run (schedulerStep c) .start es).seen = after ++ o :: before →
      spawns id o = true → ∃ p ∈ before, dispatches id p = true) ∧
    (∀ after o mid e before,
      (run (schedulerStep c) .start es).seen = after ++ o :: (mid ++ e :: before) →
      spawns id o = true → ends id e = true → ∀ p ∈ before, dispatches id p = false) := by
  obtain ⟨⟨_, _, hlife⟩, hloads⟩ : JobInv c id (run (schedulerStep c) .start es) :=
    run_invariant_all jobInv_step jobInv_start
  generalize (run (schedulerStep c) .start es).seen = seen at hlife hloads ⊢
  have huses : count (jobMark id) .uses seen ≤ 1 :=
    Nat.le_trans hlife.lawful.uses_le.1 hlife.once
  have hspawns : seen.countP (spawns id) = count (jobMark id) .uses seen := by
    apply List.countP_congr
    intro o _
    rw [decide_eq_true_iff, jobMark_eq_uses]
  refine ⟨by omega, by omega, ?_, ?_⟩
  · rintro after o before rfl ho
    obtain ⟨p, hp, hmark⟩ := hlife.lawful.opened_before (jobMark_eq_uses.mpr ho)
    exact ⟨p, hp, jobMark_eq_opens.mp hmark⟩
  · rintro after o mid e before rfl ho he p hp
    have hnot := hlife.lawful.not_opened_of_revoked (jobMark_eq_uses.mpr ho)
      (jobMark_eq_revokes.mpr he) hlife.once p hp
    rw [Ne, jobMark_eq_opens] at hnot
    exact Bool.eq_false_iff.mpr hnot

/-- A denial of an identifier that has not been used yet does not keep its job from running. -/
theorem spawned_after_denial : ¬ ∀ (c : Setup) (es : List SchedulerEvent) (id : ℤ),
    (run (schedulerStep c) .start es).seen.Pairwise fun o e =>
      ¬ (spawns id o = true ∧ ends id e = true) := by
  intro h
  have hrun := h ⟨1, .dev, default, fun _ => ⟨0, fun _ => 0, fun _ _ => 0⟩⟩
    [.deliver (.senderPid 7), .receive,
      .deliver (.packetReceived "JOB_DENIED 1".toList), .receive,
      .deliver (.packetReceived "NODES 10.0.0.2:8000:cpu:1".toList), .receive,
      .deliver (.packetReceived "JOB_GRANTED 1".toList), .receive] 1
  revert hrun
  decide +kernel

end ResourceManager.Scheduler
