import ResourceManager.Scheduler.Loop

/-!
# The reports of the sender: `sender/2`

The sender process reports each directive to the scheduler. The clauses of the scheduler for
the reports about jobs stand inside `case handle_packet(Packet) of`, where no report ever
arrives: exactly the reports about `get_nodes` are acted upon (`acted_upon_iff`), and the
others stay in the mailbox (`report_stays`).
-/

namespace ResourceManager.Scheduler

open Library.Runs

/-! ## The sender -/

/-- The result of `gen_tcp:send`. -/
inductive SendResult where
  | ok
  | error (reason : List Char)
deriving DecidableEq

/-- The message that `sender/2` sends to the scheduler after a directive. -/
def sender : Directive → SendResult → Term
  | .getNodes, .ok => .okGetNodes
  | .getNodes, .error _ => .error "get_nodes".toList
  | .jobDirective jobId kind _, .ok => .okJob jobId kind
  | .jobDirective jobId kind packet, .error _ => .errorJob jobId kind packet

/-! ## What acting upon a report means -/

/-- A clause consumes the report. Then a dispatched job is pending when its request was sent,
and gone when it was not; a release that was not sent goes back to the sender process, at
once or after a delay. -/
def ActedUpon (c : Setup) (calls : ℕ) (state : State) (report : Term) : Prop :=
  ∃ iteration, init c calls state report = some iteration ∧
    (∀ jobId, report = .okJob jobId .request → state.jobs jobId = some .dispatched →
      ∃ state', iteration.outcome = .continues state' ∧ state'.jobs jobId = some .pending) ∧
    (∀ jobId packet, report = .errorJob jobId .request packet →
      state.jobs jobId = some .dispatched →
      ∃ state', iteration.outcome = .continues state' ∧ state'.jobs jobId = none) ∧
    (∀ jobId packet senderId, report = .errorJob jobId .release packet →
      state.senderPid = some senderId →
      .sends senderId (.jobDirective jobId .release packet) ∈ iteration.effects ∨
        .resends senderId (.jobDirective jobId .release packet) ∈ iteration.effects)

/-- In every state of the scheduler, the report of a directive is acted upon exactly when the
directive is `get_nodes`. -/
theorem acted_upon_iff (c : Setup) (calls : ℕ) (state : State) (directive : Directive)
    (result : SendResult) :
    ActedUpon c calls state (sender directive result) ↔ directive = .getNodes := by
  constructor
  · rintro ⟨iteration, hinit, _⟩
    cases directive with
    | getNodes => rfl
    | jobDirective jobId kind packet => cases result <;> cases hinit
  · rintro rfl
    cases result with
    | ok => exact ⟨_, rfl, by rintro _ ⟨⟩, by rintro _ _ ⟨⟩, by rintro _ _ _ ⟨⟩⟩
    | error reason => exact ⟨_, rfl, by rintro _ ⟨⟩, by rintro _ _ ⟨⟩, by rintro _ _ _ ⟨⟩⟩

/-- A release could not be sent, and its report is left in the mailbox. -/
theorem failed_release_ignored : ¬ ∀ (c : Setup) (calls : ℕ) (state : State)
    (directive : Directive) (result : SendResult),
    ActedUpon c calls state (sender directive result) := by
  intro h
  obtain ⟨iteration, hinit, _⟩ := h ⟨1, .dev, default, fun _ => ⟨0, fun _ => 0, fun _ _ => 0⟩⟩ 1
    ⟨some 7, some 8, fun _ => some .granted⟩ (.jobDirective 1 .release (jobReleaseLine 1))
    (.error "closed".toList)
  cases hinit

/-! ## The reports in the mailbox -/

section Mailbox

variable {c : Setup} {s : System} {msg : Term}

/-- A message that no clause matches is passed over. -/
theorem mem_of_receive {calls : ℕ} {state : State} {taken : Term} {iteration : Iteration}
    (hmsg : ∀ calls state, init c calls state msg = none) :
    ∀ {mailbox rest : List Term}, receive c calls state mailbox = some (taken, iteration, rest) →
      msg ∈ mailbox → msg ∈ rest
  | [], _, h, _ => by cases h
  | m :: mailbox, rest, h, hmem => by
    unfold receive at h
    split at h
    · rename_i hinit
      cases h
      rcases List.mem_cons.mp hmem with rfl | hmem
      · rw [hmsg] at hinit
        cases hinit
      · exact hmem
    · obtain ⟨⟨taken', iteration', rest'⟩, hreceive, he⟩ := Option.map_eq_some_iff.mp h
      cases he
      rcases List.mem_cons.mp hmem with rfl | hmem
      · exact List.mem_cons_self
      · exact List.mem_cons_of_mem _ (mem_of_receive hmsg hreceive hmem)

theorem mailbox_step (hmsg : ∀ calls state, init c calls state msg = none) (s : System)
    (e : SchedulerEvent) (h : msg ∈ s.mailbox) : msg ∈ (schedulerStep c s e).mailbox := by
  cases e with
  | deliver => exact List.mem_append_left _ h
  | receive =>
    show msg ∈ (s.iterate c).mailbox
    unfold System.iterate
    split
    · split
      · exact h
      · rename_i hreceive
        exact mem_of_receive hmsg hreceive h
    · exact h
  | execute i =>
    show msg ∈ (s.execute i).mailbox
    unfold System.execute
    split
    · exact h
    · exact h
    · unfold System.crash
      split <;> exact h
    · exact h
  | notify i =>
    show msg ∈ (s.notify i).mailbox
    unfold System.notify
    split
    · exact h
    · exact h
    · exact List.mem_append_left _ h
  | exit =>
    show msg ∈ s.crash.mailbox
    unfold System.crash
    split <;> exact h

/-- The report about a job stays in the mailbox for ever. -/
theorem report_stays (jobId : ℤ) (kind : Kind) (packet : List Char) (result : SendResult)
    (h : sender (.jobDirective jobId kind packet) result ∈ s.mailbox) (es : List SchedulerEvent) :
    sender (.jobDirective jobId kind packet) result ∈ (run (schedulerStep c) s es).mailbox := by
  refine run_invariant_all (mailbox_step fun calls state => ?_) h
  cases result <;> rfl

end Mailbox

end ResourceManager.Scheduler
