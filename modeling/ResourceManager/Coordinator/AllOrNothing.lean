import ResourceManager.Comms.Requests
import ResourceManager.Coordinator.Rollback

/-!
# JOB_GRANTED and the request line

`RequestWatch` follows one job id through a run of the dispatcher on texts: the line of its
last JOB_REQUEST and what has been seen of the job since then. Once JOB_GRANTED has been
seen, every resource token of the line has been reserved and granted exactly when the line
is well formed: the agent skips what it cannot read or store, and takes an unknown resource
for a GPU (`job_granted_iff`).
-/

namespace ResourceManager

open Library.Numerals Library.Runs Library.Scanf

/-! ## Runs on texts -/

/-- The line with which a call registers the job `j`. -/
def Input.registers (j : UInt32) : Input → Option (List Char)
  | .line a =>
    match scanLine a with
    | some (.jobRequest _ _ i _) => if i = j then some a.line else none
    | _ => none
  | _ => none

/-- The GRANTED that the call accepts for the job `j`. -/
def Input.accepted (j : UInt32) (node : NodeData) (i : Input) : List JobObs :=
  match i.event with
  | none => []
  | some e => acceptedBy j node e

/-- A run on texts seen from one job. -/
structure RequestWatch where
  node : NodeData
  line : Option (List Char)
  seen : List JobObs

def inputStep (j : UInt32) (w : RequestWatch) (i : Input) : RequestWatch :=
  let (node, outbox) := patchInput w.node i
  let seen := i.accepted j w.node ++ outbox.filterMap (observe j)
  match i.registers j with
  | some line => ⟨node, some line, seen⟩
  | none => ⟨node, w.line, w.seen ++ seen⟩

/-- The run on the scanned arguments. -/
def RequestWatch.watch (w : RequestWatch) : Watch where
  node := w.node
  request := (w.line.map requestTokens).getD []
  seen := w.seen

theorem registers_of_event {j : UInt32} {i : Input} {e : AgentEvent} (he : i.event = some e) :
    (∃ now socket line, e = .jobRequest now socket j (requestTokens line) ∧
      scanId "JOB_REQUEST".toList line = some j ∧ i.registers j = some line) ∨
      (¬ Registers j e ∧ i.registers j = none) := by
  cases i with
  | line a =>
    have hscan : scanLine a = some e := he
    unfold Input.registers
    dsimp only
    rw [hscan]
    cases e with
    | jobRequest now socket k tokens =>
      obtain ⟨hid, rfl⟩ := scanLine_jobRequest hscan
      by_cases hk : k = j
      · subst hk
        exact Or.inl ⟨now, socket, a.line, rfl, hid, if_pos rfl⟩
      · exact Or.inr ⟨hk, if_neg hk⟩
    | _ => exact Or.inr ⟨id, rfl⟩
  | datagram now senderIp text =>
    obtain ⟨a, _, rfl⟩ := Option.map_eq_some_iff.mp he
    exact Or.inr ⟨id, rfl⟩
  | disconnected connections senderIp socket =>
    cases he
    exact Or.inr ⟨id, rfl⟩
  | checkDeadnodes connections now now' =>
    cases he
    exact Or.inr ⟨id, rfl⟩

/-- A step on a text is a step on its event. -/
theorem watch_inputStep (j : UInt32) (w : RequestWatch) (i : Input) :
    (inputStep j w i).watch =
      match i.event with
      | none => w.watch
      | some e => watchStep j w.watch e := by
  cases he : i.event with
  | none =>
    obtain ⟨hnode, hlines⟩ := patchInput_none w.node he
    have hregs : i.registers j = none := by
      cases i with
      | line a =>
        unfold Input.registers
        dsimp only
        rw [show scanLine a = none from he]
      | _ => rfl
    have hseen : i.accepted j w.node ++ (patchInput w.node i).2.filterMap (observe j) = [] := by
      rw [Input.accepted, he, List.nil_append, List.filterMap_eq_nil_iff]
      intro m hm
      obtain ⟨text, htext⟩ := hlines m hm
      rw [observe, htext]
    unfold inputStep
    dsimp only
    rw [hregs, hseen, hnode, List.append_nil]
  | some e =>
    dsimp only
    have hpatch := patchInput_event w.node he
    have hacc : i.accepted j w.node = acceptedBy j w.node e := by rw [Input.accepted, he]
    unfold inputStep
    dsimp only
    rw [hpatch, hacc]
    rcases registers_of_event (j := j) he with ⟨now, socket, line, rfl, _, hregs⟩ | ⟨hreg, hregs⟩
    · rw [hregs]
      unfold watchStep
      dsimp only
      rw [if_pos rfl]
      rfl
    · rw [hregs, watchStep_of_not_registers hreg]
      rfl

/-- What a run keeps: the state of the job, and that its line is a JOB_REQUEST. -/
structure RequestInv (j : UInt32) (w : RequestWatch) : Prop where
  watch : WatchInv j w.watch
  line : ∀ line ∈ w.line, scanId "JOB_REQUEST".toList line = some j

theorem requestInv_step (j : UInt32) (w : RequestWatch) (i : Input) (h : RequestInv j w) :
    RequestInv j (inputStep j w i) := by
  refine ⟨?_, fun line hline => ?_⟩
  · rw [watch_inputStep]
    split
    · exact h.watch
    · exact watchInv_step j _ _ h.watch
  · unfold inputStep at hline
    dsimp only at hline
    cases hregs : i.registers j with
    | none =>
      rw [hregs] at hline
      exact h.line line hline
    | some registered =>
      rw [hregs] at hline
      cases hline
      cases he : i.event with
      | none =>
        cases i with
        | line a =>
          unfold Input.registers at hregs
          dsimp only at hregs
          rw [show scanLine a = none from he] at hregs
          cases hregs
        | _ => cases hregs
      | some e =>
        rcases registers_of_event (j := j) he with ⟨_, _, _, _, hid, hregs'⟩ | ⟨_, hregs'⟩
        · cases hregs.symm.trans hregs'
          exact hid
        · cases hregs.symm.trans hregs'

/-! ## What has been seen at the end -/

/-- The petition of a RESERVE. -/
def JobObs.reserved : JobObs → Option ResourceToken
  | .reserve ip port type cant => some ⟨ip, port, type, cant⟩
  | _ => none

/-- The sender of an accepted GRANTED. -/
def JobObs.grantedBy : JobObs → Option Addr
  | .accepted ip port => some ⟨ip, port⟩
  | _ => none

def ResourceToken.addr (t : ResourceToken) : Addr := ⟨t.ip, t.port⟩

theorem reserved_progress (ps : List ResourceToken) :
    ∀ k ≤ ps.length, (progress ps k).filterMap JobObs.reserved = ps.take (k + 1)
  | 0, _ => by cases ps <;> rfl
  | k + 1, hk => by
    have hget : ps[k]? = some ps[k] := List.getElem?_eq_getElem (by omega)
    have hanswer : ([answerObs ps k]).filterMap JobObs.reserved = ps[k + 1]?.toList := by
      unfold answerObs
      cases ps[k + 1]? <;> rfl
    rw [progress_succ hget, List.filterMap_append, reserved_progress ps k (by omega),
      List.filterMap_cons_none rfl, hanswer, ← List.take_add_one]

theorem grantedBy_progress (ps : List ResourceToken) :
    ∀ k ≤ ps.length, (progress ps k).filterMap JobObs.grantedBy =
      (ps.take k).map ResourceToken.addr
  | 0, _ => by cases ps <;> rfl
  | k + 1, hk => by
    have hget : ps[k]? = some ps[k] := List.getElem?_eq_getElem (by omega)
    have hanswer : [JobObs.accepted ps[k].ip ps[k].port, answerObs ps k].filterMap
        JobObs.grantedBy = [ps[k].addr] := by
      unfold answerObs
      cases ps[k + 1]? <;> rfl
    rw [progress_succ hget, List.filterMap_append, grantedBy_progress ps k (by omega), hanswer,
      List.take_add_one, hget, List.map_append]
    rfl

/-- Once JOB_GRANTED has been seen, all rounds are over. -/
theorem SeenOk.granted {ps : List ResourceToken} {seen : List JobObs} (h : SeenOk ps seen)
    (hgranted : .jobGranted ∈ seen) : ps ≠ [] ∧ seen = progress ps ps.length := by
  have hpos := List.count_pos_iff.mpr hgranted
  obtain ⟨k, hk, rfl | ⟨hopen, rfl⟩⟩ := h
  · rw [count_progress ps k hk] at hpos
    split at hpos
    · rename_i hall
      rw [hall.2]
      exact ⟨List.length_pos_iff.mp hall.1, rfl⟩
    · omega
  · have hcount := count_progress ps k hk
    rw [if_neg hopen] at hcount
    rw [List.count_append, hcount] at hpos
    exact absurd hpos (by decide)

/-! ## The line -/

/-- Each resource token of the line names a petition; the RESERVEs sent are those of these
petitions, and a GRANTED has been accepted for each. -/
def AllReserved (line : List Char) (seen : List JobObs) : Prop :=
  ∃ ts, List.Forall₂ Names (resourceWords line) ts ∧ seen.filterMap JobObs.reserved = ts ∧
    seen.filterMap JobObs.grantedBy = ts.map ResourceToken.addr

/-- The id is a word of its own, each resource token names a petition, and there are no
more than a job can store. -/
def WellFormedRequest (line : List Char) : Prop :=
  ' ' ∈ commandSpace line ∧ (resourceWords line).length ≤ maxJobResources ∧
    ∃ ts, List.Forall₂ Names (resourceWords line) ts

/-- After JOB_GRANTED, every token of the line has been reserved and granted exactly when
the line is well formed. -/
theorem job_granted_iff (inventory : LocalNode) (knownNodes : KnownNodes) (j : UInt32)
    (is : List Input) (line : List Char) :
    let w := run (inputStep j) ⟨⟨inventory, knownNodes, createOwnedJobs⟩, none, []⟩ is
    w.line = some line → .jobGranted ∈ w.seen →
      (AllReserved line w.seen ↔ WellFormedRequest line) := by
  intro w hline hgranted
  have hinit : RequestInv j ⟨⟨inventory, knownNodes, createOwnedJobs⟩, none, []⟩ := by
    refine ⟨⟨fun i job hjob => ?_, fun job hjob => ?_, 0, le_rfl, Or.inl rfl⟩, ?_⟩
    · exact absurd hjob (by simp [RequestWatch.watch])
    · exact absurd hjob (by simp [RequestWatch.watch])
    · exact fun line hline => absurd hline (by simp)
  have hinv : RequestInv j w := run_invariant_all (requestInv_step j) hinit
  have hid := hinv.line line hline
  have hrequest : w.watch.request = requestTokens line := by
    rw [RequestWatch.watch, hline]
    rfl
  have hseen := hinv.watch.seen
  rw [hrequest] at hseen
  obtain ⟨hne, hprogress⟩ := hseen.granted hgranted
  set ps := (requestTokens line).take maxJobResources with hps
  have hreserved : w.seen.filterMap JobObs.reserved = ps := by
    rw [show w.seen = progress ps ps.length from hprogress, reserved_progress ps _ le_rfl,
      List.take_of_length_le (by omega)]
  have haccepted : w.seen.filterMap JobObs.grantedBy = ps.map ResourceToken.addr := by
    rw [show w.seen = progress ps ps.length from hprogress, grantedBy_progress ps _ le_rfl,
      List.take_length]
  have htokens := requestTokens_of_scanId hid
  constructor
  · rintro ⟨ts, hnames, hts, _⟩
    rw [hreserved] at hts
    subst hts
    have hlen := hnames.length_eq
    have hle : ps.length ≤ maxJobResources := length_take_tokens _
    refine ⟨?_, by omega, ps, hnames⟩
    by_contra hblank
    rw [if_neg hblank] at htokens
    -- the first token is missing, so that fewer are stored than the line has
    have hshort : ps.length ≤ (resourceWords line).length - 1 := by
      rw [← List.length_tail]
      refine le_trans (List.length_take_le' _ _) ?_
      rw [htokens]
      exact List.length_filterMap_le _ _
    have hpos := List.length_pos_iff.mpr hne
    omega
  · rintro ⟨hblank, hlen, ts, hnames⟩
    rw [if_pos hblank, filterMap_scanToken hnames] at htokens
    have hall : ps = ts := by
      rw [hps, htokens, List.take_of_length_le (by rw [← hnames.length_eq]; exact hlen)]
    exact ⟨ts, hnames, hreserved.trans hall, by rw [haccepted, hall]⟩

/-! ## Two requests

The local client is on descriptor 7 and the remote node on descriptor 9. -/

def arrival (socket : UInt32) (text : String) : Arrival :=
  ⟨oneConnection, remoteIp, socket, 0, fun _ => 0, text.toList⟩

def received (socket : UInt32) (text : String) : Input := .line (arrival socket text)

def twoTokens : String := "JOB_REQUEST 5 @10.0.0.2:8000:cpu:4 @10.0.0.2:8000:mem:2"

theorem job_granted_iff_twoTokens : AllReserved twoTokens.toList
    (run (inputStep 5) ⟨initNode 0 0 0, none, []⟩
      [received 7 twoTokens, received 9 "GRANTED 5", received 9 "GRANTED 5"]).seen := by
  have hwords : resourceWords twoTokens.toList =
      ["@10.0.0.2:8000:cpu:4".toList, "@10.0.0.2:8000:mem:2".toList] := by decide +kernel
  refine (job_granted_iff (createLocalNode 0 0 0) createKnownNodes 5 _ twoTokens.toList
    (by decide +kernel) (by decide +kernel)).mpr ⟨by decide +kernel, by rw [hwords]; decide,
      [⟨remoteIp, 8000, .cpu, 4⟩, ⟨remoteIp, 8000, .ram, 2⟩], ?_⟩
  have hip : remoteIp.text ≠ [] ∧ ':' ∉ remoteIp.text := by decide
  rw [hwords]
  refine .cons ⟨_, _, decimal_toDigits 8000, decimal_toDigits 4, hip.1, hip.2, ?_⟩
    (.cons ⟨_, _, decimal_toDigits 8000, decimal_toDigits 2, hip.1, hip.2, ?_⟩ .nil)
  · decide +kernel
  · decide +kernel

/-- The second token names no petition and is skipped. -/
def badToken : String := "JOB_REQUEST 5 @10.0.0.2:8000:cpu:4 @10.0.0.2:8000:mem"

theorem job_granted_without_token : ¬ ∀ (inventory : LocalNode) (knownNodes : KnownNodes)
    (j : UInt32) (is : List Input) (line : List Char),
    let w := run (inputStep j) ⟨⟨inventory, knownNodes, createOwnedJobs⟩, none, []⟩ is
    w.line = some line → .jobGranted ∈ w.seen → AllReserved line w.seen := by
  intro h
  obtain ⟨ts, hnames, hreserved, _⟩ := h (createLocalNode 0 0 0) createKnownNodes 5
    [received 7 badToken, received 9 "GRANTED 5"] badToken.toList (by decide +kernel)
    (by decide +kernel)
  have hone : ((run (inputStep 5) ⟨initNode 0 0 0, none, []⟩
      [received 7 badToken, received 9 "GRANTED 5"]).seen.filterMap JobObs.reserved).length = 1 := by
    decide +kernel
  have htwo : (resourceWords badToken.toList).length = 2 := by decide +kernel
  have hlen := hnames.length_eq
  rw [← hreserved, htwo] at hlen
  exact absurd (hlen.trans hone) (by decide)

end ResourceManager
