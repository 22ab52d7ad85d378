import ResourceManager.Comms.Requests
import ResourceManager.Coordinator.Records
import ResourceManager.Directory.RoundTrip
import ResourceManager.Scheduler.Requests

/-!
# A request on its way to the agent

The line that the scheduler builds for a list of petitions, received whole by the agent,
leaves a job with exactly these petitions and sends the first RESERVE
(`job_request_round_trip`).
-/

namespace ResourceManager

open Library.Fields Library.Numerals

/-! ## The line -/

/-- The atom of the scheduler for a resource. -/
def Resource.atom : Resource → Scheduler.ResourceName
  | .cpu => .cpu
  | .ram => .mem
  | .gpu => .gpu

/-- The tuple of the scheduler for a petition, with the port as a text or as an integer. -/
def ResourceToken.tuple (t : ResourceToken) (asText : Bool) : Scheduler.Petition where
  ip := t.ip.text
  port := if asText then .text (printUnsigned t.port) else .integer t.port.toNat
  name := t.type.atom
  amount := t.cant.toNat

/-- The word of the line for a petition. -/
def requestWord (t : ResourceToken) : List Char :=
  tokenText t (printUnsigned t.port) (printUnsigned t.cant)

theorem petitionText_tuple (t : ResourceToken) (asText : Bool) :
    Scheduler.petitionText (t.tuple asText) = ' ' :: requestWord t := by
  have hname : t.type.atom.toList = t.type.name := by cases t.type <;> rfl
  cases asText <;>
    simp [Scheduler.petitionText, Scheduler.buildJobRequest, ResourceToken.tuple, requestWord,
      tokenText, hname, Scheduler.integerToList_natCast, printUnsigned]

/-- The line without its newline. -/
def requestText (jobId : UInt32) (ts : List ResourceToken) : List Char :=
  "JOB_REQUEST".toList ++ ' ' :: (printUnsigned jobId ++ ts.flatMap fun t => ' ' :: requestWord t)

theorem jobRequestLine_tuples (jobId : UInt32) (petitions : List (ResourceToken × Bool)) :
    Scheduler.jobRequestLine jobId.toNat (petitions.map fun p => p.1.tuple p.2) =
      requestText jobId (petitions.map Prod.fst) ++ ['\n'] := by
  have htexts : (petitions.map fun p => p.1.tuple p.2).flatMap Scheduler.petitionText =
      (petitions.map Prod.fst).flatMap fun t => ' ' :: requestWord t := by
    induction petitions with
    | nil => rfl
    | cons p petitions ih =>
      rw [List.map_cons, List.flatMap_cons, ih, petitionText_tuple, List.map_cons,
        List.flatMap_cons]
  rw [Scheduler.jobRequestLine_eq, htexts, Scheduler.integerToList_natCast]
  unfold requestText printUnsigned
  simp

/-! ## Its characters -/

theorem mem_requestWord {t : ResourceToken} (h : DottedQuad t.ip) {c : Char}
    (hc : c ∈ requestWord t) :
    c.isDigit = true ∨ c ∈ ['@', ':', '.', 'c', 'p', 'u', 'm', 'e', 'g'] := by
  have hdigit : ∀ n : UInt32, c ∈ printUnsigned n → c.isDigit = true := fun n =>
    (decimal_toDigits n.toNat).isDigit c
  have hname : c ∈ t.type.name → c ∈ ['@', ':', '.', 'c', 'p', 'u', 'm', 'e', 'g'] := by
    have hall : t.type.name.all ['@', ':', '.', 'c', 'p', 'u', 'm', 'e', 'g'].contains := by
      cases t.type <;> rfl
    exact fun hmem => List.contains_iff_mem.mp (List.all_eq_true.mp hall c hmem)
  obtain ⟨a₁, a₂, a₃, a₄, hip⟩ := h
  simp only [requestWord, tokenText, List.mem_cons, List.mem_append] at hc
  rcases hc with rfl | hc | rfl | hc | rfl | hc | rfl | hc
  · exact Or.inr (by decide)
  · rw [hip] at hc
    rcases mem_inetNtoa hc with hc | rfl
    · exact Or.inl hc
    · exact Or.inr (by decide)
  · exact Or.inr (by decide)
  · exact Or.inl (hdigit t.port hc)
  · exact Or.inr (by decide)
  · exact Or.inr (hname hc)
  · exact Or.inr (by decide)
  · exact Or.inl (hdigit t.cant hc)

/-- A word of the line holds no separator. -/
theorem separators_notMem {t : ResourceToken} (h : DottedQuad t.ip) {sep : Char}
    (hsep : sep = ' ' ∨ sep = '\n' ∨ sep = '\x00') : sep ∉ requestWord t := by
  intro hmem
  have hword := mem_requestWord h hmem
  rcases hsep with rfl | rfl | rfl <;> exact absurd hword (by decide)

theorem separators_notMem_text {jobId : UInt32} {ts : List ResourceToken}
    (h : ∀ t ∈ ts, DottedQuad t.ip) {sep : Char} (hsep : sep = '\n' ∨ sep = '\x00') :
    sep ∉ requestText jobId ts := by
  have hid : sep ∉ printUnsigned jobId := (decimal_toDigits jobId.toNat).notMem (by
    rcases hsep with rfl | rfl <;> decide)
  have hcommand : sep ∉ "JOB_REQUEST".toList ∧ sep ≠ ' ' := by
    rcases hsep with rfl | rfl <;> decide
  intro hmem
  unfold requestText at hmem
  rw [List.mem_append, List.mem_cons, List.mem_append, List.mem_flatMap] at hmem
  rcases hmem with hmem | rfl | hmem | ⟨t, ht, hmem⟩
  · exact hcommand.1 hmem
  · exact hcommand.2 rfl
  · exact hid hmem
  · rcases List.mem_cons.mp hmem with rfl | hmem
    · exact hcommand.2 rfl
    · exact separators_notMem (h t ht) (Or.inr hsep) hmem

/-! ## The agent's side -/

theorem names_requestWord {t : ResourceToken} (h : DottedQuad t.ip) : Names (requestWord t) t := by
  refine ⟨_, _, decimal_toDigits t.port.toNat, decimal_toDigits t.cant.toNat, ?_,
    notMem_of_dottedQuad h (by decide) (by decide), rfl⟩
  obtain ⟨a, b, c, d, hip⟩ := h
  rw [hip, text_inetNtoa]
  exact List.append_ne_nil_of_left_ne_nil (decimal_toDigits a.toNat).ne_nil _

theorem requestTokens_text (jobId : UInt32) {ts : List ResourceToken}
    (h : ∀ t ∈ ts, DottedQuad t.ip) : requestTokens (requestText jobId ts) = ts := by
  have hwords : words (requestText jobId ts) =
      "JOB_REQUEST".toList :: printUnsigned jobId :: ts.map requestWord := by
    have hblank : ∀ t ∈ ts.map requestWord, t ≠ [] ∧ ∀ c ∈ t, isBlank c = false := by
      intro w hw
      obtain ⟨t, ht, rfl⟩ := List.mem_map.mp hw
      exact ⟨List.cons_ne_nil _ _, isBlank_of_notMem (separators_notMem (h t ht) (Or.inl rfl))⟩
    have hdec := decimal_toDigits jobId.toNat
    have hid : printUnsigned jobId ≠ [] ∧ ∀ c ∈ printUnsigned jobId, isBlank c = false :=
      ⟨hdec.ne_nil, isBlank_of_notMem (hdec.notMem (by decide))⟩
    have hcommand : ∀ c ∈ "JOB_REQUEST".toList, isBlank c = false :=
      isBlank_of_notMem (by decide)
    have hne : "JOB_REQUEST".toList ≠ [] := by decide
    have hjoin := words_flatMap (List.forall_mem_cons.mpr ⟨hid, hblank⟩) hne hcommand
    rw [List.flatMap_cons, List.flatMap_map] at hjoin
    exact hjoin
  have hnames : List.Forall₂ Names (ts.map requestWord) ts := by
    rw [List.forall₂_map_left_iff, List.forall₂_same]
    exact fun t ht => names_requestWord (h t ht)
  rw [requestTokens, requestWords, hwords]
  exact filterMap_scanToken hnames

/-- The text is dispatched to `handle_job_request` with the id and the petitions. -/
theorem scanLine_requestText (a : Arrival) (jobId : UInt32) {ts : List ResourceToken}
    (h : ∀ t ∈ ts, DottedQuad t.ip) : scanLine { a with line := requestText jobId ts } =
      some (.jobRequest a.now a.socket jobId ts) := by
  have hprefix : "JOB_REQUEST".toList.isPrefixOf (requestText jobId ts) := by
    rw [List.isPrefixOf_iff_prefix]
    unfold requestText
    exact List.prefix_append _ _
  have hget : ¬ "GET_NODES".toList.isPrefixOf (requestText jobId ts) := by
    unfold requestText
    exact Bool.false_ne_true
  have hid : scanId "JOB_REQUEST".toList (requestText jobId ts) = some jobId := by
    unfold requestText
    refine scanId_append (decimal_toDigits jobId.toNat) _ fun c hc => ?_
    cases ts with
    | nil => cases hc
    | cons t ts =>
      cases hc
      rfl
  unfold scanLine
  dsimp only
  rw [if_neg hget, if_pos hprefix, hid, Option.map_some, requestTokens_text jobId h]

theorem lines_requestText (jobId : UInt32) {ts : List ResourceToken}
    (h : ∀ t ∈ ts, DottedQuad t.ip) :
    lines (requestText jobId ts ++ ['\n']) = [requestText jobId ts] := by
  have hne : requestText jobId ts ≠ [] := by
    unfold requestText
    exact List.cons_ne_nil _ _
  have hclean : ∀ c ∈ requestText jobId ts, isNewline c = false := by
    intro c hc
    rw [isNewline, beq_eq_false_iff_ne]
    rintro rfl
    exact separators_notMem_text h (Or.inl rfl) hc
  rw [lines, fields_append_cons rfl, fields_word hclean hne]
  rfl

/-! ## The round trip -/

/-- The line built for a list of petitions, received whole, leaves a job with the id of the
request and its petitions, none granted, and sends the RESERVE of the first one. -/
theorem job_request_round_trip (node : NodeData) (a : Arrival) (jobId : UInt32)
    (petitions : List (ResourceToken × Bool)) (hip : ∀ p ∈ petitions, DottedQuad p.1.ip)
    (hlen : petitions.length ≤ maxJobResources)
    (hfits : (Scheduler.jobRequestLine jobId.toNat
      (petitions.map fun p => p.1.tuple p.2)).length ≤ bufferSize - 1) :
    let line := Scheduler.jobRequestLine jobId.toNat (petitions.map fun p => p.1.tuple p.2)
    let result := handleClientMessage (serveLine a) (node, []) (receiveTcpMessage line)
    (∃ job, result.1.ownedJobs.job jobId = some job ∧ job.ownerSocket = a.socket ∧
      job.petitions = petitions.map fun p => p.1.petition) ∧
      result.2 = (petitions.head?.map fun p => reserveMsg jobId p.1.petition).toList := by
  intro line result
  set ts := petitions.map Prod.fst with hts
  have hquads : ∀ t ∈ ts, DottedQuad t.ip := by
    intro t ht
    obtain ⟨p, hp, rfl⟩ := List.mem_map.mp ht
    exact hip p hp
  have hline : line = requestText jobId ts ++ ['\n'] := jobRequestLine_tuples jobId petitions
  have hnul : '\x00' ∉ line := by
    rw [hline, List.mem_append]
    rintro (hmem | hmem)
    · exact separators_notMem_text hquads (Or.inr rfl) hmem
    · exact absurd hmem (by decide)
  -- one call of `strtok_r` returns the text, and the rest of the buffer is empty
  have hresult : result = serveLine a (node, []) (requestText jobId ts) := by
    show handleClientMessage (serveLine a) (node, []) (receiveTcpMessage line) = _
    rw [receiveTcpMessage, List.take_of_length_le hfits, handleClientMessage_eq _ _ hnul, hline,
      lines_requestText jobId hquads, List.foldl_cons, List.foldl_nil]
  have hserve : actionRespond node { a with line := requestText jobId ts } =
      resourceAdapterPatch node (.jobRequest a.now a.socket jobId ts) :=
    patchInput_event node (i := .line { a with line := requestText jobId ts })
      (scanLine_requestText a jobId hquads)
  rw [hresult, serveLine, hserve]
  constructor
  · have hjob := job_handleJobRequest node.ownedJobs a.now a.socket jobId jobId ts []
    rw [if_pos rfl] at hjob
    have hpet : (newJob a.now a.socket jobId ts).petitions =
        petitions.map fun p => p.1.petition := by
      have htake : ts.take maxJobResources = ts :=
        List.take_of_length_le (by rw [hts, List.length_map]; exact hlen)
      rw [newJob, htake, hts, List.map_map]
      rfl
    exact ⟨_, hjob, ownerSocket_dispatch _, (petitions_dispatch _).trans hpet⟩
  · have hout := outbox_handleJobRequest node.ownedJobs a.now a.socket jobId ts []
    show [] ++ (handleJobRequest node.ownedJobs a.now a.socket jobId ts []).2 = _
    rw [List.nil_append, hout, hts]
    cases petitions <;> rfl

/-- The connection of the local scheduler. -/
def clientArrival : Arrival where
  connections := fun _ => ⟨false, inetNtoa 0 0 0 0, 0⟩
  senderIp := inetNtoa 127 0 0 1
  socket := 7
  now := 0
  rand := fun _ => 0
  line := []

def twoPetitions : List (ResourceToken × Bool) :=
  [(⟨inetNtoa 10 0 0 2, 8000, .cpu, 4⟩, true), (⟨inetNtoa 10 0 0 3, 8001, .ram, 2048⟩, false)]

theorem job_request_round_trip_twoPetitions :
    let line := Scheduler.jobRequestLine 9 (twoPetitions.map fun p => p.1.tuple p.2)
    let result := handleClientMessage (serveLine clientArrival) (initNode 4 8192 0, [])
      (receiveTcpMessage line)
    (∃ job, result.1.ownedJobs.job 9 = some job ∧ job.ownerSocket = 7 ∧
      job.petitions = twoPetitions.map fun p => p.1.petition) ∧
      result.2 = [reserveMsg 9 ⟨inetNtoa 10 0 0 2, 8000, .cpu, 4, false⟩] :=
  job_request_round_trip (initNode 4 8192 0) clientArrival 9 twoPetitions
    (by
      intro p hp
      simp only [twoPetitions, List.mem_cons, List.not_mem_nil, or_false] at hp
      rcases hp with rfl | rfl
      · exact ⟨_, _, _, _, rfl⟩
      · exact ⟨_, _, _, _, rfl⟩)
    (by decide) (by decide +kernel)

end ResourceManager
