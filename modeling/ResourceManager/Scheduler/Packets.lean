import ResourceManager.Library.Numerals
import Mathlib.Data.List.DropRight

/-!
# Packets of the scheduler: `job_scheduler.erl`

`handle_packet` and the functions it calls. A binary and a string are lists of characters;
an exception is `none`, which `handle_packet` turns into `{skip, "Unknown packet"}`. The
functions of the modules `string` and `inet` follow their documentation; an address never
has a `:` here, so it is an IPv4 address or none.
-/

namespace ResourceManager.Scheduler

open Library.Numerals

/-! ## Strings -/

/-- The white space of `string:trim`. -/
def isWhitespace (c : Char) : Bool :=
  c.toNat ∈ [9, 10, 11, 12, 13, 32, 133, 8206, 8207, 8232, 8233]

/-- `string:trim`. -/
def trim (s : List Char) : List Char := (s.dropWhile isWhitespace).rdropWhile isWhitespace

/-- `string:split(s, sep, all)`. -/
def split (sep : Char) (s : List Char) : List (List Char) := s.splitOnP fun c => c == sep

/-- A decimal number without a sign. -/
def natural (digits : List Char) : Option ℕ :=
  if digits ≠ [] ∧ digits.all Char.isDigit then some (Nat.ofDigitChars 10 digits 0) else none

/-- `list_to_integer`. -/
def listToInteger (s : List Char) : Option ℤ :=
  match s with
  | '-' :: digits => (natural digits).map fun n => -(n : ℤ)
  | '+' :: digits => (natural digits).map fun n => (n : ℤ)
  | digits => (natural digits).map fun n => (n : ℤ)

/-- A field of an IPv4 address. -/
abbrev ipv4Field := cNumber

/-- `inet:parse_strict_address`, for a text without `:`: four fields below 256. -/
def parseStrictAddress (s : List Char) : Option (List ℕ) :=
  match (split '.' s).mapM ipv4Field with
  | some [a, b, c, d] => if a < 256 ∧ b < 256 ∧ c < 256 ∧ d < 256 then some [a, b, c, d] else none
  | _ => none

/-! ## Terms -/

/-- `#node{}`. A field that is not set is `undefined`. -/
structure Node where
  ip : List Char
  port : List Char
  cpu : Option ℤ
  mem : Option ℤ
  gpu : Option ℤ
deriving DecidableEq

/-- The atom that says what a directive for the sender is about. -/
inductive Kind where
  | request
  | release
deriving DecidableEq

abbrev Pid := ℕ

/-- The tuples and atoms on which the clauses of the scheduler match. -/
inductive Term where
  | nodeRecords (nodes : List Node)
  | jobGranted (jobId : ℤ)
  | jobDenied (jobId : ℤ)
  | jobTimeout (jobId : ℤ)
  | skip (reason : List Char)
  | receiverPid (pid : Pid)
  | senderPid (pid : Pid)
  | jobRelease (jobId : ℤ)
  | dumpState
  | packetReceived (packet : List Char)
  /-- `{ok, get_nodes}` -/
  | okGetNodes
  /-- `{error, Reason}` -/
  | error (reason : List Char)
  /-- `{ok, JobId, Kind}` -/
  | okJob (jobId : ℤ) (kind : Kind)
  /-- `{error, JobId, Kind, Packet}` -/
  | errorJob (jobId : ℤ) (kind : Kind) (packet : List Char)
deriving DecidableEq

/-! ## Nodes -/

/-- `get_node_list`. -/
def getNodeList (packet : List Char) : List (List Char) :=
  match trim packet with
  | [] => []
  | s => split ';' s

/-- `to_pairs`. -/
def toPairs : List (List Char) → Option (List (List Char × ℤ))
  | key :: value :: rest =>
    match listToInteger (trim value), toPairs rest with
    | some amount, some pairs => some ((key, amount) :: pairs)
    | _, _ => none
  | [_] => some []
  | [] => some []

/-- `assign_resource`. -/
def assignResource (node : Node) (pair : List Char × ℤ) : Option Node :=
  if pair.1 = "cpu".toList then some { node with cpu := some pair.2 }
  else if pair.1 = "gpu".toList then some { node with gpu := some pair.2 }
  else if pair.1 = "mem".toList then some { node with mem := some pair.2 }
  else none

/-- `validate_and_get_node`. -/
def validateAndGetNode (node : List Char) : Option Node :=
  match split ':' node with
  | ip :: port :: resourceTokens =>
    match parseStrictAddress ip, listToInteger port, toPairs resourceTokens with
    | some _, some intPort, some resourcePairs =>
      if 1 ≤ intPort ∧ intPort ≤ 65535 then
        resourcePairs.foldlM assignResource ⟨ip, port, none, none, none⟩
      else none
    | _, _, _ => none
  | _ => none

/-- `do_handle_packet`. -/
def doHandlePacket (packet : List Char) : Option Term :=
  if "NODES ".toList.isPrefixOf packet then
    let rest := packet.drop "NODES ".toList.length
    if trim rest = [] then some (.skip "No nodes available".toList)
    else ((getNodeList rest).mapM validateAndGetNode).map .nodeRecords
  else if "JOB_GRANTED ".toList.isPrefixOf packet then
    (listToInteger (trim (packet.drop "JOB_GRANTED ".toList.length))).map .jobGranted
  else if "JOB_DENIED ".toList.isPrefixOf packet then
    (listToInteger (trim (packet.drop "JOB_DENIED ".toList.length))).map .jobDenied
  else if "JOB_TIMEOUT ".toList.isPrefixOf packet then
    (listToInteger (trim (packet.drop "JOB_TIMEOUT ".toList.length))).map .jobTimeout
  else some (.skip "Unknown packet".toList)

/-- `handle_packet`. -/
def handlePacket (packet : List Char) : Term :=
  (doHandlePacket packet).getD (.skip "Unknown packet".toList)

/-- The terms that the comment of `handle_packet` lists as its results. -/
def IsResult : Term → Prop
  | .nodeRecords _ | .jobGranted _ | .jobDenied _ | .jobTimeout _ | .skip _ => True
  | _ => False

theorem isResult_of_doHandlePacket {packet : List Char} {t : Term}
    (h : doHandlePacket packet = some t) : IsResult t := by
  unfold doHandlePacket at h
  split at h
  · dsimp only at h
    split at h
    · cases h
      trivial
    · obtain ⟨nodes, _, rfl⟩ := Option.map_eq_some_iff.mp h
      trivial
  split at h
  · obtain ⟨jobId, _, rfl⟩ := Option.map_eq_some_iff.mp h
    trivial
  split at h
  · obtain ⟨jobId, _, rfl⟩ := Option.map_eq_some_iff.mp h
    trivial
  split at h
  · obtain ⟨jobId, _, rfl⟩ := Option.map_eq_some_iff.mp h
    trivial
  · cases h
    trivial

/-- `handle_packet` returns what its comment says, and never a report of the sender. -/
theorem isResult_handlePacket (packet : List Char) : IsResult (handlePacket packet) := by
  unfold handlePacket
  rcases h : doHandlePacket packet with _ | t
  · trivial
  · exact isResult_of_doHandlePacket h

/-! ## Printed numbers -/

theorem isWhitespace_of_isDigit {c : Char} (h : c.isDigit = true) : isWhitespace c = false := by
  have hc := isDigit_iff.mp h
  simp only [isWhitespace, List.mem_cons, List.not_mem_nil, or_false, decide_eq_false_iff_not]
  omega

/-- A text that starts and ends with other characters than white space is not trimmed. -/
theorem trim_eq_self {s : List Char} (hhead : ∀ c ∈ s.head?, isWhitespace c = false)
    (hlast : ∀ c ∈ s.getLast?, isWhitespace c = false) : trim s = s := by
  have hdrop : s.dropWhile isWhitespace = s := by
    cases s with
    | nil => rfl
    | cons c s => rw [List.dropWhile_cons_of_neg (by simp [hhead c rfl])]
  rw [trim, hdrop, List.rdropWhile_eq_self_iff]
  intro hne
  simp [hlast _ (List.getLast_mem_getLast? hne)]

section Numerals

variable {s : List Char} {n : ℕ}

theorem trim_decimal (h : Decimal s n) : trim s = s :=
  trim_eq_self (fun c hc => isWhitespace_of_isDigit (h.isDigit c (List.mem_of_mem_head? hc)))
    fun c hc => isWhitespace_of_isDigit (h.isDigit c (List.mem_of_mem_getLast? hc))

theorem natural_decimal (h : Decimal s n) : natural s = some n := by
  rw [natural, if_pos ⟨h.ne_nil, List.all_eq_true.mpr h.isDigit⟩, h.value]

theorem listToInteger_decimal (h : Decimal s n) : listToInteger s = some (n : ℤ) := by
  have hnat := natural_decimal h
  unfold listToInteger
  split
  · exact absurd (h.isDigit '-' List.mem_cons_self) (by decide)
  · exact absurd (h.isDigit '+' List.mem_cons_self) (by decide)
  · rw [hnat]
    rfl

end Numerals

end ResourceManager.Scheduler
