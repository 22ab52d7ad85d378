import ResourceManager.Comms.Framing
import ResourceManager.Comms.Requests

/-!
# The texts of the messages

What the handlers of `resource_adapter.c` print for a message, as it stands on a connection.
-/

namespace ResourceManager

open Library.Fields Library.Numerals Library.Scanf

/-- A number printed with `%u` or `%d`. -/
def printInteger (n : Int) : List Char :=
  if n < 0 then '-' :: Nat.toDigits 10 n.natAbs else Nat.toDigits 10 n.natAbs

/-- `"<name> %u\n"`, for a number. -/
def numberLine (name : List Char) (n : Int) : List Char := name ++ ' ' :: (printInteger n ++ ['\n'])

/-- `"<name> %u %s %u\n"`. -/
def resourceLine (name : List Char) (jobId : UInt32) (type : Resource) (cant : UInt32) : List Char :=
  name ++ ' ' :: (printUnsigned jobId ++ ' ' :: (type.name ++ ' ' :: (printUnsigned cant ++ ['\n'])))

def Message.text : Message → List Char
  | .reserve jobId type cant => resourceLine "RESERVE".toList jobId type cant
  | .granted n => numberLine "GRANTED".toList n
  | .denied jobId => numberLine "DENIED".toList jobId.toNat
  | .release jobId type cant => resourceLine "RELEASE".toList jobId type cant
  | .jobGranted jobId => numberLine "JOB_GRANTED".toList jobId.toNat
  | .jobDenied jobId => numberLine "JOB_DENIED".toList jobId.toNat
  | .jobTimeout jobId => numberLine "JOB_TIMEOUT".toList jobId.toNat
  | .line text => text

theorem printInteger_natCast (n : UInt32) : printInteger (n.toNat : Int) = printUnsigned n := by
  rw [printInteger, if_neg (by omega), Int.natAbs_natCast, printUnsigned]

theorem mem_printInteger {n : Int} {c : Char} (h : c ∈ printInteger n) :
    c = '-' ∨ c.isDigit = true := by
  unfold printInteger at h
  split at h
  · rcases List.mem_cons.mp h with rfl | h
    · exact Or.inl rfl
    · exact Or.inr ((decimal_toDigits n.natAbs).isDigit c h)
  · exact Or.inr ((decimal_toDigits n.natAbs).isDigit c h)

/-! ## Messages between agents -/

/-- The messages that agents send to each other. The number of a GRANTED is an id, printed as
an `unsigned` or as an `int`. -/
inductive Message.BetweenAgents : Message → Prop
  | reserve (jobId type cant) : BetweenAgents (.reserve jobId type cant)
  | granted (n : Int) (hlow : -2 ^ 31 ≤ n) (hhigh : n < 2 ^ 32) : BetweenAgents (.granted n)
  | denied (jobId) : BetweenAgents (.denied jobId)
  | release (jobId type cant) : BetweenAgents (.release jobId type cant)

/-- What a coordinator sends to a node. -/
inductive Message.Requests : Message → Prop
  | reserve (jobId type cant) : Requests (.reserve jobId type cant)
  | release (jobId type cant) : Requests (.release jobId type cant)

/-- What a node sends to a coordinator. -/
inductive Message.Answers : Message → Prop
  | granted (n : Int) (hlow : -2 ^ 31 ≤ n) (hhigh : n < 2 ^ 32) : Answers (.granted n)
  | denied (jobId) : Answers (.denied jobId)

theorem Message.Requests.betweenAgents {m : Message} : m.Requests → m.BetweenAgents
  | .reserve jobId type cant => .reserve jobId type cant
  | .release jobId type cant => .release jobId type cant

theorem Message.Answers.betweenAgents {m : Message} : m.Answers → m.BetweenAgents
  | .granted n hlow hhigh => .granted n hlow hhigh
  | .denied jobId => .denied jobId

/-- The message tells a scheduler what has become of a job. -/
def Message.isNotice : Message → Bool
  | .jobGranted _ | .jobDenied _ | .jobTimeout _ => true
  | _ => false

theorem Message.Answers.isNotice {m : Message} (h : m.Answers) : m.isNotice = false := by
  cases h <;> rfl

/-- The text of a message without its newline. -/
def Message.command (m : Message) : List Char := m.text.dropLast

section Commands

variable (jobId : UInt32) (type : Resource) (cant : UInt32)

theorem resourceLine_eq (name : List Char) :
    resourceLine name jobId type cant = (name ++ ' ' :: (printUnsigned jobId ++ ' ' ::
      (type.name ++ ' ' :: printUnsigned cant))) ++ ['\n'] := by
  simp [resourceLine]

theorem numberLine_eq (name : List Char) (n : Int) :
    numberLine name n = (name ++ ' ' :: printInteger n) ++ ['\n'] := by
  simp [numberLine]

theorem dropLast_resourceLine (name : List Char) :
    (resourceLine name jobId type cant).dropLast = name ++ ' ' :: (printUnsigned jobId ++ ' ' ::
      (type.name ++ ' ' :: printUnsigned cant)) := by
  rw [resourceLine_eq, List.dropLast_concat]

theorem dropLast_numberLine (name : List Char) (n : Int) :
    (numberLine name n).dropLast = name ++ ' ' :: printInteger n := by
  rw [numberLine_eq, List.dropLast_concat]

theorem command_reserve : (Message.reserve jobId type cant).command = "RESERVE".toList ++ ' ' ::
    (printUnsigned jobId ++ ' ' :: (type.name ++ ' ' :: printUnsigned cant)) :=
  dropLast_resourceLine jobId type cant _

theorem command_release : (Message.release jobId type cant).command = "RELEASE".toList ++ ' ' ::
    (printUnsigned jobId ++ ' ' :: (type.name ++ ' ' :: printUnsigned cant)) :=
  dropLast_resourceLine jobId type cant _

theorem command_granted (n : Int) :
    (Message.granted n).command = "GRANTED".toList ++ ' ' :: printInteger n :=
  dropLast_numberLine _ n

theorem command_denied :
    (Message.denied jobId).command = "DENIED".toList ++ ' ' :: printInteger jobId.toNat :=
  dropLast_numberLine _ _

end Commands

theorem mem_printUnsigned {n : UInt32} {c : Char} (h : c ∈ printUnsigned n) : c.isDigit = true :=
  (decimal_toDigits n.toNat).isDigit c h

namespace Message.BetweenAgents

variable {m : Message} (h : m.BetweenAgents)

include h

/-- A command is a word in letters, then words of letters and digits after blanks. -/
theorem mem_command : m.command ≠ [] ∧
    ∀ c ∈ m.command, c ∈ [' ', '-'] ∨ c.isDigit = true ∨ c.isAlpha = true := by
  have hname : ∀ (type : Resource), ∀ c ∈ type.name, c.isAlpha = true := by
    intro type
    cases type <;> exact List.all_eq_true.mp (by decide)
  have hresource : ∀ (name : List Char) (jobId : UInt32) (type : Resource) (cant : UInt32),
      (∀ c ∈ name, c.isAlpha = true) → ∀ c ∈ name ++ ' ' :: (printUnsigned jobId ++ ' ' ::
        (type.name ++ ' ' :: printUnsigned cant)),
          c ∈ [' ', '-'] ∨ c.isDigit = true ∨ c.isAlpha = true := by
    intro name jobId type cant hletters c hc
    simp only [List.mem_append, List.mem_cons] at hc
    rcases hc with hc | rfl | hc | rfl | hc | rfl | hc
    · exact Or.inr (Or.inr (hletters c hc))
    · exact Or.inl List.mem_cons_self
    · exact Or.inr (Or.inl (mem_printUnsigned hc))
    · exact Or.inl List.mem_cons_self
    · exact Or.inr (Or.inr (hname type c hc))
    · exact Or.inl List.mem_cons_self
    · exact Or.inr (Or.inl (mem_printUnsigned hc))
  have hnumber : ∀ (name : List Char) (n : Int), (∀ c ∈ name, c.isAlpha = true) →
      ∀ c ∈ name ++ ' ' :: printInteger n,
        c ∈ [' ', '-'] ∨ c.isDigit = true ∨ c.isAlpha = true := by
    intro name n hletters c hc
    rcases List.mem_append.mp hc with hc | hc
    · exact Or.inr (Or.inr (hletters c hc))
    rcases List.mem_cons.mp hc with rfl | hc
    · exact Or.inl List.mem_cons_self
    · rcases mem_printInteger hc with rfl | hc
      · exact Or.inl (List.mem_cons_of_mem _ List.mem_cons_self)
      · exact Or.inr (Or.inl hc)
  cases h with
  | reserve jobId type cant =>
    rw [command_reserve]
    exact ⟨List.cons_ne_nil _ _, hresource _ _ _ _ (List.all_eq_true.mp (by decide))⟩
  | release jobId type cant =>
    rw [command_release]
    exact ⟨List.cons_ne_nil _ _, hresource _ _ _ _ (List.all_eq_true.mp (by decide))⟩
  | granted n =>
    rw [command_granted]
    exact ⟨List.cons_ne_nil _ _, hnumber _ _ (List.all_eq_true.mp (by decide))⟩
  | denied jobId =>
    rw [command_denied]
    exact ⟨List.cons_ne_nil _ _, hnumber _ _ (List.all_eq_true.mp (by decide))⟩

theorem notMem_command {c : Char} (hc : c ∉ [' ', '-']) (hdigit : c.isDigit = false)
    (halpha : c.isAlpha = false) : c ∉ m.command := by
  intro hmem
  rcases h.mem_command.2 c hmem with he | he | he
  · exact hc he
  · rw [hdigit] at he
    cases he
  · rw [halpha] at he
    cases he

theorem text_eq : m.text = m.command ++ ['\n'] := by
  cases h with
  | reserve jobId type cant => exact command_reserve jobId type cant ▸ resourceLine_eq _ _ _ _
  | release jobId type cant => exact command_release jobId type cant ▸ resourceLine_eq _ _ _ _
  | granted n => exact command_granted n ▸ numberLine_eq _ n
  | denied jobId => exact command_denied jobId ▸ numberLine_eq _ _

/-- A message is a line. -/
theorem terminated : Terminated isNewline m.text := by
  refine ⟨m.command, '\n', h.text_eq, h.mem_command.1, rfl, fun c hc => ?_⟩
  rw [isNewline, beq_eq_false_iff_ne]
  rintro rfl
  exact h.notMem_command (by decide) rfl rfl hc

theorem nul_notMem : '\x00' ∉ m.text := by
  rw [h.text_eq, List.mem_append]
  rintro (hmem | hmem)
  · exact h.notMem_command (by decide) rfl rfl hmem
  · exact absurd hmem (by decide)

end Message.BetweenAgents

/-! ## What the agents read -/

section Scan

variable (a : Arrival)

/-- `%u` reads what `%u` or `%d` has printed. -/
theorem scanId_printInteger (name : List Char) {n : Int} (hlow : -2 ^ 31 ≤ n) (hhigh : n < 2 ^ 32) :
    scanId name (name ++ ' ' :: printInteger n) = some (scanUnsigned n) := by
  have hend : ∀ c ∈ ([] : List Char).head?, c.isDigit = false := fun c hc => by cases hc
  rcases Int.lt_or_le n 0 with hn | hn
  · have hread := readUnsigned_negative (decimal_toDigits n.natAbs) (by omega) (by omega) hend
    rw [List.append_nil, show -(n.natAbs : ℤ) = n by omega] at hread
    have hscan : sscanf (literal name ++ [.space, .unsigned]) (name ++ ' ' :: printInteger n) =
        [.num (scanUnsigned n)] := by
      rw [sscanf_literal, sscanf, List.dropWhile_cons_of_pos (by decide), printInteger, if_pos hn,
        List.dropWhile_cons_of_neg (by decide), sscanf, List.dropWhile_cons_of_neg (by decide), hread]
      rfl
    rw [scanId, hscan]
  · obtain ⟨j, rfl⟩ : ∃ j : UInt32, n = (j.toNat : ℤ) := by
      refine ⟨UInt32.ofNat n.toNat, ?_⟩
      rw [UInt32.toNat_ofNat_of_lt' (show n.toNat < 2 ^ 32 by omega)]
      omega
    have hscan := scanId_append (decimal_toDigits j.toNat) name hend
    rw [List.append_nil] at hscan
    rw [printInteger_natCast, scanUnsigned_toNat]
    exact hscan

theorem sscanf_resource (name : List Char) (jobId : UInt32) (type : Resource) (cant : UInt32)
    (width : Option ℕ) (hwidth : ∀ k ∈ width, 3 ≤ k) :
    sscanf (resourceFormat name width) (name ++ ' ' :: (printUnsigned jobId ++ ' ' ::
      (type.name ++ ' ' :: printUnsigned cant))) = [.num jobId, .str type.name, .num cant] := by
  have hdigits : ∀ n : UInt32, Decimal (printUnsigned n) n.toNat := fun n => decimal_toDigits n.toNat
  have hblank : ∀ format s, sscanf (.space :: format) (' ' :: s) = sscanf (.space :: format) s :=
    fun format s => by rw [sscanf, sscanf, List.dropWhile_cons_of_pos (by decide)]
  have hname : type.name ≠ [] ∧ (∀ c ∈ type.name, isSpace c = false) ∧ type.name.length = 3 := by
    have hclean : type.name.any isSpace = false := by cases type <;> decide
    refine ⟨?_, fun c hc => Bool.eq_false_iff.mpr (List.any_eq_false.mp hclean c hc), ?_⟩ <;>
      cases type <;> decide
  have hskip : ∀ s : List Char, (type.name ++ s).dropWhile isSpace = type.name ++ s := by
    intro s
    obtain ⟨c, cs, hcs⟩ := List.exists_cons_of_ne_nil hname.1
    rw [hcs, List.cons_append, List.dropWhile_cons_of_neg]
    rw [hname.2.1 c (hcs ▸ List.mem_cons_self)]
    exact Bool.false_ne_true
  have hlast : sscanf [.space, .unsigned] (printUnsigned cant) = [.num cant] := by
    have hread : sscanf [.unsigned] (printUnsigned cant ++ []) = .num cant :: sscanf [] [] :=
      sscanf_unsigned (hdigits cant) [] fun c hc => by cases hc
    have hdrop := dropWhile_isSpace (hdigits cant) []
    rw [List.append_nil] at hread hdrop
    rw [sscanf, hdrop, hread]
    rfl
  have hstop : ∀ (c : Char) (s : List Char), c = ' ' → ∀ x ∈ (c :: s).head?,
      x.isDigit = false ∧ isSpace x = true := by
    rintro c s rfl x hx
    cases hx
    exact ⟨by decide, by decide⟩
  rw [resourceFormat, sscanf_literal, hblank, sscanf, dropWhile_isSpace (hdigits jobId),
    sscanf_unsigned (hdigits jobId) _ fun x hx => (hstop _ _ rfl x hx).1, hblank, sscanf, hskip,
    sscanf_word hname.1 hname.2.1 (fun k hk => hname.2.2 ▸ hwidth k hk) _
      fun x hx => (hstop _ _ rfl x hx).2, hblank, hlast]

/-- The call that a message leads to at the agent that reads it. -/
def Message.event (a : Arrival) : Message → Option AgentEvent
  | .reserve jobId type cant => some (.reserve a.socket jobId (some type) cant)
  | .granted n => some (.granted a.connections a.senderIp a.socket (scanUnsigned n))
  | .denied jobId => some (.denied jobId)
  | .release jobId _ _ => some (.release a.socket jobId a.rand)
  | .jobGranted _ | .jobDenied _ | .jobTimeout _ | .line _ => none

theorem reservedType_name (type : Resource) : reservedType type.name = some type := by
  cases type <;> decide

section Branches

variable {a : Arrival} {jobId cant : UInt32} {res : List Char}

/-- The command is RESERVE. -/
theorem scanLine_reserve (hnodes : "GET_NODES".toList.isPrefixOf a.line = false)
    (hrequest : "JOB_REQUEST".toList.isPrefixOf a.line = false)
    (hreserve : "RESERVE".toList.isPrefixOf a.line = true)
    (hscan : sscanf (resourceFormat "RESERVE".toList none) a.line =
      [.num jobId, .str res, .num cant]) :
    scanLine a = some (.reserve a.socket jobId (reservedType res) cant) := by
  rw [scanLine, hnodes, hrequest, hreserve, hscan]
  rfl

/-- The command is RELEASE. -/
theorem scanLine_release (hnodes : "GET_NODES".toList.isPrefixOf a.line = false)
    (hrequest : "JOB_REQUEST".toList.isPrefixOf a.line = false)
    (hreserve : "RESERVE".toList.isPrefixOf a.line = false)
    (hgranted : "GRANTED".toList.isPrefixOf a.line = false)
    (hdenied : "DENIED".toList.isPrefixOf a.line = false)
    (hrelease : "RELEASE".toList.isPrefixOf a.line = true)
    (hscan : sscanf (resourceFormat "RELEASE".toList (some 9)) a.line =
      [.num jobId, .str res, .num cant]) :
    scanLine a = some (.release a.socket jobId a.rand) := by
  rw [scanLine, hnodes, hrequest, hreserve, hgranted, hdenied, hrelease, hscan]
  rfl

end Branches

/-- An agent reads a message as it was sent. -/
theorem scanLine_command {m : Message} (h : m.BetweenAgents) :
    scanLine { a with line := m.command } = m.event a := by
  cases h with
  | reserve jobId type cant =>
    have hscan := sscanf_resource "RESERVE".toList jobId type cant none
      fun k hk => by cases hk
    rw [command_reserve]
    have hbranch := scanLine_reserve (a := { a with line := "RESERVE".toList ++ _ })
      rfl rfl rfl hscan
    rw [reservedType_name] at hbranch
    exact hbranch
  | release jobId type cant =>
    have hscan := sscanf_resource "RELEASE".toList jobId type cant (some 9) fun k hk => by
      cases hk
      decide
    rw [command_release]
    exact scanLine_release (a := { a with line := "RELEASE".toList ++ _ })
      rfl rfl rfl rfl rfl rfl hscan
  | granted n hlow hhigh =>
    rw [command_granted]
    have hbranch : ∀ rest, scanLine { a with line := "GRANTED".toList ++ rest } =
        (scanId "GRANTED".toList ("GRANTED".toList ++ rest)).map
          (.granted a.connections a.senderIp a.socket) := fun rest => rfl
    rw [hbranch, scanId_printInteger _ hlow hhigh]
    rfl
  | denied jobId =>
    have hlt : (jobId.toNat : ℤ) < 2 ^ 32 := by exact_mod_cast jobId.toNat_lt
    rw [command_denied]
    have hbranch : ∀ rest, scanLine { a with line := "DENIED".toList ++ rest } =
        (scanId "DENIED".toList ("DENIED".toList ++ rest)).map .denied := fun rest => rfl
    rw [hbranch, scanId_printInteger _ (by omega) hlt, scanUnsigned_toNat]
    rfl

end Scan

end ResourceManager
