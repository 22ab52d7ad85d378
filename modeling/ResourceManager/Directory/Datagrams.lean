import ResourceManager.Comms.Addresses
import ResourceManager.Comms.Framing
import ResourceManager.Comms.Requests
import ResourceManager.Directory.Expiry

/-!
# Announcements from agent to agent

`handle_get_resources` prints what is available, `handle_node_announced` reads it from the
datagram. The reader takes the resources in any order: tokens for different resources
commute (`announceToken_comm`), so the order of the writer is one of them.
-/

namespace ResourceManager

open HashTable Library.Numerals Library.Scanf

/-! ## The datagram -/

/-- A number printed with `%d`. -/
def printSigned (n : Int32) : List Char :=
  if n.toInt < 0 then '-' :: Nat.toDigits 10 n.toInt.natAbs else Nat.toDigits 10 n.toInt.natAbs

/-- `"ANNOUNCE %d cpu:%u mem:%u gpu:%u"` -/
def announceText (port : Int32) (cpu mem gpu : UInt32) : List Char :=
  "ANNOUNCE ".toList ++ printSigned port ++ " cpu:".toList ++ printUnsigned cpu ++
    " mem:".toList ++ printUnsigned mem ++ " gpu:".toList ++ printUnsigned gpu

/-- `handle_get_resources`. -/
def handleGetResources (s : LocalNode) (port : Int32) (outbox : List OutMsg) : List OutMsg :=
  let (cpu, gpu, ram) := getLocalResources s
  -- `snprintf` into `char msg[128]`
  let msg := (announceText port cpu ram gpu).take 127
  addToOutbox outbox ⟨none, 0, -1, .line msg⟩

/-- The buffer after `process_discovery_datagram`, as a C string. -/
def processDiscoveryDatagram (datagram : List Char) : List Char :=
  cString (datagram.take (bufferSize - 1) ++ ['\x00'])

theorem decimal_printUnsigned (n : UInt32) : Decimal (printUnsigned n) n.toNat :=
  decimal_toDigits n.toNat

theorem toNat_toUInt32 {port : Int32} (h : 0 < port.toInt) :
    port.toUInt32.toNat = port.toInt.natAbs := by
  have hnonneg : 0 ≤ port := by
    rw [Int32.le_iff_toInt_le]
    exact h.le
  rw [Int32.toNat_toUInt32_of_le hnonneg, ← Int32.toNat_toInt]
  omega

/-- A positive port is printed as an unsigned number. -/
theorem printSigned_eq {port : Int32} (h : 0 < port.toInt) :
    printSigned port = printUnsigned port.toUInt32 := by
  rw [printSigned, if_neg h.not_gt, printUnsigned, toNat_toUInt32 h]

theorem length_printUnsigned_le (n : UInt32) : (printUnsigned n).length ≤ 10 :=
  (Nat.length_toDigits_le_iff (by decide) (by decide)).mpr (by have := n.toNat_lt; omega)

section Text

variable {port : Int32} (cpu mem gpu : UInt32)

theorem length_announceText_le (h : 0 < port.toInt) :
    (announceText port cpu mem gpu).length ≤ 127 := by
  have hport := length_printUnsigned_le port.toUInt32
  have hcpu := length_printUnsigned_le cpu
  have hmem := length_printUnsigned_le mem
  have hgpu := length_printUnsigned_le gpu
  have hliterals : "ANNOUNCE ".toList.length = 9 ∧ " cpu:".toList.length = 5 ∧
      " mem:".toList.length = 5 ∧ " gpu:".toList.length = 5 := ⟨rfl, rfl, rfl, rfl⟩
  have hprinted := congrArg List.length (printSigned_eq h)
  unfold announceText
  simp only [List.length_append]
  omega

theorem nul_notMem_announceText (h : 0 < port.toInt) :
    '\x00' ∉ announceText port cpu mem gpu := by
  have hdigit : ∀ n : UInt32, '\x00' ∉ printUnsigned n := fun n =>
    (decimal_printUnsigned n).notMem (by decide)
  have hport : '\x00' ∉ printSigned port := printSigned_eq h ▸ hdigit port.toUInt32
  have hliterals : '\x00' ∉ "ANNOUNCE ".toList ∧ '\x00' ∉ " cpu:".toList ∧
      '\x00' ∉ " mem:".toList ∧ '\x00' ∉ " gpu:".toList :=
    ⟨by decide, by decide, by decide, by decide⟩
  obtain ⟨hannounce, hcpu, hmem, hgpu⟩ := hliterals
  unfold announceText
  simp only [List.mem_append, not_or]
  exact ⟨⟨⟨⟨⟨⟨⟨hannounce, hport⟩, hcpu⟩, hdigit cpu⟩, hmem⟩, hdigit mem⟩, hgpu⟩, hdigit gpu⟩

/-- The datagram arrives as it was printed. -/
theorem processDiscoveryDatagram_announceText (h : 0 < port.toInt) :
    processDiscoveryDatagram (announceText port cpu mem gpu) = announceText port cpu mem gpu := by
  have hlen := length_announceText_le cpu mem gpu h
  rw [processDiscoveryDatagram, List.take_of_length_le (hlen.trans (by decide)),
    cString_append (nul_notMem_announceText cpu mem gpu h)]

theorem handleGetResources_eq (s : LocalNode) (h : 0 < port.toInt) :
    handleGetResources s port [] =
      [⟨none, 0, -1, .line (announceText port (s.avail .cpu) (s.avail .ram) (s.avail .gpu))⟩] := by
  show addToOutbox [] ⟨none, 0, -1, .line ((announceText port (s.avail .cpu) (s.avail .ram)
    (s.avail .gpu)).take 127)⟩ = _
  rw [List.take_of_length_le (length_announceText_le _ _ _ h)]
  rfl

/-- The tokens of the writer. -/
def announceTokens : List (List Char) :=
  ["cpu:".toList ++ printUnsigned cpu, "mem:".toList ++ printUnsigned mem,
    "gpu:".toList ++ printUnsigned gpu]

theorem words_announceText (h : 0 < port.toInt) : words (announceText port cpu mem gpu) =
    "ANNOUNCE".toList :: printUnsigned port.toUInt32 :: announceTokens cpu mem gpu := by
  have hdigit : ∀ n : UInt32, ' ' ∉ printUnsigned n := fun n =>
    (decimal_printUnsigned n).notMem (by decide)
  have htoken : ∀ (name : List Char) (n : UInt32), name ≠ [] → ' ' ∉ name →
      name ++ printUnsigned n ≠ [] ∧ ∀ c ∈ name ++ printUnsigned n, isBlank c = false := by
    intro name n hne hname
    refine ⟨List.append_ne_nil_of_left_ne_nil hne _, isBlank_of_notMem fun hmem => ?_⟩
    exact (List.mem_append.mp hmem).elim hname (hdigit n)
  have htokens : ∀ t ∈ printUnsigned port.toUInt32 :: announceTokens cpu mem gpu,
      t ≠ [] ∧ ∀ c ∈ t, isBlank c = false := by
    intro t ht
    simp only [announceTokens, List.mem_cons, List.not_mem_nil, or_false] at ht
    rcases ht with rfl | rfl | rfl | rfl
    · exact ⟨(decimal_printUnsigned _).ne_nil, isBlank_of_notMem (hdigit _)⟩
    · exact htoken _ cpu (by decide) (by decide)
    · exact htoken _ mem (by decide) (by decide)
    · exact htoken _ gpu (by decide) (by decide)
  have hline : announceText port cpu mem gpu = "ANNOUNCE".toList ++
      (printUnsigned port.toUInt32 :: announceTokens cpu mem gpu).flatMap fun t => ' ' :: t := by
    unfold announceText announceTokens
    rw [printSigned_eq h]
    simp
  rw [hline, words_flatMap htokens (by decide) (isBlank_of_notMem (by decide))]

end Text

/-! ## The tokens -/

/-- The resource that a token names, as the reader takes it. -/
def tokenResource (token : List Char) : Option Resource :=
  if "cpu:".toList.isPrefixOf token then some .cpu
  else if "mem:".toList.isPrefixOf token || "ram:".toList.isPrefixOf token then some .ram
  else if "gpu:".toList.isPrefixOf token then some .gpu
  else none

/-- The amount in a token. -/
def tokenAmount (token : List Char) : UInt32 := atoiUnsigned (token.drop 4)

namespace Announcement

def avail (a : Announcement) : Resource → UInt32
  | .cpu => a.cpu
  | .ram => a.ram
  | .gpu => a.gpu

def put (a : Announcement) (n : UInt32) : Resource → Announcement
  | .cpu => { a with cpu := n }
  | .ram => { a with ram := n }
  | .gpu => { a with gpu := n }

variable (a : Announcement) (n m : UInt32) (r r' : Resource)

@[simp] theorem port_put : (a.put n r).port = a.port := by cases r <;> rfl

theorem avail_put : (a.put n r).avail r' = if r' = r then n else a.avail r' := by
  cases r <;> cases r' <;> rfl

/-- Writes of different resources commute. -/
theorem put_comm (h : r ≠ r') : (a.put n r).put m r' = (a.put m r').put n r := by
  cases r <;> cases r' <;> first | rfl | exact absurd rfl h

end Announcement

theorem announceToken_eq (a : Announcement) (token : List Char) :
    announceToken a token =
      (tokenResource token).elim a fun r => a.put (tokenAmount token) r := by
  unfold announceToken tokenResource tokenAmount
  split
  · rfl
  split
  · rfl
  split
  · rfl
  · rfl

/-- The tokens name different resources; a token that names none may stand anywhere. -/
def DifferentResources (tokens : List (List Char)) : Prop :=
  tokens.Pairwise fun t t' => ∀ r, tokenResource t = some r → tokenResource t' ≠ some r

theorem announceToken_comm {t t' : List Char}
    (h : ∀ r, tokenResource t = some r → tokenResource t' ≠ some r) (a : Announcement) :
    announceToken (announceToken a t) t' = announceToken (announceToken a t') t := by
  simp only [announceToken_eq]
  cases ht : tokenResource t with
  | none => rfl
  | some r =>
    cases ht' : tokenResource t' with
    | none => rfl
    | some r' =>
      apply Announcement.put_comm
      rintro rfl
      exact h r ht ht'

section Tokens

variable {ts ts' : List (List Char)}

/-- The order of the tokens does not matter. -/
theorem foldl_announceToken_perm (hdiff : DifferentResources ts) (hperm : ts.Perm ts')
    (a : Announcement) : ts.foldl announceToken a = ts'.foldl announceToken a := by
  have hcomm : ts.Pairwise fun t t' => ∀ a : Announcement,
      announceToken (announceToken a t) t' = announceToken (announceToken a t') t :=
    hdiff.imp announceToken_comm
  have hall := hcomm.forall_of_forall_of_flip (fun _ _ _ => rfl)
    (hcomm.imp fun h a => (h a).symm)
  exact hperm.foldl_eq' (fun t ht t' ht' => hall ht ht') a

theorem port_foldl (a : Announcement) : (ts.foldl announceToken a).port = a.port := by
  refine List.foldlRecOn (motive := fun b : Announcement => b.port = a.port) ts _ rfl
    fun b hb t _ => ?_
  rw [announceToken_eq, ← hb]
  cases tokenResource t with
  | none => rfl
  | some r => exact Announcement.port_put b _ r

theorem avail_foldl_absent {r : Resource} (h : ∀ t ∈ ts, tokenResource t ≠ some r)
    (a : Announcement) : (ts.foldl announceToken a).avail r = a.avail r := by
  refine List.foldlRecOn (motive := fun b : Announcement => b.avail r = a.avail r) ts _ rfl
    fun b hb t ht => ?_
  rw [announceToken_eq, ← hb]
  cases hr : tokenResource t with
  | none => rfl
  | some r' =>
    have hne : r ≠ r' := by
      rintro rfl
      exact h t ht hr
    rw [Option.elim_some, Announcement.avail_put, if_neg hne]

theorem avail_foldl_token (hdiff : DifferentResources ts) {t : List Char} (ht : t ∈ ts)
    {r : Resource} (hr : tokenResource t = some r) (a : Announcement) :
    (ts.foldl announceToken a).avail r = tokenAmount t := by
  obtain ⟨before, after, rfl⟩ := List.append_of_mem ht
  obtain ⟨_, hafter, _⟩ := List.pairwise_append.mp hdiff
  have hlast := (List.pairwise_cons.mp hafter).1
  rw [List.foldl_append, List.foldl_cons, avail_foldl_absent fun t' ht' => hlast t' ht' r hr,
    announceToken_eq, hr, Option.elim_some, Announcement.avail_put, if_pos rfl]

end Tokens

theorem scanAnnounce_of_words {datagram port : List Char} {ts : List (List Char)}
    (h : words datagram = "ANNOUNCE".toList :: port :: ts) :
    scanAnnounce datagram = some (ts.foldl announceToken ⟨atoiUnsigned port, 0, 0, 0⟩) := by
  rw [scanAnnounce, h]
  exact if_pos rfl

/-! ## The entry -/

/-- `entry` takes the place of what was known of its address; the rest stays. -/
structure Replaces (nodes nodes' : KnownNodes) (entry : ElemKnownNodes) : Prop where
  members : ∀ node, node ∈ nodes'.datos ↔
    node = entry ∨ (node ∈ nodes.datos ∧ node.address ≠ entry.address)
  found : ∀ key : ElemKnownNodes, nodes'.buscar key =
    if key.address = entry.address then some entry else nodes.buscar key

theorem replaces_updateKnownNode (nodes : KnownNodes) (now : Int) (ip : Ip)
    (port cpu ram gpu : UInt32) :
    Replaces nodes (updateKnownNode nodes now ip port cpu ram gpu)
      (createElemKnownNode ip port cpu ram gpu now) where
  members node := by
    rw [updateKnownNode, Tabla.mem_insertar, igual_knownNode]
  found key := by
    rw [updateKnownNode, Tabla.buscar_insertar]
    exact if_congr (igual_knownNode.trans eq_comm) rfl rfl

/-- An announcement with a port is stored. -/
theorem replaces_handleNodeAnnounced (nodes : KnownNodes) (now : Int) (senderIp : Ip)
    {datagram : List Char} {a : Announcement} (h : scanAnnounce datagram = some a)
    (hport : 0 < a.port) :
    Replaces nodes (handleNodeAnnounced nodes now senderIp datagram)
      (createElemKnownNode senderIp a.port a.cpu a.ram a.gpu now) := by
  rw [handleNodeAnnounced, h]
  dsimp only
  rw [if_pos hport]
  exact replaces_updateKnownNode nodes now senderIp a.port a.cpu a.ram a.gpu

theorem tokenResource_announceTokens (cpu mem gpu : UInt32) :
    (announceTokens cpu mem gpu).map tokenResource = [some .cpu, some .ram, some .gpu] := rfl

theorem differentResources_announceTokens (cpu mem gpu : UInt32) :
    DifferentResources (announceTokens cpu mem gpu) := by
  have hnodup : ((announceTokens cpu mem gpu).map tokenResource).Nodup := by
    rw [tokenResource_announceTokens]
    decide
  exact (List.pairwise_map.mp hnodup).imp fun hne r hr hr' => hne (hr.trans hr'.symm)

/-- The reader finds what the writer has printed. -/
theorem scanAnnounce_announceText {port : Int32} (h : 0 < port.toInt) (cpu mem gpu : UInt32) :
    scanAnnounce (announceText port cpu mem gpu) = some ⟨port.toUInt32, cpu, mem, gpu⟩ := by
  obtain ⟨a, ha⟩ : ∃ a, a = (announceTokens cpu mem gpu).foldl announceToken
      ⟨atoiUnsigned (printUnsigned port.toUInt32), 0, 0, 0⟩ := ⟨_, rfl⟩
  have hport : a.port = port.toUInt32 := by
    rw [ha, port_foldl, atoiUnsigned_decimal (decimal_printUnsigned _)]
  have havail : ∀ (name : List Char) (n : UInt32) (r : Resource), name.length = 4 →
      name ++ printUnsigned n ∈ announceTokens cpu mem gpu →
      tokenResource (name ++ printUnsigned n) = some r → a.avail r = n := by
    intro name n r hname htoken hr
    rw [ha, avail_foldl_token (differentResources_announceTokens cpu mem gpu) htoken hr,
      tokenAmount, ← hname, List.drop_left, atoiUnsigned_decimal (decimal_printUnsigned n)]
  have hcpu : a.cpu = cpu :=
    havail "cpu:".toList cpu .cpu rfl (by simp [announceTokens]) rfl
  have hmem : a.ram = mem :=
    havail "mem:".toList mem .ram rfl (by simp [announceTokens]) rfl
  have hgpu : a.gpu = gpu :=
    havail "gpu:".toList gpu .gpu rfl (by simp [announceTokens]) rfl
  rw [scanAnnounce_of_words (words_announceText cpu mem gpu h), ← ha, ← hport, ← hcpu, ← hmem,
    ← hgpu]

/-- What an agent announces replaces the entry of its address in the directory of whoever
receives it, with exactly the available amounts and the time. Datagrams with the same tokens
for different resources have the same effect; the entry has the amount of each token, and
`0` for what is missing. -/
theorem announce_round_trip (nodes : KnownNodes) (now : Int) (senderIp : Ip) (s : LocalNode)
    (port : Int32) (hport : 0 < port.toInt) (datagram datagram' portText : List Char)
    (ts ts' : List (List Char)) (hwords : words datagram = "ANNOUNCE".toList :: portText :: ts)
    (hwords' : words datagram' = "ANNOUNCE".toList :: portText :: ts') (hperm : ts.Perm ts')
    (hdiff : DifferentResources ts) :
    (∃ text, handleGetResources s port [] = [⟨none, 0, -1, .line text⟩] ∧
      Replaces nodes (handleNodeAnnounced nodes now senderIp (processDiscoveryDatagram text))
        (createElemKnownNode senderIp port.toUInt32 (s.avail .cpu) (s.avail .ram) (s.avail .gpu)
          now)) ∧
      handleNodeAnnounced nodes now senderIp datagram' =
        handleNodeAnnounced nodes now senderIp datagram ∧
      (0 < atoiUnsigned portText → ∃ entry : ElemKnownNodes,
        Replaces nodes (handleNodeAnnounced nodes now senderIp datagram) entry ∧
        entry.address = (senderIp, atoiUnsigned portText) ∧ entry.timeStamp = now ∧
        (∀ t ∈ ts, ∀ r, tokenResource t = some r → entry.avail r = tokenAmount t) ∧
        ∀ r, (∀ t ∈ ts, tokenResource t ≠ some r) → entry.avail r = 0) := by
  have hscan := scanAnnounce_of_words hwords
  refine ⟨⟨_, handleGetResources_eq s hport, ?_⟩, ?_, fun hpos => ?_⟩
  · have hne : 0 < port.toUInt32 := by
      rw [UInt32.lt_iff_toNat_lt, toNat_toUInt32 hport]
      exact Int.natAbs_pos.mpr hport.ne'
    rw [processDiscoveryDatagram_announceText _ _ _ hport]
    exact replaces_handleNodeAnnounced nodes now senderIp (scanAnnounce_announceText hport _ _ _)
      hne
  · rw [handleNodeAnnounced, handleNodeAnnounced, hscan, scanAnnounce_of_words hwords',
      foldl_announceToken_perm hdiff hperm]
  · set a := ts.foldl announceToken ⟨atoiUnsigned portText, 0, 0, 0⟩ with ha
    have hp : a.port = atoiUnsigned portText := port_foldl _
    have havail : ∀ r, (createElemKnownNode senderIp a.port a.cpu a.ram a.gpu now).avail r =
        a.avail r := fun r => by cases r <;> rfl
    have hreplaces := replaces_handleNodeAnnounced nodes now senderIp hscan (hp.symm ▸ hpos)
    refine ⟨_, hreplaces, ?_, rfl, fun t ht r hr => ?_, fun r habsent => ?_⟩
    · exact Prod.ext rfl hp
    · rw [havail, ha, avail_foldl_token hdiff ht hr]
    · rw [havail, ha, avail_foldl_absent habsent]
      cases r <;> rfl

/-- A node whose amounts have changed, and a datagram of two tokens. -/
theorem announce_round_trip_reordered :
    let nodes := updateKnownNode createKnownNodes 0 (inetNtoa 10 0 0 2) 8000 1 1 1
    (∃ text, handleGetResources (createLocalNode 4 1 2048) 8000 [] =
        [⟨none, 0, -1, .line text⟩] ∧
      Replaces nodes (handleNodeAnnounced nodes 5 (inetNtoa 10 0 0 2)
        (processDiscoveryDatagram text))
        (createElemKnownNode (inetNtoa 10 0 0 2) 8000 4 2048 1 5)) ∧
      handleNodeAnnounced nodes 5 (inetNtoa 10 0 0 2) "ANNOUNCE 8000 gpu:1 cpu:4".toList =
        handleNodeAnnounced nodes 5 (inetNtoa 10 0 0 2) "ANNOUNCE 8000 cpu:4 gpu:1".toList := by
  intro nodes
  have h := announce_round_trip nodes 5 (inetNtoa 10 0 0 2) (createLocalNode 4 1 2048) 8000
    (by decide) "ANNOUNCE 8000 cpu:4 gpu:1".toList "ANNOUNCE 8000 gpu:1 cpu:4".toList
    "8000".toList ["cpu:4".toList, "gpu:1".toList] ["gpu:1".toList, "cpu:4".toList]
    (by decide +kernel) (by decide +kernel) (List.Perm.swap _ _ _) (by
      unfold DifferentResources
      decide +kernel)
  exact ⟨h.1, h.2.1⟩

end ResourceManager
