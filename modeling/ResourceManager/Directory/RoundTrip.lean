import ResourceManager.Comms.Addresses
import ResourceManager.Directory.Payload
import ResourceManager.Scheduler.Packets

/-!
# The directory as the scheduler reads it

A NODES line of entries with an IPv4 address and a port of 16 bits is decoded by
`handle_packet` into the records of its entries (`nodes_round_trip`).
-/

namespace ResourceManager

open HashTable Library.Numerals

/-! ## Addresses -/

theorem parseStrictAddress_inetNtoa (a b c d : UInt8) :
    Scheduler.parseStrictAddress (inetNtoa a b c d).text =
      some [a.toNat, b.toNat, c.toNat, d.toNat] := by
  rw [Scheduler.parseStrictAddress, Scheduler.split, mapM_cNumber_inetNtoa]
  exact if_pos ⟨a.toNat_lt, b.toNat_lt, c.toNat_lt, d.toNat_lt⟩

/-! ## One entry -/

/-- The record that stands for an entry. -/
def nodeRecord (node : ElemKnownNodes) : Scheduler.Node where
  ip := node.nodeIp.text
  port := printUnsigned node.nodePort
  cpu := some (node.avail .cpu).toNat
  mem := some (node.avail .ram).toNat
  gpu := some (node.avail .gpu).toNat

theorem split_nodeText {node : ElemKnownNodes} (h : ':' ∉ node.nodeIp.text) :
    Scheduler.split ':' (nodeText node) =
      [node.nodeIp.text, printUnsigned node.nodePort, "cpu".toList,
        printUnsigned (node.avail .cpu), "mem".toList, printUnsigned (node.avail .ram),
        "gpu".toList, printUnsigned (node.avail .gpu)] := by
  have hcolon : Char.isDigit ':' = false := by decide
  have hword : ∀ word rest : List Char, ':' ∉ word →
      Scheduler.split ':' (word ++ ':' :: rest) = word :: Scheduler.split ':' rest := by
    intro word rest hw
    refine List.splitOnP_append_cons_of_forall_mem (fun c hc => ?_) ':' (by simp) rest
    rw [beq_eq_false_iff_ne]
    rintro rfl
    exact hw hc
  have htext : nodeText node = node.nodeIp.text ++ ':' :: (printUnsigned node.nodePort ++ ':' ::
      ("cpu".toList ++ ':' :: (printUnsigned (node.avail .cpu) ++ ':' :: ("mem".toList ++ ':' ::
        (printUnsigned (node.avail .ram) ++ ':' :: ("gpu".toList ++ ':' ::
          printUnsigned (node.avail .gpu))))))) := by
    simp [nodeText]
  have hnumber : ∀ (n : UInt32) (rest : List Char), Scheduler.split ':'
      (printUnsigned n ++ ':' :: rest) = printUnsigned n :: Scheduler.split ':' rest :=
    fun n rest => splitOnP_toDigits hcolon n.toNat rest
  have hend : ∀ n : UInt32, Scheduler.split ':' (printUnsigned n) = [printUnsigned n] := fun n =>
    splitOnP_toDigits_end hcolon n.toNat
  rw [htext, hword _ _ h, hnumber, hword _ _ (by decide), hnumber, hword _ _ (by decide), hnumber,
    hword _ _ (by decide), hend]

theorem toPairs_printed (cpu mem gpu : UInt32) :
    Scheduler.toPairs ["cpu".toList, printUnsigned cpu, "mem".toList, printUnsigned mem,
        "gpu".toList, printUnsigned gpu] =
      some [("cpu".toList, (cpu.toNat : ℤ)), ("mem".toList, (mem.toNat : ℤ)),
        ("gpu".toList, (gpu.toNat : ℤ))] := by
  have hvalue : ∀ n : UInt32,
      Scheduler.listToInteger (Scheduler.trim (printUnsigned n)) = some (n.toNat : ℤ) := by
    intro n
    have h := decimal_toDigits n.toNat
    rw [printUnsigned, Scheduler.trim_decimal h, Scheduler.listToInteger_decimal h]
  simp only [Scheduler.toPairs, hvalue]

theorem notMem_of_dottedQuad {ip : Ip} (h : DottedQuad ip) {c : Char} (hc : c.isDigit = false)
    (hdot : c ≠ '.') : c ∉ ip.text := by
  obtain ⟨a₁, a₂, a₃, a₄, rfl⟩ := h
  intro hmem
  rcases mem_inetNtoa hmem with hdigit | he
  · rw [hdigit] at hc
    cases hc
  · exact hdot he

/-- An entry is accepted when its port is one. -/
theorem validateAndGetNode_nodeText {node : ElemKnownNodes} (h : DottedQuad node.nodeIp) :
    Scheduler.validateAndGetNode (nodeText node) =
      if 1 ≤ node.nodePort.toNat ∧ node.nodePort.toNat ≤ 65535 then some (nodeRecord node)
      else none := by
  have hsplit := split_nodeText (notMem_of_dottedQuad h (by decide) (by decide))
  have hport : Scheduler.listToInteger (printUnsigned node.nodePort) =
      some (node.nodePort.toNat : ℤ) := Scheduler.listToInteger_decimal (decimal_toDigits _)
  have haddr : ∃ fields, Scheduler.parseStrictAddress node.nodeIp.text = some fields := by
    obtain ⟨a, b, c, d, hip⟩ := h
    exact ⟨_, hip ▸ parseStrictAddress_inetNtoa a b c d⟩
  obtain ⟨fields, haddr⟩ := haddr
  rw [Scheduler.validateAndGetNode, hsplit]
  simp only [haddr, hport, toPairs_printed]
  have hcast : (1 ≤ (node.nodePort.toNat : ℤ) ∧ (node.nodePort.toNat : ℤ) ≤ 65535) ↔
      (1 ≤ node.nodePort.toNat ∧ node.nodePort.toNat ≤ 65535) := by omega
  rw [if_congr hcast rfl rfl]
  rfl

/-! ## The line -/

/-- The entries with semicolons between them. -/
def nodesText (kept : List ElemKnownNodes) : List Char := (kept.flatMap nodeEntry).dropLast

theorem nodesText_singleton (node : ElemKnownNodes) : nodesText [node] = nodeText node := by
  simp [nodesText, nodeEntry]

theorem nodesText_cons (node next : ElemKnownNodes) (kept : List ElemKnownNodes) :
    nodesText (node :: next :: kept) = nodeText node ++ ';' :: nodesText (next :: kept) := by
  have hne : (next :: kept).flatMap nodeEntry ≠ [] := by simp [nodeEntry]
  rw [nodesText, List.flatMap_cons, List.dropLast_append_of_ne_nil hne, nodeEntry,
    List.append_assoc]
  rfl

theorem semicolon_notMem_nodeText {node : ElemKnownNodes} (h : DottedQuad node.nodeIp) :
    ';' ∉ nodeText node := by
  have hip := notMem_of_dottedQuad h (c := ';') (by decide) (by decide)
  have hnum : ∀ n : UInt32, ';' ∉ printUnsigned n := fun n =>
    (decimal_toDigits n.toNat).notMem (by decide)
  simp [nodeText, hip, hnum]

theorem split_nodesText : ∀ {kept : List ElemKnownNodes}, kept ≠ [] →
    (∀ node ∈ kept, DottedQuad node.nodeIp) →
      Scheduler.split ';' (nodesText kept) = kept.map nodeText
  | [], hne, _ => absurd rfl hne
  | [node], _, h => by
    have hsemi := semicolon_notMem_nodeText (h node List.mem_cons_self)
    rw [nodesText_singleton]
    refine List.splitOnP_eq_singleton fun c hc => ?_
    rw [beq_eq_false_iff_ne]
    rintro rfl
    exact hsemi hc
  | node :: next :: kept, _, h => by
    have hsemi := semicolon_notMem_nodeText (h node List.mem_cons_self)
    have ih := split_nodesText (List.cons_ne_nil next kept) fun n hn =>
      h n (List.mem_cons_of_mem _ hn)
    rw [nodesText_cons, List.map_cons, ← ih]
    refine List.splitOnP_append_cons_of_forall_mem (fun c hc => ?_) ';' (by simp) _
    rw [beq_eq_false_iff_ne]
    rintro rfl
    exact hsemi hc

/-- The text of an entry starts and ends with a digit. -/
theorem nodeText_ends {node : ElemKnownNodes} (h : DottedQuad node.nodeIp) :
    (∃ c rest, nodeText node = c :: rest ∧ c.isDigit = true) ∧
      ∃ init c, nodeText node = init ++ [c] ∧ c.isDigit = true := by
  constructor
  · obtain ⟨a, b, c, d, hip⟩ := h
    obtain ⟨x, xs, hx, hdigit⟩ := (decimal_toDigits a.toNat).exists_cons
    have hcons : ∃ rest, nodeText node = x :: rest := by
      rw [nodeText, hip, text_inetNtoa, hx, List.cons_append, List.cons_append]
      exact ⟨_, rfl⟩
    obtain ⟨rest, hrest⟩ := hcons
    exact ⟨x, rest, hrest, hdigit⟩
  · have hdec := decimal_toDigits (node.avail .gpu).toNat
    have hpre : ∃ pre, nodeText node = pre ++ Nat.toDigits 10 (node.avail .gpu).toNat := by
      rw [nodeText, ← List.cons_append, ← List.append_assoc]
      exact ⟨_, rfl⟩
    obtain ⟨pre, hpre⟩ := hpre
    refine ⟨pre ++ (Nat.toDigits 10 (node.avail .gpu).toNat).dropLast,
      (Nat.toDigits 10 (node.avail .gpu).toNat).getLast hdec.ne_nil, ?_,
      hdec.isDigit _ (List.getLast_mem _)⟩
    rw [hpre, List.append_assoc, List.dropLast_append_getLast]

theorem nodesText_ends : ∀ {kept : List ElemKnownNodes}, kept ≠ [] →
    (∀ node ∈ kept, DottedQuad node.nodeIp) →
      (∃ c rest, nodesText kept = c :: rest ∧ c.isDigit = true) ∧
        ∃ init c, nodesText kept = init ++ [c] ∧ c.isDigit = true
  | [], hne, _ => absurd rfl hne
  | [node], _, h => by
    rw [nodesText_singleton]
    exact nodeText_ends (h node List.mem_cons_self)
  | node :: next :: kept, _, h => by
    obtain ⟨⟨c, rest, hc, hdigit⟩, _⟩ := nodeText_ends (h node List.mem_cons_self)
    obtain ⟨_, init, d, hd, hdigit'⟩ := nodesText_ends (List.cons_ne_nil next kept) fun n hn =>
      h n (List.mem_cons_of_mem _ hn)
    rw [nodesText_cons]
    constructor
    · exact ⟨c, _, by rw [hc, List.cons_append], hdigit⟩
    · exact ⟨nodeText node ++ ';' :: init, d, by rw [hd]; simp, hdigit'⟩

/-- Only the end of the line is trimmed. -/
theorem trim_nodesText {kept : List ElemKnownNodes} (hne : kept ≠ [])
    (h : ∀ node ∈ kept, DottedQuad node.nodeIp) :
    Scheduler.trim (nodesText kept ++ ['\n']) = nodesText kept ∧ nodesText kept ≠ [] := by
  obtain ⟨⟨c, rest, hc, hdigit⟩, init, d, hd, hdigit'⟩ := nodesText_ends hne h
  have hdrop : (nodesText kept ++ ['\n']).dropWhile Scheduler.isWhitespace =
      nodesText kept ++ ['\n'] := by
    rw [hc, List.cons_append, List.dropWhile_cons_of_neg]
    simp [Scheduler.isWhitespace_of_isDigit hdigit]
  constructor
  · rw [Scheduler.trim, hdrop, List.rdropWhile_concat_pos _ _ _ (by decide), hd,
      List.rdropWhile_concat_neg]
    simp [Scheduler.isWhitespace_of_isDigit hdigit']
  · rw [hc]
    exact List.cons_ne_nil _ _

theorem mapM_validateAndGetNode : ∀ {kept : List ElemKnownNodes},
    (∀ node ∈ kept, DottedQuad node.nodeIp) →
      (kept.map nodeText).mapM Scheduler.validateAndGetNode =
        if ∀ node ∈ kept, 1 ≤ node.nodePort.toNat ∧ node.nodePort.toNat ≤ 65535 then
          some (kept.map nodeRecord)
        else none
  | [], _ => rfl
  | node :: kept, h => by
    have hnode := validateAndGetNode_nodeText (h node List.mem_cons_self)
    have ih := mapM_validateAndGetNode fun n hn => h n (List.mem_cons_of_mem _ hn)
    rw [List.map_cons, List.mapM_cons, hnode, ih]
    simp only [List.forall_mem_cons]
    by_cases hport : 1 ≤ node.nodePort.toNat ∧ node.nodePort.toNat ≤ 65535
    · rw [if_pos hport]
      by_cases hrest : ∀ n ∈ kept, 1 ≤ n.nodePort.toNat ∧ n.nodePort.toNat ≤ 65535
      · rw [if_pos hrest, if_pos ⟨hport, hrest⟩]
        rfl
      · rw [if_neg hrest, if_neg (fun hall => hrest hall.2)]
        rfl
    · rw [if_neg hport]
      exact (if_neg fun hall => hport hall.1).symm

theorem handlePacket_nodesLine_nil :
    Scheduler.handlePacket (nodesLine []) = .skip "No nodes available".toList := by decide +kernel

/-- The line is accepted when every entry in it is, and rejected as a whole otherwise. -/
theorem handlePacket_nodesLine {kept : List ElemKnownNodes} (hne : kept ≠ [])
    (h : ∀ node ∈ kept, DottedQuad node.nodeIp) :
    Scheduler.handlePacket (nodesLine kept) =
      if ∀ node ∈ kept, 1 ≤ node.nodePort.toNat ∧ node.nodePort.toNat ≤ 65535 then
        .nodeRecords (kept.map nodeRecord)
      else .skip "Unknown packet".toList := by
  obtain ⟨htrim, htext⟩ := trim_nodesText hne h
  have hlist : Scheduler.getNodeList (nodesText kept ++ ['\n']) = kept.map nodeText := by
    rw [← split_nodesText hne h, Scheduler.getNodeList, htrim]
    split
    · contradiction
    · rfl
  have hpacket : Scheduler.doHandlePacket (nodesLine kept) =
      ((kept.map nodeText).mapM Scheduler.validateAndGetNode).map .nodeRecords := by
    rw [← hlist]
    show (if Scheduler.trim (nodesText kept ++ ['\n']) = [] then _ else _) = _
    rw [htrim, if_neg htext]
    rfl
  rw [Scheduler.handlePacket, hpacket, mapM_validateAndGetNode h]
  split <;> rfl

/-! ## The directory -/

theorem nul_notMem_nodeEntry {node : ElemKnownNodes} (h : DottedQuad node.nodeIp) :
    '\x00' ∉ nodeEntry node := by
  have hip := notMem_of_dottedQuad h (c := '\x00') (by decide) (by decide)
  have hnum : ∀ n : UInt32, '\x00' ∉ printUnsigned n := fun n =>
    (decimal_toDigits n.toNat).notMem (by decide)
  simp [nodeEntry, nodeText, hip, hnum]

theorem nodesResponse_eq {nodes : KnownNodes} (h : ∀ node ∈ nodes.datos, DottedQuad node.nodeIp) :
    nodesResponse nodes = nodesLine (fitting (bufferSize - 6) nodes.datos) := by
  have hsize : 7 < (List.replicate bufferSize '\x00').length := by
    rw [List.length_replicate]
    decide
  have hspec := payload_spec nodes hsize fun node hnode =>
    nul_notMem_nodeEntry (h node hnode)
  rwa [List.length_replicate] at hspec

/-- The line built from a directory of IPv4 addresses and ports of 16 bits is decoded into
the records of the entries that fitted, in the order of the slots. These are all entries
when their texts fit together, and the line says that there are no nodes exactly when
nothing fitted. -/
theorem nodes_round_trip (nodes : KnownNodes) (buffer : List Char)
    (hbuffer : buffer.length = bufferSize)
    (h : ∀ node ∈ nodes.datos, DottedQuad node.nodeIp ∧
      1 ≤ node.nodePort.toNat ∧ node.nodePort.toNat ≤ 65535) :
    let packet := Scheduler.handlePacket (cString (getKnownNodesPayload nodes buffer bufferSize))
    let kept := fitting (bufferSize - 6) nodes.datos
    kept.Sublist nodes.datos ∧
      (kept ≠ [] → packet = .nodeRecords (kept.map nodeRecord)) ∧
      (packet = .skip "No nodes available".toList ↔ kept = []) ∧
      (6 + (nodes.datos.flatMap nodeEntry).length < bufferSize → kept = nodes.datos) := by
  intro packet kept
  have hsub : kept.Sublist nodes.datos := fitting_sublist _ _
  have hline : cString (getKnownNodesPayload nodes buffer bufferSize) = nodesLine kept := by
    rw [← hbuffer]
    refine (payload_spec nodes (by rw [hbuffer]; decide) fun node hnode =>
      nul_notMem_nodeEntry (h node hnode).1).trans ?_
    rw [hbuffer]
  have hrecords : kept ≠ [] → packet = .nodeRecords (kept.map nodeRecord) := by
    intro hne
    have hquad : ∀ node ∈ kept, DottedQuad node.nodeIp := fun node hnode =>
      (h node (hsub.subset hnode)).1
    refine (congrArg Scheduler.handlePacket hline).trans ?_
    rw [handlePacket_nodesLine hne hquad, if_pos fun node hnode => (h node (hsub.subset hnode)).2]
  refine ⟨hsub, hrecords, ⟨fun hskip => ?_, fun hnil => ?_⟩, fun hfit => ?_⟩
  · by_contra hne
    rw [hrecords hne] at hskip
    cases hskip
  · refine (congrArg Scheduler.handlePacket hline).trans ?_
    rw [hnil]
    exact handlePacket_nodesLine_nil
  · exact fitting_eq_self _ _ (by omega)

/-- 32 nodes. When the turn of 10.0.0.19 comes its entry does not fit in what is left of the
buffer; that of 10.0.0.5, which comes after it and is shorter, does. -/
def crowd : KnownNodes := (List.range 32).foldl (fun nodes i =>
  updateKnownNode nodes 0 (inetNtoa 10 0 0 (UInt8.ofNat i)) 8000 4
    (if i = 19 then 4000000000 else 8) 1) createKnownNodes

theorem addresses_crowd : ∀ node ∈ crowd.datos, DottedQuad node.nodeIp ∧
    1 ≤ node.nodePort.toNat ∧ node.nodePort.toNat ≤ 65535 := by
  refine List.foldlRecOn (motive := fun nodes : KnownNodes => ∀ node ∈ nodes.datos,
    DottedQuad node.nodeIp ∧ 1 ≤ node.nodePort.toNat ∧ node.nodePort.toNat ≤ 65535) _ _ ?_ ?_
  · rw [createKnownNodes, Tabla.datos_nuevo]
    exact fun node hnode => absurd hnode List.not_mem_nil
  · intro nodes hnodes i _ node hnode
    rw [updateKnownNode, Tabla.mem_insertar] at hnode
    rcases hnode with rfl | ⟨hold, _⟩
    · have hport : 1 ≤ (8000 : UInt32).toNat ∧ (8000 : UInt32).toNat ≤ 65535 := by decide
      exact ⟨⟨10, 0, 0, UInt8.ofNat i, rfl⟩, hport⟩
    · exact hnodes node hold

theorem nodes_round_trip_crowd :
    let kept := fitting (bufferSize - 6) crowd.datos
    Scheduler.handlePacket (cString (getKnownNodesPayload crowd
        (List.replicate bufferSize 'x') bufferSize)) = .nodeRecords (kept.map nodeRecord) ∧
      kept.map (·.nodeIp) = (crowd.datos.map (·.nodeIp)).erase (inetNtoa 10 0 0 19) ∧
      kept.length = 31 ∧ crowd.datos.length = 32 := by
  intro kept
  have hlength : kept.length = 31 := by decide +kernel
  have hround := nodes_round_trip crowd (List.replicate bufferSize 'x') List.length_replicate
    addresses_crowd
  refine ⟨hround.2.1 (List.ne_nil_of_length_pos ?_), by decide +kernel, hlength, by decide +kernel⟩
  show 0 < kept.length
  omega

end ResourceManager
