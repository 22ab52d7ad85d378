import ResourceManager.Resources.KnownNodes
import ResourceManager.Comms.Framing
import ResourceManager.Library.Numerals

/-!
# The NODES line: `get_known_nodes_payload`

The line is written into a buffer, entry by entry. An entry that does not fit leaves a part
of its text behind, which a later entry overwrites, and the write head does not move. The
text before the write head is that of the entries that did fit (`payload_spec`).
-/

namespace ResourceManager

open HashTable Library.Numerals

/-! ## Writing to a buffer -/

/-- `snprintf(buffer + offset, size, ..)` of a text: the buffer afterwards. The value
returned is the length of the text. -/
def snprintf (buffer : List Char) (offset size : ℕ) (text : List Char) : List Char :=
  if size = 0 then buffer
  else
    let written := text.take (size - 1) ++ ['\x00']
    buffer.take offset ++ written ++ buffer.drop (offset + written.length)

/-- A number printed with `%u`. -/
def printUnsigned (n : UInt32) : List Char := Nat.toDigits 10 n.toNat

/-- `ip:port:cpu:n:mem:n:gpu:n` -/
def nodeText (node : ElemKnownNodes) : List Char :=
  node.nodeIp.text ++ ':' :: (printUnsigned node.nodePort ++ ":cpu:".toList ++
    printUnsigned (node.avail .cpu) ++ ":mem:".toList ++ printUnsigned (node.avail .ram) ++
      ":gpu:".toList ++ printUnsigned (node.avail .gpu))

/-- The text that `append_node_to_payload` prints. -/
def nodeEntry (node : ElemKnownNodes) : List Char := nodeText node ++ [';']

/-- `payload_ctx_t`. -/
structure PayloadCtx where
  buffer : List Char
  maxSize : ℕ
  currentOffset : ℕ

/-- `append_node_to_payload`. -/
def appendNodeToPayload (node : ElemKnownNodes) (ctx : PayloadCtx) : PayloadCtx :=
  if ctx.maxSize ≤ ctx.currentOffset then ctx
  else
    let room := ctx.maxSize - ctx.currentOffset
    let buffer := snprintf ctx.buffer ctx.currentOffset room (nodeEntry node)
    let written := (nodeEntry node).length
    if 0 < written ∧ written < room then
      { ctx with buffer := buffer, currentOffset := ctx.currentOffset + written }
    else { ctx with buffer := buffer }

/-- `get_known_nodes_payload`: the buffer afterwards. -/
def getKnownNodesPayload (nodes : KnownNodes) (buffer : List Char) (maxSize : ℕ) : List Char :=
  let header := "NODES ".toList
  let ctx := nodes.visitarExtra appendNodeToPayload
    ⟨snprintf buffer 0 maxSize header, maxSize, header.length⟩
  if 6 < ctx.currentOffset ∧ ctx.currentOffset < maxSize then
    (ctx.buffer.set (ctx.currentOffset - 1) '\n').set ctx.currentOffset '\x00'
  else snprintf ctx.buffer 0 maxSize "NODES \n".toList

/-- The line that `handle_get_nodes_response` sends: it fills `char msg[BUFFER_SIZE] = {0}`. -/
def nodesResponse (nodes : KnownNodes) : List Char :=
  cString (getKnownNodesPayload nodes (List.replicate bufferSize '\x00') bufferSize)

/-! ## What fits -/

/-- The entries that fit, when there is room for texts shorter than `room`. -/
def fitting : ℕ → List ElemKnownNodes → List ElemKnownNodes
  | _, [] => []
  | room, node :: nodes =>
    if (nodeEntry node).length < room then
      node :: fitting (room - (nodeEntry node).length) nodes
    else fitting room nodes

theorem fitting_sublist (nodes : List ElemKnownNodes) :
    ∀ room, (fitting room nodes).Sublist nodes := by
  induction nodes with
  | nil => exact fun _ => List.Sublist.slnil
  | cons node nodes ih =>
    intro room
    rw [fitting]
    split
    · exact (ih _).cons_cons node
    · exact (ih room).cons node

/-- Everything fits when the texts together do. -/
theorem fitting_eq_self (nodes : List ElemKnownNodes) :
    ∀ room, (nodes.flatMap nodeEntry).length < room → fitting room nodes = nodes := by
  induction nodes with
  | nil => exact fun _ _ => rfl
  | cons node nodes ih =>
    intro room h
    rw [List.flatMap_cons, List.length_append] at h
    rw [fitting, if_pos (by omega), ih _ (by omega)]

/-! ## The contents of the buffer -/

theorem length_snprintf {buffer text : List Char} {offset size : ℕ}
    (h : offset + size = buffer.length) : (snprintf buffer offset size text).length =
      buffer.length := by
  unfold snprintf
  split
  · rfl
  · simp only [List.length_append, List.length_take, List.length_drop, List.length_singleton]
    omega

/-- A text that fits is written whole. -/
theorem take_snprintf {buffer text : List Char} {offset size : ℕ}
    (h : offset + size = buffer.length) (hfit : text.length < size) :
    (snprintf buffer offset size text).take (offset + text.length) =
      buffer.take offset ++ text := by
  have hlen : (buffer.take offset ++ text).length = offset + text.length := by
    rw [List.length_append, List.length_take]
    omega
  have htake : text.take (size - 1) = text := List.take_of_length_le (by omega)
  rw [snprintf, if_neg (by omega)]
  simp only [htake, ← List.append_assoc]
  rw [List.append_assoc, List.take_left' hlen]

/-- The text before the write head stays. -/
theorem take_snprintf_of_le {buffer text : List Char} {offset size : ℕ}
    (h : offset ≤ buffer.length) :
    (snprintf buffer offset size text).take offset = buffer.take offset := by
  unfold snprintf
  split
  · rfl
  · dsimp only
    rw [List.append_assoc, List.take_left']
    rw [List.length_take]
    omega

/-- A text written at the start of a buffer is its C string. -/
theorem cString_snprintf {buffer text : List Char} {size : ℕ} (hfit : text.length < size)
    (hnul : '\x00' ∉ text) : cString (snprintf buffer 0 size text) = text := by
  have htake : text.take (size - 1) = text := List.take_of_length_le (by omega)
  rw [snprintf, if_neg (by omega), htake]
  simp only [List.take_zero, List.nil_append, List.append_assoc, List.singleton_append]
  exact cString_append hnul

/-- The text before the write head. -/
structure Written (ctx : PayloadCtx) (size : ℕ) (text : List Char) : Prop where
  maxSize_eq : ctx.maxSize = size
  length_eq : ctx.buffer.length = size
  offset_lt : ctx.currentOffset < size
  take_eq : ctx.buffer.take ctx.currentOffset = text

theorem written_append {ctx : PayloadCtx} {size : ℕ} {text : List Char}
    (h : Written ctx size text) (nodes : List ElemKnownNodes) :
    Written (nodes.foldl (fun ctx node => appendNodeToPayload node ctx) ctx) size
      (text ++ (fitting (size - ctx.currentOffset) nodes).flatMap nodeEntry) := by
  induction nodes generalizing ctx text with
  | nil =>
    simpa [fitting] using h
  | cons node nodes ih =>
    obtain ⟨rfl, hlen, hlt, htext⟩ := h
    have hroom : ctx.currentOffset + (ctx.maxSize - ctx.currentOffset) = ctx.buffer.length := by
      omega
    have hne : 0 < (nodeEntry node).length := by simp [nodeEntry]
    rw [List.foldl_cons, appendNodeToPayload, if_neg (by omega), fitting]
    dsimp only
    by_cases hfit : (nodeEntry node).length < ctx.maxSize - ctx.currentOffset
    · rw [if_pos ⟨hne, hfit⟩, if_pos hfit, List.flatMap_cons, ← List.append_assoc]
      have hstep : Written ⟨snprintf ctx.buffer ctx.currentOffset
          (ctx.maxSize - ctx.currentOffset) (nodeEntry node), ctx.maxSize,
            ctx.currentOffset + (nodeEntry node).length⟩ ctx.maxSize (text ++ nodeEntry node) := by
        refine ⟨rfl, (length_snprintf hroom).trans hlen, ?_, ?_⟩
        · show ctx.currentOffset + (nodeEntry node).length < ctx.maxSize
          omega
        · rw [take_snprintf hroom hfit, htext]
      have := ih hstep
      rwa [← Nat.sub_sub] at this
    · rw [if_neg fun h => hfit h.2, if_neg hfit]
      have hle : ctx.currentOffset ≤ ctx.buffer.length := by omega
      exact ih ⟨rfl, (length_snprintf hroom).trans hlen, hlt, (take_snprintf_of_le hle).trans htext⟩

/-- The last writes: the last separator becomes the end of the line. -/
theorem finish_eq {buffer text : List Char} {offset : ℕ} {c : Char} (hlt : offset < buffer.length)
    (htake : buffer.take offset = text ++ [c]) :
    ∃ rest, (buffer.set (offset - 1) '\n').set offset '\x00' = (text ++ ['\n']) ++ '\x00' :: rest := by
  have hoffset : offset = text.length + 1 := by
    have := congrArg List.length htake
    simp only [List.length_take, List.length_append, List.length_singleton] at this
    omega
  obtain ⟨d, rest, hdrop⟩ := List.exists_cons_of_ne_nil
    (List.ne_nil_of_length_pos (l := buffer.drop offset) (by rw [List.length_drop]; omega))
  have hbuffer : buffer = text ++ c :: d :: rest := by
    rw [← List.take_append_drop offset buffer, htake, hdrop, List.append_assoc,
      List.singleton_append]
  refine ⟨rest, ?_⟩
  rw [hbuffer, hoffset, Nat.add_sub_cancel]
  simp

/-- The line: the texts of the entries that fit, with semicolons between them. -/
def nodesLine (kept : List ElemKnownNodes) : List Char :=
  "NODES ".toList ++ ((kept.flatMap nodeEntry).dropLast ++ ['\n'])

theorem written_header {buffer header : List Char} (h : header.length < buffer.length) :
    Written ⟨snprintf buffer 0 buffer.length header, buffer.length, header.length⟩
      buffer.length header := by
  refine ⟨rfl, length_snprintf (Nat.zero_add _), h, ?_⟩
  have htake := take_snprintf (Nat.zero_add buffer.length) h
  rwa [Nat.zero_add, List.take_zero, List.nil_append] at htake

theorem payload_spec (nodes : KnownNodes) {buffer : List Char}
    (hsize : 7 < buffer.length) (hnul : ∀ node ∈ nodes.datos, '\x00' ∉ nodeEntry node) :
    cString (getKnownNodesPayload nodes buffer buffer.length) =
      nodesLine (fitting (buffer.length - 6) nodes.datos) := by
  have hheader : "NODES ".toList.length < buffer.length := Nat.lt_of_succ_lt hsize
  have hend := written_append (written_header hheader) nodes.datos
  rw [← Tabla.visitarExtra_eq_foldl] at hend
  unfold getKnownNodesPayload
  dsimp only
  generalize nodes.visitarExtra appendNodeToPayload _ = ctx at hend
  obtain ⟨hmax, hlen, hlt, htake⟩ := hend
  generalize hk : fitting (buffer.length - 6) nodes.datos = kept
  replace htake : ctx.buffer.take ctx.currentOffset = "NODES ".toList ++ kept.flatMap nodeEntry :=
    hk ▸ htake
  have hoffset : ctx.currentOffset = 6 + (kept.flatMap nodeEntry).length := by
    have := congrArg List.length htake
    rw [List.length_take, List.length_append] at this
    have h6 : "NODES ".toList.length = 6 := rfl
    omega
  cases kept with
  | nil =>
    rw [if_neg (by simp [hoffset])]
    exact cString_snprintf hsize (by decide)
  | cons node kept =>
    have hpos : 0 < ((node :: kept).flatMap nodeEntry).length := by
      simp [nodeEntry]
    rw [if_pos ⟨by omega, hlt⟩]
    generalize hflat : (node :: kept).flatMap nodeEntry = flat at htake hpos hoffset
    have hne : flat ≠ [] := List.length_pos_iff.mp hpos
    have hclean : '\x00' ∉ "NODES ".toList ++ (flat.dropLast ++ ['\n']) := by
      simp only [List.mem_append, not_or]
      refine ⟨by decide, fun hmem => ?_, by decide⟩
      rw [← hflat] at hmem
      obtain ⟨entry, hentry, hin⟩ := List.mem_flatMap.mp (List.mem_of_mem_dropLast hmem)
      rw [← hk] at hentry
      exact hnul entry ((fitting_sublist _ _).subset hentry) hin
    rw [← List.dropLast_append_getLast hne, ← List.append_assoc] at htake
    obtain ⟨rest, hfinish⟩ := finish_eq (by omega) htake
    rw [← List.append_assoc] at hclean
    calc cString ((ctx.buffer.set (ctx.currentOffset - 1) '\n').set ctx.currentOffset '\x00')
        = cString (("NODES ".toList ++ flat.dropLast ++ ['\n']) ++ '\x00' :: rest) := by
          rw [hfinish]
      _ = "NODES ".toList ++ flat.dropLast ++ ['\n'] := cString_append hclean
      _ = "NODES ".toList ++ (flat.dropLast ++ ['\n']) := List.append_assoc _ _ _
      _ = nodesLine (node :: kept) :=
          congrArg (fun text => "NODES ".toList ++ (text.dropLast ++ ['\n'])) hflat.symm

end ResourceManager
