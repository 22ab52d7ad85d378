import ResourceManager.Library.Fields

/-!
# Lines of a connection: `handle_client_message`

A call receives up to `BUFFER_SIZE - 1` bytes, cuts them at newlines with `strtok_r` and
hands each line to `resource_adapter_patch` (the parameter `patch`, which acts on a state
of any type). Nothing is kept from one call to the next: a line that arrives in two pieces
is handed over as two lines. `lines_handed_iff` says for which segmentations the lines
handed over are those of the stream.
-/

namespace ResourceManager

open Library.Fields

/-- `BUFFER_SIZE`. -/
def bufferSize : Nat := 1024

/-- The C string in a buffer: the characters before the first NUL. -/
def cString (buffer : List Char) : List Char := buffer.takeWhile fun c => c ≠ '\x00'

/-- `receive_tcp_message`, when all of `arrived` is waiting on the connection. -/
def receiveTcpMessage (arrived : List Char) : List Char := arrived.take (bufferSize - 1)

/-- The delimiter of the protocol. -/
def isNewline (c : Char) : Bool := c == '\n'

/-- `strtok_r(s, "\n", &saveptr)`: the token and the string at `saveptr`. -/
def strtokR (s : List Char) : Option (List Char × List Char) :=
  match s.dropWhile isNewline with
  | [] => none
  | s => some (s.takeWhile fun c => !isNewline c, (s.dropWhile fun c => !isNewline c).drop 1)

variable {σ : Type}

/-- The loop `while (line != NULL)`, with at most `n` calls of `strtok_r`. -/
def lineLoop (patch : σ → List Char → σ) : Nat → List Char → σ → σ
  | 0, _, s => s
  | n + 1, rest, s =>
    match strtokR rest with
    | none => s
    | some (line, rest) => lineLoop patch n rest (if 0 < line.length then patch s line else s)

/-- `handle_client_message`, when `recv` has returned the bytes `received`: the state after
the lines handed to `patch`. -/
def handleClientMessage (patch : σ → List Char → σ) (s : σ) (received : List Char) : σ :=
  let recvBuffer := cString (received ++ ['\x00'])
  lineLoop patch (recvBuffer.length + 1) recvBuffer s

/-- The successive calls on one connection. -/
def serveConnection (patch : σ → List Char → σ) (s : σ) (segments : List (List Char)) : σ :=
  segments.foldl (handleClientMessage patch) s

/-- The lines that the calls hand over, in order. -/
def linesHanded (segments : List (List Char)) : List (List Char) :=
  serveConnection (fun lines line => lines ++ [line]) [] segments

/-- The non-empty lines of a text. -/
abbrev lines (text : List Char) : List (List Char) := fields isNewline text

/-! ## One call -/

/-- The first line of a text that does not start with a newline. -/
theorem lines_token {s token : List Char} {c : Char} {t : List Char} (hs : s = c :: t)
    (hc : isNewline c = false) (htoken : (s.takeWhile fun c => !isNewline c) = token) :
    lines s = token :: lines ((s.dropWhile fun c => !isNewline c).drop 1) ∧ token ≠ [] ∧
      ((s.dropWhile fun c => !isNewline c).drop 1).length < s.length := by
  have hne : token ≠ [] := by
    rw [← htoken, hs, List.takeWhile_cons_of_pos (by simp [hc])]
    simp
  have hclean : ∀ x ∈ token, isNewline x = false := by
    intro x hx
    rw [← htoken] at hx
    simpa using List.all_eq_true.mp (List.all_takeWhile) x hx
  have hsplit : s = token ++ s.dropWhile fun c => !isNewline c := by
    rw [← htoken, List.takeWhile_append_dropWhile]
  have hpos : 0 < token.length := List.length_pos_iff.mpr hne
  have hlen := congrArg List.length hsplit
  rw [List.length_append] at hlen
  refine ⟨?_, hne, by rw [List.length_drop]; omega⟩
  cases hrest : s.dropWhile fun c => !isNewline c with
  | nil =>
    rw [hrest, List.append_nil] at hsplit
    rw [hsplit, lines, fields_word hclean hne]
    rfl
  | cons y ys =>
    have hy : isNewline y = true := by
      have := List.head_dropWhile_not (fun c => !isNewline c) (l := s) (by rw [hrest]; simp)
      simpa [hrest] using this
    rw [hrest] at hsplit
    rw [hsplit, lines, fields_append_cons hy, fields_word hclean hne]
    rfl

/-- `strtok_r` finds the first non-empty line. -/
theorem strtokR_spec (s : List Char) :
    match strtokR s with
    | none => lines s = []
    | some (line, rest) => lines s = line :: lines rest ∧ line ≠ [] ∧ rest.length < s.length := by
  unfold strtokR
  have hdrop : lines (s.dropWhile isNewline) = lines s := fields_dropWhile s
  have hle : (s.dropWhile isNewline).length ≤ s.length := (List.dropWhile_suffix _).length_le
  cases hs : s.dropWhile isNewline with
  | nil =>
    rw [hs] at hdrop
    exact hdrop.symm
  | cons c t =>
    have hc : isNewline c = false := by
      have := List.head_dropWhile_not isNewline (l := s) (by rw [hs]; simp)
      simpa [hs] using this
    rw [hs] at hdrop hle
    obtain ⟨hlines, hne, hlt⟩ := lines_token rfl hc (s := c :: t) rfl
    exact ⟨hdrop.symm.trans hlines, hne, by omega⟩

/-- The loop hands over the non-empty lines of its buffer. -/
theorem lineLoop_eq (patch : σ → List Char → σ) : ∀ (n : Nat) (rest : List Char) (s : σ),
    rest.length < n → lineLoop patch n rest s = (lines rest).foldl patch s := by
  intro n
  induction n with
  | zero =>
    intro rest s hn
    omega
  | succ n ih =>
    intro rest s hn
    have hspec := strtokR_spec rest
    rw [lineLoop]
    cases htok : strtokR rest with
    | none =>
      rw [htok] at hspec
      rw [hspec]
      rfl
    | some token =>
      obtain ⟨line, rest'⟩ := token
      rw [htok] at hspec
      obtain ⟨hlines, hne, hlt⟩ := hspec
      dsimp only
      rw [if_pos (List.length_pos_iff.mpr hne), ih rest' _ (by omega), hlines, List.foldl_cons]

/-- A text followed by a NUL is the C string of its buffer. -/
theorem cString_append {text rest : List Char} (h : '\x00' ∉ text) :
    cString (text ++ '\x00' :: rest) = text := by
  rw [cString, List.takeWhile_append_of_pos]
  · simp
  · intro c hc
    have hne : c ≠ '\x00' := fun he => h (he ▸ hc)
    simpa using hne

theorem handleClientMessage_eq (patch : σ → List Char → σ) (s : σ) {received : List Char}
    (h : '\x00' ∉ received) :
    handleClientMessage patch s received = (lines received).foldl patch s := by
  rw [handleClientMessage, cString_append h]
  exact lineLoop_eq patch _ received s (Nat.lt_succ_self _)

/-! ## A connection -/

/-- A connection is served line by line, the lines being those of the segments. -/
theorem serveConnection_eq (patch : σ → List Char → σ) : ∀ (segments : List (List Char)) (s : σ),
    (∀ segment ∈ segments, '\x00' ∉ segment) →
      serveConnection patch s segments = (segments.flatMap lines).foldl patch s
  | [], _, _ => rfl
  | segment :: segments, s, h => by
    rw [serveConnection, List.foldl_cons, handleClientMessage_eq patch s (h _ List.mem_cons_self),
      List.flatMap_cons, List.foldl_append]
    exact serveConnection_eq patch segments _ fun t ht => h t (List.mem_cons_of_mem _ ht)

theorem linesHanded_eq {segments : List (List Char)}
    (h : ∀ segment ∈ segments, '\x00' ∉ segment) :
    linesHanded segments = segments.flatMap lines := by
  have happend : ∀ ls acc : List (List Char),
      ls.foldl (fun lines line => lines ++ [line]) acc = acc ++ ls := by
    intro ls
    induction ls with
    | nil => simp
    | cons l ls ih => simp [ih]
  rw [linesHanded, serveConnection_eq _ segments [] h, happend, List.nil_append]

/-- What the calls of `recv` return on a stream without NUL bytes. -/
def Received (segments : List (List Char)) : Prop :=
  ∀ segment ∈ segments,
    1 ≤ segment.length ∧ segment.length ≤ bufferSize - 1 ∧ '\x00' ∉ segment

instance (segments : List (List Char)) : Decidable (Received segments) :=
  inferInstanceAs (Decidable (∀ segment ∈ segments,
    1 ≤ segment.length ∧ segment.length ≤ bufferSize - 1 ∧ '\x00' ∉ segment))

/-- The lines handed over are the non-empty lines of the stream exactly when each segment
but the last ends with a newline or is followed by one. -/
theorem lines_handed_iff (segments : List (List Char)) (h : Received segments) :
    linesHanded segments = lines segments.flatten ↔ segments.IsChain (CleanCut isNewline) := by
  rw [linesHanded_eq fun segment hs => (h segment hs).2.2]
  refine flatMap_fields_iff segments fun segment hs he => ?_
  have hpos := (h segment hs).1
  rw [he] at hpos
  exact absurd hpos (by decide)

/-- Two commands, cut after the first. -/
theorem lines_handed_iff_commands :
    Received ["GRANTED 7\n".toList, "DENIED 8\n".toList] ∧
      linesHanded ["GRANTED 7\n".toList, "DENIED 8\n".toList] =
        lines ["GRANTED 7\n".toList, "DENIED 8\n".toList].flatten :=
  ⟨by decide +kernel, (lines_handed_iff _ (by decide +kernel)).mpr (by
    simp [CleanCut, isNewline])⟩

/-- A quantity that arrives in two pieces: `RESERVE 1 cpu 12` is read as `RESERVE 1 cpu 1`
and a line that is no command. -/
theorem lines_cut_off :
    ¬ ∀ segments : List (List Char), Received segments →
      segments.flatten.getLast? = some '\n' →
        linesHanded segments = lines segments.flatten := by
  intro h
  exact absurd (h ["RESERVE 1 cpu 1".toList, "2\n".toList] (by decide +kernel) (by decide +kernel))
    (by decide +kernel)

end ResourceManager
