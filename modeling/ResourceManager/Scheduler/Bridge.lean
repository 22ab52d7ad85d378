import ResourceManager.Library.Fields
import Mathlib.Data.List.TakeWhile

/-!
# Messages of a stream: `erlang_c_bridge.erl`

`split_messages` takes the complete lines out of a buffer, drops the empty ones and returns
what comes after the last newline, to be put before what arrives next. Where the stream is
cut does not matter (`splitMessages_streams`).
-/

namespace ResourceManager.Scheduler

open Library.Fields

abbrev Binary := List UInt8

/-- `<<"\n">>`. -/
def newline : UInt8 := 10

def isNewlineByte (byte : UInt8) : Bool := byte == newline

/-- `binary:split(Buffer, <<"\n">>)`: the parts before and after the first newline, or
nothing when there is none. -/
def binarySplit (buffer : Binary) : Option (Binary × Binary) :=
  match buffer.dropWhile fun byte => !isNewlineByte byte with
  | [] => none
  | _ :: rest => some (buffer.takeWhile fun byte => !isNewlineByte byte, rest)

theorem isNewlineByte_newline : isNewlineByte newline = true := rfl

theorem newline_notMem_iff {text : Binary} :
    newline ∉ text ↔ ∀ byte ∈ text, isNewlineByte byte = false := by
  constructor
  · intro h byte hbyte
    exact beq_eq_false_iff_ne.mpr fun he => h (he ▸ hbyte)
  · intro h hmem
    cases (h newline hmem).symm.trans isNewlineByte_newline

theorem binarySplit_of_notMem {buffer : Binary} (h : newline ∉ buffer) :
    binarySplit buffer = none := by
  rw [newline_notMem_iff] at h
  rw [binarySplit, List.dropWhile_eq_nil_iff.mpr fun byte hbyte => by rw [h byte hbyte]; rfl]

theorem binarySplit_line {msg : Binary} (h : newline ∉ msg) (rest : Binary) :
    binarySplit (msg ++ newline :: rest) = some (msg, rest) := by
  have hall : ∀ byte ∈ msg, (!isNewlineByte byte) = true := by
    intro byte hbyte
    rw [newline_notMem_iff.mp h byte hbyte]
    rfl
  rw [binarySplit, List.dropWhile_append_of_pos hall, List.takeWhile_append_of_pos hall,
    List.dropWhile_cons_of_neg (by decide), List.takeWhile_cons_of_neg (by decide),
    List.append_nil]

/-- Every buffer is a text without newline, or a line and what comes after it. -/
theorem buffer_cases (buffer : Binary) :
    newline ∉ buffer ∨ ∃ msg rest, newline ∉ msg ∧ buffer = msg ++ newline :: rest := by
  by_cases hmem : newline ∈ buffer
  · obtain ⟨msg, rest, hbuffer, hmsg⟩ := List.eq_append_cons_of_mem hmem
    exact Or.inr ⟨msg, rest, hmsg, hbuffer⟩
  · exact Or.inl hmem

theorem length_of_binarySplit {buffer msg rest : Binary}
    (h : binarySplit buffer = some (msg, rest)) : rest.length < buffer.length := by
  rcases buffer_cases buffer with hnone | ⟨msg', rest', hmsg, rfl⟩
  · rw [binarySplit_of_notMem hnone] at h
    cases h
  · rw [binarySplit_line hmsg] at h
    cases h
    rw [List.length_append, List.length_cons]
    omega

/-- `split_messages/2`. -/
def splitMessagesAcc (buffer : Binary) (acc : List Binary) : List Binary × Binary :=
  match _hsplit : binarySplit buffer with
  | none => (acc.reverse, buffer)
  | some (msg, rest) =>
    if 0 < msg.length then splitMessagesAcc rest (msg :: acc) else splitMessagesAcc rest acc
termination_by buffer.length
decreasing_by all_goals exact length_of_binarySplit ‹_›

/-- `split_messages/1`. -/
def splitMessages (buffer : Binary) : List Binary × Binary := splitMessagesAcc buffer []

/-! ## Steps of the loop -/

theorem splitMessagesAcc_of_none {buffer : Binary} (h : newline ∉ buffer) (acc : List Binary) :
    splitMessagesAcc buffer acc = (acc.reverse, buffer) := by
  rw [splitMessagesAcc]
  split
  · rfl
  · rename_i hsplit
    rw [binarySplit_of_notMem h] at hsplit
    cases hsplit

theorem splitMessagesAcc_line {msg : Binary} (h : newline ∉ msg) (rest : Binary)
    (acc : List Binary) :
    splitMessagesAcc (msg ++ newline :: rest) acc =
      splitMessagesAcc rest (if 0 < msg.length then msg :: acc else acc) := by
  rw [splitMessagesAcc]
  split
  · rename_i hnone
    rw [binarySplit_line h] at hnone
    cases hnone
  · rename_i hsome
    rw [binarySplit_line h] at hsome
    cases hsome
    split
    · rfl
    · rfl

/-- Induction on the lines of a buffer. -/
theorem buffer_induction {P : Binary → Prop} (tail : ∀ buffer, newline ∉ buffer → P buffer)
    (line : ∀ msg rest, newline ∉ msg → P rest → P (msg ++ newline :: rest)) (buffer : Binary) :
    P buffer := by
  induction hlen : buffer.length using Nat.strong_induction_on generalizing buffer with
  | _ n ih =>
    rcases buffer_cases buffer with h | ⟨msg, rest, hmsg, rfl⟩
    · exact tail buffer h
    · refine line msg rest hmsg (ih rest.length ?_ rest rfl)
      exact hlen ▸ length_of_binarySplit (binarySplit_line hmsg rest)

/-- What has been found before stays in front. -/
theorem splitMessagesAcc_eq (buffer : Binary) : ∀ acc : List Binary,
    splitMessagesAcc buffer acc =
      (acc.reverse ++ (splitMessages buffer).1, (splitMessages buffer).2) := by
  induction buffer using buffer_induction with
  | tail buffer h =>
    intro acc
    rw [splitMessages, splitMessagesAcc_of_none h, splitMessagesAcc_of_none h]
    simp
  | line msg rest h ih =>
    intro acc
    rw [splitMessages, splitMessagesAcc_line h, splitMessagesAcc_line h, ih, ih]
    split
    · simp
    · simp

/-- The equation of `split_messages` for a buffer that starts with a line. -/
theorem splitMessages_line {msg : Binary} (h : newline ∉ msg) (rest : Binary) :
    splitMessages (msg ++ newline :: rest) =
      ((if 0 < msg.length then [msg] else []) ++ (splitMessages rest).1,
        (splitMessages rest).2) := by
  rw [splitMessages, splitMessagesAcc_line h, splitMessagesAcc_eq]
  split
  · rfl
  · rfl

theorem splitMessages_tail {buffer : Binary} (h : newline ∉ buffer) :
    splitMessages buffer = ([], buffer) := splitMessagesAcc_of_none h []

/-! ## The messages and the remainder -/

theorem newline_notMem_remainder (buffer : Binary) : newline ∉ (splitMessages buffer).2 := by
  induction buffer using buffer_induction with
  | tail buffer h =>
    rw [splitMessages_tail h]
    exact h
  | line msg rest h ih =>
    rw [splitMessages_line h]
    exact ih

theorem message_clean (buffer : Binary) :
    ∀ m ∈ (splitMessages buffer).1, m ≠ [] ∧ newline ∉ m := by
  induction buffer using buffer_induction with
  | tail buffer h =>
    intro m hm
    rw [splitMessages_tail h] at hm
    cases hm
  | line msg rest h ih =>
    intro m hm
    rw [splitMessages_line h, List.mem_append] at hm
    rcases hm with hm | hm
    · split at hm
      · rename_i hpos
        obtain rfl := List.mem_singleton.mp hm
        exact ⟨List.length_pos_iff.mp hpos, h⟩
      · cases hm
    · exact ih m hm

/-- Before the remainder stand lines, and the messages are their contents but the empty ones. -/
theorem splitMessages_eq_fields (buffer : Binary) : ∃ complete : Binary,
    buffer = complete ++ (splitMessages buffer).2 ∧
      (∀ byte ∈ complete.getLast?, byte = newline) ∧
      (splitMessages buffer).1 = fields isNewlineByte complete := by
  induction buffer using buffer_induction with
  | tail buffer h => exact ⟨[], by rw [splitMessages_tail h, List.nil_append], by simp, by
      rw [splitMessages_tail h, fields_nil]⟩
  | line msg rest h ih =>
    obtain ⟨complete, hrest, hlast, hfields⟩ := ih
    have hmsg : fields isNewlineByte msg = if 0 < msg.length then [msg] else [] := by
      split
      · rename_i hpos
        exact fields_word (newline_notMem_iff.mp h) (List.length_pos_iff.mp hpos)
      · rename_i hzero
        rw [List.eq_nil_of_length_eq_zero (Nat.eq_zero_of_not_pos hzero), fields_nil]
    refine ⟨msg ++ newline :: complete, ?_, ?_, ?_⟩
    · rw [splitMessages_line h, List.append_assoc, List.cons_append, ← hrest]
    · intro byte hbyte
      cases complete with
      | nil => simpa using hbyte.symm
      | cons c complete => exact hlast byte (by simpa using hbyte)
    · rw [splitMessages_line h, hfields, fields_append_cons isNewlineByte_newline, hmsg]

/-! ## Streams -/

/-- A cut anywhere: the remainder of the first part goes before the second. -/
theorem splitMessages_append (a b : Binary) :
    splitMessages (a ++ b) =
      ((splitMessages a).1 ++ (splitMessages ((splitMessages a).2 ++ b)).1,
        (splitMessages ((splitMessages a).2 ++ b)).2) := by
  induction a using buffer_induction with
  | tail a h =>
    rw [splitMessages_tail h]
    rfl
  | line msg rest h ih =>
    rw [List.append_assoc, List.cons_append, splitMessages_line h, splitMessages_line h, ih,
      List.append_assoc]

/-- What has been split so far and the remainder, after one more segment. -/
def feed (state : List Binary × Binary) (segment : Binary) : List Binary × Binary :=
  let (messages, buffer) := splitMessages (state.2 ++ segment)
  (state.1 ++ messages, buffer)

theorem foldl_feed (segments : List Binary) : ∀ stream : Binary,
    segments.foldl feed (splitMessages stream) = splitMessages (stream ++ segments.flatten) := by
  induction segments with
  | nil =>
    intro stream
    rw [List.flatten_nil, List.append_nil]
    rfl
  | cons segment segments ih =>
    intro stream
    have hfeed : feed (splitMessages stream) segment = splitMessages (stream ++ segment) :=
      (splitMessages_append stream segment).symm
    rw [List.foldl_cons, hfeed, ih, List.flatten_cons, List.append_assoc]

/-- `split_messages` splits a stream: it may be stopped anywhere and resumed with its
remainder, and any segmentation of a stream gives the messages of the whole. -/
theorem splitMessages_streams (a b : Binary) (segments : List Binary) :
    (splitMessages (a ++ b)).1 =
        (splitMessages a).1 ++ (splitMessages ((splitMessages a).2 ++ b)).1 ∧
      (splitMessages (a ++ b)).2 = (splitMessages ((splitMessages a).2 ++ b)).2 ∧
      newline ∉ (splitMessages a).2 ∧
      (∀ m ∈ (splitMessages a).1, m ≠ [] ∧ newline ∉ m) ∧
      segments.foldl feed ([], []) = splitMessages segments.flatten := by
  have hwhole := foldl_feed segments []
  rw [splitMessages_tail List.not_mem_nil, List.nil_append] at hwhole
  refine ⟨?_, ?_, newline_notMem_remainder a, message_clean a, hwhole⟩
  · rw [splitMessages_append]
  · rw [splitMessages_append]

end ResourceManager.Scheduler
