import ResourceManager.Comms.Messages
import ResourceManager.Scheduler.Loop
import ResourceManager.Scheduler.Submission

/-!
# The lines between a scheduler and its agent

What the agent reads in the directives of its scheduler, and what the scheduler reads in the
notices of its agent.
-/

namespace ResourceManager

open Scheduler Library.Fields Library.Numerals Library.Scanf

/-! ## Notices -/

/-- The white space at the end of a line is trimmed. -/
theorem trim_decimal_newline {digits : List Char} {n : ℕ} (h : Decimal digits n) :
    trim (digits ++ ['\n']) = digits := by
  have hdrop : (digits ++ ['\n']).dropWhile isWhitespace = digits ++ ['\n'] := by
    obtain ⟨c, rest, rfl, hc⟩ := h.exists_cons
    rw [List.cons_append, List.dropWhile_cons_of_neg]
    rw [isWhitespace_of_isDigit hc]
    exact Bool.false_ne_true
  have htrim := trim_decimal h
  have hself : digits.dropWhile isWhitespace = digits := by
    obtain ⟨c, rest, rfl, hc⟩ := h.exists_cons
    rw [List.dropWhile_cons_of_neg]
    rw [isWhitespace_of_isDigit hc]
    exact Bool.false_ne_true
  rw [trim, hself] at htrim
  rw [trim, hdrop, List.rdropWhile_concat_pos _ _ _ (by decide), htrim]

/-- The id of a notice. -/
theorem listToInteger_notice (jobId : UInt32) :
    listToInteger (trim (printInteger (jobId.toNat : Int) ++ ['\n'])) = some (jobId.toNat : ℤ) := by
  have hdecimal : Decimal (printUnsigned jobId) jobId.toNat := decimal_toDigits jobId.toNat
  rw [printInteger_natCast, trim_decimal_newline hdecimal, listToInteger_decimal hdecimal]

theorem handlePacket_jobGranted (jobId : UInt32) :
    handlePacket (Message.jobGranted jobId).text = .jobGranted jobId.toNat := by
  have hpacket : doHandlePacket (Message.jobGranted jobId).text =
      (listToInteger (trim (printInteger (jobId.toNat : Int) ++ ['\n']))).map .jobGranted := rfl
  rw [handlePacket, hpacket, listToInteger_notice]
  rfl

theorem handlePacket_jobTimeout (jobId : UInt32) :
    handlePacket (Message.jobTimeout jobId).text = .jobTimeout jobId.toNat := by
  have hpacket : doHandlePacket (Message.jobTimeout jobId).text =
      (listToInteger (trim (printInteger (jobId.toNat : Int) ++ ['\n']))).map .jobTimeout := rfl
  rw [handlePacket, hpacket, listToInteger_notice]
  rfl

/-! ## Directives -/

/-- The text of a directive on the connection, as `sender/2` passes it to `gen_tcp:send`. -/
def Scheduler.Directive.packet : Directive → List Char
  | .getNodes => "GET_NODES\n".toList
  | .jobDirective _ _ packet => packet

theorem lines_getNodes : lines Directive.getNodes.packet = ["GET_NODES".toList] := by
  have hpacket : Directive.getNodes.packet = "GET_NODES".toList ++ '\n' :: [] := rfl
  have hclean : ∀ x ∈ "GET_NODES".toList, isNewline x = false := fun x hx =>
    Bool.eq_false_iff.mpr (List.any_eq_false.mp (by decide) x hx)
  rw [hpacket, lines, fields_append_cons rfl, fields_word hclean (by decide)]
  rfl

/-- The line of a JOB_RELEASE, without its newline. -/
def releaseText (jobId : UInt32) : List Char := "JOB_RELEASE".toList ++ ' ' :: printUnsigned jobId

theorem jobReleaseLine_natCast (jobId : UInt32) :
    jobReleaseLine jobId.toNat = releaseText jobId ++ ['\n'] := by
  unfold jobReleaseLine releaseText printUnsigned
  rw [integerToList_natCast]
  simp

theorem lines_jobReleaseLine (jobId : UInt32) :
    lines (jobReleaseLine jobId.toNat) = [releaseText jobId] := by
  have hdecimal : Decimal (printUnsigned jobId) jobId.toNat := decimal_toDigits jobId.toNat
  have hclean : ∀ c ∈ releaseText jobId, isNewline c = false := by
    intro c hc
    rw [isNewline, beq_eq_false_iff_ne]
    rintro rfl
    rcases List.mem_append.mp hc with hc | hc
    · exact absurd hc (by decide)
    rcases List.mem_cons.mp hc with hc | hc
    · exact absurd hc (by decide)
    · exact hdecimal.notMem (by decide) hc
  rw [jobReleaseLine_natCast, lines, fields_append_cons rfl, fields_word hclean]
  · rfl
  · unfold releaseText
    exact List.cons_ne_nil _ _

/-- The agent reads the id that the scheduler has printed. -/
theorem scanLine_releaseText (a : Arrival) (jobId : UInt32) :
    scanLine { a with line := releaseText jobId } = some (.jobRelease jobId) := by
  have hid : scanId "JOB_RELEASE".toList (releaseText jobId) = some jobId := by
    have h : scanId "JOB_RELEASE".toList ("JOB_RELEASE".toList ++ ' ' :: (printUnsigned jobId ++ [])) =
        some jobId :=
      scanId_append (decimal_toDigits jobId.toNat) _ fun c hc => by cases hc
    rwa [List.append_nil] at h
  have hbranch : scanLine { a with line := releaseText jobId } =
      (scanId "JOB_RELEASE".toList (releaseText jobId)).map .jobRelease := rfl
  rw [hbranch, hid]
  rfl

end ResourceManager
