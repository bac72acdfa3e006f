import XrkMonitor.Library.Bytes

/-!
# The text of a log

`MtReport_Log` and `MtReport_Log_To_Spec` format the message into `sLogBuf` and mark a message that
was too long. The test compares the length of the message with what that length leaves of the
buffer, so it holds from half the limit on, and the mark is copied behind the `NUL` that `vsnprintf`
has set, where no one reads it.

## Implementation notes

`vsnprintf` writes what fits and a `NUL`, and returns the length of the whole message. The message
is the list of its bytes; a conversion can put a `NUL` into it.
-/

namespace XrkMonitor.MtLog

open Library

section Text

/-- `MTREPORT_LOG_MAX_LENGTH + 64`, the size of `sLogBuf`. -/
def logBufSize : Nat := 1088

/-- The size that `vsnprintf` gets. -/
def formatSize : Nat := logBufSize - 32

/-- `[slog too long truncate ...]`. -/
def truncateMark : List UInt8 :=
  "[slog too long truncate ...]".toList.map fun c => UInt8.ofNat c.toNat

/-- `vsnprintf` of a message. -/
def vsnprintf (buf : Nat → UInt8) (size : Nat) (msg : List UInt8) : (Nat → UInt8) × Int :=
  (writeAt buf 0 (msg.take (size - 1) ++ [0]), msg.length)

/-- `iWrite >= (int)(MYSIZEOF(sLogBuf)-iWrite-32)`. -/
def tooLong (iWrite : Int) : Bool := decide (Int.bmod (logBufSize - iWrite - 32) (2 ^ 32) ≤ iWrite)

/-- The lines that format the message: the buffer, and `wLogTruncate`. -/
def formatLog (msg : List UInt8) (wLogTruncate : UInt16) : (Nat → UInt8) × UInt16 :=
  let r := vsnprintf (fun _ => 0) formatSize msg
  if tooLong r.2 then (writeAt r.1 (logBufSize - 32) (truncateMark ++ [0]), wLogTruncate + 1)
  else (r.1, wLogTruncate)

/-- The lines in `MtReport_Log`. -/
def mtReportLogFormat (msg : List UInt8) (wLogTruncate : UInt16) : (Nat → UInt8) × UInt16 :=
  formatLog msg wLogTruncate

/-- The lines in `MtReport_Log_To_Spec`. -/
def mtReportLogToSpecFormat (msg : List UInt8) (wLogTruncate : UInt16) :
    (Nat → UInt8) × UInt16 :=
  formatLog msg wLogTruncate

/-- The text of the log, as `strlen` counts it. -/
def logText (buf : Nat → UInt8) : List UInt8 := cstrAt buf 0 logBufSize

/-- The text is the message, or a part of it with the mark; it ends in the buffer, and a loss is
counted. -/
structure TextRight (msg : List UInt8) (wLogTruncate : UInt16) (r : (Nat → UInt8) × UInt16) :
    Prop where
  whole : msg.length < formatSize → logText r.1 = msg
  cut : formatSize ≤ msg.length →
    ∃ k, k < msg.length ∧ logText r.1 = msg.take k ++ truncateMark
  ended : (logText r.1).length < logBufSize ∧ r.1 (logText r.1).length = 0
  lost : ¬ msg <+: logText r.1 → r.2 = wLogTruncate + 1
  kept : msg <+: logText r.1 → r.2 = wLogTruncate

end Text

section Facts

variable {msg : List UInt8} {wLogTruncate : UInt16}

theorem tooLong_iff (hlen : msg.length < 2 ^ 31) : tooLong msg.length = true ↔ 528 ≤ msg.length := by
  rw [tooLong, decide_eq_true_eq]
  unfold logBufSize Int.bmod
  dsimp only
  split <;> omega

theorem stands_formatLog (msg : List UInt8) (wLogTruncate : UInt16) :
    Stands (formatLog msg wLogTruncate).1 0 (msg.take (formatSize - 1) ++ [0]) := by
  have hstands := stands_writeAt (fun _ => 0) 0 (msg.take (formatSize - 1) ++ [0])
  unfold formatLog vsnprintf
  dsimp only
  split_ifs
  · refine hstands.writeAt (Or.inl ?_)
    rw [List.length_append, List.length_take, List.length_singleton]
    unfold formatSize logBufSize
    omega
  · exact hstands

theorem logText_formatLog (msg : List UInt8) (wLogTruncate : UInt16) :
    logText (formatLog msg wLogTruncate).1 = cstr (msg.take (formatSize - 1)) := by
  have hstands := stands_formatLog msg wLogTruncate
  have hlen : (msg.take (formatSize - 1) ++ [0]).length ≤ logBufSize := by
    rw [List.length_append, List.length_take, List.length_singleton]
    unfold formatSize logBufSize
    omega
  obtain ⟨m, hm⟩ := Nat.exists_eq_add_of_le hlen
  rw [logText, cstrAt, hm, bytesAt_add, hstands, List.append_assoc, List.singleton_append,
    cstr_append_zero]

theorem length_logText (msg : List UInt8) (wLogTruncate : UInt16) :
    (logText (formatLog msg wLogTruncate).1).length < formatSize := by
  rw [logText_formatLog]
  have hle := length_cstr_le (msg.take (formatSize - 1))
  rw [List.length_take] at hle
  unfold formatSize logBufSize at hle ⊢
  omega

theorem ended_formatLog (msg : List UInt8) (wLogTruncate : UInt16) :
    (logText (formatLog msg wLogTruncate).1).length < logBufSize ∧
      (formatLog msg wLogTruncate).1 (logText (formatLog msg wLogTruncate).1).length = 0 := by
  have hlen := length_logText msg wLogTruncate
  have hsize : formatSize ≤ logBufSize := by decide
  refine ⟨by omega, ?_⟩
  have hend : (formatLog msg wLogTruncate).1
      (0 + (cstrAt (formatLog msg wLogTruncate).1 0 logBufSize).length) = 0 :=
    cstrAt_end (Nat.lt_of_lt_of_le hlen hsize)
  rw [Nat.zero_add] at hend
  exact hend

theorem formatLog_count (hlen : msg.length < 2 ^ 31) (wLogTruncate : UInt16) :
    (formatLog msg wLogTruncate).2 =
      if 528 ≤ msg.length then wLogTruncate + 1 else wLogTruncate := by
  have htest := tooLong_iff hlen
  unfold formatLog vsnprintf
  dsimp only
  by_cases hlong : 528 ≤ msg.length
  · rw [if_pos hlong, if_pos (htest.mpr hlong)]
  · rw [if_neg hlong, if_neg fun h => hlong (htest.mp h)]

theorem add_one_ne (x : UInt16) : x + 1 ≠ x := by
  intro h
  have hone : (1 : UInt16) = 0 := by
    rw [← UInt16.add_right_inj x, h, UInt16.add_zero]
  exact absurd hone (by decide)

theorem textRight_short (hlen : msg.length < formatSize) :
    TextRight msg wLogTruncate (formatLog msg wLogTruncate) ↔
      msg.length < 528 ∧ ∀ b ∈ msg, b ≠ 0 := by
  have htake : msg.take (formatSize - 1) = msg := List.take_of_length_le (by omega)
  have htext := logText_formatLog msg wLogTruncate
  rw [htake] at htext
  have hint : msg.length < 2 ^ 31 := by
    unfold formatSize logBufSize at hlen
    omega
  have hcount := formatLog_count hint wLogTruncate
  constructor
  · intro hright
    have hwhole := hright.whole hlen
    have hkept := hright.kept ⟨[], by rw [hwhole, List.append_nil]⟩
    rw [hwhole] at htext
    refine ⟨?_, ?_⟩
    · by_contra hlong
      rw [if_pos (Nat.not_lt.mp hlong), hkept] at hcount
      exact add_one_ne wLogTruncate hcount.symm
    · rw [htext]
      exact ne_zero_of_mem_cstr
  · rintro ⟨hshort, hnul⟩
    rw [cstr_eq_self hnul] at htext
    rw [if_neg (Nat.not_le.mpr hshort)] at hcount
    refine ⟨fun _ => htext, ?_, ended_formatLog msg wLogTruncate, ?_, fun _ => hcount⟩
    · intro hlong
      exact absurd hlen (Nat.not_lt.mpr hlong)
    · intro hlost
      rw [htext] at hlost
      exact absurd List.prefix_rfl hlost

theorem textRight_long (hlen : msg.length < 2 ^ 31) (hlong : formatSize ≤ msg.length) :
    TextRight msg wLogTruncate (formatLog msg wLogTruncate) ↔
      truncateMark <:+ cstr (msg.take (formatSize - 1)) := by
  have htext := logText_formatLog msg wLogTruncate
  have hsize := length_logText msg wLogTruncate
  have hcount := formatLog_count hlen wLogTruncate
  rw [if_pos (Nat.le_trans (by decide) hlong)] at hcount
  constructor
  · intro hright
    obtain ⟨k, -, hcut⟩ := hright.cut hlong
    rw [← htext, hcut]
    exact List.suffix_append _ _
  · rintro ⟨front, hfront⟩
    have hbegins : front <+: msg := by
      have hin : front <+: cstr (msg.take (formatSize - 1)) := ⟨truncateMark, hfront⟩
      exact (hin.trans (List.takeWhile_prefix _)).trans (List.take_prefix _ _)
    have hlost : ¬ msg <+: logText (formatLog msg wLogTruncate).1 := fun h => by
      have hle := h.length_le
      omega
    refine ⟨?_, ?_, ended_formatLog msg wLogTruncate, fun _ => hcount, fun h => absurd h hlost⟩
    · intro hshort
      exact absurd hshort (Nat.not_lt.mpr hlong)
    · intro _
      refine ⟨front.length, ?_, ?_⟩
      · have hlength := congrArg List.length hfront
        rw [← htext, List.length_append] at hlength
        omega
      · rw [← List.prefix_iff_eq_take.mp hbegins, htext, hfront]

/-- For a message whose length is an `int`: the text of both functions is right exactly when the
message is shorter than half the limit and has no `NUL`, or it reaches the limit and what is kept of
it ends with the mark. -/
theorem log_text_iff (msg : List UInt8) (wLogTruncate : UInt16) (hlen : msg.length < 2 ^ 31) :
    (TextRight msg wLogTruncate (mtReportLogFormat msg wLogTruncate) ∧
      TextRight msg wLogTruncate (mtReportLogToSpecFormat msg wLogTruncate)) ↔
      (msg.length < 528 ∧ ∀ b ∈ msg, b ≠ 0) ∨
        (formatSize ≤ msg.length ∧ truncateMark <:+ cstr (msg.take (formatSize - 1))) := by
  have hboth : (TextRight msg wLogTruncate (mtReportLogFormat msg wLogTruncate) ∧
      TextRight msg wLogTruncate (mtReportLogToSpecFormat msg wLogTruncate)) ↔
      TextRight msg wLogTruncate (formatLog msg wLogTruncate) := and_self_iff
  have hhalf : 528 < formatSize := by decide
  rw [hboth]
  by_cases hshort : msg.length < formatSize
  · rw [textRight_short hshort]
    constructor
    · exact Or.inl
    · rintro (h | ⟨hlong, -⟩)
      · exact h
      · omega
  · rw [textRight_long hlen (Nat.not_lt.mp hshort)]
    constructor
    · exact fun h => Or.inr ⟨Nat.not_lt.mp hshort, h⟩
    · rintro (⟨h, -⟩ | ⟨-, h⟩)
      · omega
      · exact h

theorem log_text_one :
    TextRight [97] 0 (mtReportLogFormat [97] 0) ∧
      TextRight [97] 0 (mtReportLogToSpecFormat [97] 0) := by
  refine (log_text_iff [97] 0 (by decide)).mpr (Or.inl ⟨?_, ?_⟩)
  · rw [List.length_singleton]
    exact Nat.lt_of_lt_of_le Nat.one_lt_two (by decide)
  · intro b hb
    rw [List.mem_singleton.mp hb]
    decide

/-- A message of 528 bytes is kept whole and counted as truncated. -/
theorem log_text_half :
    ¬ ∀ (msg : List UInt8) (wLogTruncate : UInt16), msg.length < 2 ^ 31 → (∀ b ∈ msg, b ≠ 0) →
      TextRight msg wLogTruncate (mtReportLogFormat msg wLogTruncate) := by
  intro hall
  have hright := hall (List.replicate 528 97) 0 (by rw [List.length_replicate]; decide) (by
    intro b hb
    rw [List.eq_of_mem_replicate hb]
    decide)
  have hshort := ((textRight_short (by rw [List.length_replicate]; decide)).mp hright).1
  rw [List.length_replicate] at hshort
  exact absurd hshort (by decide)

end Facts

end XrkMonitor.MtLog
