import XrkMonitor.ServerLog.Cust
import XrkMonitor.ServerLog.FileStat

/-!
# Log files of version 2

A log file has a head, an array of indices and, behind the array, the texts and the
custom data. `WriteLogVersion_2` appends the text and the custom data of a log and
writes its index, which says where they stand. `Holds` says what stands in a file after
some logs were written to it.

## Implementation notes

The file is a memory of bytes with a size; structures are packed and numbers are stored
as the machine has them. The head is kept in shared memory, and its copy in the file is
read only as long as it counts no log. Of a log the fields that go to the file are kept.
-/

namespace XrkMonitor.LogSearch

open Library ServerLog

/-- The size of `SLogFileHead`. -/
def sizeofHead : Nat := 347

/-- The size of `SLogFileLogIndex_ver2`. -/
def sizeofIndex : Nat := 43

/-- `SLogFileLogIndex_ver2`. -/
structure SLogFileLogIndex where
  bLogCustLen : UInt8
  dwLogCustPos : UInt32
  dwLogConfigId : UInt32
  dwLogHost : UInt32
  iAppId : Int32
  iModuleId : Int32
  wLogType : UInt16
  dwLogSeq : UInt32
  qwLogTime : UInt64
  dwLogContentLen : UInt32
  dwLogContentPos : UInt32
deriving DecidableEq

/-- A text of a log: at most 1023 characters, none of them `NUL`. -/
structure LogText where
  chars : List UInt8
  ne_zero : ∀ b ∈ chars, b ≠ 0
  length_lt : chars.length < BWORLD_SLOG_MAX_LINE_LEN

instance : DecidableEq LogText := fun a b =>
  decidable_of_iff (a.chars = b.chars) (by cases a; cases b; simp)

/-- The part of `TSLog` that goes to the file, with its text. -/
structure TSLog where
  cust : LogCust
  dwLogConfigId : UInt32
  dwLogHost : UInt32
  dwLogSeq : UInt32
  qwLogTime : UInt64
  iAppId : Int32
  iModuleId : Int32
  wLogType : UInt16
  text : LogText
deriving DecidableEq

/-- A log file: its name, the part of the head that searching reads, and its bytes. -/
structure LogFile where
  szAbsFileName : List UInt8
  qwLogTimeStart : UInt64
  qwLogTimeEnd : UInt64
  iLogRecordsWrite : Nat
  mem : Nat → UInt8
  size : Nat

/-- Where the index of log `j` stands. -/
def indexPos (j : Nat) : Nat := sizeofHead + sizeofIndex * j

/-- Where the texts begin. -/
def contentStart : Nat := indexPos SLOG_LOG_RECORDS_COUNT_MAX

section Write

/-- The bytes of an index. -/
def SLogFileLogIndex.bytes (x : SLogFileLogIndex) : List UInt8 :=
  nativeBytes 1 x.bLogCustLen.toNat ++
    (nativeBytes 4 x.dwLogCustPos.toNat ++
    (nativeBytes 4 x.dwLogConfigId.toNat ++
    (nativeBytes 4 x.dwLogHost.toNat ++
    (nativeBytes 4 x.iAppId.toUInt32.toNat ++
    (nativeBytes 4 x.iModuleId.toUInt32.toNat ++
    (nativeBytes 2 x.wLogType.toNat ++
    (nativeBytes 4 x.dwLogSeq.toNat ++
    (nativeBytes 8 x.qwLogTime.toNat ++
    (nativeBytes 4 x.dwLogContentLen.toNat ++
    (nativeBytes 4 x.dwLogContentPos.toNat ++ []))))))))))

/-- A set number is saved as the machine has it. -/
def saveWord (isSet : Bool) (x : UInt32) : List UInt8 :=
  if isSet then nativeBytes 4 x.toNat else []

/-- `SaveLogCustData`: the bytes that are saved, none when no field is set. -/
def saveLogCustData (c : LogCust) : List UInt8 :=
  let sCustBuf := [c.bCustFlag] ++
    (saveWord (isSetBit c.bCustFlag MTLOG_CUST_FLAG_C1_SET) c.dwCust_1 ++
    (saveWord (isSetBit c.bCustFlag MTLOG_CUST_FLAG_C2_SET) c.dwCust_2 ++
    (saveWord (isSetBit c.bCustFlag MTLOG_CUST_FLAG_C3_SET) c.iCust_3.toUInt32 ++
    (saveWord (isSetBit c.bCustFlag MTLOG_CUST_FLAG_C4_SET) c.iCust_4.toUInt32 ++
    (putStr (isSetBit c.bCustFlag MTLOG_CUST_FLAG_C5_SET) c.szCust_5 ++
    putStr (isSetBit c.bCustFlag MTLOG_CUST_FLAG_C6_SET) c.szCust_6)))))
  if sCustBuf.length ≤ 1 then [] else sCustBuf

/-- The level that is written for a log: an unknown one becomes `SLOG_LEVEL_OTHER`. -/
def fileLogType (wLogType : UInt16) : UInt16 :=
  if wLogType ∈ [2, 4, 8, 16, 32, 64] then wLogType else 1

/-- The index of a log whose text is written at `contentPos`. -/
def indexOf (r : TSLog) (contentPos : Nat) : SLogFileLogIndex where
  bLogCustLen := UInt8.ofNat (saveLogCustData r.cust).length
  dwLogCustPos :=
    if 0 < (saveLogCustData r.cust).length then
      UInt32.ofNat (contentPos + 4 + logContentLen r.text.chars.length)
    else 0
  dwLogConfigId := r.dwLogConfigId
  dwLogHost := r.dwLogHost
  iAppId := r.iAppId
  iModuleId := r.iModuleId
  wLogType := fileLogType r.wLogType
  dwLogSeq := r.dwLogSeq
  qwLogTime := r.qwLogTime
  dwLogContentLen := UInt32.ofNat (logContentLen r.text.chars.length)
  dwLogContentPos := UInt32.ofNat contentPos

/-- `WriteLogVersion_2` with `WriteLog`. -/
def writeLogVersion2 (f : LogFile) (r : TSLog) : LogFile :=
  let content := (r.text.chars ++ [0]).take (logContentLen r.text.chars.length)
  let cust := saveLogCustData r.cust
  let mem := writeAt f.mem f.size (nativeBytes 4 r.dwLogSeq.toNat)
  let mem := writeAt mem (f.size + 4) content
  let mem := writeAt mem (f.size + 4 + content.length) cust
  let mem := writeAt mem (indexPos f.iLogRecordsWrite) (indexOf r f.size).bytes
  { f with
    iLogRecordsWrite := f.iLogRecordsWrite + 1
    mem := mem
    size := f.size + 4 + content.length + cust.length }

/-- The part of `WriteLogRecord` behind the choice of the file. -/
def writeLogRecord (f : LogFile) (r : TSLog) : LogFile :=
  writeLogVersion2
    { f with
      qwLogTimeStart := if r.qwLogTime < f.qwLogTimeStart then r.qwLogTime else f.qwLogTimeStart
      qwLogTimeEnd := if f.qwLogTimeEnd < r.qwLogTime then r.qwLogTime else f.qwLogTimeEnd }
    r

/-- The file that `AddNewSlogFile` makes. -/
def newFile (szAbsFileName : List UInt8) (qwLogStartTime : UInt64) : LogFile where
  szAbsFileName := szAbsFileName
  qwLogTimeStart := qwLogStartTime
  qwLogTimeEnd := qwLogStartTime
  iLogRecordsWrite := 0
  mem := fun _ => 0
  size := contentStart

/-- The logs that were written to a file; it was made for the first of them. -/
structure WrittenFile where
  szAbsFileName : List UInt8
  first : TSLog
  later : List TSLog
  length_le : later.length < SLOG_LOG_RECORDS_COUNT_MAX

/-- The logs of a file in the order in which they were written. -/
def WrittenFile.logs (w : WrittenFile) : List TSLog := w.first :: w.later

/-- The file after its logs were written. -/
def WrittenFile.file (w : WrittenFile) : LogFile :=
  w.logs.foldl writeLogRecord (newFile w.szAbsFileName w.first.qwLogTime)

end Write

section Holds

/-- What is written behind the indices for a log. -/
def body (r : TSLog) : List UInt8 :=
  nativeBytes 4 r.dwLogSeq.toNat ++ (r.text.chars ++ [0] ++ saveLogCustData r.cust)

/-- Log `j` of a file is `r`. -/
def LogAt (f : LogFile) (j : Nat) (r : TSLog) : Prop :=
  ∃ pos, contentStart ≤ pos ∧ pos + (body r).length ≤ f.size ∧ f.size < 2 ^ 32 ∧
    Stands f.mem pos (body r) ∧ Stands f.mem (indexPos j) (indexOf r pos).bytes

/-- A file has some logs. -/
structure Holds (f : LogFile) (rs : List TSLog) : Prop where
  count : f.iLogRecordsWrite = rs.length
  start : contentStart ≤ f.size
  size : f.size ≤ contentStart + rs.length * 1200
  logs : ∀ j r, rs[j]? = some r → LogAt f j r
  timeStart : ∀ r ∈ rs, f.qwLogTimeStart ≤ r.qwLogTime
  timeEnd : ∀ r ∈ rs, r.qwLogTime ≤ f.qwLogTimeEnd

theorem indexPos_mono {i j : Nat} (h : i ≤ j) : indexPos i ≤ indexPos j :=
  Nat.add_le_add_left (Nat.mul_le_mul_left sizeofIndex h) sizeofHead

theorem indexPos_succ (j : Nat) : indexPos j + sizeofIndex = indexPos (j + 1) := by
  simp only [indexPos]
  ring

@[simp] theorem length_bytes (x : SLogFileLogIndex) : x.bytes.length = sizeofIndex := by
  simp [SLogFileLogIndex.bytes, sizeofIndex]

theorem logContentLen_text (t : LogText) : logContentLen t.chars.length = t.chars.length + 1 := by
  have hlen := t.length_lt
  rw [logContentLen, if_neg (by omega)]

theorem length_saveLogCustData_le (c : LogCust) : (saveLogCustData c).length ≤ 65 := by
  have hword : ∀ isSet x, (saveWord isSet x).length ≤ 4 := by
    intro isSet x
    cases isSet <;> simp [saveWord]
  have hstr : ∀ {n : Nat} (isSet : Bool) (b : CharBuf n), (putStr isSet b).length ≤ n - 1 + 1 := by
    intro n isSet b
    have hlen := b.length_str_le
    cases isSet <;> simp [putStr, hlen]
  have h₁ := hword (isSetBit c.bCustFlag MTLOG_CUST_FLAG_C1_SET) c.dwCust_1
  have h₂ := hword (isSetBit c.bCustFlag MTLOG_CUST_FLAG_C2_SET) c.dwCust_2
  have h₃ := hword (isSetBit c.bCustFlag MTLOG_CUST_FLAG_C3_SET) c.iCust_3.toUInt32
  have h₄ := hword (isSetBit c.bCustFlag MTLOG_CUST_FLAG_C4_SET) c.iCust_4.toUInt32
  have h₅ := hstr (isSetBit c.bCustFlag MTLOG_CUST_FLAG_C5_SET) c.szCust_5
  have h₆ := hstr (isSetBit c.bCustFlag MTLOG_CUST_FLAG_C6_SET) c.szCust_6
  simp only [saveLogCustData]
  split
  · simp
  · simp only [List.length_append, List.length_cons, List.length_nil]
    omega

theorem length_body (r : TSLog) :
    (body r).length = 4 + (r.text.chars.length + 1) + (saveLogCustData r.cust).length := by
  simp only [body, List.length_append, length_nativeBytes, List.length_cons, List.length_nil]
  omega

theorem length_body_le (r : TSLog) : (body r).length ≤ 1200 := by
  have hcust := length_saveLogCustData_le r.cust
  have htext := r.text.length_lt
  rw [length_body]
  simp only [BWORLD_SLOG_MAX_LINE_LEN] at htext
  omega

/-- What `WriteLogVersion_2` leaves in the file: the body at the old end, the index in its place, and
everything else as it was. -/
theorem writeLogVersion2_mem (f : LogFile) (r : TSLog)
    (hcount : f.iLogRecordsWrite < SLOG_LOG_RECORDS_COUNT_MAX) (hstart : contentStart ≤ f.size) :
    (writeLogVersion2 f r).size = f.size + (body r).length ∧
    Stands (writeLogVersion2 f r).mem f.size (body r) ∧
    Stands (writeLogVersion2 f r).mem (indexPos f.iLogRecordsWrite) (indexOf r f.size).bytes ∧
    ∀ q bs, Stands f.mem q bs → q + bs.length ≤ f.size →
      (q + bs.length ≤ indexPos f.iLogRecordsWrite ∨ indexPos (f.iLogRecordsWrite + 1) ≤ q) →
      Stands (writeLogVersion2 f r).mem q bs := by
  have hcontent : (r.text.chars ++ [0]).take (logContentLen r.text.chars.length) =
      r.text.chars ++ [0] := by
    rw [logContentLen_text]
    exact List.take_of_length_le (by simp)
  have hidx := indexPos_succ f.iLogRecordsWrite
  have hbefore : indexPos (f.iLogRecordsWrite + 1) ≤ f.size := by
    exact Nat.le_trans (indexPos_mono hcount) hstart
  have hlen := length_body r
  refine ⟨?_, ?_, ?_, ?_⟩
  · simp only [writeLogVersion2, hcontent, List.length_append, List.length_cons, List.length_nil]
    omega
  · simp only [writeLogVersion2, hcontent]
    apply Stands.writeAt
    · rw [body, stands_append, stands_append]
      refine ⟨?_, ?_, ?_⟩
      · apply Stands.writeAt
        · apply Stands.writeAt
          · exact stands_writeAt _ _ _
          · left
            simp
        · left
          simp
      · apply Stands.writeAt
        · rw [length_nativeBytes]
          exact stands_writeAt _ _ _
        · left
          simp
      · rw [length_nativeBytes]
        exact stands_writeAt _ _ _
    · right
      rw [length_bytes, hidx]
      exact hbefore
  · exact stands_writeAt _ _ _
  · intro q bs hq hsize hdisj
    simp only [writeLogVersion2, hcontent]
    apply Stands.writeAt
    · apply Stands.writeAt
      · apply Stands.writeAt
        · apply Stands.writeAt hq
          exact Or.inl hsize
        · left
          omega
      · left
        omega
    · rw [length_bytes, hidx]
      exact hdisj

/-- A log is written behind the others. -/
theorem Holds.write {f : LogFile} {rs : List TSLog} (h : Holds f rs) (r : TSLog)
    (hlen : rs.length < SLOG_LOG_RECORDS_COUNT_MAX) : Holds (writeLogRecord f r) (rs ++ [r]) := by
  have hcount : f.iLogRecordsWrite < SLOG_LOG_RECORDS_COUNT_MAX := by
    rw [h.count]
    exact hlen
  obtain ⟨hsize, hbody, hindex, hkeep⟩ := writeLogVersion2_mem
    { f with
      qwLogTimeStart := if r.qwLogTime < f.qwLogTimeStart then r.qwLogTime else f.qwLogTimeStart
      qwLogTimeEnd := if f.qwLogTimeEnd < r.qwLogTime then r.qwLogTime else f.qwLogTimeEnd }
    r hcount h.start
  change (writeLogRecord f r).size = f.size + (body r).length at hsize
  change Stands (writeLogRecord f r).mem f.size (body r) at hbody
  change Stands (writeLogRecord f r).mem (indexPos f.iLogRecordsWrite) _ at hindex
  have hle := length_body_le r
  have hbound : (writeLogRecord f r).size ≤ contentStart + (rs ++ [r]).length * 1200 := by
    have hold := h.size
    rw [hsize, List.length_append, List.length_singleton]
    omega
  have hlt : (writeLogRecord f r).size < 2 ^ 32 := by
    rw [List.length_append, List.length_singleton] at hbound
    simp only [contentStart, indexPos, sizeofHead, sizeofIndex, SLOG_LOG_RECORDS_COUNT_MAX]
      at hbound hlen
    omega
  constructor
  · change f.iLogRecordsWrite + 1 = _
    rw [h.count, List.length_append, List.length_singleton]
  · rw [hsize]
    exact Nat.le_add_right_of_le h.start
  · exact hbound
  · intro j q hq
    obtain hj | hj := Nat.lt_or_ge j rs.length
    · rw [List.getElem?_append_left hj] at hq
      obtain ⟨pos, hpos, hend, -, hb, hi⟩ := h.logs j q hq
      refine ⟨pos, hpos, ?_, hlt, ?_, ?_⟩
      · rw [hsize]
        exact Nat.le_add_right_of_le hend
      · apply hkeep pos (body q) hb hend
        right
        exact Nat.le_trans (indexPos_mono hcount) hpos
      · have hnext : indexPos j + sizeofIndex ≤ indexPos f.iLogRecordsWrite := by
          rw [indexPos_succ, h.count]
          exact indexPos_mono hj
        apply hkeep (indexPos j) _ hi
        · rw [length_bytes]
          exact Nat.le_trans hnext (Nat.le_trans (indexPos_mono (Nat.le_of_lt hcount)) h.start)
        · left
          rw [length_bytes]
          exact hnext
    · obtain ⟨hjlt, -⟩ := List.getElem?_eq_some_iff.mp hq
      rw [List.length_append, List.length_singleton] at hjlt
      obtain rfl : j = rs.length := by omega
      obtain rfl : r = q := by simpa using hq
      refine ⟨f.size, h.start, ?_, hlt, hbody, ?_⟩
      · rw [hsize]
      · rw [← h.count]
        exact hindex
  · intro q hq
    change (if r.qwLogTime < f.qwLogTimeStart then r.qwLogTime else f.qwLogTimeStart) ≤ _
    obtain hq | hq := List.mem_append.mp hq
    · have hold := h.timeStart q hq
      split
      · next hlt => exact UInt64.le_trans (UInt64.le_of_lt hlt) hold
      · exact hold
    · obtain rfl := List.mem_singleton.mp hq
      split
      · exact UInt64.le_refl _
      · next hnlt => exact UInt64.not_lt.mp hnlt
  · intro q hq
    change _ ≤ (if f.qwLogTimeEnd < r.qwLogTime then r.qwLogTime else f.qwLogTimeEnd)
    obtain hq | hq := List.mem_append.mp hq
    · have hold := h.timeEnd q hq
      split
      · next hlt => exact UInt64.le_trans hold (UInt64.le_of_lt hlt)
      · exact hold
    · obtain rfl := List.mem_singleton.mp hq
      split
      · exact UInt64.le_refl _
      · next hnlt => exact UInt64.not_lt.mp hnlt

theorem holds_newFile (szAbsFileName : List UInt8) (qwLogStartTime : UInt64) :
    Holds (newFile szAbsFileName qwLogStartTime) [] := by
  constructor <;> simp [newFile]

theorem WrittenFile.holds (w : WrittenFile) : Holds w.file w.logs := by
  have hrun : ∀ (rs ps : List TSLog) (f : LogFile), Holds f ps →
      (ps ++ rs).length ≤ SLOG_LOG_RECORDS_COUNT_MAX →
      Holds (rs.foldl writeLogRecord f) (ps ++ rs) := by
    intro rs
    induction rs with
    | nil =>
      intro ps f h _
      simpa using h
    | cons r rs ih =>
      intro ps f h hlen
      have hroom : ps.length < SLOG_LOG_RECORDS_COUNT_MAX := by
        rw [List.length_append, List.length_cons] at hlen
        omega
      have hnext := ih (ps ++ [r]) (writeLogRecord f r) (h.write r hroom) (by simpa using hlen)
      simpa using hnext
  have hlen : w.logs.length ≤ SLOG_LOG_RECORDS_COUNT_MAX := w.length_le
  exact hrun w.logs [] _ (holds_newFile _ _) hlen

end Holds

end XrkMonitor.LogSearch
