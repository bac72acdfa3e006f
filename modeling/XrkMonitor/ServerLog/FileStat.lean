import Mathlib.Algebra.Group.Action.Defs
import Mathlib.Algebra.Order.Group.Nat
import XrkMonitor.Library.KeyedSum
import XrkMonitor.Library.MachineWord
import XrkMonitor.Library.Run

/-!
# Statistics of the log files of an app

The log files of an app are listed in shared memory, each with the statistics of
its logs in its head. The app has the sums over all files. `WriteLog` counts a log
in both places, `AddNewSlogFile` adds an empty file and drops the oldest one when
the list is full, `RemoveFileInfo` takes a file out of the list and its figures out
of the sums.

## Implementation notes

The statistics are a function of the field, so one definition counts in every
field. Whether `fopen` succeeds is an input. Of a file head the record counts and
the statistics are kept. `files` is the list of files that were added and not
removed, against which the list in shared memory is compared.
-/

namespace XrkMonitor.ServerLog

open Library

def SLOG_LOG_FILES_COUNT_MAX : Nat := 400
def SLOG_LOG_RECORDS_COUNT_MAX : Nat := 200000
def BWORLD_SLOG_MAX_LINE_LEN : Nat := 1024

/-- The fields of `TLogStatInfo`. -/
inductive StatField
  | qwLogSizeInfo
  | dwDebugLogsCount
  | dwInfoLogsCount
  | dwWarnLogsCount
  | dwReqerrLogsCount
  | dwErrorLogsCount
  | dwFatalLogsCount
  | dwOtherLogsCount
deriving Repr, DecidableEq

/-- The width of a field in bits. -/
def StatField.width : StatField → Nat
  | .qwLogSizeInfo => 64
  | _ => 32

/-- `TLogStatInfo`. -/
abbrev TLogStatInfo : Type := StatField → Nat

/-- The part of `SLogFileHead` that counts logs. -/
structure SLogFileHead where
  iLogRecordsWrite : Nat
  iLogRecordsMax : Nat
  stLogStatInfo : TLogStatInfo

/-- The log files of an app: the list in shared memory, the sums in `m_pAppInfo`, and the
index of the file that is written. -/
structure LogFiles where
  wLogFileCount : Nat
  stFiles : Nat → SLogFileHead
  stLogStatInfo : TLogStatInfo
  bReadLogStatInfo : Bool
  m_wCurFpLogFileIndex : Nat

section Operations

/-- The counter of a log level. -/
def levelField : Nat → StatField
  | 2 => .dwDebugLogsCount
  | 4 => .dwInfoLogsCount
  | 8 => .dwWarnLogsCount
  | 16 => .dwReqerrLogsCount
  | 32 => .dwErrorLogsCount
  | 64 => .dwFatalLogsCount
  | _ => .dwOtherLogsCount

def addStat (st : TLogStatInfo) (f : StatField) (x : Nat) : TLogStatInfo :=
  Function.update st f ((st f + x) % 2 ^ f.width)

/-- A log of `size` bytes is counted. -/
def countLog (st : TLogStatInfo) (wLogType size : Nat) : TLogStatInfo :=
  addStat (addStat st .qwLogSizeInfo size) (levelField wLogType) 1

/-- `dwLogContentLen` of a text. -/
def logContentLen (strlen : Nat) : Nat :=
  if BWORLD_SLOG_MAX_LINE_LEN < strlen + 1 then BWORLD_SLOG_MAX_LINE_LEN else strlen + 1

/-- A log of `size` bytes is counted in the head of its file. -/
def countHead (head : SLogFileHead) (wLogType size : Nat) : SLogFileHead :=
  { head with
    iLogRecordsWrite := head.iLogRecordsWrite + 1
    stLogStatInfo := countLog head.stLogStatInfo wLogType size }

/-- `WriteLog` that succeeds; it does not return when its assertion fails. -/
def writeLog (s : LogFiles) (wLogType strlen bLogCustLen : Nat) : Option LogFiles :=
  let size := logContentLen strlen + bLogCustLen
  let head := countHead (s.stFiles s.m_wCurFpLogFileIndex) wLogType size
  if head.iLogRecordsWrite ≤ head.iLogRecordsMax then
    some
      { s with
        stFiles := Function.update s.stFiles s.m_wCurFpLogFileIndex head
        stLogStatInfo := countLog s.stLogStatInfo wLogType size }
  else none

/-- A figure of a file is taken out of the sum, which stays at zero when it is too small. -/
def checkLogStatInfo (sum x : Nat) : Nat := if sum < x then 0 else sum - x

/-- The figures of a removed file are taken out of the sums, the size twice. -/
def removeStat (sum st : TLogStatInfo) : TLogStatInfo
  | .qwLogSizeInfo =>
    checkLogStatInfo (checkLogStatInfo (sum .qwLogSizeInfo) (st .qwLogSizeInfo))
      (st .qwLogSizeInfo)
  | f => checkLogStatInfo (sum f) (st f)

/-- `RemoveFileInfo`. -/
def removeFileInfo (s : LogFiles) (iFileIndex : Nat) : LogFiles :=
  let count := wordDec 16 s.wLogFileCount
  { s with
    wLogFileCount := count
    stFiles := fun j =>
      if iFileIndex ≤ j ∧ j + 1 < s.wLogFileCount then s.stFiles (j + 1) else s.stFiles j
    stLogStatInfo :=
      if s.bReadLogStatInfo then removeStat s.stLogStatInfo (s.stFiles iFileIndex).stLogStatInfo
      else s.stLogStatInfo
    m_wCurFpLogFileIndex := if 0 < count then count - 1 else SLOG_LOG_FILES_COUNT_MAX }

/-- The head of a new file. -/
def newHead : SLogFileHead := ⟨0, SLOG_LOG_RECORDS_COUNT_MAX, fun _ => 0⟩

/-- `AddNewSlogFile`. -/
def addNewSlogFile (s : LogFiles) (fopenOk : Bool) : LogFiles :=
  let s := if SLOG_LOG_FILES_COUNT_MAX ≤ s.wLogFileCount then removeFileInfo s 0 else s
  let i := s.wLogFileCount
  if fopenOk then
    { s with
      wLogFileCount := wordInc 16 s.wLogFileCount
      stFiles := Function.update s.stFiles i newHead
      m_wCurFpLogFileIndex := i }
  else removeFileInfo s i

end Operations

section Run

/-- The list in shared memory, and the files that were added and not removed. -/
structure StatRun where
  list : LogFiles
  files : List SLogFileHead

inductive FileOp
  | writeLog (wLogType strlen bLogCustLen : Nat)
  | addNewSlogFile (fopenOk : Bool)
  | removeFileInfo (iFileIndex : Nat)
deriving Repr, DecidableEq

/-- One operation on the list, and what it means for the files. -/
def fileStep (r : StatRun) : FileOp → Option (Unit × StatRun)
  | .writeLog wLogType strlen bLogCustLen =>
    (writeLog r.list wLogType strlen bLogCustLen).map fun s =>
      ((), ⟨s, r.files.set r.list.m_wCurFpLogFileIndex (s.stFiles r.list.m_wCurFpLogFileIndex)⟩)
  | .addNewSlogFile fopenOk =>
    let files := if SLOG_LOG_FILES_COUNT_MAX ≤ r.files.length then r.files.tail else r.files
    some ((), ⟨addNewSlogFile r.list fopenOk, if fopenOk then files ++ [newHead] else files⟩)
  | .removeFileInfo iFileIndex =>
    some ((), ⟨removeFileInfo r.list iFileIndex, r.files.eraseIdx iFileIndex⟩)

/-- Taking the size of file `i` out twice does not show: it is zero, or the other files have
no size. -/
def Removable (s : LogFiles) (i : Nat) : Prop :=
  s.bReadLogStatInfo = true ∧
    ((s.stFiles i).stLogStatInfo .qwLogSizeInfo = 0 ∨
      ∀ j < s.wLogFileCount, j ≠ i → (s.stFiles j).stLogStatInfo .qwLogSizeInfo = 0)

instance (s : LogFiles) (i : Nat) : Decidable (Removable s i) :=
  inferInstanceAs (Decidable (_ ∧ (_ ∨ _)))

/-- What callers promise: a file with room is written, a custom length is a byte, and a listed
file is removed. -/
def FilePromised (r : StatRun) : FileOp → Prop
  | .writeLog _ _ bLogCustLen =>
    r.list.m_wCurFpLogFileIndex < r.list.wLogFileCount ∧ bLogCustLen < 2 ^ 8 ∧
      (r.list.stFiles r.list.m_wCurFpLogFileIndex).iLogRecordsWrite <
        (r.list.stFiles r.list.m_wCurFpLogFileIndex).iLogRecordsMax
  | .addNewSlogFile _ => True
  | .removeFileInfo i => i < r.list.wLogFileCount

/-- A removal does not show the size taken out twice, and a new file is opened. -/
def StatKept (r : StatRun) : FileOp → Prop
  | .writeLog _ _ _ => True
  | .addNewSlogFile fopenOk =>
    fopenOk = true ∧ (SLOG_LOG_FILES_COUNT_MAX ≤ r.list.wLogFileCount → Removable r.list 0)
  | .removeFileInfo i => Removable r.list i

instance (r : StatRun) : ∀ op, Decidable (FilePromised r op)
  | .writeLog _ _ _ => inferInstanceAs (Decidable (_ ∧ _ ∧ _))
  | .addNewSlogFile _ => isTrue trivial
  | .removeFileInfo _ => inferInstanceAs (Decidable (_ < _))

instance (r : StatRun) : ∀ op, Decidable (StatKept r op)
  | .writeLog _ _ _ => isTrue trivial
  | .addNewSlogFile _ => inferInstanceAs (Decidable (_ ∧ (_ → _)))
  | .removeFileInfo _ => inferInstanceAs (Decidable (Removable _ _))

end Run

section Invariant

/-- The most a log adds to a field. -/
def StatField.most : StatField → Nat
  | .qwLogSizeInfo => 1279
  | _ => 1

/-- A head as `WriteLog` keeps it. -/
structure HeadOk (head : SLogFileHead) : Prop where
  max : head.iLogRecordsMax ≤ SLOG_LOG_RECORDS_COUNT_MAX
  write : head.iLogRecordsWrite ≤ head.iLogRecordsMax
  stat : ∀ f, head.stLogStatInfo f ≤ head.iLogRecordsWrite * f.most

/-- The sum of a field over files. -/
def statSum (files : List SLogFileHead) (f : StatField) : Nat :=
  (files.map fun head => head.stLogStatInfo f).sum

/-- The list in shared memory is the list of files, and the sums are those over the files. -/
structure StatInv (r : StatRun) : Prop where
  count : r.list.wLogFileCount = r.files.length
  files : (List.range r.list.wLogFileCount).map r.list.stFiles = r.files
  sum : ∀ f, r.list.stLogStatInfo f = statSum r.files f
  length : r.files.length ≤ SLOG_LOG_FILES_COUNT_MAX
  heads : ∀ head ∈ r.files, HeadOk head

variable {r : StatRun} {head : SLogFileHead} {files : List SLogFileHead} {i : Nat} {f : StatField}
  {bLogCustLen : Nat}

theorem StatInv.getElem?_files (h : StatInv r) (i : Nat) :
    r.files[i]? = if i < r.files.length then some (r.list.stFiles i) else none := by
  rw [← h.count, ← h.files, List.getElem?_map]
  split
  · rename_i hi
    rw [List.getElem?_range hi]
    rfl
  · rename_i hi
    rw [List.getElem?_eq_none (by simpa using hi)]
    rfl

theorem statSum_set (hi : files[i]? = some head) (head' : SLogFileHead) (f : StatField) :
    statSum (files.set i head') f + head.stLogStatInfo f =
      statSum files f + head'.stLogStatInfo f :=
  sum_map_set hi (fun head => head.stLogStatInfo f) head'

theorem statSum_eraseIdx (hi : files[i]? = some head) (f : StatField) :
    statSum (files.eraseIdx i) f + head.stLogStatInfo f = statSum files f := by
  rw [Nat.add_comm]
  exact sum_map_eraseIdx hi fun head => head.stLogStatInfo f

theorem statSum_lt (hlen : files.length ≤ SLOG_LOG_FILES_COUNT_MAX)
    (hheads : ∀ head ∈ files, HeadOk head) (f : StatField) : statSum files f < 2 ^ f.width := by
  have hle : ∀ x ∈ files.map (fun head => head.stLogStatInfo f),
      x ≤ SLOG_LOG_RECORDS_COUNT_MAX * f.most := by
    intro x hx
    obtain ⟨head, hhead, rfl⟩ := List.mem_map.mp hx
    have hok := hheads head hhead
    exact (hok.stat f).trans (Nat.mul_le_mul_right _ (hok.write.trans hok.max))
  have hsum := List.sum_le_card_nsmul _ _ hle
  rw [List.length_map, smul_eq_mul] at hsum
  have hall : files.length * (SLOG_LOG_RECORDS_COUNT_MAX * f.most) ≤
      SLOG_LOG_FILES_COUNT_MAX * (SLOG_LOG_RECORDS_COUNT_MAX * f.most) :=
    Nat.mul_le_mul_right _ hlen
  have hmost : SLOG_LOG_FILES_COUNT_MAX * (SLOG_LOG_RECORDS_COUNT_MAX * f.most) < 2 ^ f.width := by
    cases f <;> decide
  exact (hsum.trans hall).trans_lt hmost

/-- What a log adds to a field. -/
def logAdds (wLogType size : Nat) (f : StatField) : Nat :=
  if f = .qwLogSizeInfo then size else if f = levelField wLogType then 1 else 0

theorem levelField_ne_size (wLogType : Nat) : levelField wLogType ≠ .qwLogSizeInfo := by
  unfold levelField
  split <;> decide

theorem countLog_apply {st : TLogStatInfo} (wLogType size : Nat) (f : StatField)
    (h : st f + logAdds wLogType size f < 2 ^ f.width) :
    countLog st wLogType size f = st f + logAdds wLogType size f := by
  have hne := levelField_ne_size wLogType
  unfold countLog addStat
  by_cases hsize : f = .qwLogSizeInfo
  · subst hsize
    rw [Function.update_of_ne hne.symm, Function.update_self]
    simp only [logAdds, if_true] at h ⊢
    exact Nat.mod_eq_of_lt h
  · by_cases hlevel : f = levelField wLogType
    · subst hlevel
      rw [Function.update_self, Function.update_of_ne hne]
      simp only [logAdds, if_neg hne, if_true] at h ⊢
      exact Nat.mod_eq_of_lt h
    · rw [Function.update_of_ne hlevel, Function.update_of_ne hsize]
      simp [logAdds, hsize, hlevel]

theorem logAdds_le (hcust : bLogCustLen < 2 ^ 8) (wLogType strlen : Nat)
    (f : StatField) : logAdds wLogType (logContentLen strlen + bLogCustLen) f ≤ f.most := by
  have hlen : logContentLen strlen ≤ 1024 := by
    unfold logContentLen BWORLD_SLOG_MAX_LINE_LEN
    split
    · omega
    · omega
  unfold logAdds
  split
  · rename_i hf
    subst hf
    simp only [StatField.most]
    omega
  · have hpos : 1 ≤ f.most := by cases f <;> decide
    split
    · exact hpos
    · omega

theorem HeadOk.count (h : HeadOk head) (hroom : head.iLogRecordsWrite < head.iLogRecordsMax)
    (hcust : bLogCustLen < 2 ^ 8) (wLogType strlen : Nat) :
    HeadOk (countHead head wLogType (logContentLen strlen + bLogCustLen)) ∧
      ∀ f, (countHead head wLogType (logContentLen strlen + bLogCustLen)).stLogStatInfo f =
        head.stLogStatInfo f + logAdds wLogType (logContentLen strlen + bLogCustLen) f := by
  have hle : ∀ f, head.stLogStatInfo f + logAdds wLogType (logContentLen strlen + bLogCustLen) f ≤
      (head.iLogRecordsWrite + 1) * f.most := by
    intro f
    have := h.stat f
    have := logAdds_le hcust wLogType strlen f
    rw [Nat.add_mul, Nat.one_mul]
    omega
  have hcount : ∀ f, countLog head.stLogStatInfo wLogType (logContentLen strlen + bLogCustLen) f =
      head.stLogStatInfo f + logAdds wLogType (logContentLen strlen + bLogCustLen) f := by
    intro f
    apply countLog_apply
    have hmul : (head.iLogRecordsWrite + 1) * f.most ≤ SLOG_LOG_RECORDS_COUNT_MAX * f.most :=
      Nat.mul_le_mul_right _ (Nat.le_trans hroom h.max)
    have hmost : SLOG_LOG_RECORDS_COUNT_MAX * f.most < 2 ^ f.width := by
      cases f <;> decide
    exact ((hle f).trans hmul).trans_lt hmost
  refine ⟨⟨h.max, hroom, ?_⟩, hcount⟩
  intro f
  simp only [countHead, hcount]
  exact hle f

theorem map_range_update (stFiles : Nat → SLogFileHead) (n i : Nat) (head : SLogFileHead) :
    (List.range n).map (Function.update stFiles i head) =
      ((List.range n).map stFiles).set i head := by
  apply List.ext_getElem
  · simp
  · intro j hj hj'
    rw [List.getElem_map, List.getElem_range, List.getElem_set]
    by_cases hji : i = j
    · subst hji
      simp
    · simp [hji, Ne.symm hji]

theorem StatInv.write (h : StatInv r) {wLogType strlen bLogCustLen : Nat}
    (hp : FilePromised r (.writeLog wLogType strlen bLogCustLen)) :
    ∃ r', fileStep r (.writeLog wLogType strlen bLogCustLen) = some ((), r') ∧ StatInv r' := by
  obtain ⟨hcur, hcust, hroom⟩ := hp
  have hget : r.files[r.list.m_wCurFpLogFileIndex]? =
      some (r.list.stFiles r.list.m_wCurFpLogFileIndex) := by
    rw [h.getElem?_files, if_pos (by rw [← h.count]; exact hcur)]
  have hok := h.heads _ (List.mem_of_getElem? hget)
  obtain ⟨hok', hcount⟩ := hok.count hroom hcust wLogType strlen
  generalize hhead : countHead (r.list.stFiles r.list.m_wCurFpLogFileIndex) wLogType
    (logContentLen strlen + bLogCustLen) = head at hok' hcount
  have hwrite : head.iLogRecordsWrite ≤ head.iLogRecordsMax := hok'.write
  have hheads : ∀ x ∈ r.files.set r.list.m_wCurFpLogFileIndex head, HeadOk x := by
    intro x hx
    rcases List.mem_or_eq_of_mem_set hx with hx | rfl
    · exact h.heads x hx
    · exact hok'
  refine ⟨⟨{ r.list with
      stFiles := Function.update r.list.stFiles r.list.m_wCurFpLogFileIndex head
      stLogStatInfo := countLog r.list.stLogStatInfo wLogType
        (logContentLen strlen + bLogCustLen) },
    r.files.set r.list.m_wCurFpLogFileIndex head⟩, ?_, ⟨?_, ?_, ?_, ?_, hheads⟩⟩
  · simp only [fileStep, writeLog, hhead, if_pos hwrite, Option.map_some, Function.update_self]
  · simpa using h.count
  · simp only
    rw [map_range_update, h.files]
  · intro f
    have hset := statSum_set hget head f
    have hlt := statSum_lt (by simpa using h.length) hheads f
    have hadd := hcount f
    have hsum := h.sum f
    change countLog _ _ _ f = statSum (r.files.set r.list.m_wCurFpLogFileIndex head) f
    rw [countLog_apply]
    · omega
    · omega
  · simpa using h.length

theorem checkLogStatInfo_add (a x : Nat) : checkLogStatInfo (a + x) x = a := by
  unfold checkLogStatInfo
  rw [if_neg (by omega)]
  omega

theorem map_range_removeFileInfo {s : LogFiles} (hi : i < s.wLogFileCount) :
    (List.range (s.wLogFileCount - 1)).map (removeFileInfo s i).stFiles =
      ((List.range s.wLogFileCount).map s.stFiles).eraseIdx i := by
  apply List.ext_getElem
  · rw [List.length_eraseIdx]
    simp [hi]
  · intro j hj hj'
    have hj : j + 1 < s.wLogFileCount := by
      simp only [List.length_map, List.length_range] at hj
      omega
    rw [List.getElem_map, List.getElem_range, List.getElem_eraseIdx]
    simp only [removeFileInfo, hj, and_true, List.getElem_map, List.getElem_range]
    by_cases hji : j < i
    · rw [dif_pos hji, if_neg (by omega)]
    · rw [dif_neg hji, if_pos (by omega)]

/-- A file is taken out of the list and out of the sums. -/
theorem StatInv.remove (h : StatInv r) (hi : i < r.list.wLogFileCount)
    (hr : Removable r.list i) : StatInv ⟨removeFileInfo r.list i, r.files.eraseIdx i⟩ := by
  have hlen := h.length
  have hcount := h.count
  have hget : r.files[i]? = some (r.list.stFiles i) := by
    rw [h.getElem?_files, if_pos (by omega)]
  have hmax : SLOG_LOG_FILES_COUNT_MAX < 2 ^ 16 := by decide
  have hdec : wordDec 16 r.list.wLogFileCount = r.list.wLogFileCount - 1 :=
    wordDec_of_pos (by omega) (by omega)
  have herase : (r.files.eraseIdx i).length = r.files.length - 1 := by
    rw [List.length_eraseIdx, if_pos (by omega)]
  refine ⟨?_, ?_, ?_, ?_, ?_⟩
  · change wordDec 16 r.list.wLogFileCount = _
    rw [hdec, herase, hcount]
  · change (List.range (wordDec 16 r.list.wLogFileCount)).map _ = _
    rw [hdec, map_range_removeFileInfo hi, h.files]
  · intro f
    have hsum := statSum_eraseIdx hget f
    rw [← h.sum f] at hsum
    simp only [removeFileInfo, hr.1, if_true]
    cases f with
    | qwLogSizeInfo =>
      simp only [removeStat]
      rw [← hsum, checkLogStatInfo_add]
      rcases hr.2 with hzero | hothers
      · rw [hzero]
        simp [checkLogStatInfo]
      · have hzero : statSum (r.files.eraseIdx i) .qwLogSizeInfo = 0 := by
          apply List.sum_eq_zero
          intro x hx
          obtain ⟨head, hhead, rfl⟩ := List.mem_map.mp hx
          obtain ⟨j, hj, hne, rfl⟩ := List.mem_eraseIdx_iff_getElem.mp hhead
          have hget' := h.getElem?_files j
          rw [List.getElem?_eq_getElem hj, if_pos hj] at hget'
          rw [Option.some.inj hget']
          exact hothers j (by omega) hne
        rw [hzero]
        simp [checkLogStatInfo]
    | _ =>
      simp only [removeStat]
      rw [← hsum, checkLogStatInfo_add]
  · simp only [herase]
    omega
  · intro head hhead
    exact h.heads head (List.mem_of_mem_eraseIdx hhead)

theorem StatInv.append (h : StatInv r) (hroom : r.list.wLogFileCount < SLOG_LOG_FILES_COUNT_MAX) :
    StatInv
      ⟨{ r.list with
          wLogFileCount := wordInc 16 r.list.wLogFileCount
          stFiles := Function.update r.list.stFiles r.list.wLogFileCount newHead
          m_wCurFpLogFileIndex := r.list.wLogFileCount },
        r.files ++ [newHead]⟩ := by
  have hmax : SLOG_LOG_FILES_COUNT_MAX < 2 ^ 16 := by decide
  have hinc : wordInc 16 r.list.wLogFileCount = r.list.wLogFileCount + 1 :=
    wordInc_of_lt (by omega)
  have hcount := h.count
  have hkeep : (List.range r.list.wLogFileCount).map
      (Function.update r.list.stFiles r.list.wLogFileCount newHead) = r.files := by
    rw [map_range_update, List.set_eq_of_length_le (by simp), h.files]
  refine ⟨?_, ?_, ?_, ?_, ?_⟩
  · simp only [hinc, List.length_append, List.length_singleton]
    omega
  · simp only [hinc, List.range_succ, List.map_append, hkeep, List.map_singleton,
      Function.update_self]
  · intro f
    rw [h.sum f]
    simp [statSum, newHead]
  · simp only [List.length_append, List.length_singleton]
    omega
  · intro head hhead
    rcases List.mem_append.mp hhead with hhead | hhead
    · exact h.heads head hhead
    · obtain rfl : head = newHead := by simpa using hhead
      exact ⟨Nat.le_refl _, Nat.zero_le _, fun _ => Nat.zero_le _⟩

theorem StatInv.add (h : StatInv r)
    (hr : SLOG_LOG_FILES_COUNT_MAX ≤ r.list.wLogFileCount → Removable r.list 0) :
    ∃ r', fileStep r (.addNewSlogFile true) = some ((), r') ∧ StatInv r' := by
  have hcount := h.count
  by_cases hfull : SLOG_LOG_FILES_COUNT_MAX ≤ r.list.wLogFileCount
  · have hmax : 0 < SLOG_LOG_FILES_COUNT_MAX := by decide
    have hdrop := h.remove (by omega) (hr hfull)
    have hroom : (removeFileInfo r.list 0).wLogFileCount < SLOG_LOG_FILES_COUNT_MAX := by
      have hlen := h.length
      rw [hdrop.count]
      simp only [List.length_eraseIdx, if_pos (show 0 < r.files.length by omega)]
      omega
    refine ⟨_, ?_, hdrop.append hroom⟩
    rw [fileStep, addNewSlogFile, if_pos hfull, if_pos (by omega : _ ≤ r.files.length),
      ← List.eraseIdx_zero]
    rfl
  · refine ⟨_, ?_, h.append (by omega)⟩
    rw [fileStep, addNewSlogFile, if_neg hfull, if_neg (by omega : ¬ _ ≤ r.files.length)]
    rfl

theorem StatInv.step (r : StatRun) (op : FileOp) (h : StatInv r)
    (hop : FilePromised r op ∧ StatKept r op) :
    ∃ o r', fileStep r op = some (o, r') ∧ True ∧ StatInv r' := by
  obtain ⟨hp, hk⟩ := hop
  cases op with
  | writeLog wLogType strlen bLogCustLen =>
    obtain ⟨r', hr', hinv⟩ := h.write hp
    exact ⟨(), r', hr', trivial, hinv⟩
  | addNewSlogFile fopenOk =>
    obtain ⟨rfl, hfull⟩ := hk
    obtain ⟨r', hr', hinv⟩ := h.add hfull
    exact ⟨(), r', hr', trivial, hinv⟩
  | removeFileInfo i => exact ⟨(), _, rfl, trivial, h.remove hp hk⟩

end Invariant

section Conservation

/-- A list of files within their limits and the sums over them, as `InitLogFiles` leaves it. -/
def listOf (files : List SLogFileHead) : LogFiles where
  wLogFileCount := files.length
  stFiles := fun i => files.getD i newHead
  stLogStatInfo := statSum files
  bReadLogStatInfo := true
  m_wCurFpLogFileIndex :=
    if 0 < files.length then files.length - 1 else SLOG_LOG_FILES_COUNT_MAX

theorem statInv_listOf {files : List SLogFileHead}
    (hlen : files.length ≤ SLOG_LOG_FILES_COUNT_MAX) (hheads : ∀ head ∈ files, HeadOk head) :
    StatInv ⟨listOf files, files⟩ := by
  refine ⟨rfl, ?_, fun _ => rfl, hlen, hheads⟩
  apply List.ext_getElem
  · simp [listOf]
  · intro i hi hi'
    simp [listOf, List.getElem?_eq_getElem hi']

/-- From any list of files, in every run whose removals do not show that the size is taken
out twice and whose new files are opened: the list in shared memory has exactly the files that
were added and not removed, and each sum of the app is the sum over these files. -/
theorem log_stat_conservation (files : List SLogFileHead)
    (hlen : files.length ≤ SLOG_LOG_FILES_COUNT_MAX) (hheads : ∀ head ∈ files, HeadOk head)
    (ops : List FileOp)
    (hops : Admissible fileStep (fun r op => FilePromised r op ∧ StatKept r op)
      ⟨listOf files, files⟩ ops) :
    ∃ os r, runSteps fileStep ⟨listOf files, files⟩ ops = some (os, r) ∧
      r.list.wLogFileCount = r.files.length ∧
      (List.range r.list.wLogFileCount).map r.list.stFiles = r.files ∧
      ∀ f, r.list.stLogStatInfo f = statSum r.files f := by
  obtain ⟨os, r, hrun, -, hinv⟩ :=
    run_invariant StatInv.step ops _ (statInv_listOf hlen hheads) hops
  exact ⟨os, r, hrun, hinv.count, hinv.files, hinv.sum⟩

/-- A file is filled and removed while it is the only one with logs. -/
def fillAndRemove : List FileOp :=
  [.addNewSlogFile true, .writeLog 4 9 0, .writeLog 32 20 5, .addNewSlogFile true,
    .removeFileInfo 0]

theorem log_stat_conservation_fillAndRemove :
    Admissible fileStep (fun r op => FilePromised r op ∧ StatKept r op) ⟨listOf [], []⟩
        fillAndRemove ∧
      ∃ os r, runSteps fileStep ⟨listOf [], []⟩ fillAndRemove = some (os, r) ∧
        r.list.stLogStatInfo .qwLogSizeInfo = statSum r.files .qwLogSizeInfo := by
  have hops : Admissible fileStep (fun r op => FilePromised r op ∧ StatKept r op)
      ⟨listOf [], []⟩ fillAndRemove := by
    decide +kernel
  obtain ⟨os, r, hrun, -, -, hsum⟩ :=
    log_stat_conservation [] (Nat.zero_le _) (by simp) fillAndRemove hops
  exact ⟨hops, os, r, hrun, hsum .qwLogSizeInfo⟩

/-- A log of ten bytes in each of two files, and the older file is removed. -/
def removeOlder : List FileOp :=
  [.addNewSlogFile true, .writeLog 4 9 0, .addNewSlogFile true, .writeLog 4 9 0,
    .removeFileInfo 0]

/-- The size of the removed file is taken out twice: the sum is zero, and the file that is
left has ten bytes. -/
theorem log_size_removed_twice :
    Admissible fileStep FilePromised ⟨listOf [], []⟩ removeOlder ∧
      (runSteps fileStep ⟨listOf [], []⟩ removeOlder).any (fun x =>
        x.2.list.stLogStatInfo .qwLogSizeInfo == 0 && statSum x.2.files .qwLogSizeInfo == 10) =
        true := by
  decide +kernel

end Conservation

section FailedCreate

variable {s : LogFiles}

/-- A new file that is not opened leaves the list, the sums and the index of the open file. -/
structure FailedCreateAtomic (s : LogFiles) : Prop where
  count : (addNewSlogFile s false).wLogFileCount = s.wLogFileCount
  files : ∀ i < s.wLogFileCount, (addNewSlogFile s false).stFiles i = s.stFiles i
  stat : (addNewSlogFile s false).stLogStatInfo = s.stLogStatInfo
  cur : (addNewSlogFile s false).m_wCurFpLogFileIndex = s.m_wCurFpLogFileIndex

theorem wordDec_ne {w n : Nat} (hw : 0 < w) : wordDec w n ≠ n := by
  have hpow : 2 ≤ 2 ^ w := Nat.le_self_pow (Nat.ne_of_gt hw) 2
  rw [wordDec]
  intro heq
  have hlt : n < 2 ^ w := heq ▸ Nat.mod_lt _ (Nat.two_pow_pos w)
  by_cases hn : n = 0
  · rw [hn, Nat.zero_add, Nat.mod_eq_of_lt (by omega)] at heq
    omega
  · have hdec := wordDec_of_pos (Nat.pos_of_ne_zero hn) hlt
    rw [wordDec, heq] at hdec
    omega

/-- With room in the list: a new file that is not opened always takes a file out of the list. -/
theorem failed_create_not_atomic (hroom : s.wLogFileCount < SLOG_LOG_FILES_COUNT_MAX) :
    ¬ FailedCreateAtomic s := by
  rintro ⟨hcount, -, -, -⟩
  rw [addNewSlogFile, if_neg (Nat.not_le.mpr hroom)] at hcount
  exact wordDec_ne (by decide) hcount

theorem failed_create_not_atomic_one : ¬ FailedCreateAtomic (listOf [newHead]) :=
  failed_create_not_atomic (by decide)

/-- One file of ten bytes, and the figures of a removed file of four bytes behind the list: the list is
empty and the sum is two bytes. -/
theorem failed_create_removes :
    let s : LogFiles :=
      { wLogFileCount := 1
        stFiles := fun i => ⟨1, 10, fun f => if f = .qwLogSizeInfo then (if i = 0 then 10 else 4) else 0⟩
        stLogStatInfo := fun f => if f = .qwLogSizeInfo then 10 else 0
        bReadLogStatInfo := true
        m_wCurFpLogFileIndex := 0 }
    ¬ FailedCreateAtomic s ∧ (addNewSlogFile s false).wLogFileCount = 0 ∧
      (addNewSlogFile s false).stLogStatInfo .qwLogSizeInfo = 2 ∧
      (addNewSlogFile s false).m_wCurFpLogFileIndex = SLOG_LOG_FILES_COUNT_MAX := by
  refine ⟨?_, by decide, by decide, by decide⟩
  intro h
  exact absurd h.count (by decide)

end FailedCreate

end XrkMonitor.ServerLog
