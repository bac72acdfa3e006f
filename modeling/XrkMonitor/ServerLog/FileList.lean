import Mathlib.Data.List.Chain
import Mathlib.Data.List.Lex
import Mathlib.Data.List.Sort
import XrkMonitor.Library.Decimal
import XrkMonitor.ServerLog.FileStat

/-!
# The list of log files after a start

A log file is named after the time of its first log. `InitLogFiles` lists the files of
the directory, sorts them by name, and reads their heads one after another; a file that
cannot be opened is taken out of the list while the loop goes on. `listed` is the list
that this leaves and `summed` the heads whose statistics are added.

## Implementation notes

The list in shared memory is a list. An entry has the file that its name stands for; the
time of an entry is read from the name. A directory holds log files only, so the blanks
and the sign that `%u` accepts do not occur in their names, and `scandir` gives the files
in any order. Whether a file can be opened is one input for `"rb"` and `"rb+"`. `fread`
reads a whole head or nothing. The index of the file that is written to is left out, and
so is the record limit of the last file of a list that is kept.
-/

namespace XrkMonitor.ServerLog

open Library

def SEC_USEC : Nat := 1000000
def SLOG_CHECK_BYTES_ORDER_NUM : UInt16 := 1223
def SLOG_FILE_VERSION_MIN : UInt8 := 1
def SLOG_FILE_VERSION_MAX : UInt8 := 2

/-- `sizeof(szAbsFileName)`. -/
def sizeofFileName : Nat := 256

/-- `SLogFileHead`. -/
structure FileHead extends SLogFileHead where
  szCheckDigit : List UInt8
  wCheckByteOrder : UInt16
  qwLogTimeStart : UInt64
  qwLogTimeEnd : UInt64
  bLogFileVersion : UInt8

/-- A head after `memset`. -/
def FileHead.zero : FileHead := ⟨⟨0, 0, fun _ => 0⟩, [], 0, 0, 0, 0⟩

/-- A log file on disk: the time for which it was made, what `fopen` and `fread` give, and the
times of its logs. -/
structure DiskFile where
  qwLogStartTime : UInt64
  fopenOk : Bool
  head : Option FileHead
  logTimes : List UInt64

/-- `SLogFileInfo`, with the file that is named so. -/
structure SLogFileInfo where
  file : DiskFile
  szAbsFileName : List UInt8
  qwLogTimeStart : UInt64
  stFileHead : FileHead

/-- The list in shared memory with the sums in `m_pAppInfo`. -/
structure SLogFileList where
  stFiles : List SLogFileInfo
  stLogStatInfo : TLogStatInfo
  bReadLogStatInfo : Bool

section Names

def DiskFile.dwStartSec (d : DiskFile) : UInt32 := UInt32.ofNat (d.qwLogStartTime.toNat / SEC_USEC)

def DiskFile.dwStartUsec (d : DiskFile) : UInt32 := UInt32.ofNat (d.qwLogStartTime.toNat % SEC_USEC)

/-- The name that `AddNewSlogFile` gives a file. -/
def DiskFile.name (d : DiskFile) : List UInt8 :=
  decimal d.dwStartSec.toNat ++ 95 :: decimal d.dwStartUsec.toNat

/-- `sscanf` with `"%u_%u"`. -/
def scanName (d_name : List UInt8) : Option (Nat × Nat) :=
  match scanDecimal d_name with
  | some (dwStartSec, 95 :: rest) => (scanDecimal rest).map fun p => (dwStartSec, p.1)
  | _ => none

/-- `strcmp` does not find the first text greater. -/
def strcmpLe (a b : List UInt8) : Prop := a.map UInt8.toNat ≤ b.map UInt8.toNat

instance (a b : List UInt8) : Decidable (strcmpLe a b) :=
  inferInstanceAs (Decidable (_ ≤ _))

def logFileCmp (e e' : SLogFileInfo) : Prop := strcmpLe e.szAbsFileName e'.szAbsFileName

instance (e e' : SLogFileInfo) : Decidable (logFileCmp e e') :=
  inferInstanceAs (Decidable (strcmpLe _ _))

def qwtoa (qwVal : UInt64) : List UInt8 := decimal qwVal.toNat

end Names

section Operations

/-- The checks of `ReadLogFileHead` on a head that was read. -/
def headCheck (qwLogTimeStart : UInt64) (h : FileHead) : Bool :=
  decide (h.szCheckDigit = qwtoa qwLogTimeStart) &&
    decide (h.wCheckByteOrder = SLOG_CHECK_BYTES_ORDER_NUM) &&
    decide (SLOG_FILE_VERSION_MIN ≤ h.bLogFileVersion) &&
    decide (h.bLogFileVersion ≤ SLOG_FILE_VERSION_MAX)

/-- `RemoveFileInfo` of entry `e` at index `i`. -/
def removeInfo (s : SLogFileList) (i : Nat) (e : SLogFileInfo) : SLogFileList :=
  { s with
    stFiles := s.stFiles.eraseIdx i
    stLogStatInfo :=
      if s.bReadLogStatInfo then removeStat s.stLogStatInfo e.stFileHead.stLogStatInfo
      else s.stLogStatInfo }

/-- `ReadLogFileHead`, and whether it returns zero. -/
def readLogFileHead (s : SLogFileList) (i : Nat) : SLogFileList × Bool :=
  match s.stFiles[i]? with
  | none => (s, false)
  | some e =>
    if e.file.fopenOk = false then (removeInfo s i e, false)
    else
      match e.file.head with
      | none => (s, false)
      | some h =>
        ({ s with
          stFiles := s.stFiles.set i
            { e with
              stFileHead := h } },
          headCheck e.qwLogTimeStart h)

/-- The statistics of a file are added to the sums. -/
def sumStat (sum st : TLogStatInfo) : TLogStatInfo := fun f => (sum f + st f) % 2 ^ f.width

def addHeadStat (s : SLogFileList) (i : Nat) : SLogFileList :=
  match s.stFiles[i]? with
  | none => s
  | some e =>
    { s with
      stLogStatInfo := sumStat s.stLogStatInfo e.stFileHead.stLogStatInfo }

/-- The loop of `InitLogFiles` over the heads. -/
def readHeads : Nat → Nat → SLogFileList → SLogFileList
  | 0, _, s => s
  | n + 1, i, s =>
    if i < s.stFiles.length then
      match readLogFileHead s i with
      | (s, true) => readHeads n (i + 1) (addHeadStat s i)
      | (s, false) => readHeads n (i + 1) s
    else s

/-- The entry of a file of the directory. -/
def scanEntry (m_szLogFilePath : List UInt8) (d : DiskFile) : Option SLogFileInfo :=
  match scanName d.name with
  | none => none
  | some (dwStartSec, dwStartUsec) =>
    if sizeofFileName - 1 < (m_szLogFilePath ++ d.name).length then none
    else
      some ⟨d, m_szLogFilePath ++ d.name, UInt64.ofNat (dwStartSec * SEC_USEC + dwStartUsec),
        FileHead.zero⟩

/-- The part of `InitLogFiles` that scans the directory. -/
def scanLogFiles (m_szLogFilePath : List UInt8) (namelist : List DiskFile) (s : SLogFileList) :
    SLogFileList :=
  let stFiles :=
    ((namelist.reverse.filterMap (scanEntry m_szLogFilePath)).take
      SLOG_LOG_FILES_COUNT_MAX).insertionSort logFileCmp
  let s :=
    readHeads stFiles.length 0
      { s with
        stFiles := stFiles
        stLogStatInfo := fun _ => 0 }
  { s with
    bReadLogStatInfo := true }

def isAppFileHeadReadAll (s : SLogFileList) : Bool :=
  s.stFiles.all fun e => decide (0 < e.stFileHead.stLogStatInfo .qwLogSizeInfo)

/-- The list in shared memory is complete and is kept. -/
def keepsList (m_iScanAgain : Bool) (s : SLogFileList) : Bool :=
  !m_iScanAgain && !s.stFiles.isEmpty && s.bReadLogStatInfo && isAppFileHeadReadAll s

/-- `InitLogFiles`. -/
def initLogFiles (m_szLogFilePath : List UInt8) (namelist : List DiskFile) (m_iScanAgain : Bool)
    (s : SLogFileList) : SLogFileList :=
  if keepsList m_iScanAgain s then s else scanLogFiles m_szLogFilePath namelist s

end Operations

section Directory

/-- The time that is read from the name of a file. -/
def DiskFile.nameTime (d : DiskFile) : UInt64 :=
  UInt64.ofNat (d.dwStartSec.toNat * SEC_USEC + d.dwStartUsec.toNat)

/-- `ReadLogFileHead` succeeds for a file. -/
def DiskFile.readable (d : DiskFile) : Bool := d.fopenOk && d.head.any (headCheck d.nameTime)

/-- A head as `AddNewSlogFile` and `WriteLogRecord` leave it in a file. -/
structure HeadKept (d : DiskFile) (h : FileHead) : Prop where
  checkDigit : h.szCheckDigit = qwtoa d.qwLogStartTime
  ok : HeadOk h.toSLogFileHead
  timeStart : ∀ t ∈ d.logTimes, h.qwLogTimeStart ≤ t
  timeEnd : ∀ t ∈ d.logTimes, t ≤ h.qwLogTimeEnd

/-- The log files of an app in the order in which they were made, and what `scandir` gives. A
head that can be read was not damaged. -/
structure LogDir where
  m_szLogFilePath : List UInt8
  files : List DiskFile
  namelist : List DiskFile
  perm : namelist.Perm files
  increasing : files.Pairwise fun d d' => d.qwLogStartTime < d'.qwLogStartTime
  names : (files.map DiskFile.name).Nodup
  length_le : files.length ≤ SLOG_LOG_FILES_COUNT_MAX
  path_le : m_szLogFilePath.length + 17 < sizeofFileName
  kept : ∀ d ∈ files, d.readable = true → ∀ h ∈ d.head, HeadKept d h

/-- The entry that a file gets before its head is read. -/
def newEntry (m_szLogFilePath : List UInt8) (d : DiskFile) : SLogFileInfo :=
  ⟨d, m_szLogFilePath ++ d.name, d.nameTime, FileHead.zero⟩

def nameLe (m_szLogFilePath : List UInt8) (d d' : DiskFile) : Prop :=
  strcmpLe (m_szLogFilePath ++ d.name) (m_szLogFilePath ++ d'.name)

instance (m_szLogFilePath : List UInt8) (d d' : DiskFile) : Decidable (nameLe m_szLogFilePath d d') :=
  inferInstanceAs (Decidable (strcmpLe _ _))

/-- The files in the order of their names. -/
def LogDir.byName (dir : LogDir) : List DiskFile :=
  dir.files.insertionSort (nameLe dir.m_szLogFilePath)

end Directory

section Sorted

variable {m_szLogFilePath : List UInt8} {a b c : List UInt8}

theorem strcmpLe_antisymm (hab : strcmpLe a b) (hba : strcmpLe b a) : a = b :=
  List.map_injective_iff.mpr (fun _ _ => UInt8.toNat_inj.mp) (le_antisymm hab hba)

instance : Std.Total (nameLe m_szLogFilePath) := ⟨fun _ _ => le_total (α := List Nat) _ _⟩

instance : IsTrans DiskFile (nameLe m_szLogFilePath) := ⟨fun _ _ _ => le_trans (α := List Nat)⟩

theorem scanName_name (d : DiskFile) :
    scanName d.name = some (d.dwStartSec.toNat, d.dwStartUsec.toNat) := by
  have hsec : scanDecimal d.name = some (d.dwStartSec.toNat, 95 :: decimal d.dwStartUsec.toNat) := by
    apply scanDecimal_decimal
    intro b hb
    obtain rfl : 95 = b := by simpa using hb
    rfl
  have husec : scanDecimal (decimal d.dwStartUsec.toNat) = some (d.dwStartUsec.toNat, []) := by
    have h : scanDecimal (decimal d.dwStartUsec.toNat ++ []) = some (d.dwStartUsec.toNat, []) :=
      scanDecimal_decimal d.dwStartUsec.toNat (by simp)
    rwa [List.append_nil] at h
  rw [scanName, hsec]
  simp only [husec, Option.map_some]

theorem length_name_le (d : DiskFile) : d.name.length ≤ 17 := by
  have hsec : (decimal d.dwStartSec.toNat).length ≤ 10 :=
    length_decimal_le (by decide) (d.dwStartSec.toNat_lt.trans (by decide))
  have husec : (decimal d.dwStartUsec.toNat).length ≤ 6 := by
    apply length_decimal_le (by decide)
    have hlt : d.qwLogStartTime.toNat % SEC_USEC < SEC_USEC := Nat.mod_lt _ (by decide)
    have hmod : d.dwStartUsec.toNat ≤ d.qwLogStartTime.toNat % SEC_USEC := by
      rw [DiskFile.dwStartUsec, UInt32.toNat_ofNat']
      exact Nat.mod_le _ _
    exact hmod.trans_lt hlt
  rw [DiskFile.name, List.length_append, List.length_cons]
  omega

theorem scanEntry_eq (hpath : m_szLogFilePath.length + 17 < sizeofFileName) (d : DiskFile) :
    scanEntry m_szLogFilePath d = some (newEntry m_szLogFilePath d) := by
  have hlen := length_name_le d
  have hfits : ¬ sizeofFileName - 1 < (m_szLogFilePath ++ d.name).length := by
    rw [List.length_append]
    omega
  rw [scanEntry, scanName_name]
  simp only [if_neg hfits]
  rfl

variable (dir : LogDir)

theorem LogDir.perm_byName : dir.byName.Perm dir.files :=
  List.perm_insertionSort _ dir.files

theorem LogDir.sorted_eq :
    ((dir.namelist.reverse.filterMap (scanEntry dir.m_szLogFilePath)).take
      SLOG_LOG_FILES_COUNT_MAX).insertionSort logFileCmp =
      dir.byName.map (newEntry dir.m_szLogFilePath) := by
  have hentries : dir.namelist.reverse.filterMap (scanEntry dir.m_szLogFilePath) =
      dir.namelist.reverse.map (newEntry dir.m_szLogFilePath) := by
    rw [← List.filterMap_eq_map]
    exact List.filterMap_congr fun d _ => scanEntry_eq dir.path_le d
  have hperm : dir.namelist.reverse.Perm dir.files := (List.reverse_perm _).trans dir.perm
  have hlen : (dir.namelist.reverse.map (newEntry dir.m_szLogFilePath)).length ≤
      SLOG_LOG_FILES_COUNT_MAX := by
    rw [List.length_map, hperm.length_eq]
    exact dir.length_le
  have hsort : dir.namelist.reverse.insertionSort (nameLe dir.m_szLogFilePath) = dir.byName := by
    refine List.Perm.eq_of_pairwise ?_ (List.pairwise_insertionSort _ _)
      (List.pairwise_insertionSort _ _)
      (((List.perm_insertionSort _ _).trans hperm).trans dir.perm_byName.symm)
    intro d d' hd hd' hle hle'
    have hname : d.name = d'.name := List.append_cancel_left (strcmpLe_antisymm hle hle')
    have hmem : d ∈ dir.files := hperm.mem_iff.mp ((List.mem_insertionSort _).mp hd)
    have hmem' : d' ∈ dir.files := (List.mem_insertionSort _).mp hd'
    exact List.inj_on_of_nodup_map dir.names hmem hmem' hname
  rw [hentries, List.take_of_length_le hlen, ← hsort]
  exact (List.map_insertionSort (nameLe dir.m_szLogFilePath) logFileCmp
    (newEntry dir.m_szLogFilePath) _ fun _ _ _ _ => Iff.rfl).symm

end Sorted

section Loop

/-- The entry of a file after its head was read. -/
def readEntry (m_szLogFilePath : List UInt8) (d : DiskFile) : SLogFileInfo :=
  { newEntry m_szLogFilePath d with
    stFileHead := d.head.getD FileHead.zero }

/-- What the loop over the heads leaves of the files that it has not reached; `skip` says that a
file was removed, so that the next one takes its place and is not looked at. -/
def listed (m_szLogFilePath : List UInt8) : Bool → List DiskFile → List SLogFileInfo
  | _, [] => []
  | true, d :: ds => newEntry m_szLogFilePath d :: listed m_szLogFilePath false ds
  | false, d :: ds =>
    if d.fopenOk then readEntry m_szLogFilePath d :: listed m_szLogFilePath false ds
    else listed m_szLogFilePath true ds

/-- The files whose statistics the loop adds. -/
def summed : Bool → List DiskFile → List DiskFile
  | _, [] => []
  | true, _ :: ds => summed false ds
  | false, d :: ds =>
    if d.fopenOk then
      if d.readable then d :: summed false ds else summed false ds
    else summed true ds

/-- The statistics in the head of a file. -/
def DiskFile.stat (d : DiskFile) : SLogFileHead := (d.head.getD FileHead.zero).toSLogFileHead

/-- The sums after the statistics of some files were added. -/
def addStats (sum : TLogStatInfo) (ds : List DiskFile) : TLogStatInfo :=
  ds.foldl (fun sum d => sumStat sum d.stat.stLogStatInfo) sum

variable {m_szLogFilePath : List UInt8} {s : SLogFileList} {d : DiskFile}
  {done es : List SLogFileInfo} {ds : List DiskFile} {n : Nat}

theorem removeStat_zero (sum : TLogStatInfo) : removeStat sum (fun _ => 0) = sum := by
  funext f
  cases f <;> simp [removeStat, checkLogStatInfo]

theorem getElem?_done (hs : s.stFiles = done ++ newEntry m_szLogFilePath d :: es) :
    s.stFiles[done.length]? = some (newEntry m_szLogFilePath d) := by
  rw [hs, List.getElem?_append_right le_rfl, Nat.sub_self, List.getElem?_cons_zero]

theorem lt_length_done (hs : s.stFiles = done ++ newEntry m_szLogFilePath d :: es) :
    done.length < s.stFiles.length := by
  rw [hs, List.length_append, List.length_cons]
  omega

theorem readHeads_removed (hs : s.stFiles = done ++ newEntry m_szLogFilePath d :: es)
    (hopen : d.fopenOk = false) (n : Nat) :
    readHeads (n + 1) done.length s =
      readHeads n (done.length + 1) ⟨done ++ es, s.stLogStatInfo, s.bReadLogStatInfo⟩ := by
  have herase : s.stFiles.eraseIdx done.length = done ++ es := by
    rw [hs, List.eraseIdx_append_of_length_le le_rfl, Nat.sub_self, List.eraseIdx_cons_zero]
  have hsame : removeStat s.stLogStatInfo (newEntry m_szLogFilePath d).stFileHead.stLogStatInfo =
      s.stLogStatInfo := removeStat_zero s.stLogStatInfo
  have hfile : (newEntry m_szLogFilePath d).file.fopenOk = false := hopen
  have hread : readLogFileHead s done.length =
      (⟨done ++ es, s.stLogStatInfo, s.bReadLogStatInfo⟩, false) := by
    simp only [readLogFileHead, getElem?_done hs]
    rw [if_pos hfile, removeInfo, herase, hsame, ite_self]
  rw [readHeads, if_pos (lt_length_done hs), hread]

theorem readLogFileHead_kept (hs : s.stFiles = done ++ newEntry m_szLogFilePath d :: es)
    (hopen : d.fopenOk = true) :
    readLogFileHead s done.length =
      (⟨done ++ readEntry m_szLogFilePath d :: es, s.stLogStatInfo, s.bReadLogStatInfo⟩,
        d.readable) := by
  have hset (e : SLogFileInfo) : s.stFiles.set done.length e = done ++ e :: es := by
    rw [hs, List.set_append_right _ _ le_rfl, Nat.sub_self, List.set_cons_zero]
  have hfile : ¬ (newEntry m_szLogFilePath d).file.fopenOk = false := by
    simpa [newEntry] using hopen
  simp only [readLogFileHead, getElem?_done hs]
  rw [if_neg hfile, DiskFile.readable, hopen, Bool.true_and]
  cases hhead : d.head with
  | none =>
    have hsame : readEntry m_szLogFilePath d = newEntry m_szLogFilePath d := by
      rw [readEntry, hhead, Option.getD_none]
      rfl
    simp only [newEntry, hhead, Option.any_none]
    rw [hsame, ← hs]
  | some h =>
    simp only [newEntry, hhead, hset, Option.any_some]
    rw [readEntry, hhead]
    rfl

theorem readHeads_kept (hs : s.stFiles = done ++ newEntry m_szLogFilePath d :: es)
    (hopen : d.fopenOk = true) (n : Nat) :
    readHeads (n + 1) done.length s =
      readHeads n (done.length + 1) ⟨done ++ readEntry m_szLogFilePath d :: es,
        if d.readable then sumStat s.stLogStatInfo d.stat.stLogStatInfo else s.stLogStatInfo,
        s.bReadLogStatInfo⟩ := by
  rw [readHeads, if_pos (lt_length_done hs), readLogFileHead_kept hs hopen]
  cases hread : d.readable with
  | true =>
    have hget : (done ++ readEntry m_szLogFilePath d :: es)[done.length]? =
        some (readEntry m_szLogFilePath d) := by
      rw [List.getElem?_append_right le_rfl, Nat.sub_self, List.getElem?_cons_zero]
    simp only [addHeadStat, hget]
    rfl
  | false => rfl

/-- The loop over the heads, from where the files before were looked at. -/
theorem readHeads_eq (ds : List DiskFile) (skip : Bool) (n : Nat) (done : List SLogFileInfo)
    (s : SLogFileList) (hs : s.stFiles = done ++ ds.map (newEntry m_szLogFilePath))
    (hn : ds.length ≤ n + skip.toNat) :
    readHeads n (done.length + skip.toNat) s =
      ⟨done ++ listed m_szLogFilePath skip ds, addStats s.stLogStatInfo (summed skip ds),
        s.bReadLogStatInfo⟩ := by
  induction ds generalizing skip n done s with
  | nil =>
    have hend : ¬ done.length + skip.toNat < s.stFiles.length := by
      rw [hs, List.map_nil, List.append_nil]
      omega
    have hstay : readHeads n (done.length + skip.toNat) s = s := by
      cases n with
      | zero => rfl
      | succ n => rw [readHeads, if_neg hend]
    rw [hstay, listed, summed, ← List.map_nil (f := newEntry m_szLogFilePath), ← hs]
    rfl
  | cons d ds ih =>
    have hcons (e : SLogFileInfo) (es : List SLogFileInfo) : (done ++ [e]) ++ es = done ++ e :: es := by
      rw [List.append_assoc, List.singleton_append]
    rw [List.map_cons] at hs
    cases skip with
    | true =>
      have h := ih false n (done ++ [newEntry m_szLogFilePath d]) s (hs.trans (hcons _ _).symm)
        (by simpa using hn)
      rw [List.length_append, List.length_singleton, hcons] at h
      exact h
    | false =>
      simp only [List.length_cons, Bool.toNat_false, Nat.add_zero] at hn ⊢
      obtain ⟨m, rfl⟩ : ∃ m, n = m + 1 := ⟨n - 1, by omega⟩
      have hm : ds.length ≤ m := Nat.le_of_succ_le_succ hn
      cases hopen : d.fopenOk with
      | true =>
        have h := ih false m (done ++ [readEntry m_szLogFilePath d]) ⟨_,
          if d.readable then sumStat s.stLogStatInfo d.stat.stLogStatInfo
          else s.stLogStatInfo, s.bReadLogStatInfo⟩ (hcons _ _).symm hm
        rw [List.length_append, List.length_singleton, hcons] at h
        rw [readHeads_kept hs hopen, listed, summed, if_pos hopen, if_pos hopen]
        refine h.trans ?_
        cases d.readable with
        | true => rfl
        | false => rfl
      | false =>
        have hclosed : ¬ d.fopenOk = true := by simp [hopen]
        rw [readHeads_removed hs hopen, listed, summed, if_neg hclosed, if_neg hclosed]
        exact ih true m done ⟨_, s.stLogStatInfo, s.bReadLogStatInfo⟩ rfl (by omega)

end Loop

section Listed

/-- The files that take the place of a removed one; their heads are not read. -/
def missed : Bool → List DiskFile → List DiskFile
  | _, [] => []
  | true, d :: ds => d :: missed false ds
  | false, d :: ds => if d.fopenOk then missed false ds else missed true ds

/-- A file has no logs in its statistics. -/
def NoStat (d : DiskFile) : Prop := ∀ f, d.stat.stLogStatInfo f = 0

/-- Behind a file that cannot be opened stands one that can be read and has no logs. -/
def Followed (d d' : DiskFile) : Prop := d.fopenOk = false → d'.readable = true ∧ NoStat d'

variable {m_szLogFilePath : List UInt8} {d : DiskFile} {e : SLogFileInfo} {skip : Bool}

theorem fopenOk_of_readable (h : d.readable = true) : d.fopenOk = true := by
  rw [DiskFile.readable, Bool.and_eq_true] at h
  exact h.1

theorem listed_start (ds : List DiskFile) (skip : Bool) (he : e ∈ listed m_szLogFilePath skip ds) :
    e.qwLogTimeStart = e.file.nameTime := by
  induction ds generalizing skip with
  | nil => simp [listed] at he
  | cons d ds ih =>
    cases skip with
    | true =>
      rw [listed, List.mem_cons] at he
      obtain rfl | he := he
      · rfl
      · exact ih false he
    | false =>
      rw [listed] at he
      split at he
      · obtain rfl | he := List.mem_cons.mp he
        · rfl
        · exact ih false he
      · exact ih true he

theorem listed_sublist (ds : List DiskFile) (skip : Bool) :
    ((listed m_szLogFilePath skip ds).map SLogFileInfo.file).Sublist ds := by
  induction ds generalizing skip with
  | nil => exact List.Sublist.refl _
  | cons d ds ih =>
    cases skip with
    | true => exact (ih false).cons_cons d
    | false =>
      rw [listed]
      split
      · exact (ih false).cons_cons d
      · exact (ih true).cons d

theorem listed_head (ds : List DiskFile) (skip : Bool) (he : e ∈ listed m_szLogFilePath skip ds) :
    e.stFileHead = FileHead.zero ∨ e.stFileHead = e.file.head.getD FileHead.zero := by
  induction ds generalizing skip with
  | nil => simp [listed] at he
  | cons d ds ih =>
    cases skip with
    | true =>
      rw [listed, List.mem_cons] at he
      obtain rfl | he := he
      · exact Or.inl rfl
      · exact ih false he
    | false =>
      rw [listed] at he
      split at he
      · obtain rfl | he := List.mem_cons.mp he
        · exact Or.inr rfl
        · exact ih false he
      · exact ih true he

/-- When the files in the list are readable and the missed ones have no logs. -/
theorem listed_iff (ds : List DiskFile) (skip : Bool) :
    (∀ e ∈ listed m_szLogFilePath skip ds, e.file.readable = true) ∧
        (∀ d ∈ missed skip ds, NoStat d) ↔
      (∀ d ∈ ds, d.fopenOk = true → d.readable = true) ∧
        (skip = true → ∀ d ∈ ds.head?, d.readable = true ∧ NoStat d) ∧ ds.IsChain Followed := by
  induction ds generalizing skip with
  | nil => simp [listed, missed]
  | cons d ds ih =>
    have hfree (hopen : d.fopenOk = true) : ∀ d' ∈ ds.head?, Followed d d' := by
      intro d' _ hclosed
      simp [hopen] at hclosed
    rw [List.isChain_cons, List.forall_mem_cons]
    cases skip with
    | true =>
      have hih := ih false
      simp only [listed, missed, List.forall_mem_cons, List.head?_cons, Option.mem_some_iff,
        forall_eq', forall_const]
      constructor
      · rintro ⟨⟨hread, hlisted⟩, hstat, hmissed⟩
        obtain ⟨hopened, -, hchain⟩ := hih.mp ⟨hlisted, hmissed⟩
        exact ⟨⟨fun _ => hread, hopened⟩, ⟨hread, hstat⟩,
          hfree (fopenOk_of_readable hread), hchain⟩
      · rintro ⟨⟨-, hopened⟩, ⟨hread, hstat⟩, -, hchain⟩
        obtain ⟨hlisted, hmissed⟩ := hih.mpr ⟨hopened, nofun, hchain⟩
        exact ⟨⟨hread, hlisted⟩, hstat, hmissed⟩
    | false =>
      cases hopen : d.fopenOk with
      | true =>
        have hih := ih false
        simp only [listed, missed, hopen, if_true, List.forall_mem_cons]
        constructor
        · rintro ⟨⟨hread, hlisted⟩, hmissed⟩
          obtain ⟨hopened, -, hchain⟩ := hih.mp ⟨hlisted, hmissed⟩
          exact ⟨⟨fun _ => hread, hopened⟩, nofun, hfree hopen, hchain⟩
        · rintro ⟨⟨hread, hopened⟩, -, -, hchain⟩
          obtain ⟨hlisted, hmissed⟩ := hih.mpr ⟨hopened, nofun, hchain⟩
          exact ⟨⟨hread trivial, hlisted⟩, hmissed⟩
      | false =>
        have hih := ih true
        simp only [listed, missed, hopen, Bool.false_eq_true, if_false]
        constructor
        · intro h
          obtain ⟨hopened, hhead, hchain⟩ := hih.mp h
          exact ⟨⟨nofun, hopened⟩, nofun, fun d' hd' _ => hhead rfl d' hd', hchain⟩
        · rintro ⟨⟨-, hopened⟩, -, hhead, hchain⟩
          exact hih.mpr ⟨hopened, fun _ d' hd' => hhead d' hd' hopen, hchain⟩

theorem listed_files (ds : List DiskFile) (skip : Bool)
    (h : ∀ e ∈ listed m_szLogFilePath skip ds, e.file.readable = true) :
    (listed m_szLogFilePath skip ds).map SLogFileInfo.file = ds.filter DiskFile.readable := by
  induction ds generalizing skip with
  | nil => rfl
  | cons d ds ih =>
    cases skip with
    | true =>
      rw [listed, List.forall_mem_cons] at h
      have hread : d.readable = true := h.1
      rw [listed, List.map_cons, ih false h.2, List.filter_cons_of_pos hread]
      rfl
    | false =>
      cases hopen : d.fopenOk with
      | true =>
        rw [listed, if_pos hopen, List.forall_mem_cons] at h
        have hread : d.readable = true := h.1
        rw [listed, if_pos hopen, List.map_cons, ih false h.2, List.filter_cons_of_pos hread]
        rfl
      | false =>
        have hclosed : ¬ d.fopenOk = true := by simp [hopen]
        rw [listed, if_neg hclosed] at h
        rw [listed, if_neg hclosed, ih true h,
          List.filter_cons_of_neg fun hread => hclosed (fopenOk_of_readable hread)]

theorem summed_sublist (ds : List DiskFile) (skip : Bool) :
    (summed skip ds).Sublist (ds.filter DiskFile.readable) := by
  induction ds generalizing skip with
  | nil => exact List.Sublist.refl _
  | cons d ds ih =>
    have htail (skip : Bool) : (summed skip ds).Sublist ((d :: ds).filter DiskFile.readable) :=
      (ih skip).trans ((List.sublist_cons_self d ds).filter _)
    cases skip with
    | true => exact htail false
    | false =>
      rw [summed]
      split
      · split
        · rename_i hread
          rw [List.filter_cons_of_pos hread]
          exact (ih false).cons_cons d
        · exact htail false
      · exact htail true

theorem summed_missed (ds : List DiskFile) (skip : Bool)
    (h : ∀ e ∈ listed m_szLogFilePath skip ds, e.file.readable = true) (f : StatField) :
    statSum ((summed skip ds).map DiskFile.stat) f + statSum ((missed skip ds).map DiskFile.stat) f =
      statSum ((ds.filter DiskFile.readable).map DiskFile.stat) f := by
  induction ds generalizing skip with
  | nil => rfl
  | cons d ds ih =>
    have hcons (ds : List DiskFile) : statSum ((d :: ds).map DiskFile.stat) f =
        d.stat.stLogStatInfo f + statSum (ds.map DiskFile.stat) f := by
      simp only [statSum, List.map_cons, List.sum_cons]
    cases skip with
    | true =>
      rw [listed, List.forall_mem_cons] at h
      have hread : d.readable = true := h.1
      rw [summed, missed, List.filter_cons_of_pos hread, hcons, hcons, ← ih false h.2]
      omega
    | false =>
      cases hopen : d.fopenOk with
      | true =>
        rw [listed, if_pos hopen, List.forall_mem_cons] at h
        have hread : d.readable = true := h.1
        rw [summed, missed, if_pos hopen, if_pos hopen, if_pos hread,
          List.filter_cons_of_pos hread, hcons, hcons, ← ih false h.2]
        omega
      | false =>
        have hclosed : ¬ d.fopenOk = true := by simp [hopen]
        rw [listed, if_neg hclosed] at h
        rw [summed, missed, if_neg hclosed, if_neg hclosed, ih true h,
          List.filter_cons_of_neg fun hread => hclosed (fopenOk_of_readable hread)]

end Listed

section Scan

variable {d : DiskFile} {sum : TLogStatInfo} {f : StatField} (dir : LogDir)

theorem addStats_apply (ds : List DiskFile)
    (h : sum f + statSum (ds.map DiskFile.stat) f < 2 ^ f.width) :
    addStats sum ds f = sum f + statSum (ds.map DiskFile.stat) f := by
  induction ds generalizing sum with
  | nil => rfl
  | cons d ds ih =>
    have hcons : statSum ((d :: ds).map DiskFile.stat) f =
        d.stat.stLogStatInfo f + statSum (ds.map DiskFile.stat) f := by
      simp only [statSum, List.map_cons, List.sum_cons]
    have hstep : sumStat sum d.stat.stLogStatInfo f = sum f + d.stat.stLogStatInfo f :=
      Nat.mod_eq_of_lt (by omega)
    calc
      addStats sum (d :: ds) f = addStats (sumStat sum d.stat.stLogStatInfo) ds f := rfl
      _ = sumStat sum d.stat.stLogStatInfo f + statSum (ds.map DiskFile.stat) f :=
        ih (by omega)
      _ = sum f + statSum ((d :: ds).map DiskFile.stat) f := by omega

theorem LogDir.head_of_readable (hd : d ∈ dir.files) (hread : d.readable = true) :
    ∃ h, d.head = some h ∧ headCheck d.nameTime h = true ∧ HeadKept d h := by
  have hparts := hread
  rw [DiskFile.readable, Bool.and_eq_true, Option.any_eq_true] at hparts
  obtain ⟨-, h, hhead, hcheck⟩ := hparts
  exact ⟨h, hhead, hcheck, dir.kept d hd hread h hhead⟩

theorem LogDir.nameTime_eq (hd : d ∈ dir.files) (hread : d.readable = true) :
    d.nameTime = d.qwLogStartTime := by
  obtain ⟨h, -, hcheck, hkept⟩ := dir.head_of_readable hd hread
  have hdigit : h.szCheckDigit = qwtoa d.nameTime := by
    simp only [headCheck, Bool.and_eq_true, decide_eq_true_iff] at hcheck
    exact hcheck.1.1.1
  have hsame : qwtoa d.nameTime = qwtoa d.qwLogStartTime := hdigit.symm.trans hkept.checkDigit
  exact UInt64.toNat_inj.mp (decimal_injective hsame)

theorem LogDir.statSum_summed_lt (f : StatField) :
    statSum ((summed false dir.byName).map DiskFile.stat) f < 2 ^ f.width := by
  have hsub := summed_sublist dir.byName false
  apply statSum_lt
  · rw [List.length_map]
    calc
      (summed false dir.byName).length ≤ (dir.byName.filter DiskFile.readable).length :=
        hsub.length_le
      _ ≤ dir.byName.length := List.length_filter_le _ _
      _ = dir.files.length := dir.perm_byName.length_eq
      _ ≤ SLOG_LOG_FILES_COUNT_MAX := dir.length_le
  · intro head hhead
    obtain ⟨d, hd, rfl⟩ := List.mem_map.mp hhead
    obtain ⟨hmem, hread⟩ := List.mem_filter.mp (hsub.subset hd)
    obtain ⟨h, hsome, -, hkept⟩ := dir.head_of_readable (dir.perm_byName.mem_iff.mp hmem) hread
    rw [DiskFile.stat, hsome, Option.getD_some]
    exact hkept.ok

theorem LogDir.scanLogFiles_eq (s : SLogFileList) :
    scanLogFiles dir.m_szLogFilePath dir.namelist s =
      ⟨listed dir.m_szLogFilePath false dir.byName,
        statSum ((summed false dir.byName).map DiskFile.stat), true⟩ := by
  have hread := readHeads_eq dir.byName false
    (dir.byName.map (newEntry dir.m_szLogFilePath)).length []
    ⟨dir.byName.map (newEntry dir.m_szLogFilePath), fun _ => 0, s.bReadLogStatInfo⟩ rfl
    (by rw [List.length_map]; exact le_rfl)
  have hsums : addStats (fun _ => 0) (summed false dir.byName) =
      statSum ((summed false dir.byName).map DiskFile.stat) := by
    funext f
    have hlt := dir.statSum_summed_lt f
    rw [addStats_apply _ (by rwa [Nat.zero_add]), Nat.zero_add]
  simp only [scanLogFiles, dir.sorted_eq]
  rw [← hsums]
  exact congrArg (fun s : SLogFileList => SLogFileList.mk s.stFiles s.stLogStatInfo true) hread

end Scan

end XrkMonitor.ServerLog
