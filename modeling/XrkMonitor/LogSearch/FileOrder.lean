import XrkMonitor.LogSearch.Search
import XrkMonitor.ServerLog.FileList

/-!
# The order of the log files

`HistoryLog` goes through the list of log files in order, from the first file that does not
end early to the first one that begins late. `InitLogFiles` makes that list, in the order of
the file names. `InitRight` says that the list has the readable files in the order of their
times, that the sums are those over these files, and that a search for a time selects every
file with a log of that time; `OrderCond` says for which directories this holds.

## Implementation notes

`selectListed` is the loop of `HistoryLog` with the heads that it reads itself; where these can
be read it is `selectFiles`.
-/

namespace XrkMonitor.LogSearch

open Library ServerLog

section Select

/-- What the loop over the files gets as the head of an entry. -/
inductive HeadRead
  | fopenFailed
  | freadFailed
  | read (h : FileHead)

/-- The head of an entry that counts no log is read from the file. -/
def headOf (e : SLogFileInfo) : HeadRead :=
  if e.stFileHead.iLogRecordsWrite = 0 then
    if e.file.fopenOk = false then .fopenFailed
    else
      match e.file.head with
      | none => .freadFailed
      | some h => .read h
  else .read e.stFileHead

/-- The loop that chooses the files: the first one, and how many. -/
def selectListed (s : CSLogSearch) : List SLogFileInfo → Nat → Nat → Nat → Nat × Nat
  | [], _, star, count => (star, count)
  | e :: es, i, star, count =>
    match headOf e with
    | .fopenFailed => (star, count)
    | .freadFailed => selectListed s es (i + 1) star count
    | .read h =>
      if s.m_strLogFile ≠ [] then
        if strstr e.szAbsFileName s.m_strLogFile then (i, 1)
        else selectListed s es (i + 1) star count
      else if SLOG_LOG_FILES_COUNT_MAX ≤ star ∧ h.qwLogTimeEnd < s.m_qwTimeStart then
        selectListed s es (i + 1) star count
      else
        let star := if SLOG_LOG_FILES_COUNT_MAX ≤ star then i else star
        if s.m_qwTimeEnd < h.qwLogTimeStart then (star, count)
        else selectListed s es (i + 1) star (count + 1)

/-- The head that stands in the file of an entry. -/
def fileHead (e : SLogFileInfo) : FileHead := e.file.head.getD FileHead.zero

/-- An entry with the head of its file; the choice of the files does not read the logs. -/
def searched (e : SLogFileInfo) : LogFile where
  szAbsFileName := e.szAbsFileName
  qwLogTimeStart := (fileHead e).qwLogTimeStart
  qwLogTimeEnd := (fileHead e).qwLogTimeEnd
  iLogRecordsWrite := (fileHead e).iLogRecordsWrite
  mem := fun _ => 0
  size := 0

variable {s : CSLogSearch} {f : LogFile} {j star : Nat}

theorem selectListed_eq (es : List SLogFileInfo) (h : ∀ e ∈ es, headOf e = .read (fileHead e))
    (i star count : Nat) :
    selectListed s es i star count = selectFiles s (es.map searched) i star count := by
  induction es generalizing i star count with
  | nil => rfl
  | cons e es ih =>
    rw [List.forall_mem_cons] at h
    simp only [List.map_cons, selectListed, selectFiles, h.1, ih h.2]
    rfl

theorem selectFiles_later (hname : s.m_strLogFile = []) (hstar : star < SLOG_LOG_FILES_COUNT_MAX)
    (f : LogFile) (files : List LogFile) (i count : Nat) :
    selectFiles s (f :: files) i star count =
      if s.m_qwTimeEnd < f.qwLogTimeStart then (star, count)
      else selectFiles s files (i + 1) star (count + 1) := by
  have hge : ¬ SLOG_LOG_FILES_COUNT_MAX ≤ star := Nat.not_le.mpr hstar
  simp only [selectFiles, hname, ne_eq, not_true, reduceIte, hge, false_and]

theorem selectFiles_count_le (hname : s.m_strLogFile = [])
    (hstar : star < SLOG_LOG_FILES_COUNT_MAX) (files : List LogFile) (i count : Nat) :
    ∃ n, selectFiles s files i star count = (star, n) ∧ count ≤ n := by
  induction files generalizing i count with
  | nil => exact ⟨count, rfl, le_rfl⟩
  | cons f files ih =>
    rw [selectFiles_later hname hstar]
    split
    · exact ⟨count, rfl, le_rfl⟩
    · obtain ⟨n, hn, hle⟩ := ih (i + 1) (count + 1)
      exact ⟨n, hn, Nat.le_of_succ_le hle⟩

theorem selectFiles_reaches (hname : s.m_strLogFile = []) (hstar : star < SLOG_LOG_FILES_COUNT_MAX)
    (files : List LogFile) (i j count : Nat) (hj : j < files.length)
    (hbegin : ∀ f ∈ files.take (j + 1), ¬ s.m_qwTimeEnd < f.qwLogTimeStart) :
    ∃ n, selectFiles s files i star count = (star, n) ∧ count + j < n := by
  induction files generalizing i j count with
  | nil => simp at hj
  | cons f files ih =>
    rw [List.take_succ_cons, List.forall_mem_cons] at hbegin
    rw [selectFiles_later hname hstar, if_neg hbegin.1]
    cases j with
    | zero => exact selectFiles_count_le hname hstar files (i + 1) (count + 1)
    | succ j =>
      obtain ⟨n, hn, hlt⟩ := ih (i + 1) j (count + 1) (Nat.lt_of_succ_lt_succ hj) hbegin.2
      exact ⟨n, hn, by omega⟩

theorem selectFiles_stops (hname : s.m_strLogFile = []) (hstar : star < SLOG_LOG_FILES_COUNT_MAX)
    (files : List LogFile) (i j count : Nat) (hf : files[j]? = some f)
    (hlate : s.m_qwTimeEnd < f.qwLogTimeStart) :
    ∃ n, selectFiles s files i star count = (star, n) ∧ n ≤ count + j := by
  induction files generalizing i j count with
  | nil => simp at hf
  | cons g files ih =>
    rw [selectFiles_later hname hstar]
    split
    · exact ⟨count, rfl, Nat.le_add_right count j⟩
    · rename_i hbegin
      cases j with
      | zero =>
        obtain rfl : g = f := by simpa using hf
        exact absurd hlate hbegin
      | succ j =>
        obtain ⟨n, hn, hle⟩ := ih (i + 1) j (count + 1) (by simpa using hf)
        exact ⟨n, hn, by omega⟩

theorem selectFiles_covers (hname : s.m_strLogFile = []) (files : List LogFile) (i j : Nat)
    (hlen : i + files.length ≤ SLOG_LOG_FILES_COUNT_MAX) (hf : files[j]? = some f)
    (hend : ¬ f.qwLogTimeEnd < s.m_qwTimeStart)
    (hbegin : ∀ f ∈ files.take (j + 1), ¬ s.m_qwTimeEnd < f.qwLogTimeStart) :
    ∃ star n, selectFiles s files i SLOG_LOG_FILES_COUNT_MAX 0 = (star, n) ∧
      star ≤ i + j ∧ i + j < star + n := by
  induction files generalizing i j with
  | nil => simp at hf
  | cons g files ih =>
    rw [List.length_cons] at hlen
    have hall := hbegin
    rw [List.take_succ_cons, List.forall_mem_cons] at hbegin
    by_cases hearly : g.qwLogTimeEnd < s.m_qwTimeStart
    · cases j with
      | zero =>
        obtain rfl : g = f := by simpa using hf
        exact absurd hearly hend
      | succ j =>
        obtain ⟨star, n, hn, hle, hlt⟩ := ih (i + 1) j (by omega) (by simpa using hf) hbegin.2
        refine ⟨star, n, ?_, by omega, by omega⟩
        simp only [selectFiles, hname, ne_eq, not_true, reduceIte, le_refl, hearly, and_self]
        exact hn
    · have hi : i < SLOG_LOG_FILES_COUNT_MAX := by omega
      have hj : j < (g :: files).length := (List.getElem?_eq_some_iff.mp hf).1
      obtain ⟨n, hn, hlt⟩ := selectFiles_reaches hname hi (g :: files) i j 0 hj hall
      refine ⟨i, n, ?_, Nat.le_add_right i j, by omega⟩
      rw [selectFiles_later hname hi, if_neg hbegin.1] at hn
      simp only [selectFiles, hname, ne_eq, not_true, reduceIte, le_refl, hearly, and_false,
        hbegin.1]
      exact hn

end Select

section Time

/-- File `j` of the list is among those that a search chooses. -/
def Selects (search : CSLogSearch) (es : List SLogFileInfo) (j : Nat) : Prop :=
  let (star, count) := selectListed search es 0 SLOG_LOG_FILES_COUNT_MAX 0
  star ≤ j ∧ j < star + count

/-- A search for a time selects every file with a log of that time. -/
def SelectsTimes (es : List SLogFileInfo) : Prop :=
  ∀ search : CSLogSearch, search.m_strLogFile = [] → ∀ j e, es[j]? = some e →
    ∀ t ∈ e.file.logTimes, search.m_qwTimeStart ≤ t → t ≤ search.m_qwTimeEnd → Selects search es j

/-- The search for all logs up to a time. -/
def searchUpTo (qwTimeEnd : UInt64) : CSLogSearch where
  m_strLogFile := []
  m_iLogTypeFlag := 0
  m_iLogAppId := 0
  m_arrLogModuleId := []
  m_stIncKey := []
  m_stExcpKey := []
  m_iReportMachine := 0
  m_qwTimeStart := 0
  m_qwTimeEnd := qwTimeEnd
  ipv4AddrStr := fun _ => []

/-- A file does not begin after the logs of another one. -/
def BeginsBefore (d d' : DiskFile) : Prop :=
  ∀ t ∈ d'.logTimes, (d.head.getD FileHead.zero).qwLogTimeStart ≤ t

variable {es : List SLogFileInfo}

theorem selectFiles_from_zero (s : CSLogSearch) (hname : s.m_strLogFile = [])
    (hzero : s.m_qwTimeStart = 0) (f : LogFile) (files : List LogFile) :
    selectFiles s (f :: files) 0 SLOG_LOG_FILES_COUNT_MAX 0 = selectFiles s (f :: files) 0 0 0 := by
  have hend : ¬ f.qwLogTimeEnd < s.m_qwTimeStart := by
    rw [hzero]
    exact UInt64.not_lt_zero
  have hmax : ¬ SLOG_LOG_FILES_COUNT_MAX ≤ 0 := by decide
  simp only [selectFiles, hname, ne_eq, not_true, reduceIte, le_refl, hend, and_false, hmax]

/-- When a search for a time selects what it should. -/
theorem selectsTimes_iff (hlen : es.length ≤ SLOG_LOG_FILES_COUNT_MAX)
    (hheads : ∀ e ∈ es, headOf e = .read (fileHead e))
    (hbegin : ∀ e ∈ es, ∀ t ∈ e.file.logTimes, (fileHead e).qwLogTimeStart ≤ t)
    (hend : ∀ e ∈ es, ∀ t ∈ e.file.logTimes, t ≤ (fileHead e).qwLogTimeEnd) :
    SelectsTimes es ↔ (es.map SLogFileInfo.file).Pairwise BeginsBefore := by
  rw [List.pairwise_map, List.pairwise_iff_getElem]
  constructor
  · intro h i j hi hj hij t ht
    by_contra hlate
    rw [UInt64.not_le] at hlate
    have hsel : Selects (searchUpTo t) es j :=
      h (searchUpTo t) rfl j es[j] (List.getElem?_eq_getElem hj) t ht UInt64.zero_le (UInt64.le_refl t)
    have hget : (es.map searched)[i]? = some (searched es[i]) := by
      rw [List.getElem?_map, List.getElem?_eq_getElem hi, Option.map_some]
    obtain ⟨f, files, hcons⟩ : ∃ f files, es.map searched = f :: files := by
      refine List.exists_cons_of_ne_nil fun hnil => ?_
      rw [hnil] at hget
      simp at hget
    rw [hcons] at hget
    have hmax : 0 < SLOG_LOG_FILES_COUNT_MAX := by decide
    obtain ⟨n, hn, hle⟩ := selectFiles_stops (s := searchUpTo t) rfl hmax (f :: files) 0 i 0 hget
      hlate
    rw [Selects, selectListed_eq es hheads, hcons, selectFiles_from_zero (searchUpTo t) rfl rfl,
      hn] at hsel
    simp only at hsel
    omega
  · intro h search hname j e he t ht hstart hstop
    obtain ⟨hj, rfl⟩ := List.getElem?_eq_some_iff.mp he
    have hget : (es.map searched)[j]? = some (searched es[j]) := by
      rw [List.getElem?_map, List.getElem?_eq_getElem hj, Option.map_some]
    have hlast : ¬ (searched es[j]).qwLogTimeEnd < search.m_qwTimeStart :=
      UInt64.not_lt.mpr (UInt64.le_trans hstart (hend _ (List.getElem_mem hj) t ht))
    have hfirst : ∀ f ∈ (es.map searched).take (j + 1), ¬ search.m_qwTimeEnd < f.qwLogTimeStart := by
      intro f hf
      rw [← List.map_take] at hf
      obtain ⟨e, he', rfl⟩ := List.mem_map.mp hf
      obtain ⟨i, hi, rfl⟩ := List.mem_take_iff_getElem.mp he'
      have hij : i ≤ j := by omega
      have hle : (fileHead es[i]).qwLogTimeStart ≤ t := by
        rcases hij.eq_or_lt with rfl | hlt
        · exact hbegin _ (List.getElem_mem hj) t ht
        · exact h i j (by omega) hj hlt t ht
      exact UInt64.not_lt.mpr (UInt64.le_trans hle hstop)
    obtain ⟨star, n, hsel, hle, hlt⟩ := selectFiles_covers hname (es.map searched) 0 j
      (by rw [List.length_map]; omega) hget hlast hfirst
    rw [Selects, selectListed_eq es hheads, hsel]
    simp only
    omega

end Time

section Init

/-- The list has the readable files in the order of their times, the sums are those over these
files, and a search selects every file that has a log of its time. -/
structure InitRight (dir : LogDir) (s : SLogFileList) : Prop where
  order : s.stFiles.Pairwise fun e e' => e.qwLogTimeStart < e'.qwLogTimeStart
  files : ∀ d, d ∈ s.stFiles.map SLogFileInfo.file ↔ d ∈ dir.files ∧ d.readable = true
  sums : ∀ f, s.stLogStatInfo f = statSum ((dir.files.filter DiskFile.readable).map DiskFile.stat) f
  selected : SelectsTimes s.stFiles

/-- A file that can be opened can be read; by name, one that cannot be opened is followed by none or
by one without logs; the names are in the order of the times; and no file has a log that is older
than one in the files before. -/
structure OrderCond (dir : LogDir) : Prop where
  opened : ∀ d ∈ dir.files, d.fopenOk = true → d.readable = true
  followed : dir.byName.IsChain Followed
  names : (dir.byName.filter DiskFile.readable).Pairwise fun d d' =>
    d.qwLogStartTime < d'.qwLogStartTime
  times : (dir.files.filter DiskFile.readable).Pairwise BeginsBefore

variable (dir : LogDir) {e : SLogFileInfo}

/-- The list after the directory was scanned. -/
def LogDir.list : List SLogFileInfo := listed dir.m_szLogFilePath false dir.byName

theorem LogDir.file_mem (he : e ∈ LogDir.list dir) : e.file ∈ dir.files := by
  have hmem : e.file ∈ dir.byName := (listed_sublist dir.byName false).subset (List.mem_map_of_mem he)
  exact dir.perm_byName.mem_iff.mp hmem

theorem LogDir.headOf_eq (he : e ∈ LogDir.list dir) (hread : e.file.readable = true) :
    headOf e = .read (fileHead e) := by
  obtain ⟨h, hhead, -, -⟩ := dir.head_of_readable (LogDir.file_mem dir he) hread
  have hopen := fopenOk_of_readable hread
  have hfile : fileHead e = h := by rw [fileHead, hhead, Option.getD_some]
  have hagain : (if e.file.fopenOk = false then HeadRead.fopenFailed
      else match e.file.head with
        | none => .freadFailed
        | some h => .read h) = .read h := by
    rw [if_neg (by simp [hopen]), hhead]
  rw [headOf, hagain, hfile]
  split
  · rfl
  · rename_i hcount
    rcases listed_head dir.byName false he with hzero | hsame
    · rw [hzero] at hcount
      exact absurd rfl hcount
    · rw [hsame, hhead, Option.getD_some]

theorem LogDir.filter_byName (hnames : (dir.byName.filter DiskFile.readable).Pairwise fun d d' =>
      d.qwLogStartTime < d'.qwLogStartTime) :
    dir.byName.filter DiskFile.readable = dir.files.filter DiskFile.readable := by
  refine List.Perm.eq_of_pairwise ?_ hnames (dir.increasing.filter _) (dir.perm_byName.filter _)
  intro d d' _ _ hlt hlt'
  exact absurd hlt' (UInt64.lt_asymm hlt)

theorem LogDir.statSum_byName (f : StatField) :
    statSum ((dir.byName.filter DiskFile.readable).map DiskFile.stat) f =
      statSum ((dir.files.filter DiskFile.readable).map DiskFile.stat) f :=
  (((dir.perm_byName.filter _).map _).map _).sum_eq

theorem LogDir.sums_iff (hread : ∀ e ∈ LogDir.list dir, e.file.readable = true) :
    (∀ f, statSum ((summed false dir.byName).map DiskFile.stat) f =
        statSum ((dir.files.filter DiskFile.readable).map DiskFile.stat) f) ↔
      ∀ d ∈ missed false dir.byName, NoStat d := by
  have hsplit (f : StatField) := (summed_missed dir.byName false hread f).trans
    (LogDir.statSum_byName dir f)
  constructor
  · intro h d hd f
    have hzero : statSum ((missed false dir.byName).map DiskFile.stat) f = 0 := by
      have hf := h f
      have hs := hsplit f
      omega
    rw [statSum, List.map_map, List.sum_eq_zero_iff] at hzero
    exact hzero _ (List.mem_map_of_mem hd)
  · intro h f
    have hzero : statSum ((missed false dir.byName).map DiskFile.stat) f = 0 := by
      rw [statSum, List.map_map, List.sum_eq_zero_iff]
      intro x hx
      obtain ⟨d, hd, rfl⟩ := List.mem_map.mp hx
      exact h d hd f
    have hs := hsplit f
    omega

theorem LogDir.order_iff (hread : ∀ e ∈ LogDir.list dir, e.file.readable = true) :
    (LogDir.list dir).Pairwise (fun e e' => e.qwLogTimeStart < e'.qwLogTimeStart) ↔
      (dir.byName.filter DiskFile.readable).Pairwise fun d d' =>
        d.qwLogStartTime < d'.qwLogStartTime := by
  have hstart (e : SLogFileInfo) (he : e ∈ LogDir.list dir) :
      e.qwLogTimeStart = e.file.qwLogStartTime :=
    (listed_start dir.byName false he).trans
      (dir.nameTime_eq (LogDir.file_mem dir he) (hread e he))
  rw [← listed_files dir.byName false hread, List.pairwise_map]
  apply List.Pairwise.iff_of_mem
  intro e e' he he'
  rw [hstart e he, hstart e' he']

/-- A scan makes a right list exactly for the directories of `OrderCond`. -/
theorem LogDir.scan_right_iff (s : SLogFileList) :
    InitRight dir (scanLogFiles dir.m_szLogFilePath dir.namelist s) ↔ OrderCond dir := by
  have hlen : (LogDir.list dir).length ≤ SLOG_LOG_FILES_COUNT_MAX := by
    have hsub := (@listed_sublist dir.m_szLogFilePath dir.byName false).length_le
    rw [List.length_map, dir.perm_byName.length_eq] at hsub
    exact hsub.trans dir.length_le
  have hselects (hread : ∀ e ∈ LogDir.list dir, e.file.readable = true) :
      SelectsTimes (LogDir.list dir) ↔
        ((LogDir.list dir).map SLogFileInfo.file).Pairwise BeginsBefore := by
    apply selectsTimes_iff hlen fun e he => LogDir.headOf_eq dir he (hread e he)
    · intro e he t ht
      obtain ⟨h, hhead, -, hkept⟩ :=
        dir.head_of_readable (LogDir.file_mem dir he) (hread e he)
      rw [fileHead, hhead, Option.getD_some]
      exact hkept.timeStart t ht
    · intro e he t ht
      obtain ⟨h, hhead, -, hkept⟩ :=
        dir.head_of_readable (LogDir.file_mem dir he) (hread e he)
      rw [fileHead, hhead, Option.getD_some]
      exact hkept.timeEnd t ht
  rw [dir.scanLogFiles_eq]
  constructor
  · intro h
    have hread : ∀ e ∈ LogDir.list dir, e.file.readable = true := fun e he =>
      ((h.files e.file).mp (List.mem_map_of_mem he)).2
    have hmissed := (LogDir.sums_iff dir hread).mp h.sums
    obtain ⟨hopened, -, hfollowed⟩ := (listed_iff dir.byName false).mp ⟨hread, hmissed⟩
    have hnames := (LogDir.order_iff dir hread).mp h.order
    refine ⟨fun d hd => hopened d (dir.perm_byName.mem_iff.mpr hd), hfollowed, hnames, ?_⟩
    rw [← LogDir.filter_byName dir hnames, ← listed_files dir.byName false hread]
    exact (hselects hread).mp h.selected
  · intro h
    obtain ⟨hread, hmissed⟩ := (@listed_iff dir.m_szLogFilePath dir.byName false).mpr
      ⟨fun d hd => h.opened d (dir.perm_byName.mem_iff.mp hd), nofun, h.followed⟩
    have hfiles : (LogDir.list dir).map SLogFileInfo.file =
        dir.files.filter DiskFile.readable :=
      (listed_files dir.byName false hread).trans (LogDir.filter_byName dir h.names)
    refine ⟨(LogDir.order_iff dir hread).mpr h.names, fun d => ?_,
      (LogDir.sums_iff dir hread).mpr hmissed, ?_⟩
    · exact (congrArg (d ∈ ·) hfiles).to_iff.trans List.mem_filter
    · refine (hselects hread).mpr ?_
      rw [hfiles]
      exact h.times

/-- The list after `InitLogFiles` is right exactly when it was kept and right before, or the
directory was scanned and is one of `OrderCond`. -/
theorem initLogFiles_right_iff (m_iScanAgain : Bool) (s : SLogFileList) :
    InitRight dir (initLogFiles dir.m_szLogFilePath dir.namelist m_iScanAgain s) ↔
      if keepsList m_iScanAgain s then InitRight dir s else OrderCond dir := by
  rw [initLogFiles]
  split
  · exact Iff.rfl
  · exact LogDir.scan_right_iff dir s

end Init

section Digits

/-- The statistics of one log of level error. -/
def oneLogStat : TLogStatInfo := fun f => if f = .qwLogSizeInfo ∨ f = .dwErrorLogsCount then 1 else 0

/-- The head of a file with one log. -/
def oneLogHead (t : UInt64) : FileHead :=
  ⟨⟨1, SLOG_LOG_RECORDS_COUNT_MAX, oneLogStat⟩, qwtoa t, SLOG_CHECK_BYTES_ORDER_NUM, t, t,
    SLOG_FILE_VERSION_MAX⟩

/-- A file with one log. -/
def oneLogFile (t : UInt64) : DiskFile := ⟨t, true, some (oneLogHead t), [t]⟩

theorem oneLogStat_ok : HeadOk ⟨1, SLOG_LOG_RECORDS_COUNT_MAX, oneLogStat⟩ := by
  refine ⟨le_rfl, by decide, ?_⟩
  intro f
  cases f <;> decide

theorem oneLogFile_kept (t : UInt64) : HeadKept (oneLogFile t) (oneLogHead t) where
  checkDigit := rfl
  ok := oneLogStat_ok
  timeStart := fun t' ht => by
    rw [List.mem_singleton.mp ht]
    exact UInt64.le_refl t
  timeEnd := fun t' ht => by
    rw [List.mem_singleton.mp ht]
    exact UInt64.le_refl t

theorem oneLogFiles_kept (ts : List UInt64) (d : DiskFile) (hd : d ∈ ts.map oneLogFile)
    (_ : d.readable = true) (h : FileHead) (hh : h ∈ d.head) : HeadKept d h := by
  obtain ⟨t, -, rfl⟩ := List.mem_map.mp hd
  obtain rfl : oneLogHead t = h := Option.mem_some_iff.mp hh
  exact oneLogFile_kept t

/-- Two files of one second, with 9 and with 10 microseconds. -/
def twoTimes : List UInt64 := [1700000000000009, 1700000000000010]

theorem twoTimes_increasing :
    (twoTimes.map oneLogFile).Pairwise fun d d' => d.qwLogStartTime < d'.qwLogStartTime := by
  decide

theorem twoTimes_names : ((twoTimes.map oneLogFile).map DiskFile.name).Nodup := by
  decide +kernel

def twoFileDir : LogDir where
  m_szLogFilePath := [47]
  files := twoTimes.map oneLogFile
  namelist := twoTimes.map oneLogFile
  perm := List.Perm.refl _
  increasing := twoTimes_increasing
  names := twoTimes_names
  length_le := Nat.le_of_ble_eq_true rfl
  path_le := Nat.le_of_ble_eq_true rfl
  kept := oneLogFiles_kept twoTimes

/-- `1700000000_10` sorts before `1700000000_9`. -/
theorem initLogFiles_disorder :
    ¬ InitRight twoFileDir
      (initLogFiles twoFileDir.m_szLogFilePath twoFileDir.namelist true ⟨[], fun _ => 0, false⟩) := by
  intro h
  exact absurd h.order (by decide +kernel)

end Digits

end XrkMonitor.LogSearch
