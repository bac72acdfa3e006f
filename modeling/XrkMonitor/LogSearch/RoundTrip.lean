import XrkMonitor.LogSearch.Scan

/-!
# What a search finds

The successive results of `HistoryLog` are compared with the logs that match the search.
A file that begins after the end of the search hides the files behind it, and a log that
was read and did not match leaves its custom fields in the output record.
-/

namespace XrkMonitor.LogSearch

open Library ServerLog

section Files

/-- The file ends before the time of the search. -/
def endsEarly (s : CSLogSearch) (w : WrittenFile) : Bool :=
  decide (w.file.qwLogTimeEnd < s.m_qwTimeStart)

/-- The file does not begin after the time of the search. -/
def beginsInTime (s : CSLogSearch) (w : WrittenFile) : Bool :=
  decide (¬ s.m_qwTimeEnd < w.file.qwLogTimeStart)

/-- The file that a search for a file is about. -/
def namedFile (s : CSLogSearch) (files : List WrittenFile) : List WrittenFile :=
  (files.find? fun w => strstr w.szAbsFileName s.m_strLogFile).toList

/-- The files that a search is about. -/
def searchedFiles (s : CSLogSearch) (files : List WrittenFile) : List WrittenFile :=
  if s.m_strLogFile ≠ [] then namedFile s files else files

/-- The files that are opened. -/
def selectedFiles (s : CSLogSearch) (files : List WrittenFile) : List WrittenFile :=
  if s.m_strLogFile ≠ [] then namedFile s files
  else (files.dropWhile (endsEarly s)).takeWhile (beginsInTime s)

/-- The files from the first one on that begins after the end of the search, where the search is for
a time. -/
def hiddenFiles (s : CSLogSearch) (files : List WrittenFile) : List WrittenFile :=
  if s.m_strLogFile ≠ [] then []
  else (files.dropWhile (endsEarly s)).dropWhile (beginsInTime s)

/-- What is found in some files. -/
def foundIn (s : CSLogSearch) (files : List WrittenFile) : List TSLogOut :=
  files.flatMap fun w => scanLogs s LogCust.zero w.logs

@[simp] theorem file_szAbsFileName (w : WrittenFile) : w.file.szAbsFileName = w.szAbsFileName := by
  have hname : ∀ (rs : List TSLog) (f : LogFile),
      (rs.foldl writeLogRecord f).szAbsFileName = f.szAbsFileName := by
    intro rs
    induction rs with
    | nil => simp
    | cons r rs ih =>
      intro f
      rw [List.foldl_cons, ih]
      rfl
  exact hname _ _

end Files

section Selection

variable {s : CSLogSearch}

theorem selectFiles_count (hname : s.m_strLogFile = []) {star : Nat}
    (hstar : star < SLOG_LOG_FILES_COUNT_MAX) (files : List WrittenFile) (i count : Nat) :
    selectFiles s (files.map WrittenFile.file) i star count =
      (star, count + (files.takeWhile (beginsInTime s)).length) := by
  induction files generalizing i count with
  | nil => rfl
  | cons w files ih =>
    have hge : ¬ SLOG_LOG_FILES_COUNT_MAX ≤ star := Nat.not_le.mpr hstar
    simp only [List.map_cons, selectFiles, hname, ne_eq, not_true, reduceIte, hge, false_and]
    by_cases hlate : s.m_qwTimeEnd < w.file.qwLogTimeStart
    · simp [hlate, beginsInTime]
    · rw [if_neg hlate, ih, List.takeWhile_cons_of_pos (by simpa [beginsInTime] using hlate)]
      simp only [List.length_cons]
      congr 1
      omega

theorem selectFiles_time (hname : s.m_strLogFile = []) (files : List WrittenFile) (i : Nat)
    (hlen : i + files.length ≤ SLOG_LOG_FILES_COUNT_MAX) :
    selectFiles s (files.map WrittenFile.file) i SLOG_LOG_FILES_COUNT_MAX 0 =
      (if files.dropWhile (endsEarly s) = [] then SLOG_LOG_FILES_COUNT_MAX
        else i + (files.takeWhile (endsEarly s)).length,
      ((files.dropWhile (endsEarly s)).takeWhile (beginsInTime s)).length) := by
  induction files generalizing i with
  | nil => rfl
  | cons w files ih =>
    rw [List.length_cons] at hlen
    by_cases hearly : w.file.qwLogTimeEnd < s.m_qwTimeStart
    · have hb : endsEarly s w = true := by simpa [endsEarly] using hearly
      simp only [List.map_cons, selectFiles, hname, ne_eq, not_true, reduceIte, le_refl, hearly,
        and_self]
      rw [ih (i + 1) (by omega), List.dropWhile_cons_of_pos hb, List.takeWhile_cons_of_pos hb,
        List.length_cons, Nat.add_right_comm]
      rfl
    · have hb : ¬ endsEarly s w = true := by simpa [endsEarly] using hearly
      have hi : i < SLOG_LOG_FILES_COUNT_MAX := by omega
      simp only [List.map_cons, selectFiles, hname, ne_eq, not_true, reduceIte, le_refl, hearly,
        and_false]
      rw [List.dropWhile_cons_of_neg hb, List.takeWhile_cons_of_neg hb,
        if_neg (List.cons_ne_nil w files)]
      by_cases hlate : s.m_qwTimeEnd < w.file.qwLogTimeStart
      · simp [hlate, beginsInTime]
      · rw [if_neg hlate, selectFiles_count hname hi,
          List.takeWhile_cons_of_pos (by simpa [beginsInTime] using hlate), List.length_cons,
          Nat.add_comm 1]
        rfl

theorem selectFiles_name (hname : s.m_strLogFile ≠ []) (files : List WrittenFile) (i star : Nat) :
    selectFiles s (files.map WrittenFile.file) i star 0 =
      match files.findIdx? fun w => strstr w.szAbsFileName s.m_strLogFile with
      | none => (star, 0)
      | some k => (i + k, 1) := by
  induction files generalizing i with
  | nil => rfl
  | cons w files ih =>
    simp only [List.map_cons, selectFiles, hname, ne_eq, not_false_iff, reduceIte,
      file_szAbsFileName, List.findIdx?_cons]
    by_cases hw : strstr w.szAbsFileName s.m_strLogFile = true
    · simp [hw]
    · rw [if_neg hw, ih]
      simp only [hw]
      cases files.findIdx? fun w => strstr w.szAbsFileName s.m_strLogFile with
      | none => rfl
      | some k => simp [Nat.add_comm k, Nat.add_assoc]

theorem length_scanLogs (c : LogCust) (rs : List TSLog) :
    (scanLogs s c rs).length = (rs.filter (isMatch s)).length := by
  induction rs generalizing c with
  | nil => rfl
  | cons r rs ih =>
    rw [scanLogs]
    by_cases hm : isMatch s r = true
    · simp [hm, ih]
    · simp [hm, ih]

theorem scanLogs_eq_nil {c : LogCust} {rs : List TSLog} (h : ∀ r ∈ rs, isMatch s r = false) :
    scanLogs s c rs = [] := by
  rw [← List.length_eq_zero_iff, length_scanLogs, List.length_eq_zero_iff, List.filter_eq_nil_iff]
  intro r hr
  simp [h r hr]

theorem isMatch_of_outside (hname : s.m_strLogFile = []) {w : WrittenFile}
    (h : beginsInTime s w = false ∨ endsEarly s w = true) : ∀ r ∈ w.logs, isMatch s r = false := by
  intro r hr
  have hstart := w.holds.timeStart r hr
  have hend := w.holds.timeEnd r hr
  have hout : inTime s r = false := by
    simp only [inTime, hname, ne_eq, not_true, decide_false, Bool.false_or, Bool.and_eq_false_iff,
      decide_eq_false_iff_not, UInt64.not_le]
    obtain hlate | hearly := h
    · right
      have hlate : s.m_qwTimeEnd < w.file.qwLogTimeStart := by simpa [beginsInTime] using hlate
      exact UInt64.lt_of_lt_of_le hlate hstart
    · left
      have hearly : w.file.qwLogTimeEnd < s.m_qwTimeStart := by simpa [endsEarly] using hearly
      exact UInt64.lt_of_le_of_lt hend hearly
  simp [isMatch, isRead, hout]

/-- The files that are opened stand one after another in the list. A file that is opened although
none is counted has nothing that matches. -/
theorem selectFiles_spec {files : List WrittenFile} (hlen : files.length ≤ SLOG_LOG_FILES_COUNT_MAX) :
    ∃ star count,
      selectFiles s (files.map WrittenFile.file) 0 SLOG_LOG_FILES_COUNT_MAX 0 = (star, count) ∧
      (star = SLOG_LOG_FILES_COUNT_MAX ∧ count = 0 ∧ selectedFiles s files = [] ∨
        ∃ w rest, files.drop star = w :: rest ∧ (w :: rest).take count = selectedFiles s files ∧
          star + count ≤ files.length ∧ (count = 0 → ∀ r ∈ w.logs, isMatch s r = false)) := by
  by_cases hname : s.m_strLogFile = []
  · refine ⟨_, _, selectFiles_time hname files 0 (by omega), ?_⟩
    have hsel : selectedFiles s files =
        (files.dropWhile (endsEarly s)).takeWhile (beginsInTime s) := by simp [selectedFiles, hname]
    rw [hsel]
    have hsplit := List.takeWhile_append_dropWhile (p := endsEarly s) (l := files)
    cases hkeep : files.dropWhile (endsEarly s) with
    | nil => exact Or.inl ⟨by simp, rfl, rfl⟩
    | cons w rest =>
      rw [hkeep] at hsplit
      right
      refine ⟨w, rest, ?_, ?_, ?_, ?_⟩
      · have hdrop := congrArg (List.drop (files.takeWhile (endsEarly s)).length) hsplit
        rw [List.drop_left] at hdrop
        rw [if_neg (List.cons_ne_nil w rest), Nat.zero_add]
        exact hdrop.symm
      · exact (List.prefix_iff_eq_take.mp (List.takeWhile_prefix _)).symm
      · have hle := (List.takeWhile_prefix (l := w :: rest) (beginsInTime s)).length_le
        have hall := congrArg List.length hsplit
        rw [List.length_append] at hall
        rw [if_neg (List.cons_ne_nil w rest)]
        omega
      · intro hzero
        apply isMatch_of_outside hname
        left
        by_contra hb
        rw [List.takeWhile_cons_of_pos (by simpa using hb)] at hzero
        simp at hzero
  · have hsel : selectedFiles s files = namedFile s files := by simp [selectedFiles, hname]
    rw [selectFiles_name hname, hsel, namedFile]
    cases hidx : files.findIdx? fun w => strstr w.szAbsFileName s.m_strLogFile with
    | none =>
      refine ⟨_, _, rfl, Or.inl ⟨rfl, rfl, ?_⟩⟩
      rw [List.findIdx?_eq_none_iff] at hidx
      rw [Option.toList_eq_nil_iff, List.find?_eq_none]
      intro w hw
      simpa using hidx w hw
    | some k =>
      refine ⟨_, _, rfl, Or.inr ?_⟩
      rw [List.findIdx?_eq_some_iff_getElem] at hidx
      obtain ⟨hk, hw, hbefore⟩ := hidx
      refine ⟨files[k], files.drop (k + 1), ?_, ?_, ?_, by simp⟩
      · rw [Nat.zero_add]
        exact List.drop_eq_getElem_cons hk
      · have hfind : (files.find? fun w => strstr w.szAbsFileName s.m_strLogFile) =
            some files[k] := by
          rw [List.find?_eq_some_iff_getElem]
          exact ⟨hw, k, hk, rfl, by simpa using hbefore⟩
        rw [hfind]
        rfl
      · omega

end Selection

section Calls

variable {s : CSLogSearch} {files : List WrittenFile}

/-- The search stands in a file that was selected. -/
structure PosOk (files : List WrittenFile) (p : SearchPos) : Prop where
  fileNo : p.m_wFileNo < p.m_wFileCount
  files : p.m_wFileIndexStar + p.m_wFileCount ≤ files.length

/-- What a search has still to give. -/
def stillToCome (s : CSLogSearch) (files : List WrittenFile) (p : SearchPos) : List TSLogOut :=
  match files.drop (p.m_wFileIndexStar + p.m_wFileNo) with
  | [] => []
  | w :: rest =>
    scanLogs s LogCust.zero (w.logs.drop p.m_dwFilePos) ++
      foundIn s (rest.take (p.m_wFileCount - (p.m_wFileNo + 1)))

/-- One call gives the first of what is still to come. -/
theorem scanFiles_spec (n : Nat) (p : SearchPos) (hp : PosOk files p)
    (hn : files.length ≤ n + (p.m_wFileIndexStar + p.m_wFileNo)) :
    match stillToCome s files p with
    | [] => (scanFiles s (files.map WrittenFile.file) n p).1 = none
    | x :: xs => ∃ p', scanFiles s (files.map WrittenFile.file) n p = (some x, p') ∧ PosOk files p' ∧
        xs = stillToCome s files p' := by
  induction n generalizing p with
  | zero =>
    have h₁ := hp.fileNo
    have h₂ := hp.files
    omega
  | succ n ih =>
    have h₁ := hp.fileNo
    have h₂ := hp.files
    have hidx : p.m_wFileIndexStar + p.m_wFileNo < files.length := by omega
    have hget : (files.map WrittenFile.file)[p.m_wFileIndexStar + p.m_wFileNo]? =
        some files[p.m_wFileIndexStar + p.m_wFileNo].file := by simp [hidx]
    have hcome : stillToCome s files p =
        scanLogs s LogCust.zero
            (files[p.m_wFileIndexStar + p.m_wFileNo].logs.drop p.m_dwFilePos) ++
          foundIn s ((files.drop (p.m_wFileIndexStar + p.m_wFileNo + 1)).take
            (p.m_wFileCount - (p.m_wFileNo + 1))) := by
      rw [stillToCome, List.drop_eq_getElem_cons hidx]
    rw [scanFiles, hget]
    obtain ⟨w, hw⟩ : ∃ w, w = files[p.m_wFileIndexStar + p.m_wFileNo] := ⟨_, rfl⟩
    rw [← hw] at hcome ⊢
    have hread := readLogFileVersion2_spec (s := s) w.holds w.length_le
      (w.file.iLogRecordsWrite - p.m_dwFilePos) p.m_dwFilePos (by rw [w.holds.count])
      TSLogOut.zero
    change match scanLogs s LogCust.zero (w.logs.drop p.m_dwFilePos) with
      | [] => _
      | x :: xs => _ at hread
    cases hscan : scanLogs s LogCust.zero (w.logs.drop p.m_dwFilePos) with
    | cons x xs =>
      rw [hscan] at hread hcome
      obtain ⟨j', -, -, hres, hxs⟩ := hread
      rw [hcome, List.cons_append]
      refine ⟨⟨p.m_wFileNo, j', p.m_wFileCount, p.m_wFileIndexStar⟩, by simp only [hres],
        ⟨hp.fileNo, hp.files⟩, ?_⟩
      rw [stillToCome, List.drop_eq_getElem_cons hidx, ← hw, hxs]
    | nil =>
      rw [hscan] at hread hcome
      rw [List.nil_append] at hcome
      obtain ⟨pos, hres⟩ : ∃ pos, readLogFileVersion2 s w.file
          (w.file.iLogRecordsWrite - p.m_dwFilePos) p.m_dwFilePos TSLogOut.zero =
            (none, pos) := ⟨_, Prod.ext hread rfl⟩
      simp only [hres]
      by_cases hlast : p.m_wFileCount ≤ p.m_wFileNo + 1
      · have hnil : stillToCome s files p = [] := by
          rw [hcome, Nat.sub_eq_zero_of_le hlast, List.take_zero]
          rfl
        rw [hnil, if_pos hlast]
      · have hnext : stillToCome s files p =
            stillToCome s files
              ⟨p.m_wFileNo + 1, 0, p.m_wFileCount, p.m_wFileIndexStar⟩ := by
          have hidx' : p.m_wFileIndexStar + p.m_wFileNo + 1 < files.length := by omega
          obtain ⟨m, hm⟩ : ∃ m, p.m_wFileCount - (p.m_wFileNo + 1) = m + 1 :=
            ⟨p.m_wFileCount - (p.m_wFileNo + 1 + 1), by omega⟩
          have hm' : p.m_wFileCount - (p.m_wFileNo + 1 + 1) = m := by omega
          rw [hcome, hm, stillToCome]
          simp only [← Nat.add_assoc, List.drop_eq_getElem_cons hidx', List.take_succ_cons, hm',
            foundIn, List.flatMap_cons, List.drop_zero]
        rw [if_neg hlast, hnext]
        apply ih
        · constructor
          · change p.m_wFileNo + 1 < p.m_wFileCount
            omega
          · exact hp.files
        · change files.length ≤ n + (p.m_wFileIndexStar + (p.m_wFileNo + 1))
          omega

theorem historyLogs_spec (hlen : files.length ≤ SLOG_LOG_FILES_COUNT_MAX) (n : Nat) (p : SearchPos)
    (hp : PosOk files p) :
    historyLogs s (files.map WrittenFile.file) n p =
      if (stillToCome s files p).length < n then some (stillToCome s files p) else none := by
  induction n generalizing p with
  | zero => rfl
  | succ n ih =>
    have h₁ := hp.fileNo
    have h₂ := hp.files
    have hcount : ¬ p.m_wFileCount = 0 := by omega
    have hcall := scanFiles_spec (s := s)
      (SLOG_LOG_FILES_COUNT_MAX - (p.m_wFileIndexStar + p.m_wFileNo)) p hp (by omega)
    simp only [historyLogs, historyLog, hcount, reduceIte]
    cases hcome : stillToCome s files p with
    | nil =>
      rw [hcome] at hcall
      obtain ⟨p', hres⟩ : ∃ p', scanFiles s (files.map WrittenFile.file)
          (SLOG_LOG_FILES_COUNT_MAX - (p.m_wFileIndexStar + p.m_wFileNo)) p = (none, p') :=
        ⟨_, Prod.ext hcall rfl⟩
      simp [hres]
    | cons x xs =>
      rw [hcome] at hcall
      obtain ⟨p', hres, hp', hxs⟩ := hcall
      rw [hres]
      simp only [ih p' hp', ← hxs, List.length_cons, Nat.add_lt_add_iff_right]
      split
      · rfl
      · rfl

/-- Where a search begins. -/
def startPos : SearchPos := ⟨0, 0, 0, 0⟩

/-- The results of a search are what is found in the files that are opened. -/
theorem historyLogs_eq (hlen : files.length ≤ SLOG_LOG_FILES_COUNT_MAX) (n : Nat) :
    historyLogs s (files.map WrittenFile.file) n startPos =
      if (foundIn s (selectedFiles s files)).length < n then
        some (foundIn s (selectedFiles s files))
      else none := by
  cases n with
  | zero => rfl
  | succ n =>
    obtain ⟨star, count, hsel, hcase⟩ := selectFiles_spec (s := s) hlen
    obtain ⟨rfl, rfl, hnil⟩ | ⟨w, rest, hdrop, htake, hle, hzero⟩ := hcase
    · simp [historyLogs, historyLog, startPos, hsel, hnil, foundIn, scanFiles]
    · have hstar : star < files.length := by
        by_contra hge
        rw [List.drop_eq_nil_of_le (Nat.le_of_not_lt hge)] at hdrop
        cases hdrop
      have hmax : star < SLOG_LOG_FILES_COUNT_MAX := Nat.lt_of_lt_of_le hstar hlen
      have hfirst : historyLog s (files.map WrittenFile.file) startPos =
          scanFiles s (files.map WrittenFile.file) (SLOG_LOG_FILES_COUNT_MAX - star)
            ⟨0, 0, count, star⟩ := by
        simp [historyLog, startPos, hsel, hmax]
      cases count with
      | zero =>
        have hget : files[star]? = some w := by
          rw [← List.head?_drop, hdrop, List.head?_cons]
        have hread := readLogFileVersion2_spec (s := s) w.holds w.length_le
          w.file.iLogRecordsWrite 0 w.holds.count.symm TSLogOut.zero
        rw [List.drop_zero, scanLogs_eq_nil (hzero rfl)] at hread
        obtain ⟨k, hk⟩ : ∃ k, SLOG_LOG_FILES_COUNT_MAX - star = k + 1 :=
          ⟨SLOG_LOG_FILES_COUNT_MAX - star - 1, by omega⟩
        obtain ⟨pos, hres⟩ : ∃ pos, readLogFileVersion2 s w.file w.file.iLogRecordsWrite 0
            TSLogOut.zero = (none, pos) := ⟨_, Prod.ext hread rfl⟩
        simp [historyLogs, hfirst, hk, scanFiles, hget, hres, ← htake, foundIn]
      | succ m =>
        have hp : PosOk files ⟨0, 0, m + 1, star⟩ := ⟨Nat.succ_pos m, hle⟩
        have hsame : historyLogs s (files.map WrittenFile.file) (n + 1) startPos =
            historyLogs s (files.map WrittenFile.file) (n + 1) ⟨0, 0, m + 1, star⟩ := by
          simp only [historyLogs, hfirst]
          simp [historyLog]
        have hcome : stillToCome s files ⟨0, 0, m + 1, star⟩ =
            foundIn s (selectedFiles s files) := by
          simp only [stillToCome, Nat.add_zero, hdrop, ← htake, List.take_succ_cons, foundIn,
            List.flatMap_cons, List.drop_zero, Nat.zero_add, Nat.add_sub_cancel]
        rw [hsame, historyLogs_spec hlen (n + 1) _ hp, hcome]

end Calls

section Leaks

/-- The value that the last of some logs that sets a field gives it. -/
def lastSet {α : Type} (flag : UInt8) (value : TSLog → α) (dflt : α) (seen : List TSLog) : α :=
  ((seen.filter (isSet flag)).getLast?.map value).getD dflt

/-- The fields that a log does not set were left empty by the logs `seen`. -/
def FieldsAlone (seen : List TSLog) (r : TSLog) : Prop :=
  (isSet MTLOG_CUST_FLAG_C1_SET r = false →
    lastSet MTLOG_CUST_FLAG_C1_SET (fun q => q.cust.dwCust_1) 0 seen = 0) ∧
  (isSet MTLOG_CUST_FLAG_C2_SET r = false →
    lastSet MTLOG_CUST_FLAG_C2_SET (fun q => q.cust.dwCust_2) 0 seen = 0) ∧
  (isSet MTLOG_CUST_FLAG_C3_SET r = false →
    lastSet MTLOG_CUST_FLAG_C3_SET (fun q => q.cust.iCust_3) 0 seen = 0) ∧
  (isSet MTLOG_CUST_FLAG_C4_SET r = false →
    lastSet MTLOG_CUST_FLAG_C4_SET (fun q => q.cust.iCust_4) 0 seen = 0) ∧
  (isSet MTLOG_CUST_FLAG_C5_SET r = false →
    lastSet MTLOG_CUST_FLAG_C5_SET (fun q => q.cust.szCust_5.str) [] seen = []) ∧
  (isSet MTLOG_CUST_FLAG_C6_SET r = false →
    lastSet MTLOG_CUST_FLAG_C6_SET (fun q => q.cust.szCust_6.str) [] seen = [])

instance (seen : List TSLog) (r : TSLog) : Decidable (FieldsAlone seen r) :=
  inferInstanceAs (Decidable (_ ∧ _))

/-- A log is given with its own custom fields after the logs `seen` were read. -/
def CustAlone (seen : List TSLog) (r : TSLog) : Prop :=
  if hasCust r then FieldsAlone seen r else ∀ q ∈ seen, hasCust q = false

instance (seen : List TSLog) (r : TSLog) : Decidable (CustAlone seen r) :=
  inferInstanceAs (Decidable (if hasCust r then FieldsAlone seen r else ∀ q ∈ seen, hasCust q = false))

/-- Every log that matches is given with its own custom fields; `seen` are the logs that were read
since the last one that matched. -/
def NoLeak (s : CSLogSearch) : List TSLog → List TSLog → Prop
  | _, [] => True
  | seen, r :: rs =>
    if isMatch s r then CustAlone seen r ∧ NoLeak s [] rs
    else NoLeak s (if isRead s r then seen ++ [r] else seen) rs

instance NoLeak.decidable (s : CSLogSearch) : ∀ seen rs, Decidable (NoLeak s seen rs)
  | _, [] => isTrue trivial
  | seen, r :: rs =>
    have : ∀ seen, Decidable (NoLeak s seen rs) := fun seen => NoLeak.decidable s seen rs
    inferInstanceAs (Decidable
      (if isMatch s r then CustAlone seen r ∧ NoLeak s [] rs
      else NoLeak s (if isRead s r then seen ++ [r] else seen) rs))

/-- What the logs that were read leave in the output record. -/
def leftBy (seen : List TSLog) : LogCust := seen.foldl (fun c r => applyCust r c) LogCust.zero

variable {s : CSLogSearch} {seen : List TSLog} {r : TSLog}

theorem leftBy_concat (seen : List TSLog) (r : TSLog) :
    leftBy (seen ++ [r]) = applyCust r (leftBy seen) := by
  simp [leftBy]

theorem lastSet_concat {α : Type} (flag : UInt8) (value : TSLog → α) (dflt : α)
    (seen : List TSLog) (r : TSLog) :
    lastSet flag value dflt (seen ++ [r]) =
      if isSet flag r then value r else lastSet flag value dflt seen := by
  by_cases hr : isSet flag r = true
  · simp [lastSet, List.filter_append, hr]
  · simp [lastSet, List.filter_append, hr]

theorem isSet_of_not_hasCust (h : hasCust r = false) :
    isSet MTLOG_CUST_FLAG_C1_SET r = false ∧ isSet MTLOG_CUST_FLAG_C2_SET r = false ∧
    isSet MTLOG_CUST_FLAG_C3_SET r = false ∧ isSet MTLOG_CUST_FLAG_C4_SET r = false ∧
    isSet MTLOG_CUST_FLAG_C5_SET r = false ∧ isSet MTLOG_CUST_FLAG_C6_SET r = false := by
  simpa [hasCust, and_assoc] using h

theorem bCustFlag_ne_zero (h : hasCust r = true) : r.cust.bCustFlag ≠ 0 := by
  intro hzero
  have hno : ∀ flag, isSet flag r = false := by
    intro flag
    simp [isSet, isSetBit, hzero]
  simp [hasCust, hno] at h

theorem leftBy_eq (seen : List TSLog) :
    leftBy seen =
      { bCustFlag := (leftBy seen).bCustFlag
        dwCust_1 := lastSet MTLOG_CUST_FLAG_C1_SET (fun q => q.cust.dwCust_1) 0 seen
        dwCust_2 := lastSet MTLOG_CUST_FLAG_C2_SET (fun q => q.cust.dwCust_2) 0 seen
        iCust_3 := lastSet MTLOG_CUST_FLAG_C3_SET (fun q => q.cust.iCust_3) 0 seen
        iCust_4 := lastSet MTLOG_CUST_FLAG_C4_SET (fun q => q.cust.iCust_4) 0 seen
        szCust_5 := CharBuf.strncpy 16
          (lastSet MTLOG_CUST_FLAG_C5_SET (fun q => q.cust.szCust_5.str) [] seen)
        szCust_6 := CharBuf.strncpy 32
          (lastSet MTLOG_CUST_FLAG_C6_SET (fun q => q.cust.szCust_6.str) [] seen) } := by
  induction seen using List.reverseRecOn with
  | nil => rfl
  | append_singleton seen r ih =>
    simp only [lastSet_concat]
    cases hc : hasCust r with
    | false =>
      obtain ⟨h₁, h₂, h₃, h₄, h₅, h₆⟩ := isSet_of_not_hasCust hc
      simpa [leftBy_concat, applyCust, hc, h₁, h₂, h₃, h₄, h₅, h₆] using ih
    | true =>
      rw [leftBy_concat, applyCust, if_pos hc, ih]
      simp only [LogCust.mk.injEq, true_and]
      refine ⟨?_, ?_⟩
      · split <;> rfl
      · split <;> rfl

theorem leftBy_flag (seen : List TSLog) :
    (leftBy seen).bCustFlag = 0 ↔ ∀ q ∈ seen, hasCust q = false := by
  induction seen using List.reverseRecOn with
  | nil => simp [leftBy, LogCust.zero]
  | append_singleton seen r ih =>
    rw [leftBy_concat]
    cases hc : hasCust r with
    | false =>
      simp only [applyCust, hc, Bool.false_eq_true, reduceIte, ih, List.mem_append,
        List.mem_singleton]
      constructor
      · rintro h q (hq | rfl)
        · exact h q hq
        · exact hc
      · exact fun h q hq => h q (Or.inl hq)
    | true =>
      have hne := bCustFlag_ne_zero hc
      simp only [applyCust, hc, reduceIte, hne, false_iff]
      intro h
      simp [h r (by simp)] at hc

theorem leftBy_of_not_hasCust (h : ∀ q ∈ seen, hasCust q = false) : leftBy seen = LogCust.zero := by
  induction seen using List.reverseRecOn with
  | nil => rfl
  | append_singleton seen r ih =>
    rw [leftBy_concat, applyCust, h r (by simp), ih fun q hq => h q (by simp [hq])]
    rfl

theorem cstr_replicate_zero (m : Nat) : cstr (List.replicate m 0) = [] := by
  cases m with
  | zero => rfl
  | succ m => simp [List.replicate_succ, cstr]

theorem strncpy_eq_zero_iff {n : Nat} {str : List UInt8} (hne : ∀ b ∈ str, b ≠ 0)
    (hlen : str.length ≤ n - 1) : CharBuf.strncpy n str = CharBuf.zero n ↔ str = [] := by
  constructor
  · intro h
    have hstr := congrArg CharBuf.str h
    rw [CharBuf.str_strncpy hne hlen] at hstr
    rw [hstr]
    exact cstr_replicate_zero (n - 1)
  · rintro rfl
    simp [CharBuf.strncpy, CharBuf.zero]

theorem lastSet_str {n : Nat} (flag : UInt8) (field : TSLog → CharBuf n) (seen : List TSLog) :
    (∀ b ∈ lastSet flag (fun q => (field q).str) [] seen, b ≠ 0) ∧
      (lastSet flag (fun q => (field q).str) [] seen).length ≤ n - 1 := by
  rw [lastSet]
  cases (seen.filter (isSet flag)).getLast? with
  | none => simp
  | some q => exact ⟨(field q).str_ne_zero, (field q).length_str_le⟩

theorem applyCust_leftBy_iff (seen : List TSLog) (r : TSLog) :
    applyCust r (leftBy seen) = applyCust r LogCust.zero ↔ CustAlone seen r := by
  cases hc : hasCust r with
  | false =>
    simp only [applyCust, hc, Bool.false_eq_true, reduceIte, CustAlone]
    constructor
    · intro h
      rw [← leftBy_flag, h]
      rfl
    · exact leftBy_of_not_hasCust
  | true =>
    have hfield : ∀ {α : Type} (b : Bool) (x y z : α),
        ((if b then x else y) = if b then x else z) ↔ (b = false → y = z) := by
      intro α b x y z
      cases b <;> simp
    have h₅ := lastSet_str MTLOG_CUST_FLAG_C5_SET (fun q => q.cust.szCust_5) seen
    have h₆ := lastSet_str MTLOG_CUST_FLAG_C6_SET (fun q => q.cust.szCust_6) seen
    rw [leftBy_eq]
    simp only [applyCust, hc, reduceIte, CustAlone, FieldsAlone, LogCust.mk.injEq, true_and, hfield,
      LogCust.zero, strncpy_eq_zero_iff h₅.1 h₅.2, strncpy_eq_zero_iff h₆.1 h₆.2]

theorem outOf_inj {c c' : LogCust} : outOf r c = outOf r c' ↔ c = c' := by
  simp [outOf]

theorem scanLogs_iff (seen rs : List TSLog) :
    scanLogs s (leftBy seen) rs = (rs.filter (isMatch s)).map ownOut ↔ NoLeak s seen rs := by
  induction rs generalizing seen with
  | nil => simp [scanLogs, NoLeak]
  | cons r rs ih =>
    rw [scanLogs, NoLeak]
    by_cases hm : isMatch s r = true
    · rw [if_pos hm, if_pos hm, List.filter_cons_of_pos hm, List.map_cons, List.cons.injEq, ownOut,
        outOf_inj, applyCust_leftBy_iff]
      exact and_congr_right' (ih [])
    · rw [if_neg hm, if_neg hm, List.filter_cons_of_neg hm]
      by_cases hr : isRead s r = true
      · rw [if_pos hr, if_pos hr, ← leftBy_concat]
        exact ih (seen ++ [r])
      · rw [if_neg hr, if_neg hr]
        exact ih seen

end Leaks

section Results

variable {s : CSLogSearch} {files : List WrittenFile}

/-- The logs that match the search, each with its own text, ids, time and custom fields. -/
def matchingLogs (s : CSLogSearch) (files : List WrittenFile) : List TSLogOut :=
  (searchedFiles s files).flatMap fun w => (w.logs.filter (isMatch s)).map ownOut

/-- The successive results of a search are the logs that match. -/
def SearchRight (s : CSLogSearch) (files : List WrittenFile) : Prop :=
  ∃ n, historyLogs s (files.map WrittenFile.file) n startPos = some (matchingLogs s files)

/-- No log that matches stands in a file that is hidden, and nothing leaks. -/
def NothingHidden (s : CSLogSearch) (files : List WrittenFile) : Prop :=
  (∀ w ∈ hiddenFiles s files, ∀ r ∈ w.logs, isMatch s r = false) ∧
    ∀ w ∈ searchedFiles s files, NoLeak s [] w.logs

instance (s : CSLogSearch) (files : List WrittenFile) : Decidable (NothingHidden s files) :=
  inferInstanceAs (Decidable (_ ∧ _))

theorem flatMap_eq_iff {α β : Type} {f g : α → List β} {xs : List α}
    (h : ∀ x ∈ xs, (f x).length = (g x).length) :
    xs.flatMap f = xs.flatMap g ↔ ∀ x ∈ xs, f x = g x := by
  induction xs with
  | nil => simp
  | cons x xs ih =>
    have hx : (f x).length = (g x).length := h x (by simp)
    have hrest := ih fun y hy => h y (by simp [hy])
    rw [List.flatMap_cons, List.flatMap_cons]
    constructor
    · intro heq
      obtain ⟨h₁, h₂⟩ := List.append_inj heq hx
      intro y hy
      obtain rfl | hy := List.mem_cons.mp hy
      · exact h₁
      · exact hrest.mp h₂ y hy
    · intro hall
      rw [hall x (by simp), hrest.mpr fun y hy => hall y (by simp [hy])]

theorem foundIn_iff (files : List WrittenFile) :
    (foundIn s files = files.flatMap fun w => (w.logs.filter (isMatch s)).map ownOut) ↔
      ∀ w ∈ files, NoLeak s [] w.logs := by
  rw [foundIn, flatMap_eq_iff fun w _ => by simp [length_scanLogs]]
  exact forall₂_congr fun w _ => scanLogs_iff [] w.logs

theorem noLeak_of_not_isMatch {rs : List TSLog} (h : ∀ r ∈ rs, isMatch s r = false) :
    NoLeak s [] rs := by
  rw [← scanLogs_iff, scanLogs_eq_nil h, List.filter_eq_nil_iff.mpr]
  · rfl
  · intro r hr
    simp [h r hr]

theorem flatMap_own_eq_nil_iff (files : List WrittenFile) :
    (files.flatMap fun w => (w.logs.filter (isMatch s)).map ownOut) = [] ↔
      ∀ w ∈ files, ∀ r ∈ w.logs, isMatch s r = false := by
  simp [List.flatMap_eq_nil_iff]

theorem searchRight_iff_found (hlen : files.length ≤ SLOG_LOG_FILES_COUNT_MAX) :
    SearchRight s files ↔ foundIn s (selectedFiles s files) = matchingLogs s files := by
  constructor
  · rintro ⟨n, hn⟩
    rw [historyLogs_eq hlen] at hn
    split at hn
    · exact Option.some.inj hn
    · cases hn
  · intro heq
    refine ⟨(foundIn s (selectedFiles s files)).length + 1, ?_⟩
    rw [historyLogs_eq hlen, if_pos (Nat.lt_succ_self _), heq]

/-- A search gives exactly the logs that match, each with its own fields, if and only if no such log
stands in a hidden file and no field of a log that was read before leaks into one. -/
theorem search_right_iff (s : CSLogSearch) (files : List WrittenFile)
    (hlen : files.length ≤ SLOG_LOG_FILES_COUNT_MAX) :
    SearchRight s files ↔ NothingHidden s files := by
  rw [searchRight_iff_found hlen, NothingHidden]
  by_cases hname : s.m_strLogFile = []
  · have hsel : selectedFiles s files =
        (files.dropWhile (endsEarly s)).takeWhile (beginsInTime s) := by simp [selectedFiles, hname]
    have hhid : hiddenFiles s files =
        (files.dropWhile (endsEarly s)).dropWhile (beginsInTime s) := by simp [hiddenFiles, hname]
    have hall : searchedFiles s files = files := by simp [searchedFiles, hname]
    have hsplit : files.takeWhile (endsEarly s) ++
        (selectedFiles s files ++ hiddenFiles s files) = files := by
      rw [hsel, hhid, List.takeWhile_append_dropWhile, List.takeWhile_append_dropWhile]
    have hearly : ∀ w ∈ files.takeWhile (endsEarly s), ∀ r ∈ w.logs, isMatch s r = false :=
      fun w hw => isMatch_of_outside hname (Or.inr (List.mem_takeWhile_imp hw))
    have hmatch : matchingLogs s files =
        ((selectedFiles s files).flatMap fun w => (w.logs.filter (isMatch s)).map ownOut) ++
          (hiddenFiles s files).flatMap fun w => (w.logs.filter (isMatch s)).map ownOut := by
      rw [matchingLogs, hall]
      conv_lhs => rw [← hsplit]
      rw [List.flatMap_append, List.flatMap_append, (flatMap_own_eq_nil_iff _).mpr hearly,
        List.nil_append]
    have hlength : (foundIn s (selectedFiles s files)).length =
        ((selectedFiles s files).flatMap fun w =>
          (w.logs.filter (isMatch s)).map ownOut).length := by
      simp [foundIn, List.length_flatMap, length_scanLogs]
    have hparts : foundIn s (selectedFiles s files) = matchingLogs s files ↔
        (∀ w ∈ hiddenFiles s files, ∀ r ∈ w.logs, isMatch s r = false) ∧
          ∀ w ∈ selectedFiles s files, NoLeak s [] w.logs := by
      rw [hmatch, ← flatMap_own_eq_nil_iff, ← foundIn_iff]
      constructor
      · intro heq
        rw [← List.append_nil (foundIn s (selectedFiles s files))] at heq
        obtain ⟨hfound, hnil⟩ := List.append_inj heq hlength
        exact ⟨hnil.symm, hfound⟩
      · rintro ⟨hnil, hfound⟩
        rw [hnil, List.append_nil, hfound]
    rw [hparts, hall]
    refine and_congr_right fun hhidden => ?_
    constructor
    · intro hleak w hw
      rw [← hsplit] at hw
      obtain hw | hw := List.mem_append.mp hw
      · exact noLeak_of_not_isMatch (hearly w hw)
      · obtain hw | hw := List.mem_append.mp hw
        · exact hleak w hw
        · exact noLeak_of_not_isMatch (hhidden w hw)
    · intro hleak w hw
      apply hleak
      rw [← hsplit]
      simp [hw]
  · have hsel : selectedFiles s files = namedFile s files := by simp [selectedFiles, hname]
    have hhid : hiddenFiles s files = [] := by simp [hiddenFiles, hname]
    have hall : searchedFiles s files = namedFile s files := by simp [searchedFiles, hname]
    rw [hsel, hhid, hall, matchingLogs, hall, foundIn_iff]
    simp

/-- A log with one character of text, and field 1 when it is not zero. -/
def shortLog (b : UInt8) (hb : b ≠ 0) (dwCust_1 : UInt32) (qwLogTime : UInt64) : TSLog where
  cust :=
    { LogCust.zero with
      bCustFlag := if dwCust_1 = 0 then 0 else MTLOG_CUST_FLAG_C1_SET
      dwCust_1 := dwCust_1 }
  dwLogConfigId := 1
  dwLogHost := 1
  dwLogSeq := 1
  qwLogTime := qwLogTime
  iAppId := 1
  iModuleId := 1
  wLogType := 2
  text := ⟨[b], by simpa using hb, by simp [BWORLD_SLOG_MAX_LINE_LEN]⟩

/-- A search for the keyword `b`. -/
def keySearch : CSLogSearch where
  m_strLogFile := []
  m_iLogTypeFlag := 255
  m_iLogAppId := 1
  m_arrLogModuleId := []
  m_stIncKey := [⟨[98], fun text => strstr text [98]⟩]
  m_stExcpKey := []
  m_iReportMachine := 0
  m_qwTimeStart := 0
  m_qwTimeEnd := 100
  ipv4AddrStr := fun _ => [48, 46, 48, 46, 48, 46, 49]

/-- Two files: the logs `b` with field 1 and `a` without, and the log `b` with field 1. -/
def cleanFiles : List WrittenFile :=
  [⟨[49], shortLog 98 (by decide) 7 10, [shortLog 97 (by decide) 0 20], by decide⟩,
    ⟨[50], shortLog 98 (by decide) 8 30, [], by decide⟩]

theorem search_right_iff_cleanFiles :
    cleanFiles.length ≤ SLOG_LOG_FILES_COUNT_MAX ∧ NothingHidden keySearch cleanFiles ∧
      SearchRight keySearch cleanFiles :=
  ⟨by decide, by decide +kernel,
    (search_right_iff keySearch cleanFiles (by decide)).mpr (by decide +kernel)⟩

/-- The log `a` with field 1, and the log `b` without. -/
def leakyFile : WrittenFile :=
  ⟨[49], shortLog 97 (by decide) 7 10, [shortLog 98 (by decide) 0 20], by decide⟩

/-- Field 1 of the log `a`, which does not match, is given with the log `b`. -/
theorem search_leaks : ¬ SearchRight keySearch [leakyFile] := by
  rw [searchRight_iff_found (by decide)]
  decide +kernel

end Results

end XrkMonitor.LogSearch
