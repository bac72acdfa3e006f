import XrkMonitor.LogSearch.RoundTrip

/-!
# The end of a search

`IsSearchHistoryComplete` says from the place where the last `HistoryLog` stopped whether
there is something left to look at. The calls of a search stop behind the records that
match, one after another, and then at the end of the last file.

## Implementation notes

The flag is compared with the records that the search has passed. `m_dwCurFileHasRecords`
is followed beside the place of the search, call by call.
-/

namespace XrkMonitor.LogSearch

open Library ServerLog

section Flag

/-- `IsSearchHistoryComplete`. -/
def isSearchHistoryComplete (p : SearchPos) (m_dwCurFileHasRecords : Nat) : Bool :=
  decide (p.m_wFileCount ≤ 0) ||
    (decide (p.m_wFileCount ≤ p.m_wFileNo + 1) &&
      decide (m_dwCurFileHasRecords ≤ p.m_dwFilePos + 1))

/-- The part of `HistoryLog` that chooses the files. -/
def selectPos (s : CSLogSearch) (files : List LogFile) (p : SearchPos) : SearchPos :=
  if p.m_wFileCount = 0 then
    let (star, count) := selectFiles s files 0 SLOG_LOG_FILES_COUNT_MAX 0
    if star < SLOG_LOG_FILES_COUNT_MAX then ⟨0, 0, count, star⟩
    else
      { p with
        m_wFileIndexStar := star
        m_wFileCount := count }
  else p

/-- `m_dwCurFileHasRecords` after the loop over the files; every file that is read sets it. -/
def scanFilesRecords (s : CSLogSearch) (files : List LogFile) : Nat → Nat → SearchPos → Nat
  | 0, cur, _ => cur
  | n + 1, cur, p =>
    match files[p.m_wFileIndexStar + p.m_wFileNo]? with
    | none => cur
    | some f =>
      match readLogFileVersion2 s f (f.iLogRecordsWrite - p.m_dwFilePos) p.m_dwFilePos
          TSLogOut.zero with
      | (some _, _) => f.iLogRecordsWrite
      | (none, _) =>
        if p.m_wFileCount ≤ p.m_wFileNo + 1 then f.iLogRecordsWrite
        else
          scanFilesRecords s files n f.iLogRecordsWrite
            { p with
              m_wFileNo := p.m_wFileNo + 1
              m_dwFilePos := 0 }

/-- The place of the search and `m_dwCurFileHasRecords` after `n` calls of `HistoryLog`. -/
def searchAfter (s : CSLogSearch) (files : List LogFile) : Nat → SearchPos × Nat
  | 0 => (startPos, 0)
  | n + 1 =>
    let p := (searchAfter s files n).1
    let q := selectPos s files p
    ((historyLog s files p).2,
      scanFilesRecords s files
        (SLOG_LOG_FILES_COUNT_MAX - (q.m_wFileIndexStar + q.m_wFileNo)) 0 q)

theorem historyLog_eq (s : CSLogSearch) (files : List LogFile) (p : SearchPos) :
    historyLog s files p =
      scanFiles s files
        (SLOG_LOG_FILES_COUNT_MAX -
          ((selectPos s files p).m_wFileIndexStar + (selectPos s files p).m_wFileNo))
        (selectPos s files p) := rfl

end Flag

section Records

/-- Record `j` of the file can be read. -/
structure RecordReadable (f : LogFile) (j : Nat) : Prop where
  index : indexPos j + sizeofIndex ≤ f.size
  text : (readText f (readIndex f.mem (indexPos j))).isSome = true
  cust : (readLogCust f (readIndex f.mem (indexPos j)) LogCust.zero).isSome = true

/-- The output record with the ids of an index. -/
def idsOut (stIndex : SLogFileLogIndex) : TSLogOut :=
  { TSLogOut.zero with
    iAppId := stIndex.iAppId
    iModuleId := stIndex.iModuleId
    wLogType := stIndex.wLogType
    dwLogHost := stIndex.dwLogHost }

/-- The search finds record `j` of the file. -/
def recordFound (s : CSLogSearch) (f : LogFile) (j : Nat) : Bool :=
  let stIndex := readIndex f.mem (indexPos j)
  (decide (s.m_strLogFile ≠ []) ||
    (decide (s.m_qwTimeStart ≤ stIndex.qwLogTime) && decide (stIndex.qwLogTime ≤ s.m_qwTimeEnd))) &&
  isIdMatch s (idsOut stIndex) &&
  match readText f stIndex with
  | some sLogBuf => isTextMatch s (idsOut stIndex) sLogBuf
  | none => false

/-- How many records the selected file `k` has. -/
def recordsOf (files : List LogFile) (star k : Nat) : Nat :=
  match files[star + k]? with
  | some f => f.iLogRecordsWrite
  | none => 0

/-- The search finds record `j` of the selected file `k`. -/
def foundAt (s : CSLogSearch) (files : List LogFile) (star k j : Nat) : Bool :=
  match files[star + k]? with
  | some f => recordFound s f j
  | none => false

/-- Every record of the selected files was passed. -/
def AllExamined (files : List LogFile) (p : SearchPos) : Prop :=
  ∀ k < p.m_wFileCount, ∀ j < recordsOf files p.m_wFileIndexStar k,
    k < p.m_wFileNo ∨ k = p.m_wFileNo ∧ j < p.m_dwFilePos

instance (files : List LogFile) (p : SearchPos) : Decidable (AllExamined files p) :=
  inferInstanceAs (Decidable (∀ k < p.m_wFileCount, ∀ j < recordsOf files p.m_wFileIndexStar k,
    k < p.m_wFileNo ∨ k = p.m_wFileNo ∧ j < p.m_dwFilePos))

/-- The flag is set exactly when every record was passed. -/
def FlagRight (files : List LogFile) (st : SearchPos × Nat) : Prop :=
  isSearchHistoryComplete st.1 st.2 = true ↔ AllExamined files st.1

instance (files : List LogFile) (st : SearchPos × Nat) : Decidable (FlagRight files st) :=
  inferInstanceAs (Decidable (_ ↔ _))

/-- The flag is right after every call of a search. -/
def CompletionRight (s : CSLogSearch) (files : List LogFile) : Prop :=
  ∀ n, FlagRight files (searchAfter s files (n + 1))

/-- Every record of the selected files can be read. -/
def SelectedReadable (s : CSLogSearch) (files : List LogFile) : Prop :=
  let (star, count) := selectFiles s files 0 SLOG_LOG_FILES_COUNT_MAX 0
  ∀ k < count, ∀ f, files[star + k]? = some f → ∀ j < f.iLogRecordsWrite, RecordReadable f j

/-- A record that is found at `j` ends neither the last but one place of the last selected file nor
a file behind which the selected files are empty. -/
def MidFile (files : List LogFile) (star count k j : Nat) : Prop :=
  ¬ (k + 1 = count ∧ j + 2 = recordsOf files star k) ∧
    ¬ (k + 1 < count ∧ j + 1 = recordsOf files star k ∧
      ∀ l < count, k < l → recordsOf files star l = 0)

instance (files : List LogFile) (star count k j : Nat) : Decidable (MidFile files star count k j) :=
  inferInstanceAs (Decidable (_ ∧ ¬ (_ ∧ _ ∧ ∀ l < count, _ → _)))

/-- No record that is found is the last but one of the last selected file, or the last one of a file
behind which the selected files are empty. -/
def NoEarlyEnd (s : CSLogSearch) (files : List LogFile) : Prop :=
  let (star, count) := selectFiles s files 0 SLOG_LOG_FILES_COUNT_MAX 0
  ∀ k < count, ∀ j < recordsOf files star k,
    foundAt s files star k j = true → MidFile files star count k j

instance (s : CSLogSearch) (files : List LogFile) : Decidable (NoEarlyEnd s files) :=
  inferInstanceAs (Decidable (∀ k < (selectFiles s files 0 SLOG_LOG_FILES_COUNT_MAX 0).2,
    ∀ j < recordsOf files (selectFiles s files 0 SLOG_LOG_FILES_COUNT_MAX 0).1 k, _ → _))

/-- The places of the records that are found in the selected file `k` from place `p` on. -/
def places (s : CSLogSearch) (files : List LogFile) (star k p : Nat) : List (Nat × Nat) :=
  ((List.range' p (recordsOf files star k - p)).filter (foundAt s files star k)).map (Prod.mk k)

/-- The places of the records that are found from where the search stands. -/
def ahead (s : CSLogSearch) (files : List LogFile) (p : SearchPos) : List (Nat × Nat) :=
  places s files p.m_wFileIndexStar p.m_wFileNo p.m_dwFilePos ++
    (List.range' (p.m_wFileNo + 1) (p.m_wFileCount - (p.m_wFileNo + 1))).flatMap fun k =>
      places s files p.m_wFileIndexStar k 0

/-- Where a call stops: behind the record that it found, or at the end of the last file. -/
def stopAt (files : List LogFile) (star count : Nat) : Option (Nat × Nat) → SearchPos × Nat
  | some (k, j) => (⟨k, j + 1, count, star⟩, recordsOf files star k)
  | none =>
    (⟨count - 1, recordsOf files star (count - 1), count, star⟩,
      recordsOf files star (count - 1))

/-- The search stands in a selected file. -/
structure InFile (files : List LogFile) (p : SearchPos) : Prop where
  fileNo : p.m_wFileNo < p.m_wFileCount
  listed : p.m_wFileIndexStar + p.m_wFileCount ≤ files.length
  filePos : p.m_dwFilePos ≤ recordsOf files p.m_wFileIndexStar p.m_wFileNo

end Records

section Selection

variable {s : CSLogSearch}

/-- Either no file is selected, or the selected files are in the list. -/
theorem selectFiles_bounds (fs : List LogFile) (i star count : Nat)
    (h : SLOG_LOG_FILES_COUNT_MAX ≤ star ∧ count = 0 ∨
      star < SLOG_LOG_FILES_COUNT_MAX ∧ star + count ≤ i)
    (hlen : i + fs.length ≤ SLOG_LOG_FILES_COUNT_MAX) :
    SLOG_LOG_FILES_COUNT_MAX ≤ (selectFiles s fs i star count).1 ∧
        (selectFiles s fs i star count).2 = 0 ∨
      (selectFiles s fs i star count).1 < SLOG_LOG_FILES_COUNT_MAX ∧
        (selectFiles s fs i star count).1 + (selectFiles s fs i star count).2 ≤ i + fs.length := by
  induction fs generalizing i star count with
  | nil => exact h
  | cons f fs ih =>
    rw [List.length_cons] at hlen ⊢
    have hnext : i + 1 + fs.length = i + (fs.length + 1) := by omega
    rw [selectFiles, ← hnext]
    by_cases hname : s.m_strLogFile ≠ []
    · rw [if_pos hname]
      by_cases hfile : strstr f.szAbsFileName s.m_strLogFile = true
      · rw [if_pos hfile]
        right
        constructor
        · change i < _
          omega
        · change i + 1 ≤ _
          omega
      · rw [if_neg hfile]
        apply ih
        · omega
        · omega
    · rw [if_neg hname]
      by_cases hearly : SLOG_LOG_FILES_COUNT_MAX ≤ star ∧ f.qwLogTimeEnd < s.m_qwTimeStart
      · rw [if_pos hearly]
        apply ih
        · omega
        · omega
      · rw [if_neg hearly]
        obtain ⟨star', hstar', hlt, hle⟩ : ∃ star',
            (if SLOG_LOG_FILES_COUNT_MAX ≤ star then i else star) = star' ∧
              star' < SLOG_LOG_FILES_COUNT_MAX ∧ star' + count ≤ i := by
          by_cases hge : SLOG_LOG_FILES_COUNT_MAX ≤ star
          · exact ⟨i, if_pos hge, by omega, by omega⟩
          · exact ⟨star, if_neg hge, by omega, by omega⟩
        simp only [hstar']
        by_cases hlate : s.m_qwTimeEnd < f.qwLogTimeStart
        · rw [if_pos hlate]
          right
          constructor
          · exact hlt
          · change star' + count ≤ _
            omega
        · rw [if_neg hlate]
          apply ih
          · omega
          · omega

theorem selectPos_of_pos (files : List LogFile) {p : SearchPos} (h : 0 < p.m_wFileCount) :
    selectPos s files p = p := by
  rw [selectPos, if_neg (Nat.ne_of_gt h)]

end Selection

section Scan

variable {s : CSLogSearch} {f : LogFile}

theorem isSome_readLogCust {stIndex : SLogFileLogIndex}
    (h : (readLogCust f stIndex LogCust.zero).isSome = true) (c : LogCust) :
    ∃ c', readLogCust f stIndex c = some c' := by
  simp only [readLogCust] at h ⊢
  by_cases hpos : 0 < stIndex.bLogCustLen.toNat
  · rw [if_pos hpos] at h ⊢
    by_cases hsize : f.size < stIndex.dwLogCustPos.toNat + stIndex.bLogCustLen.toNat
    · rw [if_pos hsize] at h
      cases h
    · exact ⟨_, if_neg hsize⟩
  · exact ⟨c, if_neg hpos⟩

theorem readLogFileVersion2_record {j : Nat} (h : RecordReadable f j) (n : Nat) (o : TSLogOut) :
    ∃ x o', readLogFileVersion2 s f (n + 1) j o =
      if recordFound s f j = true then (some x, j + 1) else readLogFileVersion2 s f n (j + 1) o' := by
  obtain ⟨stIndex, hindex⟩ : ∃ stIndex, stIndex = readIndex f.mem (indexPos j) := ⟨_, rfl⟩
  obtain ⟨text, htext⟩ := Option.isSome_iff_exists.mp h.text
  obtain ⟨cust, hcust⟩ := isSome_readLogCust h.cust o.cust
  rw [← hindex] at htext hcust
  rw [readLogFileVersion2, if_neg (Nat.not_lt.mpr h.index), recordFound, ← hindex]
  simp only [htext]
  by_cases htime : s.m_strLogFile = [] ∧
      (stIndex.qwLogTime < s.m_qwTimeStart ∨ s.m_qwTimeEnd < stIndex.qwLogTime)
  · have hout : (decide (s.m_strLogFile ≠ []) ||
        (decide (s.m_qwTimeStart ≤ stIndex.qwLogTime) &&
          decide (stIndex.qwLogTime ≤ s.m_qwTimeEnd))) = false := by
      simp only [← UInt64.not_le] at htime
      simp only [Bool.or_eq_false_iff, Bool.and_eq_false_iff, decide_eq_false_iff_not, not_not]
      exact htime
    refine ⟨o, o, ?_⟩
    rw [if_pos htime, hout]
    simp
  · have hin : (decide (s.m_strLogFile ≠ []) ||
        (decide (s.m_qwTimeStart ≤ stIndex.qwLogTime) &&
          decide (stIndex.qwLogTime ≤ s.m_qwTimeEnd))) = true := by
      simp only [← UInt64.not_le] at htime
      simp only [Bool.or_eq_true, Bool.and_eq_true, decide_eq_true_eq]
      tauto
    rw [if_neg htime, hin, Bool.true_and]
    have hid : isIdMatch s
        { o with
          iAppId := stIndex.iAppId
          iModuleId := stIndex.iModuleId
          wLogType := stIndex.wLogType
          dwLogHost := stIndex.dwLogHost } = isIdMatch s (idsOut stIndex) := rfl
    simp only [hid, hcust]
    cases isIdMatch s (idsOut stIndex) with
    | false =>
      simp only [Bool.not_false, Bool.false_and, Bool.false_eq_true, reduceIte]
      exact ⟨o, _, rfl⟩
    | true =>
      simp only [Bool.not_true, Bool.false_eq_true, reduceIte, Bool.true_and]
      exact ⟨_, _, rfl⟩

theorem readLogFileVersion2_places (h : ∀ j < f.iLogRecordsWrite, RecordReadable f j) (n j : Nat)
    (hn : j + n = f.iLogRecordsWrite) (o : TSLogOut) :
    match (List.range' j n).filter (recordFound s f) with
    | [] => readLogFileVersion2 s f n j o = (none, f.iLogRecordsWrite)
    | k :: ks => k < f.iLogRecordsWrite ∧
        (∃ x, readLogFileVersion2 s f n j o = (some x, k + 1)) ∧
        ks = (List.range' (k + 1) (f.iLogRecordsWrite - (k + 1))).filter (recordFound s f) := by
  induction n generalizing j o with
  | zero =>
    change (none, j) = (none, f.iLogRecordsWrite)
    rw [← hn, Nat.add_zero]
  | succ n ih =>
    obtain ⟨x, o', hstep⟩ := readLogFileVersion2_record (s := s) (h j (by omega)) n o
    rw [List.range'_succ, hstep]
    by_cases hfound : recordFound s f j = true
    · rw [List.filter_cons_of_pos hfound, if_pos hfound]
      refine ⟨by omega, ⟨x, rfl⟩, ?_⟩
      have hrest : f.iLogRecordsWrite - (j + 1) = n := by omega
      rw [hrest]
    · rw [List.filter_cons_of_neg hfound, if_neg hfound]
      exact ih (j + 1) (by omega) o'

end Scan

section Call

variable {s : CSLogSearch} {files : List LogFile}

theorem recordsOf_of_get {star k : Nat} {f : LogFile} (h : files[star + k]? = some f) :
    recordsOf files star k = f.iLogRecordsWrite := by
  rw [recordsOf, h]

theorem foundAt_of_get {star k : Nat} {f : LogFile} (h : files[star + k]? = some f) :
    foundAt s files star k = recordFound s f := by
  funext j
  rw [foundAt, h]

theorem ahead_stopAt_none {star count : Nat} (hcount : 0 < count) :
    ahead s files (stopAt files star count none).1 = [] := by
  have hlast : count - (count - 1 + 1) = 0 := by omega
  simp [ahead, stopAt, places, hlast]

theorem ahead_next {p : SearchPos} (hnext : p.m_wFileNo + 1 < p.m_wFileCount)
    (hnone : places s files p.m_wFileIndexStar p.m_wFileNo p.m_dwFilePos = []) :
    ahead s files p =
      ahead s files ⟨p.m_wFileNo + 1, 0, p.m_wFileCount, p.m_wFileIndexStar⟩ := by
  have hsucc : p.m_wFileCount - (p.m_wFileNo + 1) = p.m_wFileCount - (p.m_wFileNo + 1 + 1) + 1 := by
    omega
  rw [ahead, hnone, List.nil_append, hsucc, List.range'_succ, List.flatMap_cons]
  rfl

/-- A call stops at the first place that is ahead, and the other places stay ahead. -/
theorem scanFiles_places (n cur : Nat) (p : SearchPos) (hp : InFile files p)
    (hn : files.length ≤ n + (p.m_wFileIndexStar + p.m_wFileNo))
    (hread : ∀ k < p.m_wFileCount, ∀ f, files[p.m_wFileIndexStar + k]? = some f →
      ∀ j < f.iLogRecordsWrite, RecordReadable f j) :
    ((scanFiles s files n p).2, scanFilesRecords s files n cur p) =
        stopAt files p.m_wFileIndexStar p.m_wFileCount (ahead s files p).head? ∧
      InFile files
        (stopAt files p.m_wFileIndexStar p.m_wFileCount (ahead s files p).head?).1 ∧
      ahead s files (stopAt files p.m_wFileIndexStar p.m_wFileCount (ahead s files p).head?).1 =
        (ahead s files p).tail := by
  induction n generalizing cur p with
  | zero =>
    have h₁ := hp.fileNo
    have h₂ := hp.listed
    omega
  | succ n ih =>
    have h₁ := hp.fileNo
    have h₂ := hp.listed
    have h₃ := hp.filePos
    obtain ⟨f, hf⟩ : ∃ f, files[p.m_wFileIndexStar + p.m_wFileNo]? = some f :=
      ⟨_, List.getElem?_eq_getElem (by omega)⟩
    have hrecords := recordsOf_of_get hf
    have hplaces : places s files p.m_wFileIndexStar p.m_wFileNo p.m_dwFilePos =
        ((List.range' p.m_dwFilePos (f.iLogRecordsWrite - p.m_dwFilePos)).filter
          (recordFound s f)).map (Prod.mk p.m_wFileNo) := by
      rw [places, hrecords, foundAt_of_get hf]
    have hcall := readLogFileVersion2_places (s := s) (hread p.m_wFileNo h₁ f hf)
      (f.iLogRecordsWrite - p.m_dwFilePos) p.m_dwFilePos (by omega) TSLogOut.zero
    rw [scanFiles, scanFilesRecords, hf]
    cases hfound : (List.range' p.m_dwFilePos (f.iLogRecordsWrite - p.m_dwFilePos)).filter
        (recordFound s f) with
    | cons k ks =>
      rw [hfound] at hcall hplaces
      obtain ⟨hk, ⟨x, hres⟩, hks⟩ := hcall
      have hahead : ahead s files p = (p.m_wFileNo, k) ::
          (ks.map (Prod.mk p.m_wFileNo) ++
            (List.range' (p.m_wFileNo + 1) (p.m_wFileCount - (p.m_wFileNo + 1))).flatMap fun l =>
              places s files p.m_wFileIndexStar l 0) := by
        rw [ahead, hplaces]
        rfl
      simp only [hres, hahead, List.head?_cons, List.tail_cons, stopAt, hrecords, true_and]
      refine ⟨⟨h₁, h₂, ?_⟩, ?_⟩
      · change k + 1 ≤ recordsOf files p.m_wFileIndexStar p.m_wFileNo
        rw [hrecords]
        exact hk
      · rw [ahead, places, hrecords, foundAt_of_get hf, ← hks]
    | nil =>
      rw [hfound] at hcall hplaces
      simp only [hcall]
      by_cases hlast : p.m_wFileCount ≤ p.m_wFileNo + 1
      · have hno : p.m_wFileCount - 1 = p.m_wFileNo := by omega
        have hzero : p.m_wFileCount - (p.m_wFileNo + 1) = 0 := by omega
        have hahead : ahead s files p = [] := by
          rw [ahead, hplaces, hzero]
          rfl
        rw [if_pos hlast, if_pos hlast, hahead]
        refine ⟨?_, ⟨?_, h₂, Nat.le_refl _⟩, ahead_stopAt_none (by omega)⟩
        · simp only [List.head?_nil, stopAt, hno, hrecords]
        · change p.m_wFileCount - 1 < p.m_wFileCount
          omega
      · have hnext : p.m_wFileNo + 1 < p.m_wFileCount := Nat.lt_of_not_le hlast
        rw [if_neg hlast, if_neg hlast, ahead_next hnext hplaces]
        apply ih f.iLogRecordsWrite ⟨p.m_wFileNo + 1, 0, p.m_wFileCount, p.m_wFileIndexStar⟩
        · exact ⟨hnext, h₂, Nat.zero_le _⟩
        · change files.length ≤ n + (p.m_wFileIndexStar + (p.m_wFileNo + 1))
          omega
        · exact hread

end Call

section Run

variable {s : CSLogSearch} {files : List LogFile} {star count k j : Nat}

/-- The calls of a search stop behind the places of the records that are found, in turn, and then at
the end. -/
theorem searchAfter_succ (hlen : files.length ≤ SLOG_LOG_FILES_COUNT_MAX) {star count : Nat}
    (hsel : selectFiles s files 0 SLOG_LOG_FILES_COUNT_MAX 0 = (star, count)) (hcount : 0 < count)
    (hread : ∀ k < count, ∀ f, files[star + k]? = some f →
      ∀ j < f.iLogRecordsWrite, RecordReadable f j) (n : Nat) :
    searchAfter s files (n + 1) =
        stopAt files star count (ahead s files ⟨0, 0, count, star⟩)[n]? ∧
      InFile files (searchAfter s files (n + 1)).1 ∧
      ahead s files (searchAfter s files (n + 1)).1 =
        (ahead s files ⟨0, 0, count, star⟩).drop (n + 1) := by
  have hbounds := selectFiles_bounds (s := s) files 0 SLOG_LOG_FILES_COUNT_MAX 0
    (Or.inl ⟨Nat.le_refl _, rfl⟩) (by omega)
  rw [hsel] at hbounds
  obtain ⟨hstar, hle⟩ : star < SLOG_LOG_FILES_COUNT_MAX ∧ star + count ≤ 0 + files.length := by
    obtain ⟨-, hzero⟩ | h := hbounds
    · exact absurd hzero (Nat.ne_of_gt hcount)
    · exact h
  rw [Nat.zero_add] at hle
  have hcall : ∀ p q, selectPos s files p = q → q.m_wFileIndexStar = star →
      q.m_wFileCount = count → InFile files q →
      ((historyLog s files p).2, scanFilesRecords s files
        (SLOG_LOG_FILES_COUNT_MAX - (q.m_wFileIndexStar + q.m_wFileNo)) 0 q) =
          stopAt files star count (ahead s files q).head? ∧
        InFile files (stopAt files star count (ahead s files q).head?).1 ∧
        ahead s files (stopAt files star count (ahead s files q).head?).1 =
          (ahead s files q).tail := by
    rintro p q hpos rfl rfl hq
    rw [historyLog_eq, hpos]
    exact scanFiles_places _ 0 q hq (by omega) hread
  induction n with
  | zero =>
    have hfirst : selectPos s files startPos = ⟨0, 0, count, star⟩ := by
      simp [selectPos, startPos, hsel, hstar]
    have hin : InFile files ⟨0, 0, count, star⟩ := ⟨hcount, hle, Nat.zero_le _⟩
    obtain ⟨hstop, hnext, htail⟩ := hcall startPos _ hfirst rfl rfl hin
    have hafter : searchAfter s files (0 + 1) =
        stopAt files star count (ahead s files ⟨0, 0, count, star⟩).head? := by
      rw [← hstop, searchAfter]
      simp only [searchAfter, hfirst]
    rw [hafter, ← List.head?_eq_getElem?, List.drop_one]
    exact ⟨rfl, hnext, htail⟩
  | succ n ih =>
    obtain ⟨hafter, hin, hdrop⟩ := ih
    have hsame : (searchAfter s files (n + 1)).1.m_wFileIndexStar = star ∧
        (searchAfter s files (n + 1)).1.m_wFileCount = count := by
      rw [hafter]
      cases (ahead s files ⟨0, 0, count, star⟩)[n]? with
      | none => exact ⟨rfl, rfl⟩
      | some x => exact ⟨rfl, rfl⟩
    have hpos : selectPos s files (searchAfter s files (n + 1)).1 =
        (searchAfter s files (n + 1)).1 := by
      apply selectPos_of_pos
      rw [hsame.2]
      exact hcount
    obtain ⟨hstop, hnext, htail⟩ := hcall _ _ hpos hsame.1 hsame.2 hin
    have hgo : searchAfter s files (n + 1 + 1) =
        stopAt files star count (ahead s files (searchAfter s files (n + 1)).1).head? := by
      rw [← hstop, searchAfter]
      simp only [hpos]
    rw [hgo]
    rw [hdrop, List.head?_drop] at hnext htail ⊢
    rw [List.tail_drop] at htail
    exact ⟨rfl, hnext, htail⟩

theorem searchAfter_count_zero {star : Nat}
    (hsel : selectFiles s files 0 SLOG_LOG_FILES_COUNT_MAX 0 = (star, 0)) (n : Nat) :
    (searchAfter s files n).1.m_wFileCount = 0 := by
  have hkeep : ∀ (m : Nat) (p : SearchPos),
      (scanFiles s files m p).2.m_wFileCount = p.m_wFileCount := by
    intro m
    induction m with
    | zero =>
      intro p
      rfl
    | succ m ih =>
      intro p
      rw [scanFiles]
      cases files[p.m_wFileIndexStar + p.m_wFileNo]? with
      | none => rfl
      | some f =>
        dsimp only
        split
        · rfl
        · split
          · rfl
          · rw [ih]
  induction n with
  | zero => rfl
  | succ n ih =>
    rw [searchAfter]
    change (historyLog s files (searchAfter s files n).1).2.m_wFileCount = 0
    rw [historyLog_eq, hkeep, selectPos, if_pos ih, hsel]
    dsimp only
    split
    · rfl
    · rfl

/-- Where a call stopped behind a record, the flag is right in the middle of the files only. -/
theorem flagRight_stopAt_some (hk : k < count)
    (hj : j < recordsOf files star k) :
    FlagRight files (stopAt files star count (some (k, j))) ↔ MidFile files star count k j := by
  have hflag : isSearchHistoryComplete ⟨k, j + 1, count, star⟩ (recordsOf files star k) = true ↔
      count ≤ k + 1 ∧ recordsOf files star k ≤ j + 1 + 1 := by
    simp only [isSearchHistoryComplete, Bool.or_eq_true, Bool.and_eq_true, decide_eq_true_eq]
    omega
  have hall : AllExamined files ⟨k, j + 1, count, star⟩ ↔
      j + 1 = recordsOf files star k ∧ ∀ l < count, k < l → recordsOf files star l = 0 := by
    constructor
    · intro h
      refine ⟨?_, ?_⟩
      · by_contra hne
        have hlast := h k hk (j + 1) (by dsimp only; omega)
        dsimp only at hlast
        omega
      · intro l hl hkl
        by_contra hne
        have hfirst := h l hl 0 (Nat.pos_of_ne_zero hne)
        dsimp only at hfirst
        omega
    · rintro ⟨hend, hempty⟩ l hl i hi
      dsimp only at hl hi ⊢
      rcases Nat.lt_trichotomy l k with hlt | rfl | hgt
      · exact Or.inl hlt
      · exact Or.inr ⟨rfl, by omega⟩
      · rw [hempty l hl hgt] at hi
        exact absurd hi (Nat.not_lt_zero i)
  rw [FlagRight, MidFile]
  change (isSearchHistoryComplete ⟨k, j + 1, count, star⟩ (recordsOf files star k) = true ↔
    AllExamined files ⟨k, j + 1, count, star⟩) ↔ _
  rw [hflag, hall]
  by_cases hlast : k + 1 = count
  · have hempty : ∀ l < count, k < l → recordsOf files star l = 0 := by
      intro l hl hkl
      omega
    simp only [hlast, Nat.le_refl, true_and, Nat.lt_irrefl, false_and, not_false_eq_true, and_true]
    constructor
    · intro h htwo
      have := (h.mp (by omega)).1
      omega
    · intro h
      constructor
      · intro hle
        exact ⟨by omega, hempty⟩
      · rintro ⟨hend, -⟩
        omega
  · have hlt : k + 1 < count := by omega
    simp only [hlast, false_and, not_false_eq_true, true_and, hlt]
    constructor
    · rintro h hend
      have := (h.mpr hend).1
      omega
    · intro h
      constructor
      · rintro ⟨hle, -⟩
        omega
      · intro hend
        exact absurd hend h

theorem flagRight_stopAt_none {star count : Nat} (hcount : 0 < count) :
    FlagRight files (stopAt files star count none) := by
  have hall : AllExamined files (stopAt files star count none).1 := by
    intro k hk j hj
    change k < count at hk
    change j < recordsOf files star k at hj
    change k < count - 1 ∨ k = count - 1 ∧ j < recordsOf files star (count - 1)
    by_cases hlast : k = count - 1
    · subst hlast
      exact Or.inr ⟨rfl, hj⟩
    · omega
  have hflag : isSearchHistoryComplete (stopAt files star count none).1
      (stopAt files star count none).2 = true := by
    change isSearchHistoryComplete ⟨count - 1, recordsOf files star (count - 1), count, star⟩
      (recordsOf files star (count - 1)) = true
    simp only [isSearchHistoryComplete, Bool.or_eq_true, Bool.and_eq_true, decide_eq_true_eq]
    omega
  exact iff_of_true hflag hall

theorem mem_ahead_start (hcount : 0 < count) :
    (k, j) ∈ ahead s files ⟨0, 0, count, star⟩ ↔
      k < count ∧ j < recordsOf files star k ∧ foundAt s files star k j = true := by
  have hplaces : ∀ l, (k, j) ∈ places s files star l 0 ↔
      l = k ∧ j < recordsOf files star l ∧ foundAt s files star l j = true := by
    intro l
    simp only [places, List.mem_map, List.mem_filter, List.mem_range'_1, Prod.mk.injEq]
    constructor
    · rintro ⟨i, ⟨hi, hfound⟩, rfl, rfl⟩
      exact ⟨rfl, by omega, hfound⟩
    · rintro ⟨rfl, hj, hfound⟩
      exact ⟨j, ⟨by omega, hfound⟩, rfl, rfl⟩
  simp only [ahead, List.mem_append, List.mem_flatMap, hplaces, List.mem_range'_1]
  constructor
  · rintro (⟨rfl, hj, hfound⟩ | ⟨l, hl, rfl, hj, hfound⟩)
    · exact ⟨hcount, hj, hfound⟩
    · exact ⟨by omega, hj, hfound⟩
  · rintro ⟨hk, hj, hfound⟩
    by_cases hzero : k = 0
    · exact Or.inl ⟨hzero.symm, hzero ▸ hj, hzero ▸ hfound⟩
    · exact Or.inr ⟨k, by omega, rfl, hj, hfound⟩

/-- The flag is right after every call if and only if no record that is found is the last but one of
the last selected file, or the last one of a file behind which the selected files are empty. -/
theorem completionRight_iff (s : CSLogSearch) (files : List LogFile)
    (hlen : files.length ≤ SLOG_LOG_FILES_COUNT_MAX) (hread : SelectedReadable s files) :
    CompletionRight s files ↔ NoEarlyEnd s files := by
  obtain ⟨star, count, hsel⟩ : ∃ star count,
      selectFiles s files 0 SLOG_LOG_FILES_COUNT_MAX 0 = (star, count) := ⟨_, _, rfl⟩
  simp only [SelectedReadable, NoEarlyEnd, hsel] at hread ⊢
  obtain rfl | hcount := Nat.eq_zero_or_pos count
  · refine iff_of_true ?_ ?_
    · intro n
      have hzero := searchAfter_count_zero hsel (n + 1)
      refine iff_of_true ?_ ?_
      · simp [isSearchHistoryComplete, hzero]
      · intro k hk
        rw [hzero] at hk
        exact absurd hk (Nat.not_lt_zero k)
    · intro k hk
      exact absurd hk (Nat.not_lt_zero k)
  · constructor
    · intro h k hk j hj hfound
      have hmem := (mem_ahead_start hcount).mpr ⟨hk, hj, hfound⟩
      obtain ⟨n, hn⟩ := List.getElem?_of_mem hmem
      have hflag := h n
      rw [(searchAfter_succ hlen hsel hcount hread n).1, hn] at hflag
      exact (flagRight_stopAt_some hk hj).mp hflag
    · intro h n
      rw [(searchAfter_succ hlen hsel hcount hread n).1]
      cases hn : (ahead s files ⟨0, 0, count, star⟩)[n]? with
      | none => exact flagRight_stopAt_none hcount
      | some x =>
        obtain ⟨k, j⟩ := x
        obtain ⟨hk, hj, hfound⟩ := (mem_ahead_start hcount).mp (List.mem_of_getElem? hn)
        exact (flagRight_stopAt_some hk hj).mpr (h k hk j hj hfound)

end Run

section Written

variable {s : CSLogSearch}

theorem recordReadable_written (w : WrittenFile) {j : Nat} (hj : j < w.logs.length) :
    RecordReadable w.file j ∧ recordFound s w.file j = isMatch s w.logs[j] := by
  obtain ⟨pos, hend, hindex, htext, hcust⟩ :=
    (w.holds.logs j w.logs[j] (List.getElem?_eq_getElem hj)).read
      (Nat.lt_of_lt_of_le hj w.length_le) LogCust.zero
  refine ⟨⟨hend, ?_, ?_⟩, ?_⟩
  · rw [hindex, htext]
    rfl
  · rw [hindex, hcust]
    rfl
  · have hid : isIdMatch s (idsOut (indexOf w.logs[j] pos)) = isIdMatch s (ownOut w.logs[j]) := rfl
    have htextMatch : isTextMatch s (idsOut (indexOf w.logs[j] pos)) w.logs[j].text.chars =
        isTextMatch s (ownOut w.logs[j]) w.logs[j].text.chars := rfl
    simp only [recordFound, hindex, htext, hid, htextMatch, isMatch, isRead, inTime]
    rfl

theorem selectedReadable_written (s : CSLogSearch) (files : List WrittenFile) :
    SelectedReadable s (files.map WrittenFile.file) := by
  intro k _ f hf j hj
  rw [List.getElem?_map, Option.map_eq_some_iff] at hf
  obtain ⟨w, -, rfl⟩ := hf
  rw [w.holds.count] at hj
  exact (recordReadable_written (s := s) w hj).1

/-- The files of `cleanFiles`: the log that is found in the last file is its only one. -/
theorem completionRight_iff_cleanFiles :
    (cleanFiles.map WrittenFile.file).length ≤ SLOG_LOG_FILES_COUNT_MAX ∧
      SelectedReadable keySearch (cleanFiles.map WrittenFile.file) ∧
      CompletionRight keySearch (cleanFiles.map WrittenFile.file) :=
  ⟨by decide, selectedReadable_written keySearch cleanFiles,
    (completionRight_iff keySearch (cleanFiles.map WrittenFile.file) (by decide)
      (selectedReadable_written keySearch cleanFiles)).mpr (by decide +kernel)⟩

theorem letter_ne_zero : (98 : UInt8) ≠ 0 := by decide

/-- One file with two logs that match. -/
def twoLogFile : WrittenFile :=
  ⟨[49], shortLog 98 letter_ne_zero 7 10, [shortLog 98 letter_ne_zero 8 20],
    Nat.le_of_ble_eq_true rfl⟩

/-- After the first log was given the flag is set, and the second one was not looked at. -/
theorem completion_early : ¬ CompletionRight keySearch [twoLogFile.file] := by
  intro h
  exact absurd (h 0) (by decide +kernel)

end Written

end XrkMonitor.LogSearch
