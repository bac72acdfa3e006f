import XrkMonitor.LogSearch.Search

/-!
# Scanning the logs of a file

What `ReadLogFileVersion_2` reads back of a log that stands in the file, and what it
finds when it goes through the logs one after another. The custom fields that a log does
not set keep what the logs that were read before it left there.
-/

namespace XrkMonitor.LogSearch

open Library ServerLog

section Logs

/-- A custom field is set. -/
def isSet (flag : UInt8) (r : TSLog) : Bool := isSetBit r.cust.bCustFlag flag

/-- A log has custom data. -/
def hasCust (r : TSLog) : Bool :=
  isSet MTLOG_CUST_FLAG_C1_SET r || isSet MTLOG_CUST_FLAG_C2_SET r ||
  isSet MTLOG_CUST_FLAG_C3_SET r || isSet MTLOG_CUST_FLAG_C4_SET r ||
  isSet MTLOG_CUST_FLAG_C5_SET r || isSet MTLOG_CUST_FLAG_C6_SET r

/-- The custom fields of the output record after a log was read. -/
def applyCust (r : TSLog) (c : LogCust) : LogCust :=
  if hasCust r then
    { bCustFlag := r.cust.bCustFlag
      dwCust_1 := if isSet MTLOG_CUST_FLAG_C1_SET r then r.cust.dwCust_1 else c.dwCust_1
      dwCust_2 := if isSet MTLOG_CUST_FLAG_C2_SET r then r.cust.dwCust_2 else c.dwCust_2
      iCust_3 := if isSet MTLOG_CUST_FLAG_C3_SET r then r.cust.iCust_3 else c.iCust_3
      iCust_4 := if isSet MTLOG_CUST_FLAG_C4_SET r then r.cust.iCust_4 else c.iCust_4
      szCust_5 :=
        if isSet MTLOG_CUST_FLAG_C5_SET r then CharBuf.strncpy 16 r.cust.szCust_5.str
        else c.szCust_5
      szCust_6 :=
        if isSet MTLOG_CUST_FLAG_C6_SET r then CharBuf.strncpy 32 r.cust.szCust_6.str
        else c.szCust_6 }
  else c

/-- The output for a log with the given custom fields. -/
def outOf (r : TSLog) (c : LogCust) : TSLogOut where
  cust := c
  dwLogConfigId := r.dwLogConfigId
  dwLogHost := r.dwLogHost
  dwLogSeq := r.dwLogSeq
  iAppId := r.iAppId
  iModuleId := r.iModuleId
  wLogType := fileLogType r.wLogType
  qwLogTime := r.qwLogTime
  pszLog := r.text.chars

/-- The output for a log alone. -/
def ownOut (r : TSLog) : TSLogOut := outOf r (applyCust r LogCust.zero)

/-- A log is in the time of the search, or the search is for a file. -/
def inTime (s : CSLogSearch) (r : TSLog) : Bool :=
  decide (s.m_strLogFile ≠ []) ||
    (decide (s.m_qwTimeStart ≤ r.qwLogTime) && decide (r.qwLogTime ≤ s.m_qwTimeEnd))

/-- The text of a log is read. -/
def isRead (s : CSLogSearch) (r : TSLog) : Bool := inTime s r && isIdMatch s (ownOut r)

/-- A log matches the search. -/
def isMatch (s : CSLogSearch) (r : TSLog) : Bool :=
  isRead s r && isTextMatch s (ownOut r) r.text.chars

/-- What is found in a list of logs when the output record has the custom fields `c`. -/
def scanLogs (s : CSLogSearch) : LogCust → List TSLog → List TSLogOut
  | _, [] => []
  | c, r :: rs =>
    if isMatch s r then outOf r (applyCust r c) :: scanLogs s LogCust.zero rs
    else scanLogs s (if isRead s r then applyCust r c else c) rs

end Logs

section ReadBack

variable {mem : Nat → UInt8} {p : Nat} {rest : List UInt8}

theorem readIndex_of_stands {x : SLogFileLogIndex} (h : Stands mem p x.bytes) :
    readIndex mem p = x := by
  obtain ⟨h₁, h⟩ := wordAt_of_stands h (by simpa using x.bLogCustLen.toNat_lt)
  obtain ⟨h₂, h⟩ := wordAt_of_stands h (by simpa using x.dwLogCustPos.toNat_lt)
  obtain ⟨h₃, h⟩ := wordAt_of_stands h (by simpa using x.dwLogConfigId.toNat_lt)
  obtain ⟨h₄, h⟩ := wordAt_of_stands h (by simpa using x.dwLogHost.toNat_lt)
  obtain ⟨h₅, h⟩ := wordAt_of_stands h (by simpa using x.iAppId.toUInt32.toNat_lt)
  obtain ⟨h₆, h⟩ := wordAt_of_stands h (by simpa using x.iModuleId.toUInt32.toNat_lt)
  obtain ⟨h₇, h⟩ := wordAt_of_stands h (by simpa using x.wLogType.toNat_lt)
  obtain ⟨h₈, h⟩ := wordAt_of_stands h (by simpa using x.dwLogSeq.toNat_lt)
  obtain ⟨h₉, h⟩ := wordAt_of_stands h (by simpa using x.qwLogTime.toNat_lt)
  obtain ⟨h₁₀, h⟩ := wordAt_of_stands h (by simpa using x.dwLogContentLen.toNat_lt)
  obtain ⟨h₁₁, -⟩ := wordAt_of_stands h (by simpa using x.dwLogContentPos.toNat_lt)
  simp [readIndex, h₁, h₂, h₃, h₄, h₅, h₆, h₇, h₈, h₉, h₁₀, h₁₁]

theorem takeNative_saveWord {isSet : Bool} {x : UInt32} (old : UInt32)
    (h : Stands mem p (saveWord isSet x ++ rest)) :
    takeNative isSet mem p old = (if isSet then x else old, p + (saveWord isSet x).length) ∧
      Stands mem (p + (saveWord isSet x).length) rest := by
  refine ⟨?_, (stands_append.mp h).2⟩
  cases isSet with
  | false => simp [takeNative, saveWord]
  | true =>
    have hlt : x.toNat < 256 ^ 4 := x.toNat_lt
    obtain ⟨hword, -⟩ := wordAt_of_stands h hlt
    simp [takeNative, saveWord, hword]

theorem takeStr_putStr {n : Nat} {isSet : Bool} {b : CharBuf n} (old : CharBuf n)
    (h : Stands mem p (putStr isSet b ++ rest)) :
    takeStr isSet mem p old =
        (if isSet then CharBuf.strncpy n b.str else old, p + (putStr isSet b).length) ∧
      Stands mem (p + (putStr isSet b).length) rest := by
  refine ⟨?_, (stands_append.mp h).2⟩
  cases isSet with
  | false => simp [takeStr, putStr]
  | true =>
    have hstr := cstrAt_eq b.str_ne_zero b.length_str_le (stands_append.mp h).1
    have hcopy := CharBuf.str_strncpy b.str_ne_zero b.length_str_le
    simp [takeStr, putStr, hstr, hcopy]

/-- Nothing is saved of a log without custom data, and else the fields come behind the flags. -/
theorem saveLogCustData_eq (r : TSLog) :
    saveLogCustData r.cust =
      if hasCust r then
        [r.cust.bCustFlag] ++
          (saveWord (isSet MTLOG_CUST_FLAG_C1_SET r) r.cust.dwCust_1 ++
          (saveWord (isSet MTLOG_CUST_FLAG_C2_SET r) r.cust.dwCust_2 ++
          (saveWord (isSet MTLOG_CUST_FLAG_C3_SET r) r.cust.iCust_3.toUInt32 ++
          (saveWord (isSet MTLOG_CUST_FLAG_C4_SET r) r.cust.iCust_4.toUInt32 ++
          (putStr (isSet MTLOG_CUST_FLAG_C5_SET r) r.cust.szCust_5 ++
          putStr (isSet MTLOG_CUST_FLAG_C6_SET r) r.cust.szCust_6)))))
      else [] := by
  have hword : ∀ (b : Bool) (x : UInt32), (saveWord b x).length = if b then 4 else 0 := by
    intro b x
    cases b <;> simp [saveWord]
  have hstr : ∀ {n : Nat} (b : Bool) (x : CharBuf n),
      (putStr b x).length = if b then x.str.length + 1 else 0 := by
    intro n b x
    cases b <;> simp [putStr]
  have hpos : ([r.cust.bCustFlag] ++
      (saveWord (isSet MTLOG_CUST_FLAG_C1_SET r) r.cust.dwCust_1 ++
      (saveWord (isSet MTLOG_CUST_FLAG_C2_SET r) r.cust.dwCust_2 ++
      (saveWord (isSet MTLOG_CUST_FLAG_C3_SET r) r.cust.iCust_3.toUInt32 ++
      (saveWord (isSet MTLOG_CUST_FLAG_C4_SET r) r.cust.iCust_4.toUInt32 ++
      (putStr (isSet MTLOG_CUST_FLAG_C5_SET r) r.cust.szCust_5 ++
      putStr (isSet MTLOG_CUST_FLAG_C6_SET r) r.cust.szCust_6)))))).length ≤ 1 ↔
        ¬ hasCust r = true := by
    simp only [List.length_append, List.length_cons, List.length_nil, hword, hstr, hasCust,
      Bool.or_eq_true, not_or, Bool.not_eq_true]
    constructor
    · intro h
      repeat' constructor
      all_goals
        rw [← Bool.not_eq_true]
        intro hset
        simp only [hset, reduceIte] at h
        omega
    · rintro ⟨⟨⟨⟨⟨h₁, h₂⟩, h₃⟩, h₄⟩, h₅⟩, h₆⟩
      simp [h₁, h₂, h₃, h₄, h₅, h₆]
  change (if _ ≤ 1 then [] else _) = _
  by_cases hc : hasCust r = true
  · rw [if_pos hc]
    exact if_neg fun hle => hpos.mp hle hc
  · rw [if_neg hc]
    exact if_pos (hpos.mpr hc)

theorem takeCust_saveLogCustData {r : TSLog} (c : LogCust) (hc : hasCust r = true)
    (h : Stands mem 0 (saveLogCustData r.cust)) : takeCust mem c = applyCust r c := by
  rw [saveLogCustData_eq, if_pos hc, List.singleton_append, stands_cons] at h
  obtain ⟨hflag, h⟩ := h
  simp only [isSet] at h
  obtain ⟨h₁, h⟩ := takeNative_saveWord c.dwCust_1 h
  obtain ⟨h₂, h⟩ := takeNative_saveWord c.dwCust_2 h
  obtain ⟨h₃, h⟩ := takeNative_saveWord c.iCust_3.toUInt32 h
  obtain ⟨h₄, h⟩ := takeNative_saveWord c.iCust_4.toUInt32 h
  obtain ⟨h₅, h⟩ := takeStr_putStr c.szCust_5 h
  rw [← List.append_nil (putStr _ r.cust.szCust_6)] at h
  obtain ⟨h₆, -⟩ := takeStr_putStr c.szCust_6 h
  rw [Nat.zero_add] at h₁ h₂ h₃ h₄ h₅ h₆
  have hint : ∀ (b : Bool) (x y : Int32),
      (if b then x.toUInt32 else y.toUInt32).toInt32 = if b then x else y := by
    intro b x y
    cases b <;> simp
  simp only [takeCust, hflag, h₁, h₂, h₃, h₄, h₅, h₆, applyCust, hc, reduceIte, isSet, hint]
  rfl

end ReadBack

section Step

variable {s : CSLogSearch} {f : LogFile} {j : Nat} {r : TSLog}

/-- The index, the text and the custom data of a log that stands in the file. -/
theorem LogAt.read (h : LogAt f j r) (hj : j < SLOG_LOG_RECORDS_COUNT_MAX) (c : LogCust) :
    ∃ pos, indexPos j + sizeofIndex ≤ f.size ∧ readIndex f.mem (indexPos j) = indexOf r pos ∧
      readText f (indexOf r pos) = some r.text.chars ∧
      readLogCust f (indexOf r pos) c = some (applyCust r c) := by
  obtain ⟨pos, hstart, hend, hlt, hbody, hindex⟩ := h
  have hlen := length_body r
  have htext := logContentLen_text r.text
  have hmax : r.text.chars.length < 1024 := r.text.length_lt
  have hword : ∀ n < 2 ^ 32, (UInt32.ofNat n).toNat = n := fun n hn => UInt32.toNat_ofNat_of_lt' hn
  have hcustLen := length_saveLogCustData_le r.cust
  have hposNat : (UInt32.ofNat pos).toNat = pos := hword pos (by omega)
  have hlenNat : (UInt32.ofNat (r.text.chars.length + 1)).toNat = r.text.chars.length + 1 :=
    hword _ (by omega)
  obtain ⟨hseq, hrest⟩ := wordAt_of_stands hbody r.dwLogSeq.toNat_lt
  obtain ⟨hchars, hcust⟩ := stands_append.mp hrest
  refine ⟨pos, ?_, readIndex_of_stands hindex, ?_, ?_⟩
  · have hidx : indexPos (j + 1) ≤ contentStart := indexPos_mono hj
    rw [indexPos_succ]
    omega
  · have hread : cstr (bytesAt f.mem (pos + 4) (r.text.chars.length + 1)) = r.text.chars := by
      have hbytes : bytesAt f.mem (pos + 4) (r.text.chars.length + 1) = r.text.chars ++ [0] := by
        simpa [Stands] using hchars
      rw [hbytes]
      exact cstr_append_nul r.text.ne_zero []
    simp only [readText, indexOf, htext, hposNat, hlenNat, hseq]
    rw [if_neg (by omega), if_neg (by simp), if_neg (Nat.not_lt.mpr r.text.length_lt),
      if_neg (by omega), hread]
  · by_cases hc : hasCust r = true
    · have hpos : 0 < (saveLogCustData r.cust).length := by
        rw [saveLogCustData_eq, if_pos hc]
        simp
      have hcustPos : (UInt32.ofNat (pos + 4 + (r.text.chars.length + 1))).toNat =
          pos + 4 + (r.text.chars.length + 1) := hword _ (by omega)
      have hcustNat : (UInt8.ofNat (saveLogCustData r.cust).length).toNat =
          (saveLogCustData r.cust).length :=
        UInt8.toNat_ofNat_of_lt' (Nat.lt_of_le_of_lt hcustLen (by decide))
      have hbuf : Stands
          (fun i => if i < (saveLogCustData r.cust).length then
            f.mem (pos + 4 + (r.text.chars.length + 1) + i) else 0)
          0 (saveLogCustData r.cust) := by
        simp only [List.length_append, List.length_singleton, Stands] at hcust
        rw [Stands]
        refine Eq.trans ?_ hcust
        apply List.map_congr_left
        intro i hi
        have hlt := List.mem_range.mp hi
        simp [hlt]
      simp only [readLogCust, indexOf, htext, hpos, reduceIte, hcustPos, hcustNat]
      rw [if_neg (by omega), takeCust_saveLogCustData c hc hbuf]
    · have hnil : saveLogCustData r.cust = [] := by rw [saveLogCustData_eq, if_neg hc]
      simp [readLogCust, indexOf, hnil, applyCust, hc]

/-- One log of the scan. -/
theorem readLogFileVersion2_step (h : LogAt f j r) (hj : j < SLOG_LOG_RECORDS_COUNT_MAX) (n : Nat)
    (o : TSLogOut) :
    ∃ o', o'.cust = (if isRead s r then applyCust r o.cust else o.cust) ∧
      readLogFileVersion2 s f (n + 1) j o =
        if isMatch s r then (some (outOf r (applyCust r o.cust)), j + 1)
        else readLogFileVersion2 s f n (j + 1) o' := by
  obtain ⟨pos, hend, hindex, htext, hcust⟩ := h.read hj o.cust
  have hid : ∀ o₁ : TSLogOut, isIdMatch s
      { o₁ with
        iAppId := (indexOf r pos).iAppId
        iModuleId := (indexOf r pos).iModuleId
        wLogType := (indexOf r pos).wLogType
        dwLogHost := (indexOf r pos).dwLogHost } = isIdMatch s (ownOut r) := fun _ => rfl
  have htime : (s.m_strLogFile = [] ∧ ((indexOf r pos).qwLogTime < s.m_qwTimeStart ∨
      s.m_qwTimeEnd < (indexOf r pos).qwLogTime)) ↔ inTime s r = false := by
    simp [inTime, indexOf, ← UInt64.not_le]
    tauto
  rw [readLogFileVersion2, if_neg (Nat.not_lt.mpr hend), hindex]
  cases hin : inTime s r with
  | false =>
    refine ⟨o, by simp [isRead, hin], ?_⟩
    rw [if_pos (htime.mpr hin)]
    simp [isMatch, isRead, hin]
  | true =>
    have hno : ¬ (s.m_strLogFile = [] ∧ ((indexOf r pos).qwLogTime < s.m_qwTimeStart ∨
        s.m_qwTimeEnd < (indexOf r pos).qwLogTime)) := by
      intro hout
      rw [htime.mp hout] at hin
      cases hin
    rw [if_neg hno]
    simp only [hid, htext, hcust]
    cases hm : isIdMatch s (ownOut r) with
    | false =>
      refine ⟨⟨o.cust, o.dwLogConfigId, r.dwLogHost, o.dwLogSeq, r.iAppId, r.iModuleId,
        fileLogType r.wLogType, o.qwLogTime, o.pszLog⟩, by simp [isRead, hm], ?_⟩
      simp only [Bool.not_false, reduceIte, isMatch, isRead, hm, Bool.and_false, Bool.false_and,
        Bool.false_eq_true]
      rfl
    | true =>
      have hread : isRead s r = true := by simp [isRead, hin, hm]
      simp only [Bool.not_true, Bool.false_eq_true, reduceIte]
      refine ⟨⟨applyCust r o.cust, o.dwLogConfigId, r.dwLogHost, o.dwLogSeq, r.iAppId,
        r.iModuleId, fileLogType r.wLogType, o.qwLogTime, o.pszLog⟩, by simp [hread], ?_⟩
      rw [isMatch, hread, Bool.true_and]
      rfl

theorem readLogFileVersion2_spec {rs : List TSLog} (h : Holds f rs)
    (hlen : rs.length ≤ SLOG_LOG_RECORDS_COUNT_MAX) (n j : Nat) (hn : rs.length - j = n)
    (o : TSLogOut) :
    match scanLogs s o.cust (rs.drop j) with
    | [] => (readLogFileVersion2 s f n j o).1 = none
    | x :: xs => ∃ j', j < j' ∧ j' ≤ rs.length ∧
        readLogFileVersion2 s f n j o = (some x, j') ∧ xs = scanLogs s LogCust.zero (rs.drop j') := by
  induction n generalizing j o with
  | zero =>
    rw [List.drop_eq_nil_of_le (by omega)]
    rfl
  | succ n ih =>
    have hj : j < rs.length := by omega
    rw [List.drop_eq_getElem_cons hj]
    obtain ⟨o', hcust, hstep⟩ := readLogFileVersion2_step (s := s)
      (h.logs j rs[j] (List.getElem?_eq_getElem hj)) (Nat.lt_of_lt_of_le hj hlen) n o
    rw [hstep, scanLogs]
    by_cases hm : isMatch s rs[j] = true
    · rw [if_pos hm, if_pos hm]
      exact ⟨j + 1, Nat.lt_succ_self j, hj, rfl, rfl⟩
    · rw [if_neg hm, if_neg hm, ← hcust]
      have hrest := ih (j + 1) (by omega) o'
      cases hscan : scanLogs s o'.cust (rs.drop (j + 1)) with
      | nil =>
        rw [hscan] at hrest
        exact hrest
      | cons x xs =>
        rw [hscan] at hrest
        obtain ⟨j', hlt, hle, hread, hxs⟩ := hrest
        exact ⟨j', Nat.lt_of_succ_lt hlt, hle, hread, hxs⟩

end Step

end XrkMonitor.LogSearch
