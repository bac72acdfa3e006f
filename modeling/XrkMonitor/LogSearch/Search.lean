import XrkMonitor.LogSearch.File

/-!
# Searching the log files

`HistoryLog` gives the next log that matches the search, from where the last call
stopped. It reads the indices of a file one after another, reads the text and the custom
data of a log whose index matches, and then looks for the keywords in the text. The
output record is cleared once for each file of a call.

## Implementation notes

A keyword comes with what `bmh_is_match` says of a text under the jump table of the
keyword. `ipv4_addr_str` is a field of the search. Reading behind the end of a file fails,
as any failure of `fseek` and `fread` does; opening a listed file succeeds. The counters
for the progress display are left out.
-/

namespace XrkMonitor.LogSearch

open Library ServerLog

/-- A keyword, and in which texts it is found. -/
structure SearchKey where
  szKey : List UInt8
  bmhIsMatch : List UInt8 → Bool

/-- The parameters of `CSLogSearch`. -/
structure CSLogSearch where
  m_strLogFile : List UInt8
  m_iLogTypeFlag : UInt32
  m_iLogAppId : Int32
  m_arrLogModuleId : List Int32
  m_stIncKey : List SearchKey
  m_stExcpKey : List SearchKey
  m_iReportMachine : Int32
  m_qwTimeStart : UInt64
  m_qwTimeEnd : UInt64
  ipv4AddrStr : UInt32 → List UInt8

/-- `TSLogOut`. -/
structure TSLogOut where
  cust : LogCust
  dwLogConfigId : UInt32
  dwLogHost : UInt32
  dwLogSeq : UInt32
  iAppId : Int32
  iModuleId : Int32
  wLogType : UInt16
  qwLogTime : UInt64
  pszLog : List UInt8
deriving DecidableEq

/-- `TSLogOut` after `memset`. -/
def TSLogOut.zero : TSLogOut := ⟨LogCust.zero, 0, 0, 0, 0, 0, 0, 0, []⟩

section Match

/-- `strstr`: the key stands somewhere in the text. -/
def strstr (text key : List UInt8) : Bool := text.tails.any fun t => key.isPrefixOf t

/-- `IsLogMatch` without a text. -/
def isIdMatch (s : CSLogSearch) (o : TSLogOut) : Bool :=
  (s.m_iLogAppId == 0 || s.m_iLogAppId == o.iAppId) &&
  (s.m_arrLogModuleId.isEmpty || s.m_arrLogModuleId.contains o.iModuleId) &&
  (o.wLogType.toUInt32 &&& s.m_iLogTypeFlag != 0) &&
  (s.m_iReportMachine == 0 || s.m_iReportMachine == o.dwLogHost.toInt32)

/-- `IsLogMatch` with a text. -/
def isTextMatch (s : CSLogSearch) (o : TSLogOut) (pszLog : List UInt8) : Bool :=
  let phost := s.ipv4AddrStr o.dwLogHost
  (s.m_stExcpKey.all fun k => !strstr phost k.szKey && !k.bmhIsMatch pszLog) &&
  s.m_stIncKey.all fun k => strstr phost k.szKey || k.bmhIsMatch pszLog

end Match

section Read

/-- The index at a place of the file. -/
def readIndex (mem : Nat → UInt8) (p : Nat) : SLogFileLogIndex where
  bLogCustLen := UInt8.ofNat (wordAt mem p 1)
  dwLogCustPos := UInt32.ofNat (wordAt mem (p + 1) 4)
  dwLogConfigId := UInt32.ofNat (wordAt mem (p + 1 + 4) 4)
  dwLogHost := UInt32.ofNat (wordAt mem (p + 1 + 4 + 4) 4)
  iAppId := (UInt32.ofNat (wordAt mem (p + 1 + 4 + 4 + 4) 4)).toInt32
  iModuleId := (UInt32.ofNat (wordAt mem (p + 1 + 4 + 4 + 4 + 4) 4)).toInt32
  wLogType := UInt16.ofNat (wordAt mem (p + 1 + 4 + 4 + 4 + 4 + 4) 2)
  dwLogSeq := UInt32.ofNat (wordAt mem (p + 1 + 4 + 4 + 4 + 4 + 4 + 2) 4)
  qwLogTime := UInt64.ofNat (wordAt mem (p + 1 + 4 + 4 + 4 + 4 + 4 + 2 + 4) 8)
  dwLogContentLen := UInt32.ofNat (wordAt mem (p + 1 + 4 + 4 + 4 + 4 + 4 + 2 + 4 + 8) 4)
  dwLogContentPos := UInt32.ofNat (wordAt mem (p + 1 + 4 + 4 + 4 + 4 + 4 + 2 + 4 + 8 + 4) 4)

/-- The text of a log, whose seq is checked. -/
def readText (f : LogFile) (stIndex : SLogFileLogIndex) : Option (List UInt8) :=
  let p := stIndex.dwLogContentPos.toNat
  let len := stIndex.dwLogContentLen.toNat
  if f.size < p + 4 then none
  else if wordAt f.mem p 4 ≠ stIndex.dwLogSeq.toNat then none
  else if BWORLD_SLOG_MAX_LINE_LEN < len then none
  else if f.size < p + 4 + len then none
  else some (cstr (bytesAt f.mem (p + 4) len))

/-- A number field: a field that is not set stays. -/
def takeNative (isSet : Bool) (buf : Nat → UInt8) (pCust : Nat) (old : UInt32) : UInt32 × Nat :=
  if isSet then (UInt32.ofNat (wordAt buf pCust 4), pCust + 4) else (old, pCust)

/-- A string field: a field that is not set stays. -/
def takeStr {n : Nat} (isSet : Bool) (buf : Nat → UInt8) (pCust : Nat) (old : CharBuf n) :
    CharBuf n × Nat :=
  if isSet then
    let b := CharBuf.strncpy n (cstrAt buf pCust (n - 1))
    (b, pCust + (b.str.length + 1))
  else (old, pCust)

/-- The custom data in the buffer go to the output record. -/
def takeCust (sCustBuf : Nat → UInt8) (c : LogCust) : LogCust :=
  let bCustFlag := sCustBuf 0
  let (dwCust_1, pCust) :=
    takeNative (isSetBit bCustFlag MTLOG_CUST_FLAG_C1_SET) sCustBuf 1 c.dwCust_1
  let (dwCust_2, pCust) :=
    takeNative (isSetBit bCustFlag MTLOG_CUST_FLAG_C2_SET) sCustBuf pCust c.dwCust_2
  let (iCust_3, pCust) :=
    takeNative (isSetBit bCustFlag MTLOG_CUST_FLAG_C3_SET) sCustBuf pCust c.iCust_3.toUInt32
  let (iCust_4, pCust) :=
    takeNative (isSetBit bCustFlag MTLOG_CUST_FLAG_C4_SET) sCustBuf pCust c.iCust_4.toUInt32
  let (szCust_5, pCust) :=
    takeStr (isSetBit bCustFlag MTLOG_CUST_FLAG_C5_SET) sCustBuf pCust c.szCust_5
  let (szCust_6, _) :=
    takeStr (isSetBit bCustFlag MTLOG_CUST_FLAG_C6_SET) sCustBuf pCust c.szCust_6
  ⟨bCustFlag, dwCust_1, dwCust_2, iCust_3.toInt32, iCust_4.toInt32, szCust_5, szCust_6⟩

/-- The custom data of a log, in a buffer that was cleared. -/
def readLogCust (f : LogFile) (stIndex : SLogFileLogIndex) (c : LogCust) : Option LogCust :=
  let p := stIndex.dwLogCustPos.toNat
  let len := stIndex.bLogCustLen.toNat
  if 0 < len then
    if f.size < p + len then none
    else some (takeCust (fun i => if i < len then f.mem (p + i) else 0) c)
  else some c

/-- `ReadLogFileVersion_2` from log `j` on, with `n` logs to go: the log that was found, and
`m_dwFilePos`. -/
def readLogFileVersion2 (s : CSLogSearch) (f : LogFile) :
    Nat → Nat → TSLogOut → Option TSLogOut × Nat
  | 0, j, _ => (none, j)
  | n + 1, j, o =>
    if f.size < indexPos j + sizeofIndex then (none, j)
    else
      let stIndex := readIndex f.mem (indexPos j)
      if s.m_strLogFile = [] ∧
          (stIndex.qwLogTime < s.m_qwTimeStart ∨ s.m_qwTimeEnd < stIndex.qwLogTime) then
        readLogFileVersion2 s f n (j + 1) o
      else
        let o :=
          { o with
            iAppId := stIndex.iAppId
            iModuleId := stIndex.iModuleId
            wLogType := stIndex.wLogType
            dwLogHost := stIndex.dwLogHost }
        if !isIdMatch s o then readLogFileVersion2 s f n (j + 1) o
        else
          match readText f stIndex, readLogCust f stIndex o.cust with
          | some sLogBuf, some cust =>
            let o :=
              { o with
                cust := cust }
            if isTextMatch s o sLogBuf then
              (some
                { o with
                  dwLogConfigId := stIndex.dwLogConfigId
                  dwLogSeq := stIndex.dwLogSeq
                  qwLogTime := stIndex.qwLogTime
                  pszLog := sLogBuf }, j + 1)
            else readLogFileVersion2 s f n (j + 1) o
          | _, _ => (none, j + 1)

/-- Where the search stands. -/
structure SearchPos where
  m_wFileNo : Nat
  m_dwFilePos : Nat
  m_wFileCount : Nat
  m_wFileIndexStar : Nat
deriving Repr, DecidableEq

/-- The loop that chooses the files: the first one, and how many. -/
def selectFiles (s : CSLogSearch) : List LogFile → Nat → Nat → Nat → Nat × Nat
  | [], _, star, count => (star, count)
  | f :: fs, i, star, count =>
    if s.m_strLogFile ≠ [] then
      if strstr f.szAbsFileName s.m_strLogFile then (i, 1)
      else selectFiles s fs (i + 1) star count
    else if SLOG_LOG_FILES_COUNT_MAX ≤ star ∧ f.qwLogTimeEnd < s.m_qwTimeStart then
      selectFiles s fs (i + 1) star count
    else
      let star := if SLOG_LOG_FILES_COUNT_MAX ≤ star then i else star
      if s.m_qwTimeEnd < f.qwLogTimeStart then (star, count)
      else selectFiles s fs (i + 1) star (count + 1)

/-- The loop over the files; `n` indices are left below `SLOG_LOG_FILES_COUNT_MAX`. -/
def scanFiles (s : CSLogSearch) (files : List LogFile) :
    Nat → SearchPos → Option TSLogOut × SearchPos
  | 0, p => (none, p)
  | n + 1, p =>
    match files[p.m_wFileIndexStar + p.m_wFileNo]? with
    | none => (none, p)
    | some f =>
      match readLogFileVersion2 s f (f.iLogRecordsWrite - p.m_dwFilePos) p.m_dwFilePos
          TSLogOut.zero with
      | (some o, pos) =>
        (some o,
          { p with
            m_dwFilePos := pos })
      | (none, pos) =>
        if p.m_wFileCount ≤ p.m_wFileNo + 1 then
          (none,
            { p with
              m_dwFilePos := pos })
        else
          scanFiles s files n
            { p with
              m_wFileNo := p.m_wFileNo + 1
              m_dwFilePos := 0 }

/-- `HistoryLog`. -/
def historyLog (s : CSLogSearch) (files : List LogFile) (p : SearchPos) :
    Option TSLogOut × SearchPos :=
  let p :=
    if p.m_wFileCount = 0 then
      let (star, count) := selectFiles s files 0 SLOG_LOG_FILES_COUNT_MAX 0
      if star < SLOG_LOG_FILES_COUNT_MAX then ⟨0, 0, count, star⟩
      else
        { p with
          m_wFileIndexStar := star
          m_wFileCount := count }
    else p
  scanFiles s files (SLOG_LOG_FILES_COUNT_MAX - (p.m_wFileIndexStar + p.m_wFileNo)) p

/-- The results of successive calls until one gives none, as far as `n` calls go. -/
def historyLogs (s : CSLogSearch) (files : List LogFile) : Nat → SearchPos → Option (List TSLogOut)
  | 0, _ => none
  | n + 1, p =>
    match historyLog s files p with
    | (none, _) => some []
    | (some o, p) => (historyLogs s files n p).map (o :: ·)

end Read

end XrkMonitor.LogSearch
