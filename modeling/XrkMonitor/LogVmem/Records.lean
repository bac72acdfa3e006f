import XrkMonitor.Library.Bytes
import XrkMonitor.LogRing.Ring
import XrkMonitor.LogSpec.Buffer
import XrkMonitor.Vmem.Runs

/-!
# The texts of the logs in the shared memory

The end of a long text and the custom data of a log are saved in the memory for variable lengths,
and the record of the log has their indices. `ReadAppLog` takes the texts of a record and frees
them, whatever becomes of the record afterwards. A special log that is skipped keeps its text.

## Implementation notes

The special buffer and the rings are read by one loop with different sizes and choices. `saved` and
`freed` are the history of the memory: the indices that a save has returned, and those that a free
has given back. Only the length of a text decides what is saved. A read of the memory changes
nothing, and only that of the custom data decides whether it is freed.
-/

namespace XrkMonitor.LogVmem

open Library Vmem
open LogSpec (SLogConfig SpecChoice SpecEnd BufAnswer)
open XrkMonitor.LogRing (MTLOG_SHM_RECORDS_COUNT takeLogSeq)

def MTLOG_SHM_DEF_COUNT : Nat := 3

def MTREPORT_LOG_MAX_LENGTH : Nat := 1024

/-- `sizeof` of `MTLog::sLogContent` and of `LogInfo`, and of the `sLogBuf` of the agent. -/
def sizeofLogContent : Nat := 256

def sizeofLogInfo : Nat := 30

def sizeofLogBuf : Nat := MTREPORT_LOG_MAX_LENGTH + 256

section Memory

/-- The memory with the indices that were handed out and those that were given back. -/
structure LogMem where
  run : VmemRun
  saved : List Int
  freed : List Int

/-- `MtReport_SaveToVmem`. -/
def LogMem.save (env : VmemEnv) (pdata : List UInt8) (v : LogMem) : Int × LogMem :=
  let x := saveToVmem env v.run.pools pdata
  (x.1, {
    run := ⟨x.2, if 0 < x.1 then (x.1, pdata) :: v.run.handed else v.run.handed⟩
    saved := if 0 < x.1 then x.1 :: v.saved else v.saved
    freed := v.freed })

/-- `MtReport_FreeVmem`. -/
def LogMem.free (env : VmemEnv) (index : Int) (v : LogMem) : Option LogMem :=
  (vmemStep v.run (.free env index)).map fun x =>
    ⟨x.2, v.saved, if x.1 = 0 then index :: v.freed else v.freed⟩

end Memory

section Record

/-- `MTLog` with the index of the end of its text. -/
structure MTLog extends LogSpec.MTLog where
  iVarmemIndex : Int

/-- `MTLogCust`. -/
structure MTLogCust where
  bCustFlag : UInt8
  dwCust_1 : UInt32
  dwCust_2 : UInt32
  iCust_3 : Int32
  iCust_4 : Int32
  szCust_5 : CharBuf 16
  szCust_6 : CharBuf 32

/-- The bytes that a field of `MTLogCust` takes in `sCustBuf`, if its flag is set. -/
def custField (stCust : MTLogCust) (flag : UInt8) (bytes : List UInt8) : List UInt8 :=
  if stCust.bCustFlag &&& flag ≠ 0 then bytes else []

/-- What `MtReport_Save_LogCust` writes to `sCustBuf`. -/
def custBuf (stCust : MTLogCust) : List UInt8 :=
  stCust.bCustFlag :: (custField stCust 1 (toBytes 4 stCust.dwCust_1.toNat) ++
    (custField stCust 2 (toBytes 4 stCust.dwCust_2.toNat) ++
    (custField stCust 4 (toBytes 4 stCust.iCust_3.toUInt32.toNat) ++
    (custField stCust 8 (toBytes 4 stCust.iCust_4.toUInt32.toNat) ++
    (custField stCust 16 (stCust.szCust_5.str ++ [0]) ++
    custField stCust 32 (stCust.szCust_6.str ++ [0]))))))

/-- The text in the `sLogBuf` of the caller. -/
structure LogText where
  str : List UInt8
  length_lt : str.length < MTREPORT_LOG_MAX_LENGTH + 64

/-- `MtReport_Save_LogCust`, and what stands in `iCustVmemIndex` without custom data. -/
def saveCust (env : VmemEnv) (stCust : MTLogCust) (v : LogMem) : Int × LogMem :=
  if stCust.bCustFlag ≠ 0 then v.save env (custBuf stCust) else (0, v)

/-- The end of a text that is too long for the record: its index, whether the save failed, and the
memory. The last four bytes in the record are saved once more. -/
def saveText (env : VmemEnv) (sLogBuf : LogText) (v : LogMem) : Int × Bool × LogMem :=
  if sLogBuf.str.length < sizeofLogContent then (-1, false, v)
  else
    let (iWrite, v) := v.save env (sLogBuf.str.drop (sizeofLogContent - 4))
    if iWrite ≤ 0 then (-1, true, v) else (iWrite, false, v)

/-- `ReadAppLogToBuf` on the custom data. -/
def takeCust (env : VmemEnv) (plog : MTLog) (v : LogMem) : Option (MTLog × LogMem) :=
  if 0 < plog.iCustVmemIndex then
    (getFromVmem v.run.pools plog.iCustVmemIndex (sizeofLogBuf - sizeofLogInfo : Nat)).bind fun r =>
      if 0 ≤ r.1 then
        (v.free env plog.iCustVmemIndex).map fun v => ({ plog with iCustVmemIndex := 0 }, v)
      else some (plog, v)
  else some (plog, v)

/-- `ReadAppLogToBuf` on the text. -/
def takeText (env : VmemEnv) (plog : MTLog) (v : LogMem) : Option (MTLog × LogMem) :=
  if plog.iVarmemIndex < 0 then some (plog, v)
  else (v.free env plog.iVarmemIndex).map fun v => ({ plog with iVarmemIndex := 0 }, v)

/-- The part of `ReadAppLogToBuf` that works on the memory. -/
def takeTexts (custEnv textEnv : VmemEnv) (plog : MTLog) (v : LogMem) : Option (MTLog × LogMem) :=
  (takeCust custEnv plog v).bind fun x => takeText textEnv x.1 x.2

end Record

section Rings

/-- `MTLogShm`, and the special buffer with its two indices. -/
structure LogRing where
  iWriteIndex : Nat
  iReadIndex : Int
  sLogList : Nat → MTLog

/-- The next cell is taken, and its record written. -/
def LogRing.write (N : Nat) (ring : LogRing) (iCell : Nat) (log : MTLog) : LogRing where
  iWriteIndex := ringNext N ring.iWriteIndex
  iReadIndex := if ring.iReadIndex < 0 then ring.iWriteIndex else ring.iReadIndex
  sLogList := Function.update ring.sLogList iCell log

def LogRing.setLog (ring : LogRing) (i : Nat) (log : MTLog) : LogRing :=
  { ring with sLogList := Function.update ring.sLogList i log }

/-- The read index moved on by one cell. -/
def LogRing.advance (N : Nat) (ring : LogRing) : LogRing :=
  { ring with iReadIndex := (ringNext N ring.iReadIndex.toNat : Nat) }

/-- What a loop of `ReadAppLog` meets and does with its records: whether one that is not finished is
left behind, which are skipped, and for the record of each cell the answer of `ReadAppLogToBuf` and
the outcomes of its two calls of the memory. -/
structure LoopEnv where
  leaves : MTLog → Bool
  choose : MTLog → SpecChoice
  readAppLogToBuf : Nat → BufAnswer
  custEnv : Nat → VmemEnv
  textEnv : Nat → VmemEnv

/-- A loop of `ReadAppLog`. `none` stands for a loop longer than the ring. -/
def readLoop (N : Nat) (env : LoopEnv) :
    Nat → LogRing → LogMem → Option (SpecEnd × LogRing × LogMem)
  | 0, _, _ => none
  | fuel + 1, ring, v =>
    if 0 ≤ ring.iReadIndex ∧ ring.iReadIndex ≠ ring.iWriteIndex then
      let i := ring.iReadIndex.toNat
      let plog := ring.sLogList i
      if plog.dwLogSeq = 0 then
        some (.stopped, if env.leaves plog then ring.advance N else ring, v)
      else
        match env.choose plog with
        | .wait => some (.stopped, ring, v)
        | .skip => readLoop N env fuel (ring.advance N) v
        | .read p =>
          let plog := { plog with toMTLog := p }
          if plog.iAppId = 0 ∨ plog.iModuleId = 0 then
            some (.aborted, ring.setLog i plog, v)
          else
            (takeTexts (env.custEnv i) (env.textEnv i) plog v).bind fun x =>
              let ring := ring.setLog i x.1
              match env.readAppLogToBuf i with
              | .refused => some (.refused, ring, x.2)
              | _ => readLoop N env fuel (ring.advance N) x.2
    else some (.drained, ring, v)

/-- A loop of `ReadAppLog` with the line behind it, which is left out where the call returns. -/
def readRing (N : Nat) (env : LoopEnv) (ring : LogRing) (v : LogMem) :
    Option (Bool × LogRing × LogMem) :=
  (readLoop N env (N + 1) ring v).map fun r =>
    if r.1 = .refused ∨ r.1 = .aborted then (true, r.2)
    else
      let ring := r.2.1
      (false, if ring.iReadIndex = ring.iWriteIndex then { ring with iReadIndex := -1 } else ring,
        r.2.2)

end Rings

section Calls

/-- The special buffer, the rings, the config table and the memory. -/
structure LogShm where
  spec : LogRing
  stLogShm : Nat → LogRing
  stLogConfig : List SLogConfig
  vmem : LogMem

/-- What a log brings: the time, the value of the sequence counter, the type, the config, the custom
data and the text, and the outcomes of the two saves. -/
structure LogCall where
  qwLogTime : Nat
  dwLogSeq : Nat
  iLogType : Nat
  config : SLogConfig
  stCust : MTLogCust
  sLogBuf : LogText
  custEnv : VmemEnv
  textEnv : VmemEnv

/-- `MtReport_Log_To_Spec`; the id of the config is all that is known of it. -/
def mtReportLogToSpec (s : LogShm) (call : LogCall) : LogShm :=
  let iIndex := s.spec.iWriteIndex
  let iCell := if LogSpec.MTLOG_LOG_SPECIAL_COUNT ≤ iIndex then 0 else iIndex
  let (iVarmemIndex, bFailed, v) := saveText call.textEnv call.sLogBuf s.vmem
  let log : MTLog := { s.spec.sLogList iCell with
    qwLogTime := call.qwLogTime
    dwLogSeq := takeLogSeq call.dwLogSeq
    wLogType := if bFailed then LogSpec.MTLOG_TYPE_ERROR else call.iLogType
    dwLogConfigId := call.config.dwCfgId
    iVarmemIndex := iVarmemIndex }
  { s with
    spec := s.spec.write LogSpec.MTLOG_LOG_SPECIAL_COUNT iCell log
    vmem := v }

/-- `MtReport_Log` behind its checks, with the ring that the search ends at; there is none where it
is `MTLOG_SHM_DEF_COUNT`. -/
def mtReportLog (s : LogShm) (i : Nat) (call : LogCall) : LogShm :=
  if i < MTLOG_SHM_DEF_COUNT then
    let (iCustVmemIndex, v) := saveCust call.custEnv call.stCust s.vmem
    let (iVarmemIndex, bFailed, v) := saveText call.textEnv call.sLogBuf v
    let log : MTLog :=
      { qwLogTime := call.qwLogTime
        dwLogSeq := takeLogSeq call.dwLogSeq
        iAppId := call.config.iAppId
        iModuleId := call.config.iModuleId
        wLogType := if bFailed then LogSpec.MTLOG_TYPE_ERROR else call.iLogType
        dwLogConfigId := call.config.dwCfgId
        iCustVmemIndex := iCustVmemIndex
        iVarmemIndex := iVarmemIndex }
    let ring := s.stLogShm i
    { s with
      stLogShm := Function.update s.stLogShm i
        (ring.write MTLOG_SHM_RECORDS_COUNT ring.iWriteIndex log)
      vmem := v }
  else mtReportLogToSpec s call

/-- What a call of `ReadAppLog` meets: the clocks, which rings it gets, and what the records of the
special buffer (`none`) and of each ring meet. -/
structure ReadEnv where
  now : Nat
  qwCurTime : Nat
  cas : Nat → Bool
  readAppLogToBuf : Option Nat → Nat → BufAnswer
  custEnv : Option Nat → Nat → VmemEnv
  textEnv : Option Nat → Nat → VmemEnv

/-- The loop over the special buffer. -/
def specEnv (env : ReadEnv) (stLogConfig : List SLogConfig) : LoopEnv where
  leaves := fun plog => decide ((plog.qwLogTime / 1000000 + 5) % 2 ^ 32 ≤ env.now % 2 ^ 32)
  choose := fun plog => LogSpec.chooseSpec env.qwCurTime stLogConfig plog.toMTLog
  readAppLogToBuf := env.readAppLogToBuf none
  custEnv := env.custEnv none
  textEnv := env.textEnv none

/-- The loop over the ring `i`, where every record is read. -/
def ringEnv (env : ReadEnv) (i : Nat) : LoopEnv where
  leaves := fun plog => decide (env.now % 2 ^ 32 ≤ (plog.qwLogTime / 1000000 + 5) % 2 ^ 32)
  choose := fun plog => .read plog.toMTLog
  readAppLogToBuf := env.readAppLogToBuf (some i)
  custEnv := env.custEnv (some i)
  textEnv := env.textEnv (some i)

/-- The loop of `ReadAppLog` over the rings that are left. -/
def readRings (env : ReadEnv) : List Nat → LogShm → Option LogShm
  | [], s => some s
  | i :: is, s =>
    if env.cas i then
      (readRing MTLOG_SHM_RECORDS_COUNT (ringEnv env i) (s.stLogShm i) s.vmem).bind fun r =>
        let s := { s with stLogShm := Function.update s.stLogShm i r.2.1, vmem := r.2.2 }
        if r.1 then some s else readRings env is s
    else readRings env is s

/-- `ReadAppLog`. -/
def readAppLog (env : ReadEnv) (s : LogShm) : Option LogShm :=
  (readRing LogSpec.MTLOG_LOG_SPECIAL_COUNT (specEnv env s.stLogConfig) s.spec s.vmem).bind fun r =>
    let s := { s with spec := r.2.1, vmem := r.2.2 }
    if r.1 then some s else readRings env (List.range MTLOG_SHM_DEF_COUNT) s

end Calls

end XrkMonitor.LogVmem
