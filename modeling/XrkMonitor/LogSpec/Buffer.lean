import Mathlib.Algebra.Ring.Int.Defs
import Mathlib.Logic.Function.Basic
import XrkMonitor.Library.RingIndex

/-!
# The special log buffer

A log whose config is not known yet, or that gets none of the rings, goes to `sLogListSpec` with the
id of its config. `ReadAppLog` looks the config up and puts its application and module into the
record. A record that has an application is not looked up, and a new log does not clear it.

## Implementation notes

A write is a completed `MtReport_Log_To_Spec`. The text of a record is left out; whether it failed
to get into the memory for variable lengths is an input, as are the clock, the shared sequence
counter and the answers of `ReadAppLogToBuf` and of the memory. `assert` ends the call.
-/

namespace XrkMonitor.LogSpec

open Library

def MTLOG_LOG_SPECIAL_COUNT : Nat := 2000

def MTLOG_LOG_TIMEOUTMS_IN_SPEC : Nat := 1000 * 60 * 2

def MTLOG_TYPE_ERROR : Nat := 32

/-- `MTLog` without its text. -/
structure MTLog where
  qwLogTime : Nat
  dwLogSeq : Nat
  iAppId : Int
  iModuleId : Int
  wLogType : Nat
  dwLogConfigId : Nat
  iCustVmemIndex : Int

/-- The fields of `SLogConfig` that `ReadAppLog` reads. -/
structure SLogConfig where
  dwCfgId : Nat
  iAppId : Int
  iModuleId : Int
  iLogType : Nat

/-- The buffer in the shared memory. -/
structure SpecShm where
  iLogSpecialWriteIdx : Nat
  iLogSpecialReadIdx : Int
  sLogListSpec : Nat → MTLog

/-- What a log has of its own. -/
structure OwnLog where
  qwLogTime : Nat
  dwLogSeq : Nat
  wLogType : Nat
  dwLogConfigId : Nat
deriving DecidableEq

def MTLog.own (log : MTLog) : OwnLog :=
  ⟨log.qwLogTime, log.dwLogSeq, log.wLogType, log.dwLogConfigId⟩

/-- What a call of `MtReport_Log_To_Spec` brings: the time, the value of the shared sequence
counter, the type, the id of the config of the process, and whether the text was too long for the
record and the memory refused it. -/
structure SpecCall where
  qwLogTime : Nat
  dwLogSeq : Nat
  iLogType : Nat
  dwLogCfgId : Nat
  bVmemFailed : Bool

/-- The log of a call: a sequence number is not 0, and a text that is refused is an error. -/
def SpecCall.log (call : SpecCall) : OwnLog where
  qwLogTime := call.qwLogTime
  dwLogSeq := if call.dwLogSeq = 0 then 1 else call.dwLogSeq
  wLogType := if call.bVmemFailed then MTLOG_TYPE_ERROR else call.iLogType
  dwLogConfigId := call.dwLogCfgId

/-- The fields that `MtReport_Log_To_Spec` sets in a record. -/
def MTLog.overwrite (log : MTLog) (new : OwnLog) : MTLog :=
  { log with
    qwLogTime := new.qwLogTime
    dwLogSeq := new.dwLogSeq
    wLogType := new.wLogType
    dwLogConfigId := new.dwLogConfigId }

/-- `MtReport_Log_To_Spec`. -/
def mtReportLogToSpec (s : SpecShm) (call : SpecCall) : SpecShm :=
  let iIndex := s.iLogSpecialWriteIdx
  let iCell := if MTLOG_LOG_SPECIAL_COUNT ≤ iIndex then 0 else iIndex
  { iLogSpecialWriteIdx := ringNext MTLOG_LOG_SPECIAL_COUNT iIndex
    iLogSpecialReadIdx := if s.iLogSpecialReadIdx < 0 then iIndex else s.iLogSpecialReadIdx
    sLogListSpec := Function.update s.sLogListSpec iCell
      ((s.sLogListSpec iCell).overwrite call.log) }

/-- How `ReadAppLogToBuf` ends: the record is in a buffer, or its application is not known, or there
is no buffer for it. -/
inductive BufAnswer
  | taken
  | noApp
  | refused

/-- What a call of `ReadAppLog` meets: the clocks, the answer for the record of each cell, and
whether the memory has an index. -/
structure ReadEnv where
  now : Nat
  qwCurTime : Nat
  readAppLogToBuf : Nat → BufAnswer
  getFromVmem : Int → Bool

/-- `LogInfo` without its text, with the index that its custom data was read from. -/
structure LogInfo where
  log : OwnLog
  iAppId : Int
  iModuleId : Int
  custData : Option Int

/-- What becomes of a record before it is put into a buffer. -/
inductive SpecChoice
  | wait
  | skip
  | read (plog : MTLog)

/-- The config that an id names. -/
def findConfig (stLogConfig : List SLogConfig) (dwCfgId : Nat) : Option SLogConfig :=
  stLogConfig.find? fun cfg => cfg.dwCfgId = dwCfgId

/-- The part of `ReadAppLog` that looks for the config of a record. -/
def chooseSpec (qwCurTime : Nat) (stLogConfig : List SLogConfig) (plog : MTLog) : SpecChoice :=
  if plog.iAppId = 0 then
    match findConfig stLogConfig plog.dwLogConfigId with
    | none =>
      if plog.qwLogTime + MTLOG_LOG_TIMEOUTMS_IN_SPEC * 1000 ≤ qwCurTime then .skip else .wait
    | some pcfg =>
      if pcfg.iLogType &&& plog.wLogType = 0 then .skip
      else .read { plog with iAppId := pcfg.iAppId, iModuleId := pcfg.iModuleId }
  else .read plog

/-- The custom data that `ReadAppLogToBuf` takes along, and the record without it. -/
def readCust (env : ReadEnv) (plog : MTLog) : Option Int × MTLog :=
  if 0 < plog.iCustVmemIndex ∧ env.getFromVmem plog.iCustVmemIndex = true then
    (some plog.iCustVmemIndex, { plog with iCustVmemIndex := 0 })
  else (none, plog)

/-- How the loop over the special buffer ends. -/
inductive SpecEnd
  | drained
  | stopped
  | refused
  | aborted
deriving DecidableEq

/-- The read index moved on by one cell. -/
def advanceRead (s : SpecShm) : SpecShm :=
  { s with
    iLogSpecialReadIdx :=
      (ringNext MTLOG_LOG_SPECIAL_COUNT s.iLogSpecialReadIdx.toNat : Nat) }

/-- A record with what the reader has put into it. -/
def SpecShm.setLog (s : SpecShm) (i : Nat) (log : MTLog) : SpecShm :=
  { s with sLogListSpec := Function.update s.sLogListSpec i log }

/-- The first loop of `ReadAppLog`; the records delivered so far are `out`. `none` stands for a loop
longer than the buffer. -/
def readSpecLoop (env : ReadEnv) (stLogConfig : List SLogConfig) :
    Nat → SpecShm → List LogInfo → Option (SpecEnd × SpecShm × List LogInfo)
  | 0, _, _ => none
  | fuel + 1, s, out =>
    if 0 ≤ s.iLogSpecialReadIdx ∧ s.iLogSpecialReadIdx ≠ s.iLogSpecialWriteIdx then
      let i := s.iLogSpecialReadIdx.toNat
      let plog := s.sLogListSpec i
      if plog.dwLogSeq = 0 then
        if (plog.qwLogTime / 1000000 + 5) % 2 ^ 32 ≤ env.now % 2 ^ 32 then
          some (.stopped, advanceRead s, out)
        else some (.stopped, s, out)
      else
        match chooseSpec env.qwCurTime stLogConfig plog with
        | .wait => some (.stopped, s, out)
        | .skip => readSpecLoop env stLogConfig fuel (advanceRead s) out
        | .read plog =>
          if plog.iAppId = 0 ∨ plog.iModuleId = 0 then some (.aborted, s.setLog i plog, out)
          else
            let x := readCust env plog
            let s := s.setLog i x.2
            match env.readAppLogToBuf i with
            | .refused => some (.refused, s, out)
            | .noApp => readSpecLoop env stLogConfig fuel (advanceRead s) out
            | .taken =>
              readSpecLoop env stLogConfig fuel (advanceRead s)
                (out ++ [⟨plog.own, plog.iAppId, plog.iModuleId, x.1⟩])
    else some (.drained, s, out)

/-- The part of `ReadAppLog` that reads the special buffer. -/
def readSpecLog (env : ReadEnv) (stLogConfig : List SLogConfig) (s : SpecShm) :
    Option (SpecEnd × SpecShm × List LogInfo) :=
  (readSpecLoop env stLogConfig (MTLOG_LOG_SPECIAL_COUNT + 1) s []).map fun r =>
    if r.1 = .refused ∨ r.1 = .aborted then r
    else
      let s := r.2.1
      (r.1, if s.iLogSpecialReadIdx = s.iLogSpecialWriteIdx then { s with iLogSpecialReadIdx := -1 }
        else s, r.2.2)

theorem drained_goes_on : ¬ (SpecEnd.drained = .refused ∨ SpecEnd.drained = .aborted) := by decide

theorem chooseSpec_cases {qwCurTime : Nat} {stLogConfig : List SLogConfig} {plog plog' : MTLog}
    (h : chooseSpec qwCurTime stLogConfig plog = .read plog') :
    (∃ pcfg, findConfig stLogConfig plog.dwLogConfigId = some pcfg ∧
      plog' = { plog with iAppId := pcfg.iAppId, iModuleId := pcfg.iModuleId }) ∨
      plog.iAppId ≠ 0 ∧ plog' = plog := by
  unfold chooseSpec at h
  by_cases hzero : plog.iAppId = 0
  · rw [if_pos hzero] at h
    cases hfind : findConfig stLogConfig plog.dwLogConfigId with
    | none =>
      rw [hfind] at h
      dsimp only at h
      split_ifs at h
    | some pcfg =>
      rw [hfind] at h
      dsimp only at h
      split_ifs at h
      exact Or.inl ⟨pcfg, rfl, (SpecChoice.read.inj h).symm⟩
  · rw [if_neg hzero] at h
    exact Or.inr ⟨hzero, (SpecChoice.read.inj h).symm⟩

end XrkMonitor.LogSpec
