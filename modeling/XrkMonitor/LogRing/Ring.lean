import Mathlib.Algebra.Ring.Int.Defs
import Mathlib.Logic.Function.Basic
import XrkMonitor.Library.RingIndex

/-!
# The log ring between the client library and the agent

`MtReport_Log` puts a record into one of the shared rings and `ReadAppLog`
takes the records out. The ring keeps a write index and a start index; a
negative start index stands for an empty ring.

## Implementation notes

One ring is modelled. The compare-and-swap on `bTryGetLogIndex`, the clock, the
shared sequence counter and the answer of `ReadAppLogToBuf` for each record are
inputs. A write is a completed `MtReport_Log` that got this ring. The text and
the vmem indices of a record are left out: no decision of the ring reads them.
-/

namespace XrkMonitor.LogRing

open Library

def MTLOG_SHM_RECORDS_COUNT : Nat := 10000

/-- The fields of `MTLog` that the ring and its records are told apart by. -/
structure MTLog where
  qwLogTime : Nat
  dwLogSeq : Nat
  iAppId : Int
  iModuleId : Int
  wLogType : Nat
  dwLogConfigId : Nat
deriving Repr, DecidableEq

/-- `MTLogShm`, and the counter of writes into a full ring. -/
structure MTLogShm where
  iWriteIndex : Nat
  iLogStarIndex : Int
  sLogList : Nat → MTLog
  wLogInShmFull : Nat

/-- What a call of `MtReport_Log` brings to the ring: the time, the value of the
shared sequence counter it reads, and the ids and the type of its record. -/
structure LogCall where
  qwLogTime : Nat
  dwLogSeq : Nat
  iAppId : Int
  iModuleId : Int
  wLogType : Nat
  dwLogConfigId : Nat
deriving Repr, DecidableEq

/-- The sequence number of a record: `dwLogSeq++`, with zero left out. -/
def takeLogSeq (dwLogSeq : Nat) : Nat := if dwLogSeq = 0 then 1 else dwLogSeq

/-- The record that a call writes. -/
def LogCall.record (call : LogCall) : MTLog where
  qwLogTime := call.qwLogTime
  dwLogSeq := takeLogSeq call.dwLogSeq
  iAppId := call.iAppId
  iModuleId := call.iModuleId
  wLogType := call.wLogType
  dwLogConfigId := call.dwLogConfigId

/-- The part of `MtReport_Log` that takes a cell under the lock. -/
def reserve (s : MTLogShm) (qwLogTime : Nat) : MTLogShm :=
  let iIndex := s.iWriteIndex
  { iWriteIndex := ringNext MTLOG_SHM_RECORDS_COUNT s.iWriteIndex
    iLogStarIndex := if s.iLogStarIndex < 0 then (iIndex : Int) else s.iLogStarIndex
    sLogList := Function.update s.sLogList iIndex
      ({ s.sLogList iIndex with qwLogTime := qwLogTime, dwLogSeq := 0 })
    wLogInShmFull := if ¬ s.iLogStarIndex < 0 ∧ (iIndex : Int) = s.iLogStarIndex
      then s.wLogInShmFull + 1 else s.wLogInShmFull }

/-- `MtReport_Log` on this ring: take a cell, then fill it in. -/
def mtReportLog (s : MTLogShm) (call : LogCall) : MTLogShm :=
  let iIndex := s.iWriteIndex
  let s := reserve s call.qwLogTime
  { s with sLogList := Function.update s.sLogList iIndex call.record }

/-- What a call of `ReadAppLog` meets: the compare-and-swap, the clock in
seconds, and whether the `k`-th record it offers finds room. -/
structure ReadEnv where
  cas : Bool
  now : Nat
  readAppLogToBuf : Nat → Bool

/-- How the read loop of a ring ends. -/
inductive ReadEnd where
  | drained
  | unfinished
  | refused
deriving Repr, DecidableEq

/-- The start index moved on by one cell. -/
def advanceStart (s : MTLogShm) : MTLogShm :=
  { s with iLogStarIndex := (ringNext MTLOG_SHM_RECORDS_COUNT s.iLogStarIndex.toNat : Nat) }

/-- The `while` loop of `ReadAppLog` over one ring: the records delivered so
far are `out`. `none` stands for a loop longer than the ring. -/
def readLoop (env : ReadEnv) : Nat → MTLogShm → List MTLog → Option (ReadEnd × MTLogShm × List MTLog)
  | 0, _, _ => none
  | fuel + 1, s, out =>
    if 0 ≤ s.iLogStarIndex ∧ s.iLogStarIndex ≠ s.iWriteIndex then
      let plog := s.sLogList s.iLogStarIndex.toNat
      if plog.dwLogSeq = 0 then
        if env.now % 2 ^ 32 ≤ (plog.qwLogTime / 1000000 + 5) % 2 ^ 32 then
          some (.unfinished, advanceStart s, out)
        else some (.unfinished, s, out)
      else if env.readAppLogToBuf out.length then
        readLoop env fuel (advanceStart s) (out ++ [plog])
      else some (.refused, s, out)
    else some (.drained, s, out)

/-- The ring part of `ReadAppLog`: how it ended, if it got the ring at all, the
ring after it, and the records delivered. -/
def readAppLog (env : ReadEnv) (s : MTLogShm) : Option (Option ReadEnd × MTLogShm × List MTLog) :=
  if env.cas then
    (readLoop env (MTLOG_SHM_RECORDS_COUNT + 1) s []).map fun r =>
      if r.1 = .refused then (some r.1, r.2.1, r.2.2)
      else
        let s := r.2.1
        (some r.1, if s.iLogStarIndex = s.iWriteIndex then { s with iLogStarIndex := -1 } else s,
          r.2.2)
  else some (none, s, [])

end XrkMonitor.LogRing
