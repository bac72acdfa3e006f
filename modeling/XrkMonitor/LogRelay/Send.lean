import XrkMonitor.Library.WireFormat
import XrkMonitor.LogRelay.Ring
import XrkMonitor.Packet.PbFrame
import XrkMonitor.ServerLog.Content
import XrkMonitor.ServerLog.Cust

/-!
# The relay sends the logs of an app

`SendSlog` takes logs out of the ring of an app, one after the other, and makes a packet of them. A
log goes from its cell into the static record of `GetLog` and from there into a message. The batch
ends where there is no log, or where its estimated size has come to 1200 bytes. A batch with logs of
the relay itself only is dropped.

## Implementation notes

The memory from the array `sLogContent` of a cell on is kept with the cell; what stands behind the
array is read for a long text only. `GetShmLog` returns a static buffer, so the branch for a log
without a text is left out; the buffer and the texts of its `bug` messages are parameters. The
messages are written as the protocol buffer library writes them, which does not fail here.
-/

namespace XrkMonitor.LogRelay

open Library ServerRing ServerLog Vmem ServerVmem

def MAX_LOG_COUNT_PER_SEND : Nat := 1000
def SLOG_CLIENT_SEND_LOG : Nat := 501

/-- `TOO_LONG_TRUNC_STR`. -/
def tooLongTruncStr : List UInt8 :=
  " [log too long truncate, see history log !]".toList.map fun c => UInt8.ofNat c.toNat

/-- The fields of a cell `TSLog` apart from its sequence number. -/
structure LogCell where
  cust : LogCust
  dwLogConfigId : UInt32
  dwLogHost : UInt32
  qwLogTime : UInt64
  iAppId : Int32
  iModuleId : Int32
  wLogType : UInt16
  iContentIndex : Int
  dwStartWriteLogTime : UInt32
  sLogContent : Nat → UInt8

/-- The text in the array of a cell. -/
def LogCell.text (c : LogCell) : List UInt8 := cstrAt c.sLogContent 0 BWORLD_MEMLOG_BUF_LENGTH

/-- `TSLogOut`. -/
structure TSLogOut where
  cust : LogCust
  dwLogConfigId : UInt32
  dwLogHost : UInt32
  dwLogSeq : UInt32
  iAppId : Int32
  iModuleId : Int32
  wLogType : UInt16
  qwLogTime : UInt64
  pszLog : List UInt8

/-- The relay: the ring of the app, the variable-length memory, the static record of `GetLog`, and
the number of the next packet. -/
structure Relay where
  shm : TSLogShm LogCell
  vmem : VmemBuf
  stLogOut : TSLogOut
  s_dwSeq : UInt32

/-- What a call of `GetLog` gets from outside. -/
structure GetLogEnv where
  time : Nat
  sLogBuf : Nat → UInt8
  vmemEnv : VmemEnv
  bugText : ShmLogBug → List UInt8

section GetLog

/-- A string of the record: copied, or made empty. -/
def copyStr {n : Nat} (slot out : CharBuf n) : CharBuf n :=
  if slot.str = [] then out.clear else CharBuf.strncpy n slot.str

/-- The custom fields of the record. -/
def copyCust (slot out : LogCust) : LogCust :=
  { slot with
    szCust_5 := copyStr slot.szCust_5 out.szCust_5
    szCust_6 := copyStr slot.szCust_6 out.szCust_6 }

/-- The record of a log. -/
def logOut (slot : TSLog LogCell) (out : TSLogOut) (pszLog : List UInt8) : TSLogOut where
  cust := copyCust slot.fields.cust out.cust
  dwLogConfigId := slot.fields.dwLogConfigId
  dwLogHost := slot.fields.dwLogHost
  dwLogSeq := UInt32.ofNat slot.dwLogSeq
  iAppId := slot.fields.iAppId
  iModuleId := slot.fields.iModuleId
  wLogType := slot.fields.wLogType
  qwLogTime := slot.fields.qwLogTime
  pszLog := pszLog

/-- The text of a cell with the variable-length memory. -/
def LogCell.shmText (c : LogCell) (vmem : VmemBuf) : ShmText :=
  ⟨c.sLogContent, c.iContentIndex, c.wLogType, vmem⟩

/-- The memory of a long text is freed, and its array says that it was too long. -/
def releaseText (env : GetLogEnv) (iLastIndex : Nat) (r : Relay) : Option Relay :=
  let slot := r.shm.sLogList iLastIndex
  if slot.fields.iContentIndex < 0 then some r
  else
    (freeVmem env.vmemEnv r.vmem slot.fields.iContentIndex).map fun freed =>
      { r with
        vmem := freed.2
        shm :=
          { r.shm with
            sLogList := Function.update r.shm.sLogList iLastIndex
              { slot with
                fields :=
                  { slot.fields with
                    iContentIndex := -1
                    sLogContent := writeAt slot.fields.sLogContent
                      (BWORLD_MEMLOG_BUF_LENGTH - TOO_LONG_TRUNC_STR_LEN)
                      (tooLongTruncStr ++ [0]) } } } }

/-- `GetLog`. -/
def getLog (env : GetLogEnv) (r : Relay) : Option (Option TSLogOut × Relay) :=
  if r.shm.iLogStarIndex < 0 then some (none, r)
  else
    let iLastIndex := r.shm.iLogStarIndex.toNat
    let slot := r.shm.sLogList iLastIndex
    if slot.dwLogSeq = 0 then
      if (slot.fields.dwStartWriteLogTime + 5).toNat < env.time then
        some (none, { r with shm := dropLog r.shm iLastIndex })
      else some (none, r)
    else
      (getShmLog 0 (slot.fields.shmText r.vmem) env.sLogBuf).bind fun text =>
        let pszLog := match text with
          | .ok text => text
          | .error bug => env.bugText bug
        let stLogOut := logOut slot r.stLogOut pszLog
        (releaseText env iLastIndex { r with stLogOut := stLogOut }).map fun r =>
          (some stLogOut, { r with shm := dropLog r.shm iLastIndex })

end GetLog

section Messages

/-- `::top::SlogLogInfo`; the custom fields may be missing. -/
structure SlogLogInfo where
  uint32_app_id : UInt32
  uint32_module_id : UInt32
  uint64_log_time : UInt64
  uint32_log_seq : UInt32
  uint32_log_type : UInt32
  bytes_log : List UInt8
  uint32_log_config_id : UInt32
  uint32_log_host : UInt32
  uint32_cust_1 : Option UInt32
  uint32_cust_2 : Option UInt32
  int32_cust_3 : Option Int32
  int32_cust_4 : Option Int32
  bytes_cust_5 : Option (List UInt8)
  bytes_cust_6 : Option (List UInt8)
  cust_flag : UInt32
deriving DecidableEq

def SlogLogInfo.set_uint64_log_time (m : SlogLogInfo) (qwLogTime : UInt64) : SlogLogInfo :=
  { m with uint64_log_time := qwLogTime }

/-- `::top::SlogClientPkgBody`. -/
structure SlogClientPkgBody where
  log : List SlogLogInfo
  uint32_app_id : UInt32
deriving DecidableEq

/-- A negative `int32` is written as 64 bits. -/
def int32Field (field : Nat) (x : Int32) : List UInt8 := numField field x.toInt64.toUInt64.toNat

/-- `AppendToString` of a log. -/
def SlogLogInfo.bytes (m : SlogLogInfo) : List UInt8 :=
  numField 1 m.uint32_app_id.toNat ++ (numField 2 m.uint32_module_id.toNat ++
    (numField 3 m.uint64_log_time.toNat ++ (numField 4 m.uint32_log_seq.toNat ++
      (numField 5 m.uint32_log_type.toNat ++ (bytesField 6 m.bytes_log ++
        (numField 7 m.uint32_log_config_id.toNat ++ (numField 8 m.uint32_log_host.toNat ++
          (optField (fun x => numField 9 x.toNat) m.uint32_cust_1 ++
            (optField (fun x => numField 10 x.toNat) m.uint32_cust_2 ++
              (optField (int32Field 11) m.int32_cust_3 ++
                (optField (int32Field 12) m.int32_cust_4 ++
                  (optField (bytesField 13) m.bytes_cust_5 ++
                    (optField (bytesField 14) m.bytes_cust_6 ++
                      numField 15 m.cust_flag.toNat)))))))))))))

/-- `AppendToString` of a body. -/
def SlogClientPkgBody.bytes (m : SlogClientPkgBody) : List UInt8 :=
  (m.log.flatMap fun log => bytesField 1 log.bytes) ++ numField 2 m.uint32_app_id.toNat

/-- `AppendToString` of the head of a packet of logs. -/
def headBytes (uint32_seq : UInt32) : List UInt8 :=
  numField 1 SLOG_CLIENT_SEND_LOG ++ numField 2 uint32_seq.toNat

end Messages

section SendSlog

/-- A field that is sent if its flag is set. -/
def flagged {α : Type*} (bCustFlag flag : UInt8) (x : α) : Option α :=
  if isSetBit bCustFlag flag then some x else none

/-- A string that is sent if its flag is set and it is not empty. -/
def flaggedStr {n : Nat} (bCustFlag flag : UInt8) (sz : CharBuf n) : Option (List UInt8) :=
  if isSetBit bCustFlag flag ∧ sz.str ≠ [] then some sz.str else none

/-- The message of a log. -/
def logInfo (o : TSLogOut) : SlogLogInfo where
  uint32_app_id := o.iAppId.toUInt32
  uint32_module_id := o.iModuleId.toUInt32
  uint64_log_time := o.qwLogTime
  uint32_log_seq := o.dwLogSeq
  uint32_log_type := o.wLogType.toUInt32
  bytes_log := o.pszLog
  uint32_log_config_id := o.dwLogConfigId
  uint32_log_host := o.dwLogHost
  uint32_cust_1 := flagged o.cust.bCustFlag MTLOG_CUST_FLAG_C1_SET o.cust.dwCust_1
  uint32_cust_2 := flagged o.cust.bCustFlag MTLOG_CUST_FLAG_C2_SET o.cust.dwCust_2
  int32_cust_3 := flagged o.cust.bCustFlag MTLOG_CUST_FLAG_C3_SET o.cust.iCust_3
  int32_cust_4 := flagged o.cust.bCustFlag MTLOG_CUST_FLAG_C4_SET o.cust.iCust_4
  bytes_cust_5 := flaggedStr o.cust.bCustFlag MTLOG_CUST_FLAG_C5_SET o.cust.szCust_5
  bytes_cust_6 := flaggedStr o.cust.bCustFlag MTLOG_CUST_FLAG_C6_SET o.cust.szCust_6
  cust_flag := o.cust.bCustFlag.toUInt32

/-- What `iLogLen` grows by for a log. -/
def logLen (m : SlogLogInfo) : Nat :=
  32 + m.bytes_log.length + (if m.uint32_cust_1.isSome then 4 else 0) +
    (if m.uint32_cust_2.isSome then 4 else 0) + (if m.int32_cust_3.isSome then 4 else 0) +
    (if m.int32_cust_4.isSome then 4 else 0) + (m.bytes_cust_5.getD []).length +
    (m.bytes_cust_6.getD []).length + 4

/-- The app and the module of the relay's own logs. -/
structure OwnLogs where
  m_iLogAppId : Int32
  m_iLogModuleId : Int32

/-- A batch on its way: the messages, `iLogLen` and `iSelfCount`. -/
structure Batch where
  log : List SlogLogInfo
  iLogLen : Nat
  iSelfCount : Nat

/-- The loop of `SendSlog` with at most `n` rounds left. -/
def sendLoop (own : OwnLogs) (env : Nat → GetLogEnv) : Nat → Batch → Relay → Option (Batch × Relay)
  | 0, b, r => some (b, r)
  | n + 1, b, r =>
    if 1200 ≤ b.iLogLen then some (b, r)
    else
      (getLog (env b.log.length) r).bind fun (pstLog, r) =>
        match pstLog with
        | none => some (b, r)
        | some o =>
          let isSelf := o.iAppId = own.m_iLogAppId ∧ o.iModuleId = own.m_iLogModuleId
          sendLoop own env n
            { log := b.log ++ [logInfo o]
              iLogLen := b.iLogLen + logLen (logInfo o)
              iSelfCount := b.iSelfCount + if isSelf then 1 else 0 } r

/-- `SendLogInfo`: the packet, if it is not too long. -/
def sendLogInfo (strHead strBody : List UInt8) : Option (List UInt8) :=
  if 1024 * 1024 < strHead.length + strBody.length + 10 then none
  else some (Packet.frameBytes strHead strBody)

/-- What `SendSlog` has done: there was nothing to send, the packet was refused, or it was sent. -/
inductive SendResult
  | nothing
  | refused
  | sent (packet : List UInt8)
deriving DecidableEq

/-- `SendSlog`. -/
def sendSlog (own : OwnLogs) (env : Nat → GetLogEnv) (iAppId : Int32) (r : Relay) :
    Option (SendResult × Relay) :=
  (sendLoop own env MAX_LOG_COUNT_PER_SEND ⟨[], 0, 0⟩ r).map fun (b, r) =>
    if b.log.length ≤ 0 ∨ b.log.length ≤ b.iSelfCount then (.nothing, r)
    else
      match sendLogInfo (headBytes r.s_dwSeq) (SlogClientPkgBody.bytes ⟨b.log, iAppId.toUInt32⟩) with
      | none => (.refused, r)
      | some packet => (.sent packet, { r with s_dwSeq := r.s_dwSeq + 1 })

end SendSlog

end XrkMonitor.LogRelay
