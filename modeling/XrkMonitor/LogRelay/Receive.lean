import XrkMonitor.LogBatch.RateLimit
import XrkMonitor.LogRelay.Send

/-!
# The log server takes the packets of a relay

`OnRawData` checks the frame of a packet and its head and goes by the command. `OnRawDataLocalPkg`
finds the ring of the app and hands each log to `RemoteShmLog`, which fills the cell at the write
index: a number without its flag stays what it was, and a string without its flag is made empty.

## Implementation notes

The library that parses heads and bodies is a parameter. The other commands and the packets of the
binary format are left out, and so is the answer apart from its code. A packet that is longer than
the buffer of the socket is cut. The rings are named as in `LogBatch.Server`.
-/

namespace XrkMonitor.LogRelay

open Library ServerRing ServerLog Vmem ServerVmem Packet
open LogBatch (AckCode ServerEnv correctTime findAppLogShm)

/-- `ibufsz` of the socket. -/
def ibufsz : Nat := 16384

/-- The log server: the rings by their names, which of them belongs to an app, and the
variable-length memory. -/
structure LogServer where
  mapAppLogShm : Int32 → Option LogBatch.TSLogShm
  shm : LogBatch.TSLogShm → TSLogShm LogCell
  vmem : VmemBuf

/-- What the handling of a packet gets from outside. -/
structure ReceiveEnv extends ServerEnv where
  m_iVmemShmKey : Int
  vmemEnv : Nat → Nat → VmemEnv
  tv_sec : UInt32

/-- What the server uses of the protocol buffer library. -/
structure RelayPb (Head : Type) where
  head : PbCodec Head
  en_cmd : Head → Nat
  parseBody : List UInt8 → Option SlogClientPkgBody

section RemoteShmLog

/-- A string of the cell: copied if its flag is set, or made empty. -/
def storeStr {n : Nat} (isSet : Bool) (bytes : Option (List UInt8)) (slot : CharBuf n) :
    CharBuf n :=
  if isSet then CharBuf.strncpy n (cstr (bytes.getD [])) else slot.clear

/-- The custom fields of the cell. -/
def storeCust (stLog : SlogLogInfo) (slot : LogCust) : LogCust :=
  let bCustFlag := stLog.cust_flag.toUInt8
  { bCustFlag := bCustFlag
    dwCust_1 :=
      if isSetBit bCustFlag MTLOG_CUST_FLAG_C1_SET then stLog.uint32_cust_1.getD 0
      else slot.dwCust_1
    dwCust_2 :=
      if isSetBit bCustFlag MTLOG_CUST_FLAG_C2_SET then stLog.uint32_cust_2.getD 0
      else slot.dwCust_2
    iCust_3 :=
      if isSetBit bCustFlag MTLOG_CUST_FLAG_C3_SET then stLog.int32_cust_3.getD 0
      else slot.iCust_3
    iCust_4 :=
      if isSetBit bCustFlag MTLOG_CUST_FLAG_C4_SET then stLog.int32_cust_4.getD 0
      else slot.iCust_4
    szCust_5 :=
      storeStr (isSetBit bCustFlag MTLOG_CUST_FLAG_C5_SET) stLog.bytes_cust_5 slot.szCust_5
    szCust_6 :=
      storeStr (isSetBit bCustFlag MTLOG_CUST_FLAG_C6_SET) stLog.bytes_cust_6 slot.szCust_6 }

/-- The cell of a log, and the variable-length memory. -/
def storeLog (env : ReceiveEnv) (i : Nat) (stLog : SlogLogInfo) (slot : LogCell)
    (vmem : VmemBuf) : LogCell × VmemBuf :=
  let text := remoteShmLogContent env.m_iVmemShmKey (env.vmemEnv i) 0 stLog.bytes_log
    ⟨slot.sLogContent, slot.iContentIndex, stLog.uint32_log_type.toUInt16, vmem⟩
  ({ cust := storeCust stLog slot.cust
     dwLogConfigId := stLog.uint32_log_config_id
     dwLogHost := stLog.uint32_log_host
     qwLogTime := stLog.uint64_log_time
     iAppId := stLog.uint32_app_id.toInt32
     iModuleId := stLog.uint32_module_id.toInt32
     wLogType := text.wLogType
     iContentIndex := text.iContentIndex
     dwStartWriteLogTime := env.tv_sec
     sLogContent := text.mem }, text.vmem)

/-- `RemoteShmLog`; a full ring stays as it is. -/
def remoteShmLog (env : ReceiveEnv) (i : Nat) (stLog : SlogLogInfo) (pLogShm : LogBatch.TSLogShm)
    (s : LogServer) : LogServer :=
  let shm := s.shm pLogShm
  if (shm.iWriteIndex : Int) = shm.iLogStarIndex then s
  else
    let (cell, vmem) := storeLog env i stLog (shm.sLogList shm.iWriteIndex).fields s.vmem
    { s with
      shm := Function.update s.shm pLogShm (putLog shm cell)
      vmem := vmem }

end RemoteShmLog

section OnRawData

/-- The loop of `OnRawDataLocalPkg` from log `i` on, and whether a limit has stopped it. -/
def localLoop (env : ReceiveEnv) (pLogShm : LogBatch.TSLogShm) :
    Nat → List SlogLogInfo → LogServer → Bool × LogServer
  | _, [], s => (false, s)
  | i, plog :: logs, s =>
    if env.isLogFreqOver i plog.uint32_log_config_id then (true, s)
    else
      localLoop env pLogShm (i + 1) logs
        (remoteShmLog env i (plog.set_uint64_log_time
          (correctTime env.toServerEnv i plog.uint64_log_time)) pLogShm s)

/-- `OnRawDataLocalPkg`, with the body as it was parsed: the answer. -/
def onRawDataLocalPkg (env : ReceiveEnv) (body : Option SlogClientPkgBody) (s : LogServer) :
    AckCode × LogServer :=
  match body with
  | none => (.ERR_INVALID_PACKET, s)
  | some logs =>
    if logs.log.length ≤ 0 then (.ERR_INVALID_PACKET, s)
    else
      match env.getAppInfo logs.uint32_app_id.toInt32 with
      | none => (.ERR_INVALID_APPID, s)
      | some pAppInfo =>
        if env.isIpMatchMachine pAppInfo.dwAppSrvMaster ≠ 1 then
          (.ERR_APP_LOG_DISPATCH_INVALID, s)
        else
          match findAppLogShm env.toServerEnv none s.mapAppLogShm pAppInfo with
          | (none, _) => (.ERR_INVALID_APPID, s)
          | (some pLogShm, mapAppLogShm) =>
            let r := localLoop env pLogShm 0 logs.log { s with mapAppLogShm := mapAppLogShm }
            (if r.1 then .ERR_LOG_FREQ_OVER_LIMIT else .NO_ERROR, r.2)

/-- What `OnRawData` has done with a packet: it is of the binary format, its check failed, its
command is another one, or its logs were handled. -/
inductive Handled
  | binary
  | refused (iRet : Int)
  | otherCmd
  | logs (ack : AckCode)
deriving DecidableEq

/-- `OnRawData`; there is no result where it reads behind the packet. -/
def onRawData {Head : Type} (P : RelayPb Head) (env : ReceiveEnv) (st : PbState Head)
    (packet : List UInt8) (s : LogServer) : Option (Handled × LogServer) :=
  let buf := packet.take ibufsz
  (isPacketPbRead (int32At buf) st buf).bind fun (isPb, st) =>
    if isPb = false then some (.binary, s)
    else
      (checkBasicPacketPbRead P.head false (bytesIn buf 5) st buf).bind fun (iRet, st) =>
        if iRet ≠ NO_ERROR then some (.refused iRet, s)
        else if P.en_cmd st.m_pbHead ≠ SLOG_CLIENT_SEND_LOG then some (.otherCmd, s)
        else
          (bytesIn buf (1 + 4 + st.m_iPbHeadLen.toNat + 4) st.m_iPbBodyLen).map fun body =>
            let r := onRawDataLocalPkg env (P.parseBody body) s
            (.logs r.1, r.2)

end OnRawData

end XrkMonitor.LogRelay
