import XrkMonitor.Packet.Signature
import XrkMonitor.PluginReport.Client

/-!
# Plugin reports at the server

The server goes through the items of a report by their length bytes, as many as the
content says, and counts down what is left of the content in 16 bits. Each item is
checked against the database and changes it at once. Only after the last item does
the server see whether the items have filled the content, and refuses the packet if
they have not.

## Implementation notes

Addresses count from the start of the content; memory goes on behind its end. The
numbers of an item are changed to host order in place. `top` is where the furthest
read has ended. `DealCommInfo` and the database are parameters: the rows the
queries find, and the database after a statement. A string is read up to its `NUL`,
for 65536 characters at most. The reports seen are kept for the statements about
them, the server has no such list.
-/

namespace XrkMonitor.PluginReport

open Library Packet

def ERR_SERVER : Int := 1
def sRspBufSize : Nat := 512
def sContentBufEncSize : Nat := 1024 + 256

/-- The values that a statement gives to `cfg_version`, `build_version` and so on. -/
structure FirstValues where
  lib_ver_num : Nat
  cfg_version : List UInt8
  build_version : List UInt8
  start_time : Nat

/-- The statements on `mt_plugin_machine`. -/
inductive Statement
  | updateAgain (machine_id open_plugin_id last_hello_time : Nat) (last_attr_time last_log_time : Option Nat)
  | updateFirst (xrk_id last_hello_time : Nat) (last_attr_time last_log_time : Option Nat)
      (values : FirstValues)
  | insert (machine_id open_plugin_id last_hello_time last_attr_time last_log_time : Nat)
      (values : FirstValues)

/-- The server, its database and its clock. -/
structure Server (D : Type) where
  /-- The result of `DealCommInfo`. -/
  commInfo : Int
  m_iRemoteMachineId : Nat
  tv_sec : Nat
  bEnableEncryptData : Bool
  /-- The row of `mt_plugin`, whose name may be `NULL`. -/
  plugin_name : D → Nat → Option (Option (List UInt8))
  /-- What `getuval` gives for the machine's row of a plugin. -/
  cfg_file_time : D → Nat → Nat
  /-- The machine's row of a plugin: `xrk_id` and `cfg_file_time`. -/
  plugin_machine : D → Nat → Option (Nat × Nat)
  execute : D → Statement → D

/-- `MonitorPluginCheckResult`. -/
structure MonitorPluginCheckResult where
  iPluginId : Nat
  bCheckResult : UInt8
  bNeedReportCfg : UInt8

def MonitorPluginCheckResult.bytes (x : MonitorPluginCheckResult) : List UInt8 :=
  toBytes 4 x.iPluginId ++ [x.bCheckResult, x.bNeedReportCfg]

/-- The state of the loop. -/
structure Loop (D : Type) where
  mem : Nat → UInt8
  top : Nat
  db : D
  statements : List Statement
  stPluginCheck : List MonitorPluginCheckResult
  seen : List Report

section Model

variable {D : Type}

/-- The number at an address, in network byte order. -/
def ntohlAt (mem : Nat → UInt8) (p : Nat) : Nat := ofBytes (bytesAt mem p 4)

/-- The string at an address. -/
def strAt (mem : Nat → UInt8) (p : Nat) : List UInt8 := cstrAt mem p (2 ^ 16)

/-- `strncmp` of a string with bytes in memory: whether they are equal, and how many were read. -/
def strncmp : List UInt8 → List UInt8 → Bool × Nat
  | _, [] => (true, 0)
  | s, b :: bs =>
    if s.headD 0 ≠ b then (false, 1)
    else if b = 0 then (true, 1)
    else ((strncmp s.tail bs).1, (strncmp s.tail bs).2 + 1)

/-- The loop has read up to an address. -/
def Loop.read (s : Loop D) (p : Nat) : Loop D := { s with top := max s.top p }

/-- The loop has made a statement. -/
def Loop.exec (srv : Server D) (s : Loop D) (q : Statement) : Loop D :=
  { s with db := srv.execute s.db q, statements := s.statements ++ [q] }

def Loop.check (s : Loop D) (x : MonitorPluginCheckResult) : Loop D :=
  { s with stPluginCheck := s.stPluginCheck ++ [x] }

/-- `dwLastHelloTime` with its default. -/
def Server.helloTime (srv : Server D) (t : Nat) : Nat := if t = 0 then srv.tv_sec else t

/-- A time that is set only if there is one. -/
def ifPositive (t : Nat) : Option Nat := if 0 < t then some t else none

/-- The record of a known plugin at an address. -/
def infoAt (mem : Nat → UInt8) (p : Nat) : TRepPluginInfo where
  iPluginId := ntohlAt mem p
  dwLastReportAttrTime := ntohlAt mem (p + 4)
  dwLastReportLogTime := ntohlAt mem (p + 8)
  dwLastHelloTime := ntohlAt mem (p + 12)
  dwConfigFileTime := ntohlAt mem (p + 16)

/-- Memory after the numbers of the record were changed to host order. -/
def hostInfo (srv : Server D) (mem : Nat → UInt8) (p : Nat) : Nat → UInt8 :=
  let x := infoAt mem p
  writeAt mem p (nativeBytes 4 x.iPluginId ++ (nativeBytes 4 x.dwLastReportAttrTime ++
    (nativeBytes 4 x.dwLastReportLogTime ++ (nativeBytes 4 (srv.helloTime x.dwLastHelloTime) ++
      nativeBytes 4 x.dwConfigFileTime))))

/-- The branch for a known plugin, with its record at `p`. -/
def Loop.dealInfo (srv : Server D) (s : Loop D) (p : Nat) : Loop D :=
  let x := infoAt s.mem p
  let s : Loop D := { s.read (p + sizeofTRepPluginInfo) with
    mem := hostInfo srv s.mem p, seen := s.seen ++ [.again x] }
  let bNeedReportCfg := if x.dwConfigFileTime ≠ srv.cfg_file_time s.db x.iPluginId then 1 else 0
  (s.exec srv (.updateAgain srv.m_iRemoteMachineId x.iPluginId (srv.helloTime x.dwLastHelloTime)
    (ifPositive x.dwLastReportAttrTime) (ifPositive x.dwLastReportLogTime))).check
    ⟨x.iPluginId, 0, bNeedReportCfg⟩

/-- Memory after the numbers of a first record were changed to host order. -/
def hostFirst (srv : Server D) (mem : Nat → UInt8) (p : Nat) : Nat → UInt8 :=
  writeAt (writeAt mem p (nativeBytes 4 (ntohlAt mem p))) (p + 28)
    (nativeBytes 4 (ntohlAt mem (p + 28)) ++ (nativeBytes 4 (ntohlAt mem (p + 32)) ++
      (nativeBytes 4 (ntohlAt mem (p + 36)) ++ (nativeBytes 4 (ntohlAt mem (p + 40)) ++
        (nativeBytes 4 (srv.helloTime (ntohlAt mem (p + 44))) ++
          nativeBytes 4 (ntohlAt mem (p + 48)))))))

/-- The first record at an address, where the strings are read after the numbers were changed. -/
def firstAt (srv : Server D) (mem : Nat → UInt8) (p : Nat) : TRepPluginInfoFirst where
  iPluginId := ntohlAt mem p
  szVersion := strAt (hostFirst srv mem p) (p + 4)
  szBuildVer := strAt (hostFirst srv mem p) (p + 16)
  iLibVerNum := ntohlAt mem (p + 28)
  dwConfigFileTime := ntohlAt mem (p + 32)
  dwLastReportAttrTime := ntohlAt mem (p + 36)
  dwLastReportLogTime := ntohlAt mem (p + 40)
  dwLastHelloTime := ntohlAt mem (p + 44)
  dwPluginStartTime := ntohlAt mem (p + 48)
  sPluginName := cstrAt mem (p + sizeofTRepPluginInfoFirst) (mem (p + 52)).toNat

/-- What is written about a first report. -/
def FirstValues.of (x : TRepPluginInfoFirst) : FirstValues :=
  ⟨x.iLibVerNum, x.szVersion, x.szBuildVer, x.dwPluginStartTime⟩

/-- The statement for a first report that was accepted. -/
def Loop.saveFirst (srv : Server D) (s : Loop D) (p : Nat) (x : TRepPluginInfoFirst) : Loop D :=
  let s := (s.read (p + 4 + x.szVersion.length + 1)).read (p + 16 + x.szBuildVer.length + 1)
  match srv.plugin_machine s.db x.iPluginId with
  | some row =>
    (s.exec srv (.updateFirst row.1 (srv.helloTime x.dwLastHelloTime)
      (ifPositive x.dwLastReportAttrTime) (ifPositive x.dwLastReportLogTime) (.of x))).check
      ⟨x.iPluginId, 0, if x.dwConfigFileTime ≠ row.2 then 1 else 0⟩
  | none =>
    (s.exec srv (.insert srv.m_iRemoteMachineId x.iPluginId (srv.helloTime x.dwLastHelloTime)
      x.dwLastReportAttrTime x.dwLastReportLogTime (.of x))).check ⟨x.iPluginId, 0, 1⟩

/-- The name does not match: it is ended in memory, and logged. -/
def Loop.nameNotMatch (s : Loop D) (p : Nat) (x : TRepPluginInfoFirst) : Loop D :=
  let mem := writeAt s.mem (p + 52 + (s.mem (p + 52)).toNat) [0]
  ({ s with mem := mem }.read (p + 53 + (strAt mem (p + 53)).length + 1)).check ⟨x.iPluginId, 1, 0⟩

/-- The check of the name of a first report against that of the database. -/
def Loop.checkName (srv : Server D) (s : Loop D) (p : Nat) (x : TRepPluginInfoFirst)
    (ptmp : Option (List UInt8)) : Loop D :=
  let bPluginNameLen := (s.mem (p + 52)).toNat
  if bPluginNameLen < 1 then s.nameNotMatch p x
  else
    match ptmp with
    | none => s.saveFirst srv p x
    | some name =>
      let cmp := strncmp name (bytesAt s.mem (p + 53) bPluginNameLen)
      if cmp.1 then (s.read (p + 53 + cmp.2)).saveFirst srv p x
      else (s.read (p + 53 + cmp.2)).nameNotMatch p x

/-- The loop has read the numbers of a first report. -/
def Loop.enterFirst (srv : Server D) (s : Loop D) (p : Nat) : Loop D :=
  { s.read (p + 52) with
    mem := hostFirst srv s.mem p, seen := s.seen ++ [.first (firstAt srv s.mem p)] }

/-- The branch for a first report, with its record at `p`. -/
def Loop.dealFirst (srv : Server D) (s : Loop D) (p : Nat) : Loop D :=
  let x := firstAt srv s.mem p
  let s := s.enterFirst srv p
  match srv.plugin_name s.db x.iPluginId with
  | none => s.check ⟨x.iPluginId, 1, 0⟩
  | some ptmp => (s.read (p + 53)).checkName srv p x ptmp

/-- The loop over the items, with the plugins that are left, the address and what is left of the
content. -/
def Loop.run (srv : Server D) : Nat → Nat → Nat → Loop D → Loop D × Nat × Nat
  | 0, _, wLen, s => (s, 0, wLen)
  | k + 1, p, wLen, s =>
    if wLen = 0 then (s, k + 1, wLen)
    else
      let iItemLen := (s.mem p).toNat
      let s := s.read (p + 1)
      let wLen' := (wLen + 2 ^ 16 - (1 + iItemLen)) % 2 ^ 16
      if iItemLen = sizeofTRepPluginInfo then
        Loop.run srv k (p + 1 + iItemLen) wLen' (s.dealInfo srv (p + 1))
      else if sizeofTRepPluginInfoFirst < iItemLen then
        Loop.run srv k (p + 1 + iItemLen) wLen' (s.dealFirst srv (p + 1))
      else (s, k + 1, wLen)

/-- The state before the loop; the number of plugins has been read. -/
def Loop.start (mem : Nat → UInt8) (db : D) : Loop D := ⟨mem, 1, db, [], [], []⟩

/-- What comes out: the return code, where the reads have ended, the statements, the bytes that
were written to the response buffer, and the reports. -/
structure Result where
  iRet : Int
  top : Nat
  statements : List Statement
  sRspBuf : List UInt8
  seen : List Report

/-- `DealCmdReportPluginInfo` for a content of `m_wCmdContentLen` bytes. -/
def dealCmdReportPluginInfo (srv : Server D) (db : D) (mem : Nat → UInt8) (m_wCmdContentLen : Nat) :
    Result :=
  if m_wCmdContentLen ≤ sizeofMonitorRepPluginInfoContent then
    ⟨ERR_INVALID_CMD_CONTENT, 0, [], [], []⟩
  else if srv.commInfo ≠ NO_ERROR then ⟨srv.commInfo, 0, [], [], []⟩
  else
    let r := Loop.run srv (mem 0).toNat 1 (m_wCmdContentLen - sizeofMonitorRepPluginInfoContent)
      (Loop.start mem db)
    if 0 < r.2.1 ∨ 0 < r.2.2 then ⟨ERR_INVALID_PACKET, r.1.top, r.1.statements, [], r.1.seen⟩
    else
      let sRspBuf := UInt8.ofNat r.1.stPluginCheck.length ::
        r.1.stPluginCheck.flatMap MonitorPluginCheckResult.bytes
      let iSigBufLen := (sRspBuf.length / 16 + 1) * 16
      let iRet := if srv.bEnableEncryptData ∧ sContentBufEncSize < iSigBufLen then ERR_SERVER else NO_ERROR
      ⟨iRet, r.1.top, r.1.statements, sRspBuf, r.1.seen⟩

end Model

section Spec

/-- Whatever the database says: the server reads inside the content, answers inside its buffer, and
has made no statement if it refuses the packet. -/
def ServerSafe (mem : Nat → UInt8) (m_wCmdContentLen : Nat) : Prop :=
  ∀ (D : Type) (srv : Server D) (db : D),
    let r := dealCmdReportPluginInfo srv db mem m_wCmdContentLen
    r.top ≤ m_wCmdContentLen ∧ r.sRspBuf.length ≤ sRspBufSize ∧ (r.iRet ≠ NO_ERROR → r.statements = [])

/-- The length byte of an item. -/
def ItemLen (b : UInt8) : Prop := b.toNat = sizeofTRepPluginInfo ∨ sizeofTRepPluginInfoFirst < b.toNat

instance (b : UInt8) : Decidable (ItemLen b) := inferInstanceAs (Decidable (_ ∨ _))

/-- The items from an address on end where the content does. -/
def ItemsFill (mem : Nat → UInt8) (len : Nat) : Nat → Nat → Prop
  | 0, p => p = len
  | k + 1, p => ItemLen (mem p) ∧ ItemsFill mem len k (p + 1 + (mem p).toNat)

/-- A first report whose strings end in its arrays and whose name is in the item. -/
structure FirstSound (mem : Nat → UInt8) (p : Nat) : Prop where
  name_pos : 1 ≤ (mem (p + 53)).toNat
  name_le : (mem (p + 53)).toNat + sizeofTRepPluginInfoFirst ≤ (mem p).toNat
  version : 0 ∈ bytesAt mem (p + 5) 12
  build : 0 ∈ bytesAt mem (p + 17) 12

/-- The first reports that have a record inside the content are sound. -/
def ItemsSound (mem : Nat → UInt8) (len : Nat) : Nat → Nat → Prop
  | 0, _ => True
  | k + 1, p =>
    (sizeofTRepPluginInfoFirst < (mem p).toNat → p + 1 + sizeofTRepPluginInfoFirst ≤ len →
      FirstSound mem p) ∧
    (ItemLen (mem p) → ItemsSound mem len k (p + 1 + (mem p).toNat))

/-- The packet is refused before its first item, or its items fill the content and are not too many
for the answer. -/
def Shape (mem : Nat → UInt8) (len : Nat) : Prop :=
  len ≤ sizeofMonitorRepPluginInfoContent ∨ mem 0 = 0 ∨ ¬ItemLen (mem 1) ∨
    (ItemsFill mem len (mem 0).toNat 1 ∧ (mem 0).toNat ≤ 85)

end Spec

end XrkMonitor.PluginReport
