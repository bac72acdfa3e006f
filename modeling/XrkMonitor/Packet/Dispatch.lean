import XrkMonitor.Packet.Signature

/-!
# What a rejected packet does to the agent

`OnMtreportPkg` returns after a failed `CheckBasicPacket` only when the head was
not published. Otherwise it goes on with the command and the sequence of the
rejected packet: a push command runs its handler, and every other command takes
the timer of the sequence.

## Implementation notes

The run of `OnMtreportPkg` is the list of the changes that it makes to the agent
and of the packets that it sends; without a change and a packet the list is
empty. A handler that has passed its checks answers in any case, so what it does
then is one entry, `work`. What the handlers of responses do after the timer is
taken is a parameter. The log of an installation is closed after every line, so
it is never open here. `uiSessDataLen` is set before every use and is left out.
-/

namespace XrkMonitor.Packet

open Library

def CMD_MONI_S2C_PRE_INSTALL_NOTIFY : Nat := 703
def CMD_MONI_S2C_MACH_ORP_PLUGIN_REMOVE : Nat := 704
def CMD_MONI_S2C_MACH_ORP_PLUGIN_ENABLE : Nat := 705
def CMD_MONI_S2C_MACH_ORP_PLUGIN_DISABLE : Nat := 706
def CMD_MONI_S2C_MACH_ORP_PLUGIN_MOD_CFG : Nat := 707

/-- The sizes of `CmdS2cPreInstallContentReq`, `CmdS2cMachOprPluginReq` and
`CmdS2cModMachPluginCfgReq`. -/
def sizeofPreInstallReq : Nat := 92
def sizeofMachOprPluginReq : Nat := 60
def sizeofModMachPluginCfgReq : Nat := 17

/-- The parts of the agent that the dispatch reads. -/
structure Agent where
  iEnableEncryptData : Bool
  sRandKey : List UInt8
  qwServerPacketSessId : Nat
  /-- `g_mtTimer` is initialised and has a timer with this key. -/
  timers : Nat → Bool
  /-- The plugin is in `stPluginInfo` and its configuration file exists. -/
  plugins : Int → Bool
  /-- `sCmdContentBuf` of `DealModMachinePluginCfg`, from the packet before. -/
  sCmdContentBuf : List UInt8
  /-- `REQERR_LOG` writes its line. -/
  logsReqErr : Bool

/-- A change to the agent, or a packet that is sent. -/
inductive AgentChange
  | timerTaken (uiKey : Nat)
  | sessId (qwServerPacketSessId : Nat)
  | errorResp (iRet : Int)
  | work (dwCmd : Nat)
  | respond
  | crash
deriving DecidableEq

section Handlers

variable (inv : InvCipher) (before : UInt8) (st : Agent) (pkg : CBasicPacket)

/-- The content as the handlers of pushes read it over what their buffer holds, and `iBufLen`. -/
def plainContent (stale : List UInt8) : List UInt8 × Int :=
  if st.iEnableEncryptData then
    match aesDecipherData inv before .aes128 st.sRandKey pkg.content with
    | none => (stale, 0)
    | some (out, n) => (out ++ stale.drop out.length, Int.bmod n (2 ^ 32))
  else (pkg.content, pkg.m_wCmdContentLen)

/-- The check of `DealPreInstallNotify`. -/
def preInstallAccepted : Bool :=
  let (pct, iBufLen) := plainContent inv before st pkg []
  decide ((sizeofPreInstallReq : Int) ≤ iBufLen) &&
    decide (iBufLen = Int.bmod (netAt pct 88 4 + sizeofPreInstallReq) (2 ^ 32))

/-- The log line of a failed check reads the content through a null pointer. -/
def preInstallCrashes : Bool :=
  !st.iEnableEncryptData && pkg.m_pstCmdContent.isNone && st.logsReqErr

/-- The check of `DealMachineOprPlugin`. -/
def machineOprAccepted : Bool :=
  decide ((plainContent inv before st pkg []).2 = (sizeofMachOprPluginReq : Int))

/-- The checks of `DealModMachinePluginCfg`: the lengths, the plugin and its file. -/
def modCfgAccepted : Bool :=
  let (pct, iBufLen) := plainContent inv before st pkg st.sCmdContentBuf
  decide (sizeofModMachPluginCfgReq < pkg.m_wCmdContentLen) &&
    decide (Int.bmod (netAt pct 13 4 + sizeofModMachPluginCfgReq) (2 ^ 32) = iBufLen) &&
      st.plugins (Int.bmod (netAt pct 4 4) (2 ^ 32))

/-- The session of the packet is kept for the response, where it is a new one. -/
def keepSessId : List AgentChange :=
  if pkg.qwSessionId ≠ 0 ∧ pkg.qwSessionId ≠ st.qwServerPacketSessId
  then [.sessId pkg.qwSessionId] else []

/-- `SendErrorRespToReq` after a failed push; a response gets none, and `MakeRespPkg` of sequence `0`
counts as failed. -/
def sendErrorRespToReq (iRet : Int) : List AgentChange :=
  if pkg.qwSessionId ≠ 0 ∧ pkg.dwRespMagicNum ≠ MAGIC_RESPONSE_NUM ∧ 0 < pkg.m_dwReqSeq
  then [.errorResp iRet] else []

/-- `DealPreInstallNotify` and what follows it. -/
def dealPreInstallNotify : List AgentChange :=
  if preInstallAccepted inv before st pkg then keepSessId st pkg ++ [.work pkg.m_dwReqCmd]
  else if preInstallCrashes st pkg then [.crash]
  else sendErrorRespToReq pkg ERR_INVALID_PACKET_LEN

/-- `DealMachineOprPlugin` and what follows it. -/
def dealMachineOprPlugin : List AgentChange :=
  if machineOprAccepted inv before st pkg then keepSessId st pkg ++ [.work pkg.m_dwReqCmd]
  else sendErrorRespToReq pkg ERR_INVALID_PACKET_LEN

/-- `DealModMachinePluginCfg` and what follows it. -/
def dealModMachinePluginCfg : List AgentChange :=
  keepSessId st pkg ++
    if modCfgAccepted inv before st pkg then [.work pkg.m_dwReqCmd]
    else if sizeofModMachPluginCfgReq < pkg.m_wCmdContentLen ∧
        Int.bmod (netAt (plainContent inv before st pkg st.sCmdContentBuf).1 13 4 +
          sizeofModMachPluginCfgReq) (2 ^ 32) =
            (plainContent inv before st pkg st.sCmdContentBuf).2 then
      sendErrorRespToReq pkg ERR_INVALID_PACKET
    else sendErrorRespToReq pkg ERR_INVALID_PACKET_LEN

/-- The dispatch of a packet whose head was published; `respond` is what the handler of a response
does. -/
def dispatch (respond : CBasicPacket → List AgentChange) : List AgentChange :=
  if pkg.m_dwReqCmd = CMD_MONI_S2C_PRE_INSTALL_NOTIFY then dealPreInstallNotify inv before st pkg
  else if pkg.m_dwReqCmd = CMD_MONI_S2C_MACH_ORP_PLUGIN_MOD_CFG then
    dealModMachinePluginCfg inv before st pkg
  else if pkg.m_dwReqCmd = CMD_MONI_S2C_MACH_ORP_PLUGIN_REMOVE ∨
      pkg.m_dwReqCmd = CMD_MONI_S2C_MACH_ORP_PLUGIN_ENABLE ∨
      pkg.m_dwReqCmd = CMD_MONI_S2C_MACH_ORP_PLUGIN_DISABLE then
    dealMachineOprPlugin inv before st pkg
  else if st.timers pkg.m_dwReqSeq then .timerTaken pkg.m_dwReqSeq :: respond pkg
  else []

/-- `OnMtreportPkg`. -/
def onMtreportPkg (respond : CBasicPacket → List AgentChange) (sBuf : List UInt8) :
    List AgentChange :=
  match checkBasicPacket sBuf with
  | (iRet, pkg) =>
    if iRet ≠ NO_ERROR ∧ pkg.m_pstReqHead = none then []
    else dispatch inv before st pkg respond

/-- The push command of the packet fails its checks and does not read a null pointer. -/
def PushRefused : Prop :=
  if pkg.m_dwReqCmd = CMD_MONI_S2C_PRE_INSTALL_NOTIFY then
    preInstallAccepted inv before st pkg = false ∧ preInstallCrashes st pkg = false
  else if pkg.m_dwReqCmd = CMD_MONI_S2C_MACH_ORP_PLUGIN_MOD_CFG then
    modCfgAccepted inv before st pkg = false ∧
      (pkg.qwSessionId = 0 ∨ pkg.qwSessionId = st.qwServerPacketSessId)
  else machineOprAccepted inv before st pkg = false

/-- The command is a push. -/
def IsPush (dwCmd : Nat) : Prop :=
  dwCmd = CMD_MONI_S2C_PRE_INSTALL_NOTIFY ∨ dwCmd = CMD_MONI_S2C_MACH_ORP_PLUGIN_MOD_CFG ∨
    dwCmd = CMD_MONI_S2C_MACH_ORP_PLUGIN_REMOVE ∨ dwCmd = CMD_MONI_S2C_MACH_ORP_PLUGIN_ENABLE ∨
      dwCmd = CMD_MONI_S2C_MACH_ORP_PLUGIN_DISABLE

/-- No error response goes out for the packet. -/
def Unanswered : Prop :=
  pkg.qwSessionId = 0 ∨ pkg.dwRespMagicNum = MAGIC_RESPONSE_NUM ∨ pkg.m_dwReqSeq = 0

end Handlers

section Effect

variable {inv : InvCipher} {before : UInt8} {st : Agent} {pkg : CBasicPacket}
  {respond : CBasicPacket → List AgentChange} {sBuf : List UInt8}

theorem sendErrorRespToReq_eq_nil (iRet : Int) :
    sendErrorRespToReq pkg iRet = [] ↔ Unanswered pkg := by
  unfold sendErrorRespToReq Unanswered
  split
  · rename_i hsend
    simp only [List.cons_ne_nil, false_iff, not_or]
    omega
  · rename_i hquiet
    simp only [true_iff]
    omega

theorem keepSessId_eq_nil : keepSessId st pkg = [] ↔
    pkg.qwSessionId = 0 ∨ pkg.qwSessionId = st.qwServerPacketSessId := by
  unfold keepSessId
  split
  · rename_i hnew
    simp only [List.cons_ne_nil, false_iff, not_or]
    exact hnew
  · rename_i hold
    simp only [true_iff]
    omega

theorem dealPreInstallNotify_eq_nil : dealPreInstallNotify inv before st pkg = [] ↔
    (preInstallAccepted inv before st pkg = false ∧ preInstallCrashes st pkg = false) ∧
      Unanswered pkg := by
  unfold dealPreInstallNotify
  cases preInstallAccepted inv before st pkg with
  | true => simp
  | false =>
    cases preInstallCrashes st pkg with
    | true => simp
    | false => simpa using sendErrorRespToReq_eq_nil ERR_INVALID_PACKET_LEN

theorem dealMachineOprPlugin_eq_nil : dealMachineOprPlugin inv before st pkg = [] ↔
    machineOprAccepted inv before st pkg = false ∧ Unanswered pkg := by
  unfold dealMachineOprPlugin
  cases machineOprAccepted inv before st pkg with
  | true => simp
  | false => simpa using sendErrorRespToReq_eq_nil ERR_INVALID_PACKET_LEN

theorem dealModMachinePluginCfg_eq_nil : dealModMachinePluginCfg inv before st pkg = [] ↔
    (modCfgAccepted inv before st pkg = false ∧
      (pkg.qwSessionId = 0 ∨ pkg.qwSessionId = st.qwServerPacketSessId)) ∧ Unanswered pkg := by
  unfold dealModMachinePluginCfg
  rw [List.append_eq_nil_iff, keepSessId_eq_nil]
  cases modCfgAccepted inv before st pkg with
  | true => simp
  | false =>
    simp only [Bool.false_eq_true, if_false, true_and]
    split
    · rw [sendErrorRespToReq_eq_nil]
    · rw [sendErrorRespToReq_eq_nil]

theorem dispatch_eq_nil : dispatch inv before st pkg respond = [] ↔
    (IsPush pkg.m_dwReqCmd ∧ PushRefused inv before st pkg ∧ Unanswered pkg) ∨
      (¬ IsPush pkg.m_dwReqCmd ∧ st.timers pkg.m_dwReqSeq = false) := by
  unfold dispatch PushRefused IsPush
  by_cases hpre : pkg.m_dwReqCmd = CMD_MONI_S2C_PRE_INSTALL_NOTIFY
  · simp only [hpre, if_true, dealPreInstallNotify_eq_nil, true_or, true_and, not_true_eq_false,
      false_and, or_false]
  · by_cases hmod : pkg.m_dwReqCmd = CMD_MONI_S2C_MACH_ORP_PLUGIN_MOD_CFG
    · have hne : CMD_MONI_S2C_MACH_ORP_PLUGIN_MOD_CFG ≠ CMD_MONI_S2C_PRE_INSTALL_NOTIFY := by decide
      simp only [hmod, hne, if_true, if_false, dealModMachinePluginCfg_eq_nil, true_or, or_true,
        true_and, not_true_eq_false, false_and, or_false]
    · by_cases hopr : pkg.m_dwReqCmd = CMD_MONI_S2C_MACH_ORP_PLUGIN_REMOVE ∨
          pkg.m_dwReqCmd = CMD_MONI_S2C_MACH_ORP_PLUGIN_ENABLE ∨
          pkg.m_dwReqCmd = CMD_MONI_S2C_MACH_ORP_PLUGIN_DISABLE
      · simp only [hpre, hmod, hopr, if_true, if_false, dealMachineOprPlugin_eq_nil, false_or,
          true_and, not_true_eq_false, false_and, or_false]
      · simp only [hpre, hmod, hopr, if_false, false_or, false_and, not_false_eq_true, true_and]
        cases st.timers pkg.m_dwReqSeq with
        | true => simp
        | false => simp

theorem checkBasicPacket_rejected (hrej : (checkBasicPacket sBuf).1 ≠ NO_ERROR) :
    (headAccepted sBuf PKG_BUFF_LENGTH = false ∧
        (checkBasicPacket sBuf).2 = resetPacketInfo sBuf) ∨
      (headAccepted sBuf PKG_BUFF_LENGTH = true ∧
        (checkBasicPacket sBuf).2 = (checkSections sBuf none).2 ∧
        (checkSections sBuf none).1 ≠ NO_ERROR) := by
  unfold checkBasicPacket at hrej ⊢
  cases hhead : headAccepted sBuf PKG_BUFF_LENGTH with
  | false => exact Or.inl ⟨rfl, rfl⟩
  | true =>
    rw [hhead] at hrej
    obtain ⟨iRet, pkg, hsec⟩ : ∃ iRet pkg, checkSections sBuf none = (iRet, pkg) := ⟨_, _, rfl⟩
    rw [hsec] at hrej ⊢
    by_cases hzero : iRet = 0
    · subst hzero
      exact absurd rfl hrej
    · refine Or.inr ⟨rfl, ?_, hzero⟩
      simp only [if_true]

end Effect

/-- An agent without encryption that waits for the response with sequence 7. -/
def waitingAgent : Agent where
  iEnableEncryptData := false
  sRandKey := List.replicate 16 66
  qwServerPacketSessId := 0
  timers := fun uiKey => uiKey == 7
  plugins := fun _ => false
  sCmdContentBuf := List.replicate 4352 0
  logsReqErr := true

/-- A packet with sequence 7 whose body claims a TLV that is not there. -/
def missingTlv : List UInt8 :=
  SPKG :: (ReqPkgHead.bytes { helloHead with wPkgLen := 74, wToPkgBody := 72 } ++
    [0, 0, 0, 1, EPKG])

end XrkMonitor.Packet
