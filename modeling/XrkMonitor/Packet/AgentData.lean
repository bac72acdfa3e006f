import XrkMonitor.LogBatch.Server
import XrkMonitor.Packet.Signature

/-!
# Attributes and logs of agents at their servers

The attribute server and the log server take what an agent sends after the same
steps: the common information names the machine, `CheckSignature` looks at the
signature, and `bEnableEncryptData` of the decrypted signature says whether the
content is decrypted. `CheckSignature` decrypts a signature of the common type
only and lets every other type pass; the flag is then that of an earlier packet.

## Implementation notes

`DataServer` is what the two servers differ in: their commands, and what their
loops record of a content. The number of the packet stands for everything the
loops take from clocks and tables. The loop over string attributes, which steps by
a signed length of the content, is a parameter, as is the handling of the requests
of the web interface. `sTmpBuf` is the static buffer that a content is decrypted
into, with the memory behind it: the length is cut to sixteen bits and may leave
the decrypted bytes.
-/

namespace XrkMonitor.Packet

open Library

def CMD_MONI_SEND_ATTR : Nat := 203
def CMD_MONI_SEND_LOG : Nat := 209
def CMD_MONI_SEND_STR_ATTR : Nat := 214
def CMD_CGI_SEND_ATTR : Nat := 215
def CMD_CGI_SEND_STR_ATTR : Nat := 216
def CMD_CGI_SEND_LOG : Nat := 217

/-- The fields of `MachineInfo` that are read here. -/
structure MachineInfo where
  id : Int
  sRandKey : List UInt8
deriving DecidableEq

/-- What the two servers differ in. -/
structure DataServer (ρ : Type) where
  cgiCmds : List Nat
  cmds : List Nat
  not_mem_cgiCmds : ∀ cmd ∈ cmds, cmd ∉ cgiCmds
  dealCgiReport : Nat → CBasicPacket → Int × List ρ
  record : Nat → MachineInfo → Nat → List UInt8 → List ρ

/-- A reported attribute. -/
structure AttrInfo where
  uint32_attr_id : Nat
  uint32_attr_value : Nat
  str : Option (List UInt8)
deriving DecidableEq

/-- The loop over the attributes of a content. -/
def readAttrs : Nat → List UInt8 → List AttrInfo
  | 0, _ => []
  | fuel + 1, content =>
    if 8 ≤ content.length then
      ⟨netAt content 0 4, netAt content 4 4, none⟩ :: readAttrs fuel (content.drop 8)
    else []

/-- `slog_monitor_server`. -/
def attrServer (dealCgiReportAttr : Nat → CBasicPacket → Int × List AttrInfo)
    (readStrAttrs : List UInt8 → List AttrInfo) : DataServer AttrInfo where
  cgiCmds := [CMD_CGI_SEND_STR_ATTR, CMD_CGI_SEND_ATTR]
  cmds := [CMD_MONI_SEND_ATTR, CMD_MONI_SEND_STR_ATTR]
  not_mem_cgiCmds := by decide
  dealCgiReport := dealCgiReportAttr
  record := fun _ _ cmd content =>
    if cmd = CMD_MONI_SEND_ATTR then readAttrs content.length content else readStrAttrs content

/-- `slog_server`. -/
def logServer (dealCgiReportLog : Nat → CBasicPacket → Int × List LogBatch.ShmWrite)
    (env : Nat → LogBatch.ServerEnv) (mapAppLogShm : Nat → Int32 → Option LogBatch.TSLogShm) :
    DataServer LogBatch.ShmWrite where
  cgiCmds := [CMD_CGI_SEND_LOG]
  cmds := [CMD_MONI_SEND_LOG]
  not_mem_cgiCmds := by decide
  dealCgiReport := dealCgiReportLog
  record := fun n mach _ content =>
    (LogBatch.onRawDataClientLog { env n with machineId := Int32.ofInt mach.id } (mapAppLogShm n)
      content).2.writes

/-- What the socket keeps from one packet to the next. -/
structure DataSock where
  m_sDecryptBuf : List UInt8
  sTmpBuf : Nat → UInt8

/-- What a packet leads to: the code of the answer, whether its content was decrypted, and what was
recorded. -/
structure Outcome (ρ : Type) where
  iRet : Int
  decrypted : Option Bool
  recorded : List ρ

/-- `bEnableEncryptData` of a `MonitorCommSig`. -/
def bEnableEncryptData (sig : List UInt8) : Bool := sig.getD 8 0 != 0

section Server

variable {ρ : Type} (srv : DataServer ρ) (inv : InvCipher) (before : UInt8)
  (szAgentAccessKey : List UInt8) (getMachineInfo : Int → Option MachineInfo)

/-- `CheckSignature` of the two servers. -/
def checkDataSignature (sock : DataSock) (pkg : CBasicPacket) : Int × DataSock :=
  if pkg.bSigType = MT_SIGNATURE_TYPE_COMMON then
    let x := decipherSig inv before .aes128 szAgentAccessKey ⟨sock.m_sDecryptBuf, none⟩ pkg
    let sock' := { sock with m_sDecryptBuf := x.1.m_sDecryptBuf }
    if x.2 ≠ sizeofMonitorCommSig then (ERR_DECRYPT_FAILED, sock')
    else if netAt sock'.m_sDecryptBuf 0 4 ≠ pkg.m_dwReqSeq then (ERR_INVALID_SIGNATURE_INFO, sock')
    else (0, sock')
  else (0, sock)

/-- A content decrypted into `sTmpBuf`, and what is taken for it. -/
def decryptContent (sRandKey : List UInt8) (sTmpBuf : Nat → UInt8) (content : List UInt8) :
    (Nat → UInt8) × List UInt8 :=
  match aesDecipherData inv before .aes128 sRandKey content with
  | none => (sTmpBuf, [])
  | some (out, n) =>
    let mem := fun k => out.getD k (sTmpBuf k)
    (mem, (List.range (n % 2 ^ 16)).map mem)

/-- The machine a packet names. -/
def namedMachine (pkg : CBasicPacket) : Option MachineInfo :=
  (getCommInfo pkg).bind fun info => getMachineInfo info.iMachineId

/-- The packet is one of an agent for this server, up to `CheckSignature`. -/
def Reaches (pkg : CBasicPacket) (mach : MachineInfo) : Prop :=
  pkg.m_dwReqCmd ∉ srv.cgiCmds ∧ pkg.m_pstBody ≠ none ∧ pkg.m_dwReqCmd ∈ srv.cmds ∧
    namedMachine getMachineInfo pkg = some mach

/-- The part of the handler behind the look-up of the machine. -/
def dealAgentData (n : Nat) (sock : DataSock) (pkg : CBasicPacket) (mach : MachineInfo) :
    Outcome ρ × DataSock :=
  let (iRet, sock) := checkDataSignature inv before szAgentAccessKey sock pkg
  if iRet ≠ NO_ERROR then (⟨iRet, none, []⟩, sock)
  else if bEnableEncryptData sock.m_sDecryptBuf then
    let (mem, content) := decryptContent inv before mach.sRandKey sock.sTmpBuf pkg.content
    (⟨NO_ERROR, some true, srv.record n mach pkg.m_dwReqCmd content⟩, { sock with sTmpBuf := mem })
  else (⟨NO_ERROR, some false, srv.record n mach pkg.m_dwReqCmd pkg.content⟩, sock)

/-- `OnRawDataClientAttr` and `OnRawDataClientLog`. -/
def onRawDataClient (n : Nat) (sock : DataSock) (pkg : CBasicPacket) : Outcome ρ × DataSock :=
  if pkg.m_dwReqCmd ∈ srv.cgiCmds then
    let (iRet, recorded) := srv.dealCgiReport n pkg
    (⟨iRet, none, recorded⟩, sock)
  else if pkg.m_pstBody = none ∨ pkg.m_dwReqCmd ∉ srv.cmds then (⟨ERR_INVALID_PACKET, none, []⟩, sock)
  else
    match getCommInfo pkg with
    | none => (⟨ERR_CHECK_TLV, none, []⟩, sock)
    | some info =>
      match getMachineInfo info.iMachineId with
      | none => (⟨ERR_INVALID_PACKET, none, []⟩, sock)
      | some mach => dealAgentData srv inv before szAgentAccessKey n sock pkg mach

/-- `OnRawData`, for a packet that is not in the protocol buffer format. -/
def onRawData (checkPb : List UInt8 → Int × CBasicPacket) (n : Nat) (sock : DataSock)
    (buf : List UInt8) : Option (CBasicPacket × Outcome ρ) × DataSock :=
  if isPacketPb buf then (none, sock)
  else
    match checkBasicPacketServer checkPb buf with
    | (iRet, pkg) =>
      if iRet ≠ NO_ERROR then (none, sock)
      else
        let x := onRawDataClient srv inv before szAgentAccessKey getMachineInfo n sock pkg
        (some (pkg, x.1), x.2)

/-- The packets of a run that passed `CheckBasicPacket`, with what they led to. -/
def receiveAll (checkPb : List UInt8 → Int × CBasicPacket) :
    Nat → DataSock → List (List UInt8) → List (CBasicPacket × Outcome ρ)
  | _, _, [] => []
  | n, sock, buf :: bufs =>
    let x := onRawData srv inv before szAgentAccessKey getMachineInfo checkPb n sock buf
    x.1.toList ++ receiveAll checkPb (n + 1) x.2 bufs

/-- The signature of the packet is a `MonitorCommSig` under the access key with the packet's
sequence and the given flag. -/
def SignedWith (pkg : CBasicPacket) (flag : Bool) : Prop :=
  ∃ out, aesDecipherData inv before .aes128 szAgentAccessKey pkg.sSigValue =
      some (out, sizeofMonitorCommSig) ∧
    netAt out 0 4 = pkg.m_dwReqSeq ∧ bEnableEncryptData out = flag

/-- Data of an agent is recorded only with its signature, and its content is decrypted if its
signature says so. -/
def Sound (pkg : CBasicPacket) (o : Outcome ρ) : Prop :=
  pkg.m_dwReqCmd ∈ srv.cmds →
    (o.recorded ≠ [] →
      SignedBy inv before .aes128 szAgentAccessKey sizeofMonitorCommSig 0 pkg) ∧
    ∀ d, o.decrypted = some d → SignedWith inv before szAgentAccessKey pkg d

/-- A packet that comes to `CheckSignature` has the common type, or it carries its signature all the
same and the flag left from before is the one of its signature. -/
def TypeOk (sock : DataSock) (pkg : CBasicPacket) : Prop :=
  ∀ mach, Reaches srv getMachineInfo pkg mach → pkg.bSigType ≠ MT_SIGNATURE_TYPE_COMMON →
    SignedWith inv before szAgentAccessKey pkg (bEnableEncryptData sock.m_sDecryptBuf)

/-- Every packet of the run is as `TypeOk` says in the state it meets. -/
def TypesOk (checkPb : List UInt8 → Int × CBasicPacket) : Nat → DataSock → List (List UInt8) → Prop
  | _, _, [] => True
  | n, sock, buf :: bufs =>
    (∀ pkg, isPacketPb buf = false → checkBasicPacketServer checkPb buf = (NO_ERROR, pkg) →
      TypeOk srv inv before szAgentAccessKey getMachineInfo sock pkg) ∧
    TypesOk checkPb (n + 1)
      (onRawData srv inv before szAgentAccessKey getMachineInfo checkPb n sock buf).2 bufs

end Server

section Lemmas

variable {ρ : Type} {srv : DataServer ρ} {inv : InvCipher} {before : UInt8}
  {szAgentAccessKey : List UInt8} {getMachineInfo : Int → Option MachineInfo}
  {checkPb : List UInt8 → Int × CBasicPacket} {n : Nat} {sock : DataSock} {pkg : CBasicPacket}
  {mach : MachineInfo} {sock' : DataSock}

theorem SignedWith.signedBy {flag : Bool} (h : SignedWith inv before szAgentAccessKey pkg flag) :
    SignedBy inv before .aes128 szAgentAccessKey sizeofMonitorCommSig 0 pkg := by
  obtain ⟨out, hout, hseq, -⟩ := h
  exact ⟨out, hout, hseq⟩

theorem bEnableEncryptData_append {out rest : List UInt8} (hlen : sizeofMonitorCommSig ≤ out.length) :
    bEnableEncryptData (out ++ rest) = bEnableEncryptData out := by
  have hlt : 8 < out.length := Nat.lt_of_lt_of_le (by decide) hlen
  rw [bEnableEncryptData, bEnableEncryptData, List.getD_eq_getElem?_getD, List.getD_eq_getElem?_getD,
    List.getElem?_append_left hlt]

theorem signedWith_of_checkDataSignature (htype : pkg.bSigType = MT_SIGNATURE_TYPE_COMMON)
    (hpass : checkDataSignature inv before szAgentAccessKey sock pkg = (NO_ERROR, sock')) :
    SignedWith inv before szAgentAccessKey pkg (bEnableEncryptData sock'.m_sDecryptBuf) := by
  rw [checkDataSignature, if_pos htype, decipherSig] at hpass
  cases hd : aesDecipherData inv before .aes128 szAgentAccessKey pkg.sSigValue with
  | none =>
    rw [hd] at hpass
    cases hpass
  | some x =>
    obtain ⟨out, size⟩ := x
    rw [hd] at hpass
    dsimp only at hpass
    split at hpass
    · cases hpass
    · rename_i hsize
      split at hpass
      · cases hpass
      · rename_i hseq
        simp only [ne_eq, not_not] at hsize hseq
        subst hsize
        have hlen : sizeofMonitorCommSig ≤ out.length :=
          le_length_of_aesDecipherData hd (by decide)
        rw [netAt, slice_append_of_le (Nat.le_trans (by decide) hlen)] at hseq
        obtain ⟨-, rfl⟩ := Prod.mk.inj hpass
        exact ⟨out, hd, hseq, (bEnableEncryptData_append hlen).symm⟩

theorem checkDataSignature_other (htype : pkg.bSigType ≠ MT_SIGNATURE_TYPE_COMMON) :
    checkDataSignature inv before szAgentAccessKey sock pkg = (NO_ERROR, sock) := by
  rw [checkDataSignature, if_neg htype]
  rfl

theorem dealAgentData_pass
    (hpass : checkDataSignature inv before szAgentAccessKey sock pkg = (NO_ERROR, sock')) :
    (dealAgentData srv inv before szAgentAccessKey n sock pkg mach).1.decrypted =
      some (bEnableEncryptData sock'.m_sDecryptBuf) := by
  rw [dealAgentData, hpass]
  dsimp only
  rw [if_neg (not_not.mpr rfl)]
  split
  · rename_i hflag
    rw [hflag]
  · rename_i hflag
    rw [Bool.eq_false_of_not_eq_true hflag]

theorem dealAgentData_fail {iRet : Int}
    (hfail : checkDataSignature inv before szAgentAccessKey sock pkg = (iRet, sock'))
    (hret : iRet ≠ NO_ERROR) :
    dealAgentData srv inv before szAgentAccessKey n sock pkg mach = (⟨iRet, none, []⟩, sock') := by
  rw [dealAgentData, hfail]
  exact if_pos hret

theorem sound_dealAgentData
    (hsigned : ∀ sock', checkDataSignature inv before szAgentAccessKey sock pkg = (NO_ERROR, sock') →
      SignedWith inv before szAgentAccessKey pkg (bEnableEncryptData sock'.m_sDecryptBuf)) :
    Sound srv inv before szAgentAccessKey pkg
      (dealAgentData srv inv before szAgentAccessKey n sock pkg mach).1 := by
  intro _
  cases hcheck : checkDataSignature inv before szAgentAccessKey sock pkg with
  | mk iRet sock' =>
    by_cases hret : iRet = NO_ERROR
    · subst hret
      have hown := hsigned sock' hcheck
      refine ⟨fun _ => hown.signedBy, ?_⟩
      intro d hd
      rw [dealAgentData_pass hcheck] at hd
      obtain rfl := Option.some.inj hd
      exact hown
    · rw [dealAgentData_fail hcheck hret]
      refine ⟨fun h => absurd rfl h, ?_⟩
      intro d hd
      cases hd

theorem onRawDataClient_reaches (hreach : Reaches srv getMachineInfo pkg mach) :
    onRawDataClient srv inv before szAgentAccessKey getMachineInfo n sock pkg =
      dealAgentData srv inv before szAgentAccessKey n sock pkg mach := by
  obtain ⟨hcgi, hbody, hcmd, hmach⟩ := hreach
  rw [onRawDataClient, if_neg hcgi, if_neg (not_or.mpr ⟨hbody, not_not.mpr hcmd⟩)]
  unfold namedMachine at hmach
  cases hinfo : getCommInfo pkg with
  | none =>
    rw [hinfo] at hmach
    cases hmach
  | some info =>
    rw [hinfo, Option.bind_some] at hmach
    simp only [hmach]

theorem sound_of_not_reaches (hreach : ∀ mach, ¬ Reaches srv getMachineInfo pkg mach) :
    Sound srv inv before szAgentAccessKey pkg
      (onRawDataClient srv inv before szAgentAccessKey getMachineInfo n sock pkg).1 := by
  intro hcmd
  have hcgi := srv.not_mem_cgiCmds _ hcmd
  have hnothing : ∀ iRet : Int, ((⟨iRet, none, []⟩ : Outcome ρ).recorded ≠ [] →
      SignedBy inv before .aes128 szAgentAccessKey sizeofMonitorCommSig 0 pkg) ∧
      ∀ d, (⟨iRet, none, []⟩ : Outcome ρ).decrypted = some d →
        SignedWith inv before szAgentAccessKey pkg d := by
    intro iRet
    exact ⟨fun h => absurd rfl h, fun d hd => by cases hd⟩
  rw [onRawDataClient, if_neg hcgi]
  split
  · exact hnothing _
  · rename_i hbody
    obtain ⟨hbody, -⟩ := not_or.mp hbody
    cases hinfo : getCommInfo pkg with
    | none => exact hnothing ERR_CHECK_TLV
    | some info =>
      cases hmach : getMachineInfo info.iMachineId with
      | none =>
        simp only [hmach]
        exact hnothing ERR_INVALID_PACKET
      | some mach =>
        refine absurd ⟨hcgi, hbody, hcmd, ?_⟩ (hreach mach)
        rw [namedMachine, hinfo]
        exact hmach

theorem sound_onRawDataClient_iff :
    Sound srv inv before szAgentAccessKey pkg
        (onRawDataClient srv inv before szAgentAccessKey getMachineInfo n sock pkg).1 ↔
      TypeOk srv inv before szAgentAccessKey getMachineInfo sock pkg := by
  constructor
  · intro hsound mach hreach htype
    rw [onRawDataClient_reaches hreach] at hsound
    exact (hsound hreach.2.2.1).2 _ (dealAgentData_pass (checkDataSignature_other htype))
  · intro hok
    by_cases hreach : ∃ mach, Reaches srv getMachineInfo pkg mach
    · obtain ⟨mach, hreach⟩ := hreach
      rw [onRawDataClient_reaches hreach]
      apply sound_dealAgentData
      intro sock' hpass
      by_cases htype : pkg.bSigType = MT_SIGNATURE_TYPE_COMMON
      · exact signedWith_of_checkDataSignature htype hpass
      · rw [checkDataSignature_other htype] at hpass
        obtain ⟨-, rfl⟩ := Prod.mk.inj hpass
        exact hok mach hreach htype
    · exact sound_of_not_reaches fun mach h => hreach ⟨mach, h⟩

theorem sound_onRawData_iff {buf : List UInt8} :
    (∀ r ∈ (onRawData srv inv before szAgentAccessKey getMachineInfo checkPb n sock buf).1.toList,
        Sound srv inv before szAgentAccessKey r.1 r.2) ↔
      ∀ pkg, isPacketPb buf = false → checkBasicPacketServer checkPb buf = (NO_ERROR, pkg) →
        TypeOk srv inv before szAgentAccessKey getMachineInfo sock pkg := by
  unfold onRawData
  cases hpb : isPacketPb buf with
  | true => simp
  | false =>
    cases hcheck : checkBasicPacketServer checkPb buf with
    | mk iRet pkg =>
      by_cases hret : iRet = NO_ERROR
      · subst hret
        simp only [Bool.false_eq_true, if_false, ne_eq, not_true_eq_false, Option.toList_some,
          List.mem_singleton, forall_eq, forall_const, Prod.mk.injEq, true_and, forall_eq']
        exact sound_onRawDataClient_iff
      · simp [hret]

theorem sound_receiveAll_iff (bufs : List (List UInt8)) :
    (∀ r ∈ receiveAll srv inv before szAgentAccessKey getMachineInfo checkPb n sock bufs,
        Sound srv inv before szAgentAccessKey r.1 r.2) ↔
      TypesOk srv inv before szAgentAccessKey getMachineInfo checkPb n sock bufs := by
  induction bufs generalizing n sock with
  | nil => simp [receiveAll, TypesOk]
  | cons buf bufs ih =>
    rw [receiveAll, TypesOk, ← ih, ← sound_onRawData_iff (n := n)]
    simp only [List.mem_append, or_imp, forall_and]

end Lemmas

/-- At both servers, and for every sequence of packets: data of agents is recorded only with its own
signature, and decrypted by the flag of that signature, exactly when the types are as said. -/
theorem agent_data_signed_iff (inv : InvCipher) (before : UInt8) (szAgentAccessKey : List UInt8)
    (getMachineInfo : Int → Option MachineInfo) (checkPb : List UInt8 → Int × CBasicPacket)
    (sock : DataSock) (bufs : List (List UInt8))
    (dealCgiReportAttr : Nat → CBasicPacket → Int × List AttrInfo)
    (readStrAttrs : List UInt8 → List AttrInfo)
    (dealCgiReportLog : Nat → CBasicPacket → Int × List LogBatch.ShmWrite)
    (env : Nat → LogBatch.ServerEnv) (mapAppLogShm : Nat → Int32 → Option LogBatch.TSLogShm) :
    ((∀ r ∈ receiveAll (attrServer dealCgiReportAttr readStrAttrs) inv before szAgentAccessKey
          getMachineInfo checkPb 0 sock bufs,
        Sound (attrServer dealCgiReportAttr readStrAttrs) inv before szAgentAccessKey r.1 r.2) ↔
      TypesOk (attrServer dealCgiReportAttr readStrAttrs) inv before szAgentAccessKey
        getMachineInfo checkPb 0 sock bufs) ∧
    ((∀ r ∈ receiveAll (logServer dealCgiReportLog env mapAppLogShm) inv before szAgentAccessKey
          getMachineInfo checkPb 0 sock bufs,
        Sound (logServer dealCgiReportLog env mapAppLogShm) inv before szAgentAccessKey r.1 r.2) ↔
      TypesOk (logServer dealCgiReportLog env mapAppLogShm) inv before szAgentAccessKey
        getMachineInfo checkPb 0 sock bufs) :=
  ⟨sound_receiveAll_iff bufs, sound_receiveAll_iff bufs⟩

/-- One attribute of machine 5, without a signature. -/
def unsignedAttr : Parts where
  head := { helloHead with dwCmd := 203 }
  sig := none
  content := [0, 0, 0, 7, 0, 0, 0, 9]
  body := some ⟨[⟨204, [0, 0, 0, 3, 0, 0, 0, 5] ++ List.replicate 44 0, Nat.le_of_ble_eq_true rfl⟩],
    Nat.le_of_ble_eq_true rfl⟩

/-- An attribute server without browsers and strings. -/
def plainAttrServer : DataServer AttrInfo := attrServer (fun _ _ => (0, [])) fun _ => []

theorem receiveAll_single {ρ : Type} {srv : DataServer ρ} {inv : InvCipher} {before : UInt8}
    {key buf : List UInt8} {getMachineInfo : Int → Option MachineInfo}
    {checkPb : List UInt8 → Int × CBasicPacket} {sock : DataSock} {pkg : CBasicPacket}
    (haccepted : checkBasicPacketServer checkPb buf = (NO_ERROR, pkg))
    (hpb : isPacketPb buf = false) :
    receiveAll srv inv before key getMachineInfo checkPb 0 sock [buf] =
      [(pkg, (onRawDataClient srv inv before key getMachineInfo 0 sock pkg).1)] := by
  simp [receiveAll, onRawData, haccepted, hpb]

/-- Attribute 7 is recorded from a packet without a signature. -/
theorem unsigned_attr_recorded :
    ∃ r ∈ receiveAll plainAttrServer noBlock 0 (List.replicate 16 65)
        (fun _ => some ⟨5, List.replicate 16 66⟩) noPb 0 ⟨List.replicate decryptBufSize 0, fun _ => 0⟩
        [unsignedAttr.write { unsignedAttr.head with bRetCode := 0 }],
      r.1.m_dwReqCmd = CMD_MONI_SEND_ATTR ∧ r.2.recorded = [⟨7, 9, none⟩] ∧
        ¬ SignedBy noBlock 0 .aes128 (List.replicate 16 65) sizeofMonitorCommSig 0 r.1 ∧
        ¬ Sound plainAttrServer noBlock 0 (List.replicate 16 65) r.1 r.2 := by
  obtain ⟨haccepted, hpb⟩ := received_accepted unsignedAttr (by decide) (by decide)
  rw [receiveAll_single haccepted hpb]
  refine ⟨_, List.mem_singleton_self _, ?_⟩
  have hcmd : (received unsignedAttr).m_dwReqCmd = CMD_MONI_SEND_ATTR := by decide +kernel
  have hrecorded : (onRawDataClient plainAttrServer noBlock 0 (List.replicate 16 65)
      (fun _ => some ⟨5, List.replicate 16 66⟩) 0 ⟨List.replicate decryptBufSize 0, fun _ => 0⟩
      (received unsignedAttr)).1.recorded = [⟨7, 9, none⟩] := by
    decide +kernel
  have hnot : ¬ SignedBy noBlock 0 .aes128 (List.replicate 16 65) sizeofMonitorCommSig 0
      (received unsignedAttr) :=
    not_signedBy_empty (by decide +kernel) (by decide) (by decide)
  refine ⟨hcmd, hrecorded, hnot, ?_⟩
  intro hsound
  have hmem : (received unsignedAttr).m_dwReqCmd ∈ plainAttrServer.cmds := by
    rw [hcmd]
    decide
  refine hnot ((hsound hmem).1 ?_)
  rw [hrecorded]
  exact List.cons_ne_nil _ _

end XrkMonitor.Packet
