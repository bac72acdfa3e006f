import XrkMonitor.Attr.StrSend
import XrkMonitor.Cipher.Aes
import XrkMonitor.LogBatch.Transfer

/-!
# From the agent's report to the server's record

An agent that has the access key and its machine's key signs every report and, if
it enciphers, seals the content. What it reports is what the attribute server and
the log server record, whatever has arrived at the socket before.

## Implementation notes

`MakeAttrPkg` and `MakeAppLogPkg` differ in the head and in the size of the buffer.
`szReserved`, which is sent as it stands on the stack, and the other fields of the
common information are arbitrary.
-/

namespace XrkMonitor.Packet

open Library Cipher

section Report

/-- `MonitorCommSig`. -/
structure MonitorCommSig where
  dwSeq : UInt32
  dwCmd : UInt32
  bEnableEncryptData : UInt8
  szReserved : Vector UInt8 16

def MonitorCommSig.bytes (x : MonitorCommSig) : List UInt8 :=
  toBytes 4 x.dwSeq.toNat ++ (toBytes 4 x.dwCmd.toNat ++ x.bEnableEncryptData :: x.szReserved.toList)

theorem MonitorCommSig.length_bytes (x : MonitorCommSig) : x.bytes.length = sizeofMonitorCommSig := by
  simp only [bytes, List.length_append, List.length_cons, length_toBytes, Vector.length_toList]
  rfl

/-- The signature begins with the number of the packet. -/
theorem MonitorCommSig.netAt_bytes (x : MonitorCommSig) (rest : List UInt8) :
    netAt (x.bytes ++ rest) 0 4 = x.dwSeq.toNat := by
  rw [bytes, List.append_assoc]
  exact netAt_zero x.dwSeq.toNat_lt _

/-- What a sealed signature holds is left at the start of the buffer. -/
theorem decipherSig_sealed (before : UInt8) {len : AesKeyLen} {key bytes : List UInt8}
    {pkg : CBasicPacket} (sock : CUdpSock) (hsig : pkg.sSigValue = aesCipherData len key bytes)
    (hlen : bytes.length + 16 ≤ 2 ^ 64) :
    ∃ rest, decipherSig aesInv before len key sock pkg =
      ({ sock with m_sDecryptBuf := bytes ++ rest }, bytes.length) := by
  refine ⟨padding bytes.length ++ sock.m_sDecryptBuf.drop (bytes ++ padding bytes.length).length, ?_⟩
  rw [decipherSig, hsig, aesDecipherData_aesCipherData before hlen]
  dsimp only
  rw [List.append_assoc]

/-- `InitSignature` of the common type. -/
def initSignature (pKey : List UInt8) (x : MonitorCommSig) : Vector UInt8 32 :=
  ⟨(aesCipherData .aes128 pKey x.bytes).toArray, by
    rw [List.size_toArray, length_aesCipherData, x.length_bytes]
    rfl⟩

/-- What an agent sends to a server of data. -/
structure Report where
  stHead : ReqPkgHead
  szUserKey : List UInt8
  sRandKey : List UInt8
  iEnableEncryptData : Bool
  szReserved : Vector UInt8 16
  stTlvInfo : Vector UInt8 52
  pContent : List UInt8

namespace Report

variable (r : Report)

/-- The signature of the report. -/
def stSigInfo : MonitorCommSig :=
  ⟨r.stHead.dwSeq, r.stHead.dwCmd, if r.iEnableEncryptData then 1 else 0, r.szReserved⟩

/-- What `MakeAttrPkg` and `MakeAppLogPkg` put around a content. -/
def sender : Attr.AttrSender where
  iEnableEncryptData := r.iEnableEncryptData
  stHead := r.stHead
  sSig := initSignature r.szUserKey r.stSigInfo
  stTlvInfo := r.stTlvInfo
  sAttrBufEnc := fun content k => (aesCipherData .aes128 r.sRandKey content).getD k 0

/-- The content as it is sent. -/
def sentContent : List UInt8 :=
  if r.iEnableEncryptData then aesCipherData .aes128 r.sRandKey r.pContent else r.pContent

def parts : Parts := Attr.attrParts r.sender r.sentContent

def sentHead : ReqPkgHead := { r.stHead with bRetCode := 0 }

/-- The packet. -/
def packet : List UInt8 := r.parts.write r.sentHead

/-- What the server sees of it. -/
def received : CBasicPacket := r.parts.published r.sentHead

/-- The machine of the common information. -/
def machineId : Int := Int.bmod (netAt r.stTlvInfo.toList 4 4) (2 ^ 32)

end Report

/-- The server knows the report's machine, takes its command, and has its keys. -/
structure Known {ρ : Type} (srv : DataServer ρ) (szAgentAccessKey : List UInt8)
    (getMachineInfo : Int → Option MachineInfo) (mach : MachineInfo) (r : Report) : Prop where
  cmd : r.stHead.dwCmd.toNat ∈ srv.cmds
  userKey : r.szUserKey = szAgentAccessKey
  machine : getMachineInfo r.machineId = some mach
  randKey : r.iEnableEncryptData = true → r.sRandKey = mach.sRandKey

end Report

section Received

variable {ρ : Type} {srv : DataServer ρ} {before : UInt8} {szAgentAccessKey : List UInt8}
  {getMachineInfo : Int → Option MachineInfo} {mach : MachineInfo} {r : Report} {sock : DataSock}
  {n : Nat}

theorem pkgLen_parts : r.parts.pkgLen = 162 + r.sentContent.length := by
  have hsig : r.parts.sigBytes.length = 35 := by
    rw [length_sigBytes]
    simp [Parts.signature, Report.parts, Attr.attrParts]
  have hbody : r.parts.bodyBytes.length = 57 := by
    simp [Report.parts, Attr.attrParts, Parts.bodyBytes, TPkgBody.bytes, TWTlv.bytes]
  have hcontent : r.parts.content = r.sentContent := rfl
  rw [Parts.pkgLen, Parts.toPkgBody, hsig, hbody, hcontent]
  omega

theorem recovers_received (hlen : r.parts.pkgLen ≤ 4096) :
    Recovers r.parts r.parts.bodyBytes r.received :=
  recovers_published hlen rfl rfl

/-- The common information of the report is found. -/
theorem getCommInfo_received : ∃ iMtClientIndex dwReserved_1,
    getCommInfo r.received = some ⟨iMtClientIndex, r.machineId, dwReserved_1⟩ := by
  obtain ⟨t, ht, hvalue⟩ : ∃ t : TWTlv, t.wType.toNat = TLV_MONI_COMM_INFO ∧
      t.sValue = r.stTlvInfo.toList ∧ r.parts.bodyBytes = 1 :: (t.bytes ++ []) :=
    ⟨⟨UInt16.ofNat TLV_MONI_COMM_INFO, r.stTlvInfo.toList, length_stTlvInfo r.stTlvInfo⟩, rfl, rfl, rfl⟩
  obtain ⟨hvalue, hbody⟩ := hvalue
  have hfind : getWTlvByType2 TLV_MONI_COMM_INFO (1 :: (t.bytes ++ [])) = some 1 := by
    rw [getWTlvByType2, UInt8.toNat_one, findTlv, netAt_wType, if_pos ht]
  have hlen : netAt (1 :: (t.bytes ++ [])) (1 + 2) 2 = sizeofTlvMoniCommInfo := by
    change netAt ([1] ++ (t.bytes ++ [])) (1 + 2) 2 = _
    rw [netAt_append_right (by decide)]
    change netAt (t.bytes ++ []) 2 2 = _
    rw [netAt_wLen, hvalue, Vector.length_toList]
    rfl
  have hid : netAt (1 :: (t.bytes ++ [])) (1 + 8) 4 = netAt r.stTlvInfo.toList 4 4 := by
    have hsplit : 1 :: (t.bytes ++ []) =
        (1 :: (toBytes 2 t.wType.toNat ++ toBytes 2 t.sValue.length)) ++ r.stTlvInfo.toList := by
      simp [TWTlv.bytes, hvalue]
    have hplace : (1 :: (toBytes 2 t.wType.toNat ++ toBytes 2 t.sValue.length)).length = 5 := by simp
    rw [hsplit, netAt_append_right (by omega), hplace]
  rw [getCommInfo, Report.received, body_published, hbody, hfind]
  dsimp only
  rw [if_pos hlen, hid]
  exact ⟨_, _, rfl⟩

theorem namedMachine_received (hmach : getMachineInfo r.machineId = some mach) :
    namedMachine getMachineInfo r.received = some mach := by
  obtain ⟨iMtClientIndex, dwReserved_1, hinfo⟩ := getCommInfo_received (r := r)
  rw [namedMachine, hinfo, Option.bind_some]
  dsimp only
  exact hmach

/-- The signature passes, and its flag is that of the report. -/
theorem checkDataSignature_received (hlen : r.parts.pkgLen ≤ 4096) :
    ∃ sock', checkDataSignature aesInv before r.szUserKey sock r.received = (NO_ERROR, sock') ∧
      bEnableEncryptData sock'.m_sDecryptBuf = r.iEnableEncryptData := by
  have hrec := recovers_received hlen
  obtain ⟨rest, hdec⟩ := decipherSig_sealed before ⟨sock.m_sDecryptBuf, none⟩ hrec.sigValue
    (show r.stSigInfo.bytes.length + 16 ≤ 2 ^ 64 by rw [r.stSigInfo.length_bytes]; decide)
  have hflag : bEnableEncryptData (r.stSigInfo.bytes ++ rest) = r.iEnableEncryptData := by
    have hbyte : (r.stSigInfo.bytes ++ rest).getD 8 0 = if r.iEnableEncryptData then 1 else 0 := by
      rw [MonitorCommSig.bytes, List.append_assoc, List.getD_append_right _ _ _ _ (by simp),
        List.append_assoc, List.getD_append_right _ _ _ _ (by simp)]
      simp [Report.stSigInfo]
    rw [bEnableEncryptData, hbyte]
    cases r.iEnableEncryptData <;> rfl
  have htype : r.received.bSigType = MT_SIGNATURE_TYPE_COMMON := hrec.sigType
  have hseq : r.received.m_dwReqSeq = r.stSigInfo.dwSeq.toNat := hrec.seq
  rw [checkDataSignature, if_pos htype, hdec]
  dsimp only
  rw [if_neg (not_not.mpr r.stSigInfo.length_bytes), r.stSigInfo.netAt_bytes,
    if_neg (not_not.mpr hseq.symm)]
  exact ⟨_, rfl, hflag⟩

theorem map_range_getD (l : List UInt8) (f : Nat → UInt8) :
    (List.range l.length).map (fun k => l.getD k (f k)) = l := by
  apply List.ext_getElem
  · rw [List.length_map, List.length_range]
  · intro k hk hk'
    rw [List.getElem_map, List.getElem_range, List.getD_eq_getElem _ _ hk']

/-- A sealed content is opened. -/
theorem decryptContent_sentContent {key input : List UInt8} (hlen : input.length < 2 ^ 16)
    (sTmpBuf : Nat → UInt8) :
    (decryptContent aesInv before key sTmpBuf (aesCipherData .aes128 key input)).2 = input := by
  rw [decryptContent, aesDecipherData_aesCipherData before (by omega)]
  dsimp only
  rw [Nat.mod_eq_of_lt hlen]
  refine Eq.trans ?_ (map_range_getD input fun _ => 0)
  apply List.map_congr_left
  intro k hk
  have hk' : k < input.length := List.mem_range.mp hk
  rw [List.getD_append _ _ _ _ hk', List.getD_eq_getElem _ _ hk', List.getD_eq_getElem _ _ hk']

/-- One report: it is recorded as it was made, whatever the socket has met before. -/
theorem onRawData_report (hknown : Known srv szAgentAccessKey getMachineInfo mach r)
    (hfits : r.sentContent.length ≤ 3934) (checkPb : List UInt8 → Int × CBasicPacket) :
    ∃ pkg sock', onRawData srv aesInv before szAgentAccessKey getMachineInfo checkPb n sock r.packet =
      (some (pkg, ⟨NO_ERROR, some r.iEnableEncryptData,
        srv.record n mach r.stHead.dwCmd.toNat r.pContent⟩), sock') := by
  have hlen : r.parts.pkgLen ≤ 4096 := by
    rw [pkgLen_parts]
    omega
  have hrec := recovers_received hlen
  have hsig : r.parts.signature.sSigValue.length ≤ 128 := by
    change (initSignature r.szUserKey r.stSigInfo).toList.length ≤ 128
    rw [Vector.length_toList]
    decide
  have haccepted : checkBasicPacketServer checkPb r.packet = (NO_ERROR, r.received) :=
    checkBasicPacketServer_request checkPb hlen hsig rfl
  have hpb : isPacketPb r.packet = false := by
    have hfirst : r.packet.getD 0 0 = SPKG := rfl
    rw [isPacketPb, hfirst]
    simp [SPKG, SPKG_PB]
  have hcmd : r.received.m_dwReqCmd = r.stHead.dwCmd.toNat := hrec.cmd
  have hcontent : r.received.content = r.sentContent := hrec.content
  have hreach : Reaches srv getMachineInfo r.received mach := by
    refine ⟨?_, Option.some_ne_none _, ?_, namedMachine_received hknown.machine⟩
    · rw [hcmd]
      exact srv.not_mem_cgiCmds _ hknown.cmd
    · rw [hcmd]
      exact hknown.cmd
  obtain ⟨sock', hpass, hflag⟩ := checkDataSignature_received hlen
  rw [hknown.userKey] at hpass
  rw [onRawData, hpb, haccepted]
  dsimp only
  rw [if_neg Bool.false_ne_true, if_neg (not_not.mpr rfl), onRawDataClient_reaches hreach,
    dealAgentData, hpass]
  dsimp only
  rw [if_neg (not_not.mpr rfl), hflag, hcmd, hcontent, Report.sentContent]
  cases henc : r.iEnableEncryptData with
  | false => exact ⟨_, _, rfl⟩
  | true =>
    have hshort : r.pContent.length < 2 ^ 16 := by
      rw [Report.sentContent, henc, if_pos rfl, length_aesCipherData] at hfits
      omega
    rw [if_pos rfl, if_pos rfl, hknown.randKey henc]
    dsimp only
    rw [decryptContent_sentContent hshort]
    exact ⟨_, _, rfl⟩

end Received

section Runs

variable {ρ : Type} {srv : DataServer ρ} {inv : InvCipher} {before : UInt8}
  {szAgentAccessKey : List UInt8} {getMachineInfo : Int → Option MachineInfo} {mach : MachineInfo}
  {checkPb : List UInt8 → Int × CBasicPacket}

/-- A run goes on from the state that the packets before have left. -/
theorem receiveAll_append (bufs : List (List UInt8)) (n : Nat) (sock : DataSock) :
    ∃ sock', ∀ post, receiveAll srv inv before szAgentAccessKey getMachineInfo checkPb n sock
        (bufs ++ post) =
      receiveAll srv inv before szAgentAccessKey getMachineInfo checkPb n sock bufs ++
        receiveAll srv inv before szAgentAccessKey getMachineInfo checkPb (n + bufs.length) sock'
          post := by
  induction bufs generalizing n sock with
  | nil => exact ⟨sock, fun _ => rfl⟩
  | cons buf bufs ih =>
    obtain ⟨sock', h⟩ := ih (n + 1)
      (onRawData srv inv before szAgentAccessKey getMachineInfo checkPb n sock buf).2
    refine ⟨sock', fun post => ?_⟩
    rw [List.cons_append, receiveAll, receiveAll, h, List.append_assoc, List.length_cons,
      Nat.add_assoc n 1, Nat.add_comm 1]

/-- Among whatever other packets, and whatever the socket has met before, `buf` leads to the outcome
`o n`, where `n` is its number. -/
def LeadsTo (srv : DataServer ρ) (before : UInt8) (szAgentAccessKey : List UInt8)
    (getMachineInfo : Int → Option MachineInfo) (checkPb : List UInt8 → Int × CBasicPacket)
    (buf : List UInt8) (o : Nat → Outcome ρ) : Prop :=
  ∀ (sock : DataSock) (pre post : List (List UInt8)), ∃ pkg sock',
    receiveAll srv aesInv before szAgentAccessKey getMachineInfo checkPb 0 sock (pre ++ buf :: post) =
      receiveAll srv aesInv before szAgentAccessKey getMachineInfo checkPb 0 sock pre ++
        (pkg, o pre.length) ::
        receiveAll srv aesInv before szAgentAccessKey getMachineInfo checkPb (pre.length + 1) sock'
          post

theorem leadsTo_report {r : Report} (hknown : Known srv szAgentAccessKey getMachineInfo mach r)
    (hfits : r.sentContent.length ≤ 3934) :
    LeadsTo srv before szAgentAccessKey getMachineInfo checkPb r.packet fun n =>
      ⟨NO_ERROR, some r.iEnableEncryptData, srv.record n mach r.stHead.dwCmd.toNat r.pContent⟩ := by
  intro sock pre post
  obtain ⟨sock₁, hpre⟩ := receiveAll_append pre 0 sock
  obtain ⟨pkg, sock₂, hone⟩ := onRawData_report hknown hfits checkPb
  refine ⟨pkg, sock₂, ?_⟩
  rw [hpre, receiveAll, hone, Nat.zero_add]
  rfl

end Runs

/-- A sealed report of machine 5. -/
def sealedReport (dwCmd : UInt32) (pContent : List UInt8) : Report where
  stHead := { helloHead with dwCmd := dwCmd }
  szUserKey := List.replicate 32 65
  sRandKey := List.replicate 16 66
  iEnableEncryptData := true
  szReserved := Vector.replicate 16 0
  stTlvInfo := ⟨#[0, 0, 0, 3, 0, 0, 0, 5] ++ Array.replicate 44 0, rfl⟩
  pContent := pContent

/-- A server that knows machine 5. -/
def machineFive (id : Int) : Option MachineInfo :=
  if id = 5 then some ⟨5, List.replicate 16 66⟩ else none

theorem known_sealedReport {ρ : Type} {srv : DataServer ρ} {dwCmd : UInt32} (pContent : List UInt8)
    (hcmd : dwCmd.toNat ∈ srv.cmds) :
    Known srv (List.replicate 32 65) machineFive ⟨5, List.replicate 16 66⟩
      (sealedReport dwCmd pContent) :=
  { cmd := hcmd
    userKey := rfl
    machine := by
      have hid : Int.bmod (netAt (sealedReport 0 []).stTlvInfo.toList 4 4) (2 ^ 32) = 5 := by
        decide +kernel
      have hmachine : (sealedReport dwCmd pContent).machineId = 5 := hid
      rw [hmachine, machineFive, if_pos rfl]
    randKey := fun _ => rfl }

theorem length_le_length_flatMap {α β : Type*} {f : α → List β} (xs : List α)
    (h : ∀ x, 1 ≤ (f x).length) : xs.length ≤ (xs.flatMap f).length := by
  rw [List.length_flatMap]
  refine Nat.le_trans ?_ (List.length_le_sum_of_one_le _ ?_)
  · rw [List.length_map]
  · intro i hi
    obtain ⟨x, -, rfl⟩ := List.mem_map.mp hi
    exact h x

section Logs

open LogBatch

end Logs

section Attributes

open Attr

/-- An attribute as `EnvSendAttrToServer` writes it. -/
def attrBytes (x : AttrNode) : List UInt8 :=
  toBytes 4 (x.iAttrID % 2 ^ 32).toNat ++ toBytes 4 (x.iCurValue % 2 ^ 32).toNat

/-- What the server makes of it. -/
def attrInfo (x : AttrNode) : AttrInfo :=
  ⟨(x.iAttrID % 2 ^ 32).toNat, (x.iCurValue % 2 ^ 32).toNat, none⟩

/-- The content, sealed if it is to be, in a packet. -/
def sendAttrBuf (s : AttrSender) (content : List UInt8) : Option (List UInt8) :=
  if s.iEnableEncryptData then
    let iAttrBufLenEnc := attrBufLenEnc content.length
    if sizeofAttrBufEnc < iAttrBufLenEnc then none
    else makeAttrPkg s ((List.range iAttrBufLenEnc).map (s.sAttrBufEnc content))
  else makeAttrPkg s content

/-- `EnvSendAttrToServer` up to the packet. -/
def envSendAttr (s : AttrSender) (stAttrRead : List AttrNode) : Option (List UInt8) :=
  sendAttrBuf s ((stAttrRead.take MAX_ATTR_READ_PER_EACH).flatMap attrBytes)

/-- The loop over string attributes, on a content with the memory behind it. -/
def loopStrAttrs (size : Nat) (behind : Nat → UInt8) (content : List UInt8) : List AttrInfo :=
  if h : content.length < 2 ^ 16 then
    ((onRawDataClientStrAttr ⟨content.length + size, content.length, h, Nat.le_add_right _ _⟩
      (content.length + 1) fun k => content.getD k (behind k)).map Prod.snd).getD []
  else []

variable {r : Report} {buf content : List UInt8}

theorem sendAttrBuf_sender (r : Report) (hlen : content.length < 1440) :
    sendAttrBuf r.sender content = makeAttrPkg r.sender { r with pContent := content }.sentContent := by
  rw [sendAttrBuf, Report.sentContent]
  have henc : r.sender.iEnableEncryptData = r.iEnableEncryptData := rfl
  rw [henc]
  cases r.iEnableEncryptData with
  | false => rfl
  | true =>
    have hroom : ¬ sizeofAttrBufEnc < attrBufLenEnc content.length := by
      change ¬ 1456 < (content.length / 16 + 1) * 16
      omega
    have hsealed := map_range_getD (aesCipherData .aes128 r.sRandKey content) fun _ => 0
    rw [length_aesCipherData] at hsealed
    rw [if_pos rfl, if_pos rfl, if_neg hroom]
    exact congrArg (makeAttrPkg r.sender) hsealed

/-- A packet that is made is that of the report with the content. -/
theorem leadsTo_sent {ρ : Type} {srv : DataServer ρ} {before : UInt8} {key : List UInt8}
    {getMachineInfo : Int → Option MachineInfo} {checkPb : List UInt8 → Int × CBasicPacket}
    {mach : MachineInfo} {recorded : List ρ} (hknown : Known srv key getMachineInfo mach r)
    (hlen : content.length < 1440) (h : sendAttrBuf r.sender content = some buf)
    (hrecord : ∀ n, srv.record n mach r.stHead.dwCmd.toNat content = recorded) :
    LeadsTo srv before key getMachineInfo checkPb buf fun _ =>
      ⟨NO_ERROR, some r.iEnableEncryptData, recorded⟩ := by
  rw [sendAttrBuf_sender r hlen] at h
  have hsome := makeAttrPkg_isSome.mp (Option.isSome_of_eq_some h)
  have hlead : LeadsTo srv before key getMachineInfo checkPb { r with pContent := content }.packet
      fun n => ⟨NO_ERROR, some r.iEnableEncryptData,
        srv.record n mach r.stHead.dwCmd.toNat content⟩ :=
    leadsTo_report ⟨hknown.cmd, hknown.userKey, hknown.machine, hknown.randKey⟩ (by omega)
  simp only [hrecord] at hlead
  rw [makeAttrPkg, makePacket] at h
  split at h
  · rw [← Option.some.inj h]
    exact hlead
  · cases h

theorem readAttrs_attrBytes (b : List AttrNode) (fuel : Nat) (hfuel : b.length ≤ fuel) :
    readAttrs fuel (b.flatMap attrBytes) = b.map attrInfo := by
  induction b generalizing fuel with
  | nil =>
    cases fuel with
    | zero => rfl
    | succ fuel => rfl
  | cons x b ih =>
    rw [List.length_cons] at hfuel
    obtain ⟨fuel, rfl⟩ : ∃ k, fuel = k + 1 := ⟨fuel - 1, by omega⟩
    have hid : (x.iAttrID % 2 ^ 32).toNat < 256 ^ 4 := by omega
    have hvalue : (x.iCurValue % 2 ^ 32).toNat < 256 ^ 4 := by omega
    have hlen : (attrBytes x).length = 8 := by simp [attrBytes]
    have hsplit : (x :: b).flatMap attrBytes = toBytes 4 (x.iAttrID % 2 ^ 32).toNat ++
        (toBytes 4 (x.iCurValue % 2 ^ 32).toNat ++ b.flatMap attrBytes) := by
      rw [List.flatMap_cons, attrBytes, List.append_assoc]
    have hnum : netAt ((x :: b).flatMap attrBytes) 4 4 = (x.iCurValue % 2 ^ 32).toNat :=
      netAt_of_split hsplit (length_toBytes 4 _) hvalue
    have hdrop : ((x :: b).flatMap attrBytes).drop 8 = b.flatMap attrBytes :=
      drop_of_split List.flatMap_cons hlen
    have hroom : 8 ≤ ((x :: b).flatMap attrBytes).length := by
      rw [List.flatMap_cons, List.length_append, hlen]
      omega
    rw [readAttrs, if_pos hroom, hnum, hdrop, ih fuel (by omega), hsplit,
      netAt_zero hid]
    rfl

/-- The loop over string attributes has the same result with more rounds. -/
theorem readStrAttrs_mono {pkg : StrAttrPkg} {x : Bool × List AttrInfo} (k : Nat) (fuel : Nat)
    (c : StrCursor) (infos : List AttrInfo) (h : readStrAttrs pkg fuel c infos = some x) :
    readStrAttrs pkg (fuel + k) c infos = some x := by
  induction fuel generalizing c infos with
  | zero => cases h
  | succ fuel ih =>
    rw [Nat.add_right_comm, readStrAttrs]
    rw [readStrAttrs] at h
    split
    · rename_i hentry
      rw [if_pos hentry] at h
      split
      · rename_i haccept
        rw [if_pos haccept] at h
        exact ih _ _ h
      · rename_i haccept
        rwa [if_neg haccept] at h
    · rename_i hentry
      rwa [if_neg hentry] at h

theorem loopStrAttrs_entries (xs : List StrAttrNode) (size : Nat) (behind : Nat → UInt8)
    (hlen : (xs.flatMap StrAttrNode.bytes).length < 2 ^ 16) :
    loopStrAttrs size behind (xs.flatMap StrAttrNode.bytes) = xs.map StrAttrNode.info := by
  have hcount : xs.length ≤ (xs.flatMap StrAttrNode.bytes).length := by
    apply length_le_length_flatMap
    intro x
    rw [x.length_bytes]
    omega
  have hstands : Stands (fun k => (xs.flatMap StrAttrNode.bytes).getD k (behind k)) 0
      (xs.flatMap StrAttrNode.bytes) := by
    simp only [Stands, bytesAt, Nat.zero_add]
    exact map_range_getD _ behind
  let pkg : StrAttrPkg := ⟨_ + size, _, hlen, Nat.le_add_right _ _⟩
  have hread : readStrAttrs pkg (xs.length + 1) ⟨_, 0⟩ [] = some (true, xs.map StrAttrNode.info) :=
    readStrAttrs_entries xs hstands (Nat.zero_add _)
  have hmore := readStrAttrs_mono ((xs.flatMap StrAttrNode.bytes).length - xs.length) _ _ _ hread
  rw [loopStrAttrs, dif_pos hlen, onRawDataClientStrAttr,
    show (xs.flatMap StrAttrNode.bytes).length + 1 =
      xs.length + 1 + ((xs.flatMap StrAttrNode.bytes).length - xs.length) by omega, hmore]
  rfl

end Attributes

open Attr

/-- Every batch of attributes that the agent reads at once fits into a packet, sealed or not, and the
attribute server records it entry by entry. -/
theorem attrs_recorded (before : UInt8) (szAgentAccessKey : List UInt8)
    (getMachineInfo : Int → Option MachineInfo) (checkPb : List UInt8 → Int × CBasicPacket)
    (dealCgiReportAttr : Nat → CBasicPacket → Int × List AttrInfo)
    (readStrAttrs : List UInt8 → List AttrInfo) (mach : MachineInfo) (r : Report)
    (b : List Attr.AttrNode) :
    Known (attrServer dealCgiReportAttr readStrAttrs) szAgentAccessKey getMachineInfo mach r →
      r.stHead.dwCmd.toNat = CMD_MONI_SEND_ATTR → b.length ≤ Attr.MAX_ATTR_READ_PER_EACH →
      ∃ buf, envSendAttr r.sender b = some buf ∧
        LeadsTo (attrServer dealCgiReportAttr readStrAttrs) before szAgentAccessKey getMachineInfo
          checkPb buf fun _ => ⟨NO_ERROR, some r.iEnableEncryptData, b.map attrInfo⟩ := by
  intro hknown hcmd hb
  have htake : b.take MAX_ATTR_READ_PER_EACH = b := List.take_of_length_le hb
  have hb : b.length ≤ 120 := hb
  have hlen : (b.flatMap attrBytes).length = b.length * 8 := by
    simp [List.length_flatMap, attrBytes]
  have hmade : (sendAttrBuf r.sender (b.flatMap attrBytes)).isSome = true := by
    rw [sendAttrBuf_sender r (by omega), makeAttrPkg_isSome, Report.sentContent]
    dsimp only
    split
    · rw [length_aesCipherData]
      omega
    · omega
  obtain ⟨buf, hbuf⟩ := Option.isSome_iff_exists.mp hmade
  refine ⟨buf, by rw [envSendAttr, htake, hbuf], leadsTo_sent hknown (by omega) hbuf ?_⟩
  intro n
  rw [hcmd]
  exact readAttrs_attrBytes b _ (by omega)

/-- What a drain takes out of the table of string attributes, whatever the table holds: if the packet
is made, the attribute server records every entry with its string. -/
theorem str_attrs_recorded (before : UInt8) (szAgentAccessKey : List UInt8)
    (getMachineInfo : Int → Option MachineInfo) (checkPb : List UInt8 → Int × CBasicPacket)
    (dealCgiReportAttr : Nat → CBasicPacket → Int × List AttrInfo) (size : Nat)
    (behind : Nat → UInt8) (mach : MachineInfo) (r : Report) (env : Nat → SharedHash.LockEnv)
    (t : SharedHash.SharedHashTable Attr.StrAttrNode) (buf : List UInt8) :
    Known (attrServer dealCgiReportAttr (loopStrAttrs size behind)) szAgentAccessKey getMachineInfo
        mach r →
      r.stHead.dwCmd.toNat = CMD_MONI_SEND_STR_ATTR →
      envSendStrAttr r.sender (readStrAttr env t) = some buf →
      LeadsTo (attrServer dealCgiReportAttr (loopStrAttrs size behind)) before szAgentAccessKey
        getMachineInfo checkPb buf fun _ =>
          ⟨NO_ERROR, some r.iEnableEncryptData, (readStrAttr env t).map fun n => (toClient n).info⟩ := by
  intro hknown hcmd hbuf
  have hb : (readStrAttr env t).length ≤ MAX_STR_ATTR_READ_PER_EACH := by
    rw [readStrAttr_eq]
    exact length_takeBatch (Nat.zero_le _)
  generalize readStrAttr env t = b at hb hbuf ⊢
  have hle := contentSize_le b
  have hb : b.length ≤ 15 := hb
  have hsmall : contentSize b < MAX_ATTR_PKG_LENGTH := by
    change contentSize b < 1200
    omega
  have hwhole : strAttrSendBuf (b.map toClient) = (b.map toClient).flatMap StrAttrNode.bytes := by
    rw [strAttrSendBuf, fittingStrAttrs_all 0 (by omega)]
  have hlen := length_strAttrSendBuf hsmall
  have hsmall : contentSize b < 1200 := hsmall
  change sendAttrBuf r.sender (strAttrSendBuf (b.map toClient)) = some buf at hbuf
  rw [hwhole] at hlen hbuf
  have hloop := loopStrAttrs_entries (b.map toClient) size behind (by omega)
  rw [List.map_map] at hloop
  refine leadsTo_sent hknown (by omega) hbuf ?_
  intro n
  rw [hcmd]
  exact hloop

theorem str_attrs_recorded_two :
    ∃ os x buf, runSteps strStep ⟨strAttrTable, [], none, [], []⟩
        [.add strFlag 3 [97, 98] 2, .add strFlag 4 [99] 1] = some (os, x) ∧
      (readStrAttr (fun _ => strFlag) x.table).length = 2 ∧
      LeadsTo (attrServer (fun _ _ => (0, [])) (loopStrAttrs 0 fun _ => 0)) 0 (List.replicate 32 65)
        machineFive noPb buf fun _ =>
          ⟨NO_ERROR, some true, (readStrAttr (fun _ => strFlag) x.table).map fun n => (toClient n).info⟩ := by
  have hviews : (runSteps strStep ⟨strAttrTable, [], none, [], []⟩
      [.add strFlag 3 [97, 98] 2, .add strFlag 4 [99] 1]).map (fun x =>
        ((readStrAttr (fun _ => strFlag) x.2.table).length,
          contentSize (readStrAttr (fun _ => strFlag) x.2.table))) = some (2, 29) := by
    decide +kernel
  obtain ⟨⟨os, x⟩, hrun, hview⟩ := Option.map_eq_some_iff.mp hviews
  obtain ⟨hlen, hsize⟩ := Prod.mk.inj hview
  have hsent : BatchSent (sealedReport 214 []).sender (readStrAttr (fun _ => strFlag) x.table) := by
    rw [batchSent_iff (by rw [hlen]; decide), hsize]
    decide
  obtain ⟨buf, hbuf⟩ := Option.isSome_iff_exists.mp hsent.made
  exact ⟨os, x, buf, hrun, hlen, str_attrs_recorded 0 _ machineFive noPb (fun _ _ => (0, [])) 0
    (fun _ => 0) _ (sealedReport 214 []) (fun _ => strFlag) x.table buf
    (known_sealedReport _ (by decide)) rfl hbuf⟩

end XrkMonitor.Packet
