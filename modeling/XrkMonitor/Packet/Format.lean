import XrkMonitor.Library.NetBytes

/-!
# Packets between the agent and the servers

A packet is `[`, a head of 68 bytes, a signature, an optional content, a body of
TLVs, and `]`. The agent and the server each have a `MakePacket` and a
`CheckBasicPacket`. A check publishes the parts of the packet one after the
other, so a packet that it rejects may leave some of them set.

## Implementation notes

A pointer into the packet is a place in the buffer. The lengths are `uint16_t`
in the source; a packet that passes the check of its length has at most 4096
bytes, so the sums do not wrap. Packets of the protocol buffer format of the
server are a parameter. Log lines are left out.
-/

namespace XrkMonitor.Packet

open Library

def PKG_BUFF_LENGTH : Nat := 4096
def MAX_UDP_REQ_PACKET_SIZE : Nat := 4096
def MAX_SIGNATURE_LEN : Nat := 128
def SPKG : UInt8 := 91
def EPKG : UInt8 := 93
def SPKG_PB : UInt8 := 123
def EPKG_PB : UInt8 := 125
def TLV_ACK_ERROR : Nat := 5
def MAGIC_RESPONSE_NUM : Nat := 1117250

def NO_ERROR : Int := 0
def ERR_INVALID_PACKET : Int := 2
def ERR_INVALID_PACKET_LEN : Int := 3
def ERR_CHECK_TLV : Int := 5

section Parts

/-- `ReqPkgHead`, its numbers in host byte order. -/
structure ReqPkgHead where
  dwCmd : UInt32
  dwSeq : UInt32
  wPkgLen : UInt16
  wToPkgBody : UInt16
  bRetCode : UInt8
  bResendTimes : UInt8
  wVersion : UInt16
  dwRespMagicNum : UInt32
  sEchoBuf : Vector UInt8 32
  qwSessionId : UInt64
  sReserved : Vector UInt8 8
deriving DecidableEq

/-- The bytes of a head. -/
def ReqPkgHead.bytes (h : ReqPkgHead) : List UInt8 :=
  toBytes 4 h.dwCmd.toNat ++ (toBytes 4 h.dwSeq.toNat ++ (toBytes 2 h.wPkgLen.toNat ++
    (toBytes 2 h.wToPkgBody.toNat ++ (h.bRetCode :: h.bResendTimes :: (toBytes 2 h.wVersion.toNat ++
      (toBytes 4 h.dwRespMagicNum.toNat ++ (h.sEchoBuf.toList ++ (toBytes 8 h.qwSessionId.toNat ++
        h.sReserved.toList))))))))

/-- `TSignature` with its value. -/
structure TSignature where
  bSigType : UInt8
  sSigValue : List UInt8
deriving DecidableEq

def TSignature.bytes (s : TSignature) : List UInt8 :=
  s.bSigType :: (toBytes 2 s.sSigValue.length ++ s.sSigValue)

/-- `TWTlv` with its value, which has a length of two bytes. -/
structure TWTlv where
  wType : UInt16
  sValue : List UInt8
  length_lt : sValue.length < 2 ^ 16
deriving DecidableEq

/-- `SetWTlv`. -/
def TWTlv.bytes (t : TWTlv) : List UInt8 :=
  toBytes 2 t.wType.toNat ++ (toBytes 2 t.sValue.length ++ t.sValue)

/-- `TPkgBody`: the number of TLVs in one byte, and the TLVs. -/
structure TPkgBody where
  stTlv : List TWTlv
  length_lt : stTlv.length < 2 ^ 8
deriving DecidableEq

def TPkgBody.bytes (b : TPkgBody) : List UInt8 :=
  UInt8.ofNat b.stTlv.length :: b.stTlv.flatMap TWTlv.bytes

theorem length_stTlvInfo (v : Vector UInt8 52) : v.toList.length < 2 ^ 16 := by
  rw [Vector.length_toList]
  decide

theorem one_tlv_lt (t : TWTlv) : [t].length < 2 ^ 8 := by
  rw [List.length_singleton]
  decide

end Parts

section Make

/-- What `InitReqPkgHead`, `InitSignature`, `InitCmdContent` and `InitPkgBody` have set. -/
structure Parts where
  head : ReqPkgHead
  sig : Option TSignature
  content : List UInt8
  body : Option TPkgBody
deriving DecidableEq

/-- The signature as it is written; there is an empty one if none was set. -/
def Parts.sigBytes (x : Parts) : List UInt8 :=
  match x.sig with
  | some s => s.bytes
  | none => [0, 0, 0]

/-- The body as it is written. -/
def Parts.bodyBytes (x : Parts) : List UInt8 :=
  match x.body with
  | some b => b.bytes
  | none => [0]

/-- `m_wRespSigLen`. -/
def Parts.wRespSigLen (x : Parts) : Nat := (x.sig.map fun s => s.bytes.length).getD 0

/-- `m_wRespBodyLen`. -/
def Parts.wRespBodyLen (x : Parts) : Nat := (x.body.map fun b => b.bytes.length).getD 0

/-- The place of the body. -/
def Parts.toPkgBody (x : Parts) : Nat := 1 + 68 + x.sigBytes.length + x.content.length

/-- The length of the packet. -/
def Parts.pkgLen (x : Parts) : Nat := x.toPkgBody + x.bodyBytes.length + 1

/-- The bytes that `MakePacket` writes with the head `head`. -/
def Parts.write (x : Parts) (head : ReqPkgHead) : List UInt8 :=
  SPKG :: (ReqPkgHead.bytes
    { head with wPkgLen := UInt16.ofNat x.pkgLen, wToPkgBody := UInt16.ofNat x.toPkgBody } ++
      (x.sigBytes ++ (x.content ++ (x.bodyBytes ++ [EPKG]))))

/-- The check of the buffer in `MakePacket`. -/
def Parts.fitsBuf (x : Parts) (iBufLen : Nat) : Prop :=
  2 + 68 + 3 + 1 + x.wRespSigLen + x.content.length + x.wRespBodyLen ≤ iBufLen

instance (x : Parts) (iBufLen : Nat) : Decidable (x.fitsBuf iBufLen) :=
  inferInstanceAs (Decidable (_ ≤ _))

/-- `MakePacket` of the agent. -/
def makePacket (x : Parts) (iBufLen : Nat) (iRetCode : UInt8) : Option (List UInt8) :=
  if x.fitsBuf iBufLen then some (x.write { x.head with bRetCode := iRetCode }) else none

/-- `MakePacket` of the server. -/
def makePacketServer (x : Parts) (iBufLen : Nat) (iRetCode : UInt8) (m_bIsResponse : Bool) :
    Option (List UInt8) :=
  if x.fitsBuf iBufLen then
    some (x.write
      { x.head with
        bRetCode := iRetCode
        dwRespMagicNum := if m_bIsResponse then UInt32.ofNat MAGIC_RESPONSE_NUM
          else x.head.dwRespMagicNum })
  else none

end Make

section Check

/-- The TLVs of a body that are left, `n` of them. -/
def checkTlvs : Nat → List UInt8 → Bool
  | 0, _ => true
  | n + 1, rest =>
    decide (4 ≤ rest.length) && decide (netAt rest 2 2 + 4 ≤ rest.length) &&
      checkTlvs n (rest.drop (netAt rest 2 2 + 4))

/-- `CheckPkgBody` returns `0`. -/
def checkPkgBody : List UInt8 → Bool
  | [] => false
  | bTlvNum :: rest => checkTlvs bTlvNum.toNat rest

/-- The place of the first TLV of a type among the `n` TLVs from place `p` on. -/
def findTlv (wType : Nat) : Nat → Nat → List UInt8 → Option Nat
  | 0, _, _ => none
  | n + 1, p, rest =>
    if netAt rest 0 2 = wType then some p
    else findTlv wType n (p + (4 + netAt rest 2 2)) (rest.drop (4 + netAt rest 2 2))

/-- `GetWTlvByType2`: the place of the TLV in the body. -/
def getWTlvByType2 (wType : Nat) : List UInt8 → Option Nat
  | [] => none
  | bTlvNum :: rest => findTlv wType bTlvNum.toNat 1 rest

/-- What `CheckBasicPacket` publishes of a packet. -/
structure CBasicPacket where
  m_pReqPkg : List UInt8
  m_pstReqHead : Option Nat
  m_pstSig : Option Nat
  m_pstCmdContent : Option Nat
  m_wCmdContentLen : Nat
  m_pstBody : Option Nat
  m_wBodyLen : Nat
  m_dwReqCmd : Nat
  m_dwReqSeq : Nat
  m_bRetCode : Nat
deriving Repr, DecidableEq

/-- `ResetPacketInfo`. -/
def resetPacketInfo (buf : List UInt8) : CBasicPacket := ⟨buf, none, none, none, 0, none, 0, 0, 0, 0⟩

namespace CBasicPacket

variable (pkg : CBasicPacket)

def wToPkgBody : Nat := netAt pkg.m_pReqPkg 11 2
def bRetCode : Nat := netAt pkg.m_pReqPkg 13 1
def wVersion : Nat := netAt pkg.m_pReqPkg 15 2
def dwRespMagicNum : Nat := netAt pkg.m_pReqPkg 17 4
def qwSessionId : Nat := netAt pkg.m_pReqPkg 53 8
def bSigType : Nat := netAt pkg.m_pReqPkg 69 1
def wSigLen : Nat := netAt pkg.m_pReqPkg 70 2
def sSigValue : List UInt8 := slice pkg.m_pReqPkg 72 pkg.wSigLen

/-- The bytes behind `m_pstCmdContent`. -/
def content : List UInt8 :=
  match pkg.m_pstCmdContent with
  | some p => slice pkg.m_pReqPkg p pkg.m_wCmdContentLen
  | none => []

/-- The bytes behind `m_pstBody`. -/
def body : List UInt8 :=
  match pkg.m_pstBody with
  | some p => slice pkg.m_pReqPkg p pkg.m_wBodyLen
  | none => []

end CBasicPacket

/-- The length, its copy in the head, and the marks at both ends. -/
def headAccepted (buf : List UInt8) (maxLen : Nat) : Bool :=
  decide (2 + 68 < buf.length) && decide (netAt buf 9 2 = buf.length) &&
    decide (buf.length ≤ maxLen) && buf.getD 0 0 == SPKG && buf.getD (buf.length - 1) 0 == EPKG

/-- The parts of an accepted head are published. -/
def publishHead (buf : List UInt8) : CBasicPacket :=
  { resetPacketInfo buf with
    m_pstReqHead := some 1
    m_pstSig := some 69
    m_dwReqCmd := netAt buf 1 4
    m_dwReqSeq := netAt buf 5 4 }

/-- The checks of the signature, the content and the body, with the limit of the signature. -/
def checkSections (buf : List UInt8) (maxSigLen : Option Nat) : Int × CBasicPacket :=
  let pkg := publishHead buf
  let wBasicLen := 1 + 68 + 3 + pkg.wSigLen
  if buf.length - 70 < 3 ∨ buf.length - 70 < 3 + pkg.wSigLen ∨ (∃ m ∈ maxSigLen, m < pkg.wSigLen) then
    (ERR_INVALID_PACKET, pkg)
  else if pkg.wToPkgBody < wBasicLen ∨ buf.length < pkg.wToPkgBody + 1 then (ERR_INVALID_PACKET, pkg)
  else
    let pkg :=
      { pkg with
        m_pstCmdContent := if wBasicLen < pkg.wToPkgBody then some wBasicLen else none
        m_wCmdContentLen := pkg.wToPkgBody - wBasicLen
        m_pstBody := some pkg.wToPkgBody
        m_wBodyLen := buf.length - pkg.wToPkgBody - 1 }
    if checkPkgBody pkg.body then (NO_ERROR, pkg) else (ERR_CHECK_TLV, pkg)

/-- In an error response the message ends where its last character stands. -/
def endErrMsg (pkg : CBasicPacket) : CBasicPacket :=
  match pkg.m_pstBody, getWTlvByType2 TLV_ACK_ERROR pkg.body with
  | some q, some p =>
    { pkg with
      m_pReqPkg := pkg.m_pReqPkg.set (q + p + 4 + netAt pkg.body (p + 2) 2 - 1) 0 }
  | _, _ => pkg

/-- `CheckBasicPacket` of the agent. -/
def checkBasicPacket (buf : List UInt8) : Int × CBasicPacket :=
  if headAccepted buf PKG_BUFF_LENGTH then
    match checkSections buf none with
    | (0, pkg) =>
      let pkg := { pkg with m_bRetCode := pkg.bRetCode }
      (NO_ERROR, if pkg.m_bRetCode = 0 then pkg else endErrMsg pkg)
    | (iRet, pkg) => (iRet, pkg)
  else (ERR_INVALID_PACKET, resetPacketInfo buf)

/-- The marks of the protocol buffer format in `IsPacketPb`; what it reads between them belongs to
the parameter `checkPb`. -/
def isPacketPb (buf : List UInt8) : Bool :=
  decide (10 < buf.length) && buf.getD 0 0 == SPKG_PB && buf.getD (buf.length - 1) 0 == EPKG_PB

/-- `CheckBasicPacket` of the server; `checkPb` checks a packet of the protocol buffer format. The
return code of an error response is returned, and `m_bRetCode` of the object stays. -/
def checkBasicPacketServer (checkPb : List UInt8 → Int × CBasicPacket) (buf : List UInt8) :
    Int × CBasicPacket :=
  if isPacketPb buf then checkPb buf
  else if headAccepted buf MAX_UDP_REQ_PACKET_SIZE then
    match checkSections buf (some MAX_SIGNATURE_LEN) with
    | (0, pkg) => if pkg.bRetCode = 0 then (NO_ERROR, pkg) else (pkg.bRetCode, endErrMsg pkg)
    | (iRet, pkg) => (iRet, pkg)
  else (ERR_INVALID_PACKET, resetPacketInfo buf)

theorem checkSections_head (sBuf : List UInt8) (maxSigLen : Option Nat) :
    (checkSections sBuf maxSigLen).2.m_pstReqHead = some 1 ∧
      (checkSections sBuf maxSigLen).2.m_pReqPkg = sBuf ∧
      (checkSections sBuf maxSigLen).2.m_dwReqCmd = netAt sBuf 1 4 ∧
      (checkSections sBuf maxSigLen).2.m_dwReqSeq = netAt sBuf 5 4 := by
  unfold checkSections
  dsimp only
  split
  · exact ⟨rfl, rfl, rfl, rfl⟩
  · generalize (if 1 + 68 + 3 + (publishHead sBuf).wSigLen < (publishHead sBuf).wToPkgBody
      then some (1 + 68 + 3 + (publishHead sBuf).wSigLen) else none) = m_pstCmdContent
    split
    · exact ⟨rfl, rfl, rfl, rfl⟩
    · split
      · exact ⟨rfl, rfl, rfl, rfl⟩
      · exact ⟨rfl, rfl, rfl, rfl⟩

end Check

end XrkMonitor.Packet
