import XrkMonitor.Packet.RoundTrip

/-!
# Signed requests at the connect server

`CheckSignature` takes the type of the signature from the packet. The type of a
first hello is decrypted under the access key, the common type under the random
key of the client, and every other type passes. `DealCommInfo` and
`DealCmdHelloFirst` do not look at the type.

## Implementation notes

The block decryption is a parameter. `aes_decipher_data` leaves the length alone
when the input is not a number of blocks, and reads the padding from the byte in
front of the buffer when the input is empty; that byte is a parameter too. The
client tables are a parameter. `none` is an access through a null pointer.
-/

namespace XrkMonitor.Packet

open Library

def MT_SIGNATURE_TYPE_HELLO_FIRST : Nat := 1
def MT_SIGNATURE_TYPE_COMMON : Nat := 101
def TLV_MONI_COMM_INFO : Nat := 204
def CMD_MONI_SEND_HELLO : Nat := 202
def ERR_DECRYPT_FAILED : Int := 12
def ERR_INVALID_CMD_CONTENT : Int := 14
def ERR_INVALID_SIGNATURE_INFO : Int := 20
def ERR_NOT_FIND_MACHINE : Int := 26

/-- The size of `m_sDecryptBuf`. -/
def decryptBufSize : Nat := MAX_SIGNATURE_LEN + 16

/-- The sizes of `MonitorHelloSig`, `MonitorCommSig`, `MonitorHelloFirstContent` and
`TlvMoniCommInfo`. -/
def sizeofMonitorHelloSig : Nat := 26
def sizeofMonitorCommSig : Nat := 25
def sizeofMonitorHelloFirstContent : Nat := 180
def sizeofTlvMoniCommInfo : Nat := 52

inductive AesKeyLen
  | aes128
  | aes256
deriving DecidableEq

/-- `inv_cipher` of one block under a key. -/
abbrev InvCipher := AesKeyLen → List UInt8 → List UInt8 → Vector UInt8 16

/-- The blocks of the input, each decrypted. -/
def decipherBlocks (inv : List UInt8 → Vector UInt8 16) : Nat → List UInt8 → List UInt8
  | 0, _ => []
  | n + 1, input => (inv (input.take 16)).toList ++ decipherBlocks inv n (input.drop 16)

/-- `aes_decipher_data`: what it writes and the length it gives, or none if it returns at once. -/
def aesDecipherData (inv : InvCipher) (before : UInt8) (len : AesKeyLen) (key input : List UInt8) :
    Option (List UInt8 × Nat) :=
  if input.length % 16 ≠ 0 then none
  else
    let out := decipherBlocks (inv len key) (input.length / 16) input
    let j := if input.length = 0 then before else out.getD (input.length - 1) 0
    some (out, (input.length + (2 ^ 64 - j.toNat)) % 2 ^ 64)

/-- The fields of `MtClientInfo` that are read here. -/
structure MtClientInfo where
  bEnableEncryptData : Nat
  sRandKey : List UInt8
deriving DecidableEq

/-- The tables of the server: machines, whether an address is one of a machine, and clients by
index and by machine; the search by machine may also give an unused entry. -/
structure ClientTables (μ : Type) where
  szAgentAccessKey : List UInt8
  getMachineInfo : Int → Option μ
  isIpMatchMachine : μ → Nat → Bool
  getMtClientByIndex : Int → Int → Option MtClientInfo
  getMtClientByMachine : Int → Option (MtClientInfo × Bool)

/-- What a `CUdpSock` keeps from one packet to the next. -/
structure CUdpSock where
  m_sDecryptBuf : List UInt8
  m_pMtClient : Option MtClientInfo

/-- `Init`, at the start of `OnRawData`. -/
def CUdpSock.init (_ : CUdpSock) : CUdpSock := ⟨List.replicate decryptBufSize 0, none⟩

section Server

variable {μ : Type} (inv : InvCipher) (before : UInt8) (tables : ClientTables μ)

/-- `aes_decipher_data` into `m_sDecryptBuf`, and the length that it leaves in `iDecSigLen`. -/
def decipherSig (len : AesKeyLen) (key : List UInt8) (sock : CUdpSock) (pkg : CBasicPacket) :
    CUdpSock × Nat :=
  match aesDecipherData inv before len key pkg.sSigValue with
  | none => (sock, 0)
  | some (out, n) =>
    ({ sock with m_sDecryptBuf := out ++ sock.m_sDecryptBuf.drop out.length }, n)

/-- `CheckSignature`. -/
def checkSignature (sock : CUdpSock) (pkg : CBasicPacket) : Option (Int × CUdpSock) :=
  if pkg.bSigType = MT_SIGNATURE_TYPE_HELLO_FIRST then
    let x := decipherSig inv before .aes256 tables.szAgentAccessKey sock pkg
    if x.2 ≠ sizeofMonitorHelloSig then some (ERR_DECRYPT_FAILED, x.1) else some (0, x.1)
  else if pkg.bSigType = MT_SIGNATURE_TYPE_COMMON then
    match sock.m_pMtClient with
    | none => none
    | some client =>
      if client.bEnableEncryptData = 0 then some (0, sock)
      else
        let x := decipherSig inv before .aes128 client.sRandKey sock pkg
        if x.2 ≠ sizeofMonitorCommSig then some (ERR_DECRYPT_FAILED, x.1)
        else if netAt x.1.m_sDecryptBuf 0 4 ≠ pkg.m_dwReqSeq then
          some (ERR_INVALID_SIGNATURE_INFO, x.1)
        else some (0, x.1)
  else some (0, sock)

/-- The common information of a request, at place `p` of its body. -/
structure CommInfo where
  iMtClientIndex : Int
  iMachineId : Int
  dwReserved_1 : Nat
deriving DecidableEq

/-- The TLV of the common information. -/
def getCommInfo (pkg : CBasicPacket) : Option CommInfo :=
  match getWTlvByType2 TLV_MONI_COMM_INFO pkg.body with
  | none => none
  | some p =>
    if netAt pkg.body (p + 2) 2 = sizeofTlvMoniCommInfo then
      some ⟨Int.bmod (netAt pkg.body (p + 4) 4) (2 ^ 32),
        Int.bmod (netAt pkg.body (p + 8) 4) (2 ^ 32), netAt pkg.body (p + 12) 4⟩
    else none

/-- `GetMtClientInfo` of a request that is no first hello. -/
def getMtClientInfo (pkg : CBasicPacket) (info : CommInfo) : Except Int MtClientInfo :=
  if info.iMachineId ≤ 0 ∨ info.iMtClientIndex < 0 then .error ERR_INVALID_PACKET
  else if pkg.m_dwReqCmd = CMD_MONI_SEND_HELLO ∧ info.dwReserved_1 = 0 then .error ERR_INVALID_PACKET
  else
    match tables.getMachineInfo info.iMachineId with
    | none => .error ERR_NOT_FIND_MACHINE
    | some mach =>
      if pkg.m_dwReqCmd = CMD_MONI_SEND_HELLO ∧ ¬ tables.isIpMatchMachine mach info.dwReserved_1 then
        .error ERR_NOT_FIND_MACHINE
      else
        match tables.getMtClientByIndex info.iMachineId info.iMtClientIndex with
        | some client => .ok client
        | none =>
          match tables.getMtClientByMachine info.iMachineId with
          | none => .error ERR_NOT_FIND_MACHINE
          | some (client, isFind) => if isFind then .ok client else .error ERR_INVALID_PACKET

/-- `DealCommInfo`. -/
def dealCommInfo (sock : CUdpSock) (pkg : CBasicPacket) : Option Int :=
  match getCommInfo pkg with
  | none => some ERR_CHECK_TLV
  | some info =>
    match getMtClientInfo tables pkg info with
    | .error _ => some ERR_INVALID_PACKET
    | .ok client =>
      (checkSignature inv before tables { sock with m_pMtClient := some client } pkg).map Prod.fst

/-- How far `DealCmdHelloFirst` comes. -/
inductive HelloFirst
  | refused (iRet : Int)
  | proceeds (psigInfo : List UInt8)
deriving DecidableEq

/-- `DealCmdHelloFirst` until it has checked the signature. -/
def dealCmdHelloFirst (sock : CUdpSock) (pkg : CBasicPacket) : Option HelloFirst :=
  if pkg.m_wCmdContentLen ≠ sizeofMonitorHelloFirstContent then
    some (.refused ERR_INVALID_CMD_CONTENT)
  else
    (checkSignature inv before tables sock pkg).map fun x =>
      if x.1 ≠ NO_ERROR then .refused x.1
      else if netAt x.2.m_sDecryptBuf 1 4 ≠ pkg.m_dwReqSeq then .refused ERR_INVALID_SIGNATURE_INFO
      else .proceeds x.2.m_sDecryptBuf

/-- The client that the packet names. -/
def namedClient (pkg : CBasicPacket) : Option MtClientInfo :=
  (getCommInfo pkg).bind fun info => (getMtClientInfo tables pkg info).toOption

/-- The signature of the packet decrypts to `size` bytes with the packet's sequence at place `p`. -/
def SignedBy (len : AesKeyLen) (key : List UInt8) (size p : Nat) (pkg : CBasicPacket) : Prop :=
  ∃ out, aesDecipherData inv before len key pkg.sSigValue = some (out, size) ∧
    netAt out p 4 = pkg.m_dwReqSeq

/-- The signature is a `MonitorCommSig` under the client's key. -/
def SignedComm (client : MtClientInfo) (pkg : CBasicPacket) : Prop :=
  SignedBy inv before .aes128 client.sRandKey sizeofMonitorCommSig 0 pkg

/-- The signature is a `MonitorHelloSig` under the access key. -/
def SignedHello (pkg : CBasicPacket) : Prop :=
  SignedBy inv before .aes256 tables.szAgentAccessKey sizeofMonitorHelloSig 1 pkg

/-- The signature has the length of a `MonitorHelloSig` under the access key. -/
def HelloSized (pkg : CBasicPacket) : Prop :=
  ∃ out, aesDecipherData inv before .aes256 tables.szAgentAccessKey pkg.sSigValue =
    some (out, sizeofMonitorHelloSig)

end Server

section Sound

variable {μ : Type} {inv : InvCipher} {before : UInt8} {tables : ClientTables μ} {sock : CUdpSock}
  {pkg : CBasicPacket} {len : AesKeyLen} {key : List UInt8} {client : MtClientInfo}
  {psigInfo : List UInt8}

theorem length_decipherBlocks (f : List UInt8 → Vector UInt8 16) (n : Nat) (input : List UInt8) :
    (decipherBlocks f n input).length = 16 * n := by
  induction n generalizing input with
  | zero => rfl
  | succ n ih =>
    rw [decipherBlocks, List.length_append, Vector.length_toList, ih]
    omega

theorem le_length_of_aesDecipherData {input out : List UInt8} {n : Nat}
    (h : aesDecipherData inv before len key input = some (out, n)) (hn : n < 2 ^ 63) :
    n ≤ out.length := by
  unfold aesDecipherData at h
  split at h
  · cases h
  · rename_i hblocks
    obtain ⟨rfl, rfl⟩ := Prod.mk.inj (Option.some.inj h)
    rw [length_decipherBlocks]
    generalize (if input.length = 0 then before else _) = j at hn ⊢
    have hj := j.toNat_lt
    omega

theorem decipherSig_eq (sock : CUdpSock) {size p : Nat} (hsize : size < 2 ^ 63) (hp : p + 4 ≤ size) :
    ((decipherSig inv before len key sock pkg).2 = size ∧
        netAt (decipherSig inv before len key sock pkg).1.m_sDecryptBuf p 4 = pkg.m_dwReqSeq) ↔
      SignedBy inv before len key size p pkg := by
  unfold decipherSig SignedBy
  cases hd : aesDecipherData inv before len key pkg.sSigValue with
  | none =>
    constructor
    · rintro ⟨hzero, -⟩
      simp only at hzero
      omega
    · rintro ⟨out, hout, -⟩
      cases hout
  | some x =>
    obtain ⟨out, n⟩ := x
    simp only
    constructor
    · rintro ⟨rfl, hseq⟩
      have hle := le_length_of_aesDecipherData hd hsize
      rw [netAt, slice_append_of_le (by omega)] at hseq
      exact ⟨out, rfl, hseq⟩
    · rintro ⟨out', hout, hseq⟩
      obtain ⟨rfl, rfl⟩ := Prod.mk.inj (Option.some.inj hout)
      have hle := le_length_of_aesDecipherData hd hsize
      rw [netAt, slice_append_of_le (by omega)]
      exact ⟨rfl, hseq⟩

theorem checkSignature_common (htype : pkg.bSigType = MT_SIGNATURE_TYPE_COMMON)
    (henc : client.bEnableEncryptData ≠ 0) :
    (checkSignature inv before tables { sock with m_pMtClient := some client } pkg).map Prod.fst =
      some NO_ERROR ↔ SignedComm inv before client pkg := by
  rw [SignedComm, ← decipherSig_eq { sock with m_pMtClient := some client } (by decide) (by decide)]
  unfold checkSignature
  rw [if_neg (by rw [htype]; decide), if_pos htype]
  simp only [if_neg henc]
  split
  · rename_i hsize
    simp [hsize, ERR_DECRYPT_FAILED, NO_ERROR]
  · rename_i hsize
    split
    · rename_i hseq
      simp [hseq, ERR_INVALID_SIGNATURE_INFO, NO_ERROR]
    · rename_i hseq
      simp only [ne_eq, not_not] at hsize hseq
      simp [hsize, hseq, NO_ERROR]

theorem checkSignature_helloFirst (htype : pkg.bSigType = MT_SIGNATURE_TYPE_HELLO_FIRST) :
    (checkSignature inv before tables sock pkg).map Prod.fst = some NO_ERROR ↔
      HelloSized inv before tables pkg := by
  unfold checkSignature HelloSized decipherSig
  rw [if_pos htype]
  cases hd : aesDecipherData inv before .aes256 tables.szAgentAccessKey pkg.sSigValue with
  | none => simp [sizeofMonitorHelloSig, ERR_DECRYPT_FAILED, NO_ERROR]
  | some x =>
    obtain ⟨out, n⟩ := x
    by_cases hn : n = sizeofMonitorHelloSig
    · simp [hn, NO_ERROR]
    · simp [hn, ERR_DECRYPT_FAILED, NO_ERROR]

theorem checkSignature_other (hhello : pkg.bSigType ≠ MT_SIGNATURE_TYPE_HELLO_FIRST)
    (hcommon : pkg.bSigType ≠ MT_SIGNATURE_TYPE_COMMON) :
    checkSignature inv before tables sock pkg = some (0, sock) := by
  rw [checkSignature, if_neg hhello, if_neg hcommon]

theorem dealCommInfo_named (hclient : namedClient tables pkg = some client) :
    dealCommInfo inv before tables sock pkg =
      (checkSignature inv before tables { sock with m_pMtClient := some client } pkg).map
        Prod.fst := by
  unfold namedClient at hclient
  unfold dealCommInfo
  cases hinfo : getCommInfo pkg with
  | none =>
    rw [hinfo] at hclient
    cases hclient
  | some info =>
    rw [hinfo, Option.bind_some] at hclient
    cases hget : getMtClientInfo tables pkg info with
    | error e =>
      rw [hget] at hclient
      cases hclient
    | ok c =>
      rw [hget] at hclient
      obtain rfl : c = client := Option.some.inj hclient
      simp only [hget]

/-- The sender used the common type, or the type of a first hello with bytes that are none, or the
bytes are a common signature all the same. -/
def CommTypeChecked (inv : InvCipher) (before : UInt8) (tables : ClientTables μ)
    (client : MtClientInfo) (pkg : CBasicPacket) : Prop :=
  pkg.bSigType = MT_SIGNATURE_TYPE_COMMON ∨
    (pkg.bSigType = MT_SIGNATURE_TYPE_HELLO_FIRST ∧ ¬ HelloSized inv before tables pkg) ∨
      SignedComm inv before client pkg

theorem dealCommInfo_sound_iff (hclient : namedClient tables pkg = some client)
    (henc : client.bEnableEncryptData ≠ 0) :
    (dealCommInfo inv before tables sock pkg = some NO_ERROR → SignedComm inv before client pkg) ↔
      CommTypeChecked inv before tables client pkg := by
  rw [dealCommInfo_named hclient]
  by_cases hcommon : pkg.bSigType = MT_SIGNATURE_TYPE_COMMON
  · rw [checkSignature_common hcommon henc]
    exact ⟨fun _ => Or.inl hcommon, fun _ h => h⟩
  · by_cases hhello : pkg.bSigType = MT_SIGNATURE_TYPE_HELLO_FIRST
    · rw [checkSignature_helloFirst hhello]
      constructor
      · intro hsound
        by_cases hsized : HelloSized inv before tables pkg
        · exact Or.inr (Or.inr (hsound hsized))
        · exact Or.inr (Or.inl ⟨hhello, hsized⟩)
      · rintro (h | ⟨-, hsized⟩ | hsigned) hpass
        · exact absurd h hcommon
        · exact absurd hpass hsized
        · exact hsigned
    · rw [checkSignature_other hhello hcommon]
      constructor
      · intro hsound
        exact Or.inr (Or.inr (hsound rfl))
      · rintro (h | ⟨h, -⟩ | hsigned) -
        · exact absurd h hcommon
        · exact absurd h hhello
        · exact hsigned

/-- The sender used the type of a first hello or the common type, or the sequence is not that of the
cleared buffer, or the bytes are the signature of a first hello all the same. -/
def HelloTypeChecked (inv : InvCipher) (before : UInt8) (tables : ClientTables μ)
    (pkg : CBasicPacket) : Prop :=
  pkg.bSigType = MT_SIGNATURE_TYPE_HELLO_FIRST ∨ pkg.bSigType = MT_SIGNATURE_TYPE_COMMON ∨
    pkg.m_dwReqSeq ≠ 0 ∨ SignedHello inv before tables pkg

theorem dealCmdHelloFirst_helloFirst (htype : pkg.bSigType = MT_SIGNATURE_TYPE_HELLO_FIRST)
    (h : dealCmdHelloFirst inv before tables sock pkg = some (.proceeds psigInfo)) :
    SignedHello inv before tables pkg := by
  unfold dealCmdHelloFirst at h
  split at h
  · cases h
  · rw [checkSignature, if_pos htype] at h
    rw [SignedHello, ← decipherSig_eq sock (by decide) (by decide)]
    dsimp only at h
    split at h
    · simp [ERR_DECRYPT_FAILED, NO_ERROR] at h
    · rename_i hsize
      simp only [ne_eq, not_not] at hsize
      refine ⟨hsize, ?_⟩
      by_contra hseq
      simp [NO_ERROR, hseq] at h

theorem dealCmdHelloFirst_common (htype : pkg.bSigType = MT_SIGNATURE_TYPE_COMMON)
    :
    dealCmdHelloFirst inv before tables sock.init pkg ≠ some (.proceeds psigInfo) := by
  intro h
  unfold dealCmdHelloFirst at h
  split at h
  · cases h
  · rw [checkSignature, if_neg (by rw [htype]; decide), if_pos htype] at h
    cases h

theorem dealCmdHelloFirst_other (hhello : pkg.bSigType ≠ MT_SIGNATURE_TYPE_HELLO_FIRST)
    (hcommon : pkg.bSigType ≠ MT_SIGNATURE_TYPE_COMMON)
    (hcontent : pkg.m_wCmdContentLen = sizeofMonitorHelloFirstContent) :
    (∃ psigInfo, dealCmdHelloFirst inv before tables sock.init pkg = some (.proceeds psigInfo)) ↔
      pkg.m_dwReqSeq = 0 := by
  have hzero : netAt sock.init.m_sDecryptBuf 1 4 = 0 := by
    change netAt (List.replicate decryptBufSize 0) 1 4 = 0
    decide
  unfold dealCmdHelloFirst
  rw [if_neg (by simp [hcontent]), checkSignature_other hhello hcommon]
  by_cases hseq : pkg.m_dwReqSeq = 0
  · simp [NO_ERROR, hzero, hseq]
  · simp [NO_ERROR, hzero, Ne.symm hseq, hseq]

theorem dealCmdHelloFirst_sound_iff :
    (∀ psigInfo, dealCmdHelloFirst inv before tables sock.init pkg = some (.proceeds psigInfo) →
        SignedHello inv before tables pkg) ↔
      (pkg.m_wCmdContentLen = sizeofMonitorHelloFirstContent →
        HelloTypeChecked inv before tables pkg) := by
  by_cases hhello : pkg.bSigType = MT_SIGNATURE_TYPE_HELLO_FIRST
  · constructor
    · intro _ _
      exact Or.inl hhello
    · intro _ psigInfo hproceeds
      exact dealCmdHelloFirst_helloFirst hhello hproceeds
  · by_cases hcommon : pkg.bSigType = MT_SIGNATURE_TYPE_COMMON
    · constructor
      · intro _ _
        exact Or.inr (Or.inl hcommon)
      · intro _ psigInfo hproceeds
        exact absurd hproceeds (dealCmdHelloFirst_common hcommon)
    · constructor
      · intro hsound hcontent
        by_cases hseq : pkg.m_dwReqSeq = 0
        · obtain ⟨psigInfo, hproceeds⟩ := (dealCmdHelloFirst_other hhello hcommon hcontent).mpr hseq
          exact Or.inr (Or.inr (Or.inr (hsound psigInfo hproceeds)))
        · exact Or.inr (Or.inr (Or.inl hseq))
      · intro hchecked psigInfo hproceeds
        have hcontent : pkg.m_wCmdContentLen = sizeofMonitorHelloFirstContent := by
          by_contra hne
          rw [dealCmdHelloFirst, if_pos hne] at hproceeds
          cases hproceeds
        have hseq := (dealCmdHelloFirst_other hhello hcommon hcontent).mp ⟨psigInfo, hproceeds⟩
        rcases hchecked hcontent with h | h | h | h
        · exact absurd h hhello
        · exact absurd h hcommon
        · exact absurd hseq h
        · exact h

end Sound

section Claim

variable {μ : Type}

/-- A request for a client with encryption is taken as signed only with its signature exactly when
the signature types are the checked ones, and so is a first hello; whatever the socket has received
before. -/
theorem signed_requests_iff (inv : InvCipher) (before : UInt8) (tables : ClientTables μ)
    (checkPb : List UInt8 → Int × CBasicPacket) (sock : CUdpSock) (buf : List UInt8)
    (pkg : CBasicPacket) :
    checkBasicPacketServer checkPb buf = (NO_ERROR, pkg) → isPacketPb buf = false →
      ((∀ client, namedClient tables pkg = some client → client.bEnableEncryptData ≠ 0 →
          dealCommInfo inv before tables sock.init pkg = some NO_ERROR →
          SignedComm inv before client pkg) ↔
        ∀ client, namedClient tables pkg = some client → client.bEnableEncryptData ≠ 0 →
          CommTypeChecked inv before tables client pkg) ∧
      ((∀ psigInfo, dealCmdHelloFirst inv before tables sock.init pkg = some (.proceeds psigInfo) →
          SignedHello inv before tables pkg) ↔
        (pkg.m_wCmdContentLen = sizeofMonitorHelloFirstContent →
          HelloTypeChecked inv before tables pkg)) := by
  intro _ _
  refine ⟨?_, dealCmdHelloFirst_sound_iff⟩
  constructor
  · intro hsound client hclient henc
    exact (dealCommInfo_sound_iff hclient henc).mp (hsound client hclient henc)
  · intro hchecked client hclient henc
    exact (dealCommInfo_sound_iff hclient henc).mpr (hchecked client hclient henc)

end Claim

/-- A server with one machine, whose client has encryption on. -/
def oneClient : ClientTables Unit where
  szAgentAccessKey := List.replicate 32 65
  getMachineInfo := fun _ => some ()
  isIpMatchMachine := fun _ _ => true
  getMtClientByIndex := fun _ _ => some ⟨1, List.replicate 16 66⟩
  getMtClientByMachine := fun _ => none

/-- A request of client 3 of machine 5 without a signature. -/
def unsignedParts : Parts where
  head := { helloHead with dwCmd := 206 }
  sig := none
  content := []
  body := some ⟨[⟨204, [0, 0, 0, 3, 0, 0, 0, 5] ++ List.replicate 44 0, by decide⟩], by decide⟩

/-- A first hello with sequence 0 and without a signature. -/
def unsignedHello : Parts where
  head := { helloHead with dwCmd := 201, dwSeq := 0 }
  sig := none
  content := List.replicate 180 0
  body := none

def noPb (buf : List UInt8) : Int × CBasicPacket := (ERR_INVALID_PACKET, resetPacketInfo buf)

/-- The packet that the server reads. -/
def received (x : Parts) : CBasicPacket := x.published { x.head with bRetCode := 0 }

/-- There is no block to decrypt in the examples without a signature. -/
def noBlock : InvCipher := fun _ _ _ => Vector.replicate 16 0

theorem received_accepted (x : Parts) (hlen : x.pkgLen ≤ 4096)
    (hsig : x.signature.sSigValue.length ≤ 128) :
    checkBasicPacketServer noPb (x.write { x.head with bRetCode := 0 }) =
      (NO_ERROR, received x) ∧ isPacketPb (x.write { x.head with bRetCode := 0 }) = false := by
  refine ⟨checkBasicPacketServer_request noPb hlen hsig rfl, ?_⟩
  have hfirst : (x.write { x.head with bRetCode := 0 }).getD 0 0 = SPKG := rfl
  rw [isPacketPb, hfirst]
  simp [SPKG, SPKG_PB]

theorem not_signedBy_empty {len : AesKeyLen} {key : List UInt8} {size p : Nat}
    {pkg : CBasicPacket} (hnil : pkg.sSigValue = []) (hsize : 0 < size) (hlt : size < 2 ^ 63) :
    ¬ SignedBy noBlock 0 len key size p pkg := by
  rintro ⟨out, hout, -⟩
  have hle := le_length_of_aesDecipherData hout hlt
  rw [hnil] at hout
  obtain ⟨rfl, -⟩ := Prod.mk.inj (Option.some.inj hout)
  simp only [List.length_nil, Nat.zero_div, decipherBlocks] at hle
  omega

theorem signed_requests_iff_unsigned :
    checkBasicPacketServer noPb (unsignedParts.write { unsignedParts.head with bRetCode := 0 }) =
        (NO_ERROR, received unsignedParts) ∧
      ¬ (∀ client, namedClient oneClient (received unsignedParts) = some client →
        client.bEnableEncryptData ≠ 0 →
        CommTypeChecked noBlock 0 oneClient client (received unsignedParts)) ∧
      ((∀ client, namedClient oneClient (received unsignedParts) = some client →
          client.bEnableEncryptData ≠ 0 →
          dealCommInfo noBlock 0 oneClient (CUdpSock.init ⟨[], none⟩) (received unsignedParts) =
            some NO_ERROR → SignedComm noBlock 0 client (received unsignedParts)) ↔
        ∀ client, namedClient oneClient (received unsignedParts) = some client →
          client.bEnableEncryptData ≠ 0 →
          CommTypeChecked noBlock 0 oneClient client (received unsignedParts)) := by
  obtain ⟨haccepted, hpb⟩ := received_accepted unsignedParts (by decide) (by decide)
  refine ⟨haccepted, ?_,
    (signed_requests_iff noBlock 0 oneClient noPb ⟨[], none⟩ _ _ haccepted hpb).1⟩
  intro hchecked
  have hnil : (received unsignedParts).sSigValue = [] := by decide +kernel
  rcases hchecked ⟨1, List.replicate 16 66⟩ (by decide +kernel) (by decide) with h | ⟨h, -⟩ | h
  · revert h
    decide +kernel
  · revert h
    decide +kernel
  · exact not_signedBy_empty hnil (by decide) (by decide) h

/-- Both without a signature: a request for a client with encryption gets through, and a first hello
with sequence 0 goes on. -/
theorem unsigned_requests_pass :
    (checkBasicPacketServer noPb (unsignedParts.write { unsignedParts.head with bRetCode := 0 }) =
        (NO_ERROR, received unsignedParts) ∧
      namedClient oneClient (received unsignedParts) = some ⟨1, List.replicate 16 66⟩ ∧
      dealCommInfo noBlock 0 oneClient (CUdpSock.init ⟨[], none⟩) (received unsignedParts) =
        some NO_ERROR ∧
      ¬ SignedComm noBlock 0 ⟨1, List.replicate 16 66⟩ (received unsignedParts)) ∧
    checkBasicPacketServer noPb (unsignedHello.write { unsignedHello.head with bRetCode := 0 }) =
        (NO_ERROR, received unsignedHello) ∧
      (∃ psigInfo, dealCmdHelloFirst noBlock 0 oneClient (CUdpSock.init ⟨[], none⟩)
        (received unsignedHello) = some (.proceeds psigInfo)) ∧
      ¬ SignedHello noBlock 0 oneClient (received unsignedHello) := by
  obtain ⟨haccepted, -⟩ := received_accepted unsignedParts (by decide) (by decide)
  obtain ⟨hhello, -⟩ := received_accepted unsignedHello (by decide +kernel) (by decide)
  refine ⟨⟨haccepted, by decide +kernel, by decide +kernel,
    not_signedBy_empty (by decide +kernel) (by decide) (by decide)⟩, hhello,
    (dealCmdHelloFirst_other (by decide +kernel) (by decide +kernel) (by decide +kernel)).mpr
      (by decide +kernel),
    not_signedBy_empty (by decide +kernel) (by decide) (by decide)⟩

end XrkMonitor.Packet
