import XrkMonitor.Packet.Format

/-!
# Round trip of packets

What one side's `MakePacket` writes, the other side's `CheckBasicPacket` accepts
and takes apart into the same command, sequence, signature, content and body. An
error response is the exception: the agent ends its message in place of the last
character.
-/

namespace XrkMonitor.Packet

open Library

section Layout

variable {x : Parts} {head : ReqPkgHead}

theorem length_headBytes (h : ReqPkgHead) : h.bytes.length = 68 := by
  simp [ReqPkgHead.bytes]

theorem length_write (x : Parts) (head : ReqPkgHead) : (x.write head).length = x.pkgLen := by
  simp only [Parts.write, List.length_cons, List.length_append, length_headBytes, List.length_nil,
    Parts.pkgLen, Parts.toPkgBody]
  omega

/-- The head that `MakePacket` completes. -/
def Parts.lengths (x : Parts) (head : ReqPkgHead) : ReqPkgHead :=
  { head with wPkgLen := UInt16.ofNat x.pkgLen, wToPkgBody := UInt16.ofNat x.toPkgBody }

theorem write_eq (x : Parts) (head : ReqPkgHead) :
    x.write head = SPKG :: ((x.lengths head).bytes ++
      (x.sigBytes ++ (x.content ++ (x.bodyBytes ++ [EPKG])))) := rfl

theorem netAt_write (as : List UInt8) {cs : List UInt8} {p k n : Nat}
    (h : (x.lengths head).bytes = as ++ (toBytes k n ++ cs)) (hp : as.length + 1 = p)
    (hn : n < 256 ^ k) : netAt (x.write head) p k = n := by
  have hsplit : x.write head = (SPKG :: as) ++
      (toBytes k n ++ (cs ++ (x.sigBytes ++ (x.content ++ (x.bodyBytes ++ [EPKG]))))) := by
    rw [write_eq, h]
    simp
  exact netAt_of_split hsplit (by simpa using hp) hn

theorem three_le_sigBytes (x : Parts) : 3 ≤ x.sigBytes.length := by
  unfold Parts.sigBytes
  split
  · simp only [TSignature.bytes, List.length_cons, List.length_append, length_toBytes]
    omega
  · simp

theorem one_le_bodyBytes (x : Parts) : 1 ≤ x.bodyBytes.length := by
  unfold Parts.bodyBytes
  split
  · simp [TPkgBody.bytes]
  · simp

theorem pkgLen_lt (hlen : x.pkgLen ≤ 4096) :
    (UInt16.ofNat x.pkgLen).toNat = x.pkgLen ∧
      (UInt16.ofNat x.toPkgBody).toNat = x.toPkgBody := by
  have hle : x.toPkgBody ≤ x.pkgLen := by
    unfold Parts.pkgLen
    omega
  simp only [UInt16.toNat_ofNat']
  exact ⟨Nat.mod_eq_of_lt (by omega), Nat.mod_eq_of_lt (by omega)⟩

theorem netAt_dwCmd (x : Parts) (head : ReqPkgHead) :
    netAt (x.write head) 1 4 = head.dwCmd.toNat :=
  netAt_write [] rfl rfl head.dwCmd.toNat_lt

theorem netAt_dwSeq (x : Parts) (head : ReqPkgHead) :
    netAt (x.write head) 5 4 = head.dwSeq.toNat :=
  netAt_write (toBytes 4 head.dwCmd.toNat) rfl (by simp) head.dwSeq.toNat_lt

theorem netAt_wPkgLen (hlen : x.pkgLen ≤ 4096) (head : ReqPkgHead) :
    netAt (x.write head) 9 2 = x.pkgLen := by
  have h : netAt (x.write head) 9 2 = (UInt16.ofNat x.pkgLen).toNat :=
    netAt_write (toBytes 4 head.dwCmd.toNat ++ toBytes 4 head.dwSeq.toNat)
      (by rw [List.append_assoc]; rfl) (by simp) (UInt16.toNat_lt _)
  rw [h, (pkgLen_lt hlen).1]

theorem netAt_wToPkgBody (hlen : x.pkgLen ≤ 4096) (head : ReqPkgHead) :
    netAt (x.write head) 11 2 = x.toPkgBody := by
  have h : netAt (x.write head) 11 2 = (UInt16.ofNat x.toPkgBody).toNat :=
    netAt_write (toBytes 4 head.dwCmd.toNat ++ (toBytes 4 head.dwSeq.toNat ++
      toBytes 2 (UInt16.ofNat x.pkgLen).toNat))
      (by rw [List.append_assoc, List.append_assoc]; rfl) (by simp) (UInt16.toNat_lt _)
  rw [h, (pkgLen_lt hlen).2]

theorem netAt_bRetCode (x : Parts) (head : ReqPkgHead) :
    netAt (x.write head) 13 1 = head.bRetCode.toNat := by
  have h : (x.lengths head).bytes = (toBytes 4 head.dwCmd.toNat ++ (toBytes 4 head.dwSeq.toNat ++
      (toBytes 2 (UInt16.ofNat x.pkgLen).toNat ++ toBytes 2 (UInt16.ofNat x.toPkgBody).toNat))) ++
      (toBytes 1 head.bRetCode.toNat ++ (x.lengths head).bytes.drop 13) := by
    simp [ReqPkgHead.bytes, Parts.lengths, toBytes]
  exact netAt_write _ h (by simp) head.bRetCode.toNat_lt

theorem write_sig (x : Parts) (head : ReqPkgHead) :
    x.write head = (SPKG :: (x.lengths head).bytes) ++
      (x.sigBytes ++ (x.content ++ (x.bodyBytes ++ [EPKG]))) := rfl

theorem write_content (x : Parts) (head : ReqPkgHead) :
    x.write head = (SPKG :: ((x.lengths head).bytes ++ x.sigBytes)) ++
      (x.content ++ (x.bodyBytes ++ [EPKG])) := by
  rw [write_eq, List.cons_append, List.append_assoc]

theorem write_body (x : Parts) (head : ReqPkgHead) :
    x.write head = (SPKG :: ((x.lengths head).bytes ++ (x.sigBytes ++ x.content))) ++
      (x.bodyBytes ++ [EPKG]) := by
  rw [write_eq, List.cons_append, List.append_assoc, List.append_assoc]

/-- The signature that is written. -/
def Parts.signature (x : Parts) : TSignature := x.sig.getD ⟨0, []⟩

theorem sigBytes_eq (x : Parts) : x.sigBytes = x.signature.bytes := by
  unfold Parts.sigBytes Parts.signature
  cases x.sig with
  | some s => rfl
  | none => rfl

theorem length_sigBytes (x : Parts) : x.sigBytes.length = 3 + x.signature.sSigValue.length := by
  rw [sigBytes_eq]
  simp only [TSignature.bytes, List.length_cons, List.length_append, length_toBytes]
  omega

theorem sig_split (x : Parts) (head : ReqPkgHead) :
    x.write head = (SPKG :: (x.lengths head).bytes) ++ (toBytes 1 x.signature.bSigType.toNat ++
      (toBytes 2 x.signature.sSigValue.length ++ (x.signature.sSigValue ++
        (x.content ++ (x.bodyBytes ++ [EPKG]))))) := by
  rw [write_sig, sigBytes_eq, TSignature.bytes, toBytes_one]
  simp only [List.cons_append, List.append_assoc, List.nil_append]

theorem length_headPart (x : Parts) (head : ReqPkgHead) :
    (SPKG :: (x.lengths head).bytes).length = 69 := by
  rw [List.length_cons, length_headBytes]

theorem netAt_bSigType (x : Parts) (head : ReqPkgHead) :
    netAt (x.write head) 69 1 = x.signature.bSigType.toNat :=
  netAt_of_split (sig_split x head) (length_headPart x head) x.signature.bSigType.toNat_lt

theorem netAt_wSigLen (hlen : x.pkgLen ≤ 4096) (head : ReqPkgHead) :
    netAt (x.write head) 70 2 = x.signature.sSigValue.length := by
  have hsig := length_sigBytes x
  have hle : x.sigBytes.length ≤ x.pkgLen := by
    unfold Parts.pkgLen Parts.toPkgBody
    omega
  have hsplit : x.write head = ((SPKG :: (x.lengths head).bytes) ++
      toBytes 1 x.signature.bSigType.toNat) ++ (toBytes 2 x.signature.sSigValue.length ++
        (x.signature.sSigValue ++ (x.content ++ (x.bodyBytes ++ [EPKG])))) := by
    rw [sig_split, List.append_assoc]
  apply netAt_of_split hsplit
  · rw [List.length_append, length_headPart, length_toBytes]
  · omega

theorem slice_sSigValue (x : Parts) (head : ReqPkgHead) :
    slice (x.write head) 72 x.signature.sSigValue.length = x.signature.sSigValue := by
  have hsplit : x.write head = ((SPKG :: (x.lengths head).bytes) ++
      (toBytes 1 x.signature.bSigType.toNat ++ toBytes 2 x.signature.sSigValue.length)) ++
        (x.signature.sSigValue ++ (x.content ++ (x.bodyBytes ++ [EPKG]))) := by
    rw [sig_split, List.append_assoc, List.append_assoc]
  apply slice_of_split hsplit
  · rw [List.length_append, length_headPart, List.length_append, length_toBytes, length_toBytes]
  · rfl

theorem slice_content (x : Parts) (head : ReqPkgHead) :
    slice (x.write head) (69 + x.sigBytes.length) x.content.length = x.content := by
  apply slice_of_split (write_content x head)
  · simp only [List.length_cons, List.length_append, length_headBytes]
    omega
  · rfl

theorem length_beforeBody (x : Parts) (head : ReqPkgHead) :
    (SPKG :: ((x.lengths head).bytes ++ (x.sigBytes ++ x.content))).length = x.toPkgBody := by
  simp only [List.length_cons, List.length_append, length_headBytes, Parts.toPkgBody]
  omega

theorem slice_body (x : Parts) (head : ReqPkgHead) :
    slice (x.write head) x.toPkgBody x.bodyBytes.length = x.bodyBytes :=
  slice_of_split (write_body x head) (length_beforeBody x head) rfl

theorem headAccepted_write (hlen : x.pkgLen ≤ 4096) (head : ReqPkgHead) :
    headAccepted (x.write head) 4096 = true := by
  have hsig := three_le_sigBytes x
  have hbody := one_le_bodyBytes x
  have hlong : 70 < x.pkgLen := by
    unfold Parts.pkgLen Parts.toPkgBody
    omega
  have hlast : (x.write head).getD (x.pkgLen - 1) 0 = EPKG := by
    rw [write_body, ← List.append_assoc, List.getD_eq_getElem?_getD, List.getElem?_append_right]
    · have hzero : x.pkgLen - 1 - ((SPKG :: ((x.lengths head).bytes ++ (x.sigBytes ++ x.content))) ++
          x.bodyBytes).length = 0 := by
        rw [List.length_append, length_beforeBody, Parts.pkgLen]
        omega
      rw [hzero]
      rfl
    · rw [List.length_append, length_beforeBody, Parts.pkgLen]
      omega
  simp only [headAccepted, length_write, netAt_wPkgLen hlen, hlast, Bool.and_eq_true,
    decide_eq_true_eq, beq_iff_eq, and_true]
  exact ⟨⟨by omega, hlen⟩, rfl⟩

end Layout

section Tlvs

variable {t : TWTlv} {ts : List TWTlv} {rest : List UInt8}

theorem length_tlvBytes (t : TWTlv) : t.bytes.length = t.sValue.length + 4 := by
  simp only [TWTlv.bytes, List.length_append, length_toBytes]
  omega

theorem netAt_wType (t : TWTlv) (rest : List UInt8) :
    netAt (t.bytes ++ rest) 0 2 = t.wType.toNat := by
  have hsplit : t.bytes ++ rest = [] ++
      (toBytes 2 t.wType.toNat ++ (toBytes 2 t.sValue.length ++ (t.sValue ++ rest))) := by
    simp [TWTlv.bytes]
  exact netAt_of_split hsplit rfl t.wType.toNat_lt

theorem netAt_wLen (t : TWTlv) (rest : List UInt8) :
    netAt (t.bytes ++ rest) 2 2 = t.sValue.length := by
  have hsplit : t.bytes ++ rest = toBytes 2 t.wType.toNat ++
      (toBytes 2 t.sValue.length ++ (t.sValue ++ rest)) := by
    simp [TWTlv.bytes]
  exact netAt_of_split hsplit (length_toBytes 2 _) t.length_lt

theorem drop_tlv (t : TWTlv) (rest : List UInt8) :
    (t.bytes ++ rest).drop (t.sValue.length + 4) = rest :=
  drop_of_split rfl (length_tlvBytes t)

theorem checkTlvs_flatMap (ts : List TWTlv) :
    checkTlvs ts.length (ts.flatMap TWTlv.bytes) = true := by
  induction ts with
  | nil => rfl
  | cons t ts ih =>
    have hlen := length_tlvBytes t
    rw [List.flatMap_cons, List.length_cons, checkTlvs, netAt_wLen, drop_tlv, ih]
    simp only [List.length_append, hlen, Bool.and_eq_true, decide_eq_true_eq, and_true]
    omega

theorem checkPkgBody_bodyBytes (x : Parts) : checkPkgBody x.bodyBytes = true := by
  unfold Parts.bodyBytes
  split
  · rename_i b _
    have hnum : (UInt8.ofNat b.stTlv.length).toNat = b.stTlv.length := by
      rw [UInt8.toNat_ofNat']
      exact Nat.mod_eq_of_lt b.length_lt
    rw [TPkgBody.bytes, checkPkgBody, hnum]
    exact checkTlvs_flatMap b.stTlv
  · rfl

/-- The last byte of the value becomes `NUL`. -/
def TWTlv.nulLast (t : TWTlv) : TWTlv where
  wType := t.wType
  sValue := t.sValue.set (t.sValue.length - 1) 0
  length_lt := by simpa using t.length_lt

/-- The message of the first TLV `TLV_ACK_ERROR` is ended in place. -/
def nulErrMsg : List TWTlv → List TWTlv
  | [] => []
  | t :: ts => if t.wType.toNat = TLV_ACK_ERROR then t.nulLast :: ts else t :: nulErrMsg ts

theorem length_nulErrMsg (ts : List TWTlv) : (nulErrMsg ts).length = ts.length := by
  induction ts with
  | nil => rfl
  | cons t ts ih =>
    unfold nulErrMsg
    split
    · rfl
    · rw [List.length_cons, List.length_cons, ih]

theorem findTlv_flatMap (ts : List TWTlv) (p : Nat) :
    (findTlv TLV_ACK_ERROR ts.length p (ts.flatMap TWTlv.bytes) = none ∧ nulErrMsg ts = ts) ∨
      ∃ before t after, ts = before ++ t :: after ∧ nulErrMsg ts = before ++ t.nulLast :: after ∧
        findTlv TLV_ACK_ERROR ts.length p (ts.flatMap TWTlv.bytes) =
          some (p + (before.flatMap TWTlv.bytes).length) := by
  induction ts generalizing p with
  | nil => exact Or.inl ⟨rfl, rfl⟩
  | cons t ts ih =>
    rw [List.flatMap_cons, List.length_cons, findTlv, netAt_wType, netAt_wLen,
      Nat.add_comm 4, drop_tlv]
    unfold nulErrMsg
    by_cases ht : t.wType.toNat = TLV_ACK_ERROR
    · rw [if_pos ht, if_pos ht]
      exact Or.inr ⟨[], t, ts, rfl, rfl, rfl⟩
    · rw [if_neg ht, if_neg ht]
      rcases ih (p + (t.sValue.length + 4)) with ⟨hnone, hsame⟩ | ⟨before, u, after, hts, hnul, hsome⟩
      · exact Or.inl ⟨hnone, by rw [hsame]⟩
      · refine Or.inr ⟨t :: before, u, after, by rw [hts, List.cons_append],
          by rw [hnul, List.cons_append], ?_⟩
        rw [hsome, List.flatMap_cons, List.length_append, length_tlvBytes, Nat.add_assoc]

theorem set_tlvBytes (t : TWTlv) :
    t.bytes.set (4 + t.sValue.length - 1) 0 = t.nulLast.bytes := by
  have hnul : t.nulLast.bytes = toBytes 2 t.wType.toNat ++
      (toBytes 2 t.sValue.length ++ t.sValue.set (t.sValue.length - 1) 0) := by
    simp [TWTlv.bytes, TWTlv.nulLast]
  rw [hnul, TWTlv.bytes]
  cases hv : t.sValue with
  | nil => simp [toBytes]
  | cons b bs =>
    rw [List.set_append_right _ _ (by simp only [length_toBytes, List.length_cons]; omega),
      List.set_append_right _ _ (by simp only [length_toBytes, List.length_cons]; omega)]
    simp only [length_toBytes, List.length_cons]
    congr 3
    omega

end Tlvs

section Check

variable {x : Parts} {head : ReqPkgHead} {buf : List UInt8}

/-- What a check publishes of a packet with the parts `x`. -/
def Parts.published (x : Parts) (head : ReqPkgHead) : CBasicPacket :=
  { publishHead (x.write head) with
    m_pstCmdContent := if x.content = [] then none else some (69 + x.sigBytes.length)
    m_wCmdContentLen := x.content.length
    m_pstBody := some x.toPkgBody
    m_wBodyLen := x.bodyBytes.length }

theorem body_published (x : Parts) (head : ReqPkgHead) : (x.published head).body = x.bodyBytes :=
  slice_body x head

theorem content_published (x : Parts) (head : ReqPkgHead) :
    (x.published head).content = x.content := by
  unfold CBasicPacket.content Parts.published
  by_cases hnil : x.content = []
  · simp [hnil]
  · simp only [if_neg hnil]
    exact slice_content x head

theorem checkSections_write (hlen : x.pkgLen ≤ 4096) {maxSigLen : Option Nat}
    (hmax : ∀ m ∈ maxSigLen, x.signature.sSigValue.length ≤ m) (head : ReqPkgHead) :
    checkSections (x.write head) maxSigLen = (NO_ERROR, x.published head) := by
  have hsig := length_sigBytes x
  have hbody := one_le_bodyBytes x
  have hpkg : x.pkgLen = x.toPkgBody + x.bodyBytes.length + 1 := rfl
  have hto : x.toPkgBody = 1 + 68 + x.sigBytes.length + x.content.length := rfl
  have hwSigLen : (publishHead (x.write head)).wSigLen = x.signature.sSigValue.length :=
    netAt_wSigLen hlen head
  have hwToPkgBody : (publishHead (x.write head)).wToPkgBody = x.toPkgBody :=
    netAt_wToPkgBody hlen head
  have hlimit : ¬ ∃ m ∈ maxSigLen, m < x.signature.sSigValue.length := by
    rintro ⟨m, hm, hlt⟩
    have := hmax m hm
    omega
  have hcontent : (1 + 68 + 3 + x.signature.sSigValue.length < x.toPkgBody) ↔ x.content ≠ [] := by
    rw [← List.length_pos_iff_ne_nil]
    omega
  have hpublished : ({ publishHead (x.write head) with
      m_pstCmdContent := if 1 + 68 + 3 + x.signature.sSigValue.length < x.toPkgBody
        then some (1 + 68 + 3 + x.signature.sSigValue.length) else none
      m_wCmdContentLen := x.toPkgBody - (1 + 68 + 3 + x.signature.sSigValue.length)
      m_pstBody := some x.toPkgBody
      m_wBodyLen := x.pkgLen - x.toPkgBody - 1 } : CBasicPacket) = x.published head := by
    have hplace : 1 + 68 + 3 + x.signature.sSigValue.length = 69 + x.sigBytes.length := by omega
    have hclen : x.toPkgBody - (69 + x.sigBytes.length) = x.content.length := by omega
    have hblen : x.pkgLen - x.toPkgBody - 1 = x.bodyBytes.length := by omega
    rw [hplace] at hcontent ⊢
    rw [hclen, hblen, Parts.published]
    by_cases hnil : x.content = []
    · simp only [hcontent, hnil, ne_eq, not_true_eq_false, if_false, if_true]
    · simp only [hcontent, ne_eq, hnil, not_false_eq_true, if_true, if_false]
  unfold checkSections
  simp only [hwSigLen, hwToPkgBody, length_write]
  rw [if_neg (by simp only [not_or]; exact ⟨by omega, by omega, hlimit⟩), if_neg (by omega),
    hpublished, body_published, checkPkgBody_bodyBytes, if_pos rfl]

theorem retCode_published (x : Parts) (head : ReqPkgHead) :
    (x.published head).bRetCode = head.bRetCode.toNat :=
  netAt_bRetCode x head

/-- The parts of the packet come back, the body as `body`. -/
structure Recovers (x : Parts) (body : List UInt8) (pkg : CBasicPacket) : Prop where
  cmd : pkg.m_dwReqCmd = x.head.dwCmd.toNat
  seq : pkg.m_dwReqSeq = x.head.dwSeq.toNat
  sigType : pkg.bSigType = x.signature.bSigType.toNat
  sigValue : pkg.sSigValue = x.signature.sSigValue
  content : pkg.content = x.content
  body : pkg.body = body

theorem recovers_published (hlen : x.pkgLen ≤ 4096) (hcmd : head.dwCmd = x.head.dwCmd)
    (hseq : head.dwSeq = x.head.dwSeq) : Recovers x x.bodyBytes (x.published head) where
  cmd := by
    rw [← hcmd]
    exact netAt_dwCmd x head
  seq := by
    rw [← hseq]
    exact netAt_dwSeq x head
  sigType := netAt_bSigType x head
  sigValue := by
    have hwSigLen : (x.published head).wSigLen = x.signature.sSigValue.length :=
      netAt_wSigLen hlen head
    rw [CBasicPacket.sSigValue, hwSigLen]
    exact slice_sSigValue x head
  content := content_published x head
  body := body_published x head

theorem checkBasicPacket_request (hlen : x.pkgLen ≤ 4096) (hret : head.bRetCode = 0) :
    checkBasicPacket (x.write head) = (NO_ERROR, x.published head) := by
  have hzero : (x.published head).bRetCode = 0 := by
    rw [retCode_published, hret]
    rfl
  unfold checkBasicPacket
  rw [PKG_BUFF_LENGTH, headAccepted_write hlen, if_pos rfl, checkSections_write hlen (by simp)]
  simp only [NO_ERROR, hzero, if_true]
  rfl

theorem checkBasicPacketServer_request (checkPb : List UInt8 → Int × CBasicPacket)
    (hlen : x.pkgLen ≤ 4096) (hsig : x.signature.sSigValue.length ≤ 128)
    (hret : head.bRetCode = 0) :
    checkBasicPacketServer checkPb (x.write head) = (NO_ERROR, x.published head) := by
  have hzero : (x.published head).bRetCode = 0 := by
    rw [retCode_published, hret]
    rfl
  have hpb : isPacketPb (x.write head) = false := by
    have hfirst : (x.write head).getD 0 0 = SPKG := rfl
    rw [isPacketPb, hfirst]
    simp [SPKG, SPKG_PB]
  unfold checkBasicPacketServer
  rw [hpb, MAX_UDP_REQ_PACKET_SIZE, headAccepted_write hlen, if_pos rfl,
    checkSections_write hlen (by simpa [MAX_SIGNATURE_LEN] using hsig)]
  simp only [NO_ERROR, hzero, if_true]
  rfl

/-- The error message of the body is ended in place. -/
def TPkgBody.endMsg (b : TPkgBody) : TPkgBody where
  stTlv := nulErrMsg b.stTlv
  length_lt := by
    rw [length_nulErrMsg]
    exact b.length_lt

/-- The parts as the agent sees them in an error response. -/
def Parts.endMsg (x : Parts) : Parts := { x with body := x.body.map TPkgBody.endMsg }

theorem endMsg_bytes (b : TPkgBody) :
    (getWTlvByType2 TLV_ACK_ERROR b.bytes = none ∧ b.endMsg.bytes = b.bytes) ∨
      ∃ p, getWTlvByType2 TLV_ACK_ERROR b.bytes = some p ∧
        p + 4 + netAt b.bytes (p + 2) 2 - 1 < b.bytes.length ∧
        b.bytes.set (p + 4 + netAt b.bytes (p + 2) 2 - 1) 0 = b.endMsg.bytes := by
  have hnum : (UInt8.ofNat b.stTlv.length).toNat = b.stTlv.length := by
    rw [UInt8.toNat_ofNat']
    exact Nat.mod_eq_of_lt b.length_lt
  have hend : b.endMsg.bytes =
      UInt8.ofNat b.stTlv.length :: (nulErrMsg b.stTlv).flatMap TWTlv.bytes := by
    rw [TPkgBody.bytes, TPkgBody.endMsg, length_nulErrMsg]
  rw [hend, TPkgBody.bytes, getWTlvByType2, hnum]
  rcases findTlv_flatMap b.stTlv 1 with ⟨hnone, hsame⟩ | ⟨before, t, after, hts, hnul, hsome⟩
  · exact Or.inl ⟨hnone, by rw [hsame]⟩
  · refine Or.inr ⟨_, hsome, ?_⟩
    rw [hnul, hts]
    simp only [List.flatMap_append, List.flatMap_cons]
    generalize hfront : before.flatMap TWTlv.bytes = front
    generalize after.flatMap TWTlv.bytes = rest
    generalize UInt8.ofNat (before ++ t :: after).length = num
    have hlen := length_tlvBytes t
    have hwLen : netAt (num :: (front ++ (t.bytes ++ rest))) (1 + front.length + 2) 2 =
        t.sValue.length := by
      have hsplit : num :: (front ++ (t.bytes ++ rest)) =
          (num :: (front ++ toBytes 2 t.wType.toNat)) ++
            (toBytes 2 t.sValue.length ++ (t.sValue ++ rest)) := by
        simp [TWTlv.bytes]
      apply netAt_of_split hsplit
      · simp only [List.length_cons, List.length_append, length_toBytes]
        omega
      · exact t.length_lt
    rw [hwLen]
    constructor
    · simp only [List.length_cons, List.length_append, hlen]
      omega
    · have hplace : 1 + front.length + 4 + t.sValue.length - 1 =
          (front.length + (4 + t.sValue.length - 1)) + 1 := by omega
      rw [hplace, List.set_cons_succ, List.set_append_right _ _ (by omega), Nat.add_sub_cancel_left,
        List.set_append_left _ _ (by omega), set_tlvBytes]

theorem length_endMsg (b : TPkgBody) : b.endMsg.bytes.length = b.bytes.length := by
  rcases endMsg_bytes b with ⟨-, hsame⟩ | ⟨p, -, -, hset⟩
  · rw [hsame]
  · rw [← hset, List.length_set]

theorem bodyBytes_endMsg (x : Parts) : x.endMsg.bodyBytes.length = x.bodyBytes.length := by
  unfold Parts.endMsg Parts.bodyBytes
  cases x.body with
  | none => rfl
  | some b => exact length_endMsg b

theorem pkgLen_endMsg (x : Parts) : x.endMsg.pkgLen = x.pkgLen := by
  have hto : x.endMsg.toPkgBody = x.toPkgBody := rfl
  rw [Parts.pkgLen, hto, bodyBytes_endMsg]
  rfl

theorem lengths_endMsg (x : Parts) (head : ReqPkgHead) : x.endMsg.lengths head = x.lengths head := by
  rw [Parts.lengths, pkgLen_endMsg]
  rfl

theorem write_endMsg (x : Parts) (head : ReqPkgHead) :
    x.endMsg.write head = (SPKG :: ((x.lengths head).bytes ++ (x.sigBytes ++ x.content))) ++
      (x.endMsg.bodyBytes ++ [EPKG]) := by
  rw [write_body, lengths_endMsg]
  rfl

/-- The agent ends the message of an error response. -/
theorem endErrMsg_published (x : Parts) (head : ReqPkgHead) (ret : Nat) :
    endErrMsg { x.published head with m_bRetCode := ret } =
      { x.endMsg.published head with m_bRetCode := ret } := by
  have hbody : ({ x.published head with m_bRetCode := ret } : CBasicPacket).body = x.bodyBytes :=
    body_published x head
  have hfields : ∀ buf, buf = x.endMsg.write head →
      ({ x.published head with m_pReqPkg := buf, m_bRetCode := ret } : CBasicPacket) =
        { x.endMsg.published head with m_bRetCode := ret } := by
    rintro buf rfl
    have hcmd : netAt (x.write head) 1 4 = netAt (x.endMsg.write head) 1 4 := by
      rw [netAt_dwCmd, netAt_dwCmd]
    have hseq : netAt (x.write head) 5 4 = netAt (x.endMsg.write head) 5 4 := by
      rw [netAt_dwSeq, netAt_dwSeq]
    have hlen := bodyBytes_endMsg x
    simp only [Parts.published, publishHead, hcmd, hseq, hlen]
    rfl
  unfold endErrMsg
  rw [hbody]
  cases hx : x.body with
  | none =>
    have hnil : x.bodyBytes = [0] := by
      rw [Parts.bodyBytes, hx]
    have hsame : x.endMsg = x := by
      rw [Parts.endMsg, hx, Option.map_none, ← hx]
    rw [hnil, hsame]
    rfl
  | some b =>
    have hbytes : x.bodyBytes = b.bytes := by
      rw [Parts.bodyBytes, hx]
    have hend : x.endMsg.bodyBytes = b.endMsg.bytes := by
      rw [Parts.bodyBytes, Parts.endMsg, hx]
      rfl
    rw [hbytes]
    rcases endMsg_bytes b with ⟨hnone, hsame⟩ | ⟨p, hsome, hlt, hset⟩
    · rw [hnone]
      apply hfields (x.write head)
      rw [write_endMsg, hend, hsame, ← hbytes, ← write_body]
    · rw [hsome]
      apply hfields
      have hto := length_beforeBody x head
      change (x.write head).set (x.toPkgBody + p + 4 + netAt b.bytes (p + 2) 2 - 1) 0 = _
      have hplace : x.toPkgBody + p + 4 + netAt b.bytes (p + 2) 2 - 1 =
          x.toPkgBody + (p + 4 + netAt b.bytes (p + 2) 2 - 1) := by omega
      rw [hplace, write_body, hbytes, List.set_append_right _ _ (by omega), hto,
        Nat.add_sub_cancel_left, List.set_append_left _ _ hlt, hset, write_endMsg, hend]

theorem checkBasicPacket_response (hlen : x.pkgLen ≤ 4096) (head : ReqPkgHead) :
    checkBasicPacket (x.write head) = (NO_ERROR,
      { (if head.bRetCode = 0 then x else x.endMsg).published head with
        m_bRetCode := head.bRetCode.toNat }) := by
  have hret := retCode_published x head
  unfold checkBasicPacket
  rw [PKG_BUFF_LENGTH, headAccepted_write hlen, if_pos rfl, checkSections_write hlen (by simp)]
  simp only [NO_ERROR, hret]
  by_cases hzero : head.bRetCode = 0
  · rw [if_pos hzero, if_pos (by rw [hzero]; rfl)]
  · rw [if_neg hzero, if_neg, endErrMsg_published]
    intro hnat
    exact hzero (UInt8.toNat_inj.mp hnat)

theorem Recovers.setRetCode {body : List UInt8} {pkg : CBasicPacket} (h : Recovers x body pkg)
    (ret : Nat) : Recovers x body { pkg with m_bRetCode := ret } :=
  ⟨h.cmd, h.seq, h.sigType, h.sigValue, h.content, h.body⟩

theorem checkBasicPacket_recovers (hlen : x.pkgLen ≤ 4096) (hcmd : head.dwCmd = x.head.dwCmd)
    (hseq : head.dwSeq = x.head.dwSeq) :
    ∃ pkg, checkBasicPacket (x.write head) = (NO_ERROR, pkg) ∧
      Recovers x (if head.bRetCode = 0 then x else x.endMsg).bodyBytes pkg := by
  refine ⟨_, checkBasicPacket_response hlen head, ?_⟩
  by_cases hret : head.bRetCode = 0
  · rw [if_pos hret]
    exact (recovers_published hlen hcmd hseq).setRetCode _
  · rw [if_neg hret]
    have hlen' : x.endMsg.pkgLen ≤ 4096 := by
      rw [pkgLen_endMsg]
      exact hlen
    have hrec : Recovers x.endMsg x.endMsg.bodyBytes (x.endMsg.published head) :=
      recovers_published hlen' hcmd hseq
    exact ⟨hrec.cmd, hrec.seq, hrec.sigType, hrec.sigValue, hrec.content, hrec.body⟩

/-- Both sides take the packets of the other side apart into the parts that were put in: a request
of the agent in both checks, and a response of the server in the agent's check, where the message of
an error response loses its last character. A buffer four bytes longer than the packet is enough for
`MakePacket`. -/
theorem packet_round_trip (checkPb : List UInt8 → Int × CBasicPacket) (x : Parts)
    (hsig : ∀ s ∈ x.sig, s.sSigValue.length ≤ MAX_SIGNATURE_LEN) (hlen : x.pkgLen ≤ PKG_BUFF_LENGTH) :
    (∀ iBufLen buf, makePacket x iBufLen 0 = some buf →
      (∃ pkg, checkBasicPacket buf = (NO_ERROR, pkg) ∧ Recovers x x.bodyBytes pkg) ∧
        ∃ pkg, checkBasicPacketServer checkPb buf = (NO_ERROR, pkg) ∧ Recovers x x.bodyBytes pkg) ∧
      (∀ iBufLen buf iRetCode m_bIsResponse,
        makePacketServer x iBufLen iRetCode m_bIsResponse = some buf →
        ∃ pkg, checkBasicPacket buf = (NO_ERROR, pkg) ∧
          Recovers x (if iRetCode = 0 then x else x.endMsg).bodyBytes pkg) ∧
      ∀ iBufLen iRetCode, x.pkgLen + 4 ≤ iBufLen → (makePacket x iBufLen iRetCode).isSome = true := by
  refine ⟨?_, ?_, ?_⟩
  · intro iBufLen buf hmake
    unfold makePacket at hmake
    split at hmake
    · obtain rfl := Option.some.inj hmake
      have hvalue : x.signature.sSigValue.length ≤ 128 := by
        unfold Parts.signature
        cases hs : x.sig with
        | none => simp
        | some s => exact hsig s hs
      have hrec : Recovers x x.bodyBytes (x.published { x.head with bRetCode := 0 }) :=
        recovers_published hlen rfl rfl
      exact ⟨⟨_, checkBasicPacket_request hlen rfl, hrec⟩,
        ⟨_, checkBasicPacketServer_request checkPb hlen hvalue rfl, hrec⟩⟩
    · cases hmake
  · intro iBufLen buf iRetCode m_bIsResponse hmake
    unfold makePacketServer at hmake
    split at hmake
    · obtain rfl := Option.some.inj hmake
      exact checkBasicPacket_recovers hlen rfl rfl
    · cases hmake
  · intro iBufLen iRetCode hbuf
    have hfits : x.fitsBuf iBufLen := by
      have hsigLen : x.wRespSigLen ≤ x.sigBytes.length := by
        unfold Parts.wRespSigLen Parts.sigBytes
        cases x.sig with
        | none => simp
        | some s => simp
      have hbodyLen : x.wRespBodyLen ≤ x.bodyBytes.length := by
        unfold Parts.wRespBodyLen Parts.bodyBytes
        cases x.body with
        | none => simp
        | some b => simp
      unfold Parts.pkgLen Parts.toPkgBody at hbuf
      unfold Parts.fitsBuf
      omega
    rw [makePacket, if_pos hfits]
    rfl

end Check

/-- The head of a hello with sequence 7. -/
def helloHead : ReqPkgHead where
  dwCmd := 202
  dwSeq := 7
  wPkgLen := 0
  wToPkgBody := 0
  bRetCode := 0
  bResendTimes := 0
  wVersion := 1
  dwRespMagicNum := 0
  sEchoBuf := Vector.replicate 32 0
  qwSessionId := 0
  sReserved := Vector.replicate 8 0

/-- A hello with a signature, a content and one TLV. -/
def helloParts : Parts where
  head := helloHead
  sig := some ⟨101, List.replicate 32 17⟩
  content := [1, 2, 3]
  body := some ⟨[⟨204, [9, 8], by decide⟩], by decide⟩

theorem packet_round_trip_hello :
    (∀ s ∈ helloParts.sig, s.sSigValue.length ≤ MAX_SIGNATURE_LEN) ∧
      helloParts.pkgLen ≤ PKG_BUFF_LENGTH ∧
      ∃ buf, makePacket helloParts 4096 0 = some buf ∧
        ∃ pkg, checkBasicPacketServer (fun buf => (ERR_INVALID_PACKET, resetPacketInfo buf)) buf =
          (NO_ERROR, pkg) ∧ Recovers helloParts helloParts.bodyBytes pkg := by
  have hsig : ∀ s ∈ helloParts.sig, s.sSigValue.length ≤ MAX_SIGNATURE_LEN := by decide
  have hlen : helloParts.pkgLen ≤ PKG_BUFF_LENGTH := by decide
  obtain ⟨hrequest, -, hfits⟩ :=
    packet_round_trip (fun buf => (ERR_INVALID_PACKET, resetPacketInfo buf)) helloParts hsig hlen
  obtain ⟨buf, hbuf⟩ := Option.isSome_iff_exists.mp (hfits 4096 0 (by decide))
  exact ⟨hsig, hlen, buf, hbuf, (hrequest 4096 buf hbuf).2⟩

/-- The error response to a hello, with the message `error invalid packet !`. -/
def errorParts : Parts where
  head := helloHead
  sig := none
  content := []
  body := some ⟨[⟨5, [101, 114, 114, 111, 114, 32, 105, 110, 118, 97, 108, 105, 100, 32, 112, 97, 99,
    107, 101, 116, 32, 33], by decide⟩], by decide⟩

/-- The agent does not get the body back that the server sent. -/
theorem error_message_cut :
    errorParts.pkgLen ≤ PKG_BUFF_LENGTH ∧
      ∃ buf, makePacketServer errorParts 4096 2 true = some buf ∧
        (checkBasicPacket buf).1 = NO_ERROR ∧
        (checkBasicPacket buf).2.body ≠ errorParts.bodyBytes := by
  refine ⟨by decide, _, rfl, by decide +kernel, by decide +kernel⟩

end XrkMonitor.Packet
