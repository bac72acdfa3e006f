import XrkMonitor.Packet.PbAck

/-!
# Answers to rejected datagrams

`OnRawData` answers a datagram that `CheckBasicPacket` rejects. The head of the answer is copied
from the 68 bytes behind the first one, and behind a shorter datagram the receive buffer keeps what
earlier ones left there. `IsPacketPb` may read the length of a body outside the datagram as well,
and whether an answer is sent then depends on what stands there.

## Implementation notes

The bytes around the datagram and the members of the object are what earlier datagrams left. A read
outside the datagram yields the byte of that place. `m_sCommBuf` and `sTmpBuf` are written before
they are sent, so they are left out, and so are log lines.
-/

namespace XrkMonitor.Packet.ErrorAnswer

open Library

section Memory

/-- The byte at a place, counted from the start of the datagram. -/
def byteAt (buf : List UInt8) (around : Int → UInt8) (p : Int) : UInt8 :=
  if 0 ≤ p ∧ p < buf.length then buf.getD p.toNat 0 else around p

/-- The `n` bytes from a place on. -/
def bytesFrom (buf : List UInt8) (around : Int → UInt8) (p : Int) (n : Nat) : List UInt8 :=
  (List.range n).map fun i : Nat => byteAt buf around (p + i)

/-- `ntohl` of the four bytes at a place. -/
def int32From (buf : List UInt8) (around : Int → UInt8) (p : Int) : Int :=
  toInt32 (ofBytes (bytesFrom buf around p 4))

end Memory

section Answers

/-- `CheckBasicPacket` of the server, for a packet that `IsPacketPb` does not take. -/
def checkBasicPacketBin (buf : List UInt8) : Int × CBasicPacket :=
  if headAccepted buf MAX_UDP_REQ_PACKET_SIZE then
    match checkSections buf (some MAX_SIGNATURE_LEN) with
    | (0, pkg) => if pkg.bRetCode = 0 then (NO_ERROR, pkg) else (pkg.bRetCode, endErrMsg pkg)
    | (iRet, pkg) => (iRet, pkg)
  else (ERR_INVALID_PACKET, resetPacketInfo buf)

/-- The head of a request as `MakePacket` sends it back. -/
def respHead (head : List UInt8) (iRetCode : Int) (wToPkgBody wPkgLen : Nat) : List UInt8 :=
  slice head 0 8 ++ (toBytes 2 wPkgLen ++ (toBytes 2 wToPkgBody ++ (UInt8.ofInt iRetCode ::
    (slice head 13 3 ++ (toBytes 4 MAGIC_RESPONSE_NUM ++ slice head 20 48)))))

/-- The body with the one TLV of an error. -/
def errorBody (iRetCode : Int) : List UInt8 :=
  1 :: (toBytes 2 TLV_ACK_ERROR ++ (toBytes 2 (getErrMsg iRetCode).length ++ getErrMsg iRetCode))

/-- `MakePacket` for an error: an empty signature and no content. -/
def makeErrorPacket (head : List UInt8) (iRetCode : Int) : List UInt8 :=
  let wToPkgBody := 1 + 68 + 3
  let wPkgLen := wToPkgBody + (errorBody iRetCode).length + 1
  SPKG :: (respHead head iRetCode wToPkgBody wPkgLen ++
    ([0, 0, 0] ++ (errorBody iRetCode ++ [EPKG])))

/-- `AckToReq` of a binary packet with an error. `m_pstReqHead` is set to the same place, if it is
not set yet. -/
def ackToReqBin (around : Int → UInt8) (pkg : CBasicPacket) (iRetCode : Int) :
    Option (List UInt8) :=
  if pkg.m_pstReqHead ≠ none ∧ pkg.dwRespMagicNum = MAGIC_RESPONSE_NUM then none
  else some (makeErrorPacket (bytesFrom pkg.m_pReqPkg around 1 68) iRetCode)

/-- What becomes of a datagram: it is accepted, it is rejected with an answer or without one, or the
answer is written behind the end of its buffer. -/
inductive Answer where
  | accepted
  | sent (pkg : Option (List UInt8))
  | overrun

variable {Head : Type}

/-- The answer to a packet of the binary format. -/
def answerBin (around : Int → UInt8) (buf : List UInt8) : Answer :=
  let r := checkBasicPacketBin buf
  if r.1 = NO_ERROR then .accepted else .sent (ackToReqBin around r.2 r.1)

/-- The answer to a packet of the protocol buffer format, where `head` reads the head. -/
def answerPb (C : PbCodec Head) (head : Int → Option (List UInt8)) (st : PbState Head)
    (buf : List UInt8) : Answer :=
  match checkBasicPacketPbRead C false head st buf with
  | none => .overrun
  | some (iRet, st) =>
    if iRet = NO_ERROR then .accepted
    else
      match ackToReqPb C st (Int32.ofInt iRet) with
      | none => .overrun
      | some (sent, _) => .sent sent

/-- `OnRawData` up to its first `return`. -/
def onRawData (C : PbCodec Head) (st : PbState Head) (around : Int → UInt8) (buf : List UInt8) :
    Answer :=
  match isPacketPbRead (fun p => some (int32From buf around p)) { st with m_bIsPbReq := false }
      buf with
  | none => .overrun
  | some (true, st) => answerPb C (fun n => some (bytesFrom buf around 5 n.toNat)) st buf
  | some (false, _) => answerBin around buf

/-- A datagram that is rejected gets the same answer, whatever was received before it. -/
def NoLeak (C : PbCodec Head) (buf : List UInt8) : Prop :=
  ∀ st st' around around', onRawData C st around buf ≠ .accepted →
    onRawData C st around buf = onRawData C st' around' buf

end Answers

section Frames

/-- `m_iPbHeadLen` of a buffer. -/
def headLen (buf : List UInt8) : Int := toInt32 (netAt buf 1 4)

/-- The length of a body that completes the length of the buffer, as its field holds it. -/
def bodyField (len : Nat) (h : Int) : Nat := ((len - 10 - h) % 2 ^ 32).toNat

/-- The four bytes at a place are those of a number, as far as they lie in the buffer. -/
def CanBe (buf : List UInt8) (p : Int) (x : Nat) : Prop :=
  ∀ j : Nat, j < 4 → 0 ≤ p + j → p + j < buf.length →
    buf.getD (p + j).toNat 0 = (toBytes 4 x).getD j 0

/-- The bytes of the datagram do not keep `IsPacketPb` from taking it. -/
def MayBeFrame (buf : List UInt8) : Prop :=
  isPacketPb buf = true ∧ ¬ (buf.length : Int) < toInt32 (headLen buf + 2 + 4) ∧
    CanBe buf (1 + 4 + headLen buf) (bodyField buf.length (headLen buf))

/-- A datagram that may be a frame has the length of its body inside, and any other one has a whole
head. -/
def ReadsItself (buf : List UInt8) : Prop :=
  (MayBeFrame buf → 0 ≤ 1 + 4 + headLen buf ∧ 1 + 4 + headLen buf + 4 ≤ buf.length) ∧
    (¬ MayBeFrame buf → 69 ≤ buf.length)

end Frames

section Memory

variable {buf : List UInt8} {around : Int → UInt8}

@[simp] theorem length_bytesFrom (buf : List UInt8) (around : Int → UInt8) (p : Int) (n : Nat) :
    (bytesFrom buf around p n).length = n := by
  rw [bytesFrom, List.length_map, List.length_range]

theorem getD_bytesFrom {p : Int} {n i : Nat} (hi : i < n) :
    (bytesFrom buf around p n).getD i 0 = byteAt buf around (p + i) := by
  rw [List.getD_eq_getElem?_getD, bytesFrom, List.getElem?_map, List.getElem?_range hi,
    Option.map_some, Option.getD_some]

theorem bytesFrom_inside {p n : Nat} (h : p + n ≤ buf.length) :
    bytesFrom buf around p n = slice buf p n := by
  apply List.ext_getElem
  · rw [length_bytesFrom, length_slice h]
  · intro i hi _
    rw [length_bytesFrom] at hi
    have hplace : ((p : Int) + i).toNat = p + i := by omega
    simp only [bytesFrom, List.getElem_map, List.getElem_range, slice, List.getElem_take,
      List.getElem_drop]
    rw [byteAt, if_pos (by omega), hplace, List.getD_eq_getElem?_getD,
      List.getElem?_eq_getElem (by omega), Option.getD_some]

theorem int32From_head (hlong : 10 < buf.length) : int32From buf around 1 = headLen buf := by
  have hbytes : bytesFrom buf around (1 : Nat) 4 = slice buf 1 4 := bytesFrom_inside (by omega)
  rw [int32From, headLen, netAt, ← hbytes]
  rfl

theorem bytesFrom_eq_iff {p : Int} {x : Nat} : bytesFrom buf around p 4 = toBytes 4 x ↔
    ∀ j : Nat, j < 4 → byteAt buf around (p + j) = (toBytes 4 x).getD j 0 := by
  constructor
  · intro h j hj
    rw [← h, getD_bytesFrom hj]
  · intro h
    apply List.ext_getElem
    · rw [length_bytesFrom, length_toBytes]
    · intro j hj hj'
      rw [length_bytesFrom] at hj
      have hbyte := h j hj
      rw [← getD_bytesFrom hj, List.getD_eq_getElem?_getD, List.getD_eq_getElem?_getD,
        List.getElem?_eq_getElem (by rw [length_bytesFrom]; exact hj),
        List.getElem?_eq_getElem hj', Option.getD_some, Option.getD_some] at hbyte
      exact hbyte

theorem bodyField_lt (len : Nat) (h : Int) : bodyField len h < 2 ^ 32 := by
  unfold bodyField
  omega

theorem sum_eq_iff {h : Int} {n : Nat} (hn : n < 2 ^ 32) (hlen : buf.length < 2 ^ 31) :
    toInt32 (h + toInt32 n + 10) = buf.length ↔ n = bodyField buf.length h := by
  unfold toInt32 bodyField Int.bmod
  dsimp only
  split <;> split <;> omega

theorem ofBytes_eq_iff {bs : List UInt8} {x : Nat} (hbs : bs.length = 4) (hx : x < 2 ^ 32) :
    ofBytes bs = x ↔ bs = toBytes 4 x := by
  constructor
  · intro h
    have hback := toBytes_ofBytes bs
    rw [hbs, h] at hback
    exact hback.symm
  · intro h
    rw [h]
    exact ofBytes_toBytes_of_lt hx

theorem sum_int32From_iff {h p : Int} (hlen : buf.length < 2 ^ 31) :
    toInt32 (h + int32From buf around p + 10) = buf.length ↔
      bytesFrom buf around p 4 = toBytes 4 (bodyField buf.length h) := by
  have hlt := ofBytes_lt (bytesFrom buf around p 4)
  rw [length_bytesFrom] at hlt
  rw [int32From, sum_eq_iff hlt hlen,
    ofBytes_eq_iff (length_bytesFrom buf around p 4) (bodyField_lt buf.length h)]

end Memory

section Runs

variable {Head : Type} {C : PbCodec Head} {st : PbState Head} {buf : List UInt8}
  {around : Int → UInt8}

/-- `IsPacketPb` takes the datagram. -/
def Taken (buf : List UInt8) (around : Int → UInt8) : Prop :=
  isPacketPb buf = true ∧ ¬ (buf.length : Int) < toInt32 (headLen buf + 2 + 4) ∧
    bytesFrom buf around (1 + 4 + headLen buf) 4 =
      toBytes 4 (bodyField buf.length (headLen buf))

theorem long_of_isPacketPb (hmarks : isPacketPb buf = true) : 10 < buf.length := by
  rw [isPacketPb, Bool.and_eq_true, Bool.and_eq_true, decide_eq_true_eq] at hmarks
  exact hmarks.1.1

theorem isPacketPbRead_taken (st : PbState Head) (hlen : buf.length < 2 ^ 31)
    (h : Taken buf around) :
    isPacketPbRead (fun p => some (int32From buf around p)) st buf = some (true, { st with
      m_iPbHeadLen := headLen buf
      m_iPbBodyLen := int32From buf around (1 + 4 + headLen buf)
      m_bIsPbReq := true }) := by
  obtain ⟨hmarks, hgo, hbytes⟩ := h
  have hhead : int32From buf around 1 = headLen buf := int32From_head (long_of_isPacketPb hmarks)
  have hrun : isPacketPbRead (fun p => some (int32From buf around p)) st buf = _ :=
    isPacketPbRead_of_fields st hmarks (congrArg some hhead) hgo rfl
  rw [if_pos ((sum_int32From_iff hlen).mpr hbytes)] at hrun
  exact hrun

theorem isPacketPbRead_not_taken (st : PbState Head) (hlen : buf.length < 2 ^ 31)
    (h : ¬ Taken buf around) :
    ∃ st', isPacketPbRead (fun p => some (int32From buf around p)) st buf = some (false, st') := by
  by_cases hmarks : isPacketPb buf = true
  · have hhead : int32From buf around 1 = headLen buf :=
      int32From_head (long_of_isPacketPb hmarks)
    by_cases hstop : (buf.length : Int) < toInt32 (headLen buf + 2 + 4)
    · exact ⟨_, isPacketPbRead_of_long hmarks (congrArg some hhead) hstop⟩
    · have hrun : isPacketPbRead (fun p => some (int32From buf around p)) st buf = _ :=
        isPacketPbRead_of_fields st hmarks (congrArg some hhead) hstop rfl
      rw [if_neg fun hsum => h ⟨hmarks, hstop, (sum_int32From_iff hlen).mp hsum⟩] at hrun
      exact ⟨_, hrun⟩
  · exact ⟨st, by rw [isPacketPbRead, if_neg hmarks]⟩

theorem Taken.mayBeFrame (h : Taken buf around) : MayBeFrame buf := by
  obtain ⟨hmarks, hgo, hbytes⟩ := h
  refine ⟨hmarks, hgo, ?_⟩
  intro j hj hlow hhigh
  have hbyte := bytesFrom_eq_iff.mp hbytes j hj
  rw [byteAt, if_pos ⟨hlow, hhigh⟩] at hbyte
  exact hbyte

theorem MayBeFrame.taken (h : MayBeFrame buf) (around : Int → UInt8)
    (hin : 0 ≤ 1 + 4 + headLen buf ∧ 1 + 4 + headLen buf + 4 ≤ buf.length) :
    Taken buf around := by
  obtain ⟨hmarks, hgo, hcan⟩ := h
  refine ⟨hmarks, hgo, bytesFrom_eq_iff.mpr ?_⟩
  intro j hj
  rw [byteAt, if_pos (by omega)]
  exact hcan j hj (by omega) (by omega)

theorem onRawData_taken (st : PbState Head) (hlen : buf.length < 2 ^ 31)
    (h : Taken buf around) :
    onRawData C st around buf =
      answerPb C (fun n => some (bytesFrom buf around 5 n.toNat))
        { st with
          m_iPbHeadLen := headLen buf
          m_iPbBodyLen := int32From buf around (1 + 4 + headLen buf)
          m_bIsPbReq := true } buf := by
  rw [onRawData, isPacketPbRead_taken _ hlen h]

theorem onRawData_not_taken (st : PbState Head) (hlen : buf.length < 2 ^ 31)
    (h : ¬ Taken buf around) : onRawData C st around buf = answerBin around buf := by
  obtain ⟨st', hrun⟩ := isPacketPbRead_not_taken { st with m_bIsPbReq := false } hlen h
  rw [onRawData, hrun]

theorem answerBin_of_head (h : headAccepted buf MAX_UDP_REQ_PACKET_SIZE = false) :
    answerBin around buf =
      .sent (some (makeErrorPacket (bytesFrom buf around 1 68) ERR_INVALID_PACKET)) := by
  have hcheck : checkBasicPacketBin buf = (ERR_INVALID_PACKET, resetPacketInfo buf) := by
    rw [checkBasicPacketBin, h]
    rfl
  rw [answerBin, hcheck]
  rfl

theorem headAccepted_of_short (h : buf.length ≤ 70) :
    headAccepted buf MAX_UDP_REQ_PACKET_SIZE = false := by
  rw [headAccepted, decide_eq_false (by omega)]
  rfl

theorem headAccepted_of_marks (hmarks : isPacketPb buf = true) :
    headAccepted buf MAX_UDP_REQ_PACKET_SIZE = false := by
  rw [isPacketPb, Bool.and_eq_true, Bool.and_eq_true, beq_iff_eq] at hmarks
  have hstart : (buf.getD 0 0 == SPKG) = false := by
    rw [hmarks.1.2]
    rfl
  rw [headAccepted, hstart, Bool.and_false, Bool.false_and]

theorem answerPb_ne (head : Int → Option (List UInt8)) (st : PbState Head) (bs : List UInt8) :
    answerPb C head st buf ≠ .sent (some (SPKG :: bs)) := by
  intro hanswer
  unfold answerPb at hanswer
  cases hcheck : checkBasicPacketPbRead C false head st buf with
  | none =>
    rw [hcheck] at hanswer
    cases hanswer
  | some r =>
    rw [hcheck] at hanswer
    dsimp only at hanswer
    split_ifs at hanswer with hok
    cases hack : ackToReqPb C r.2 (Int32.ofInt r.1) with
    | none =>
      rw [hack] at hanswer
      cases hanswer
    | some x =>
      obtain ⟨sent, st'⟩ := x
      rw [hack] at hanswer
      dsimp only at hanswer
      rw [Answer.sent.injEq] at hanswer
      subst hanswer
      obtain ⟨strResp, hwrite⟩ := frame_of_ackToReqPb hack
      cases (List.cons.inj hwrite).1

theorem answerPb_eq {head head' : Int → Option (List UInt8)} {st st' : PbState Head}
    (hheadLen : st.m_iPbHeadLen = st'.m_iPbHeadLen) (hbodyLen : st.m_iPbBodyLen = st'.m_iPbBodyLen)
    (hhead : 0 < st.m_iPbHeadLen → head st.m_iPbHeadLen = head' st.m_iPbHeadLen) :
    answerPb C head st buf = answerPb C head' st' buf := by
  obtain ⟨h, b, req, parsed, pbHead⟩ := st
  obtain ⟨h', b', req', parsed', pbHead'⟩ := st'
  dsimp only at hheadLen hbodyLen hhead
  subst hheadLen hbodyLen
  unfold answerPb checkBasicPacketPbRead
  dsimp only
  simp only [Bool.false_eq_true, false_and, if_false]
  by_cases hmarks : isPacketPb buf = true
  · rw [if_neg (not_not.mpr hmarks), if_neg (not_not.mpr hmarks)]
    by_cases hpos : h ≤ 0
    · rw [if_pos hpos, if_pos hpos]
      dsimp only
      rw [ackToReqPb_unparsed rfl, ackToReqPb_unparsed rfl]
    · rw [if_neg hpos, if_neg hpos, hhead (Int.not_le.mp hpos)]
      cases head' h with
      | none => rfl
      | some bs =>
        rw [Option.bind_some, Option.bind_some]
        cases C.parseFromArray bs with
        | none =>
          dsimp only
          rw [ackToReqPb_unparsed rfl, ackToReqPb_unparsed rfl]
        | some pbHead => rfl
  · rw [if_pos hmarks, if_pos hmarks]
    dsimp only
    rw [ackToReqPb_unparsed rfl, ackToReqPb_unparsed rfl]

/-- The bytes around that complete the length of the body, shifted by a number. -/
def completing (p : Int) (x : Nat) (d : UInt8) (i : Int) : UInt8 :=
  (toBytes 4 x).getD (i - p).toNat 0 + d

theorem CanBe.taken_bytes {p : Int} {x : Nat} (h : CanBe buf p x) :
    bytesFrom buf (completing p x 0) p 4 = toBytes 4 x := by
  refine bytesFrom_eq_iff.mpr ?_
  intro j hj
  have hplace : (p + j - p).toNat = j := by omega
  by_cases hin : 0 ≤ p + j ∧ p + j < buf.length
  · rw [byteAt, if_pos hin]
    exact h j hj hin.1 hin.2
  · rw [byteAt, if_neg hin, completing, hplace, UInt8.add_zero]

theorem broken_bytes {p : Int} {x j : Nat} (hj : j < 4)
    (hout : ¬ (0 ≤ p + j ∧ p + j < buf.length)) :
    bytesFrom buf (completing p x 1) p 4 ≠ toBytes 4 x := by
  intro hbytes
  have hplace : (p + j - p).toNat = j := by omega
  have hbyte := bytesFrom_eq_iff.mp hbytes j hj
  rw [byteAt, if_neg hout, completing, hplace] at hbyte
  have hone : (1 : UInt8) = 0 := by
    rw [← UInt8.add_right_inj ((toBytes 4 x).getD j 0), hbyte, UInt8.add_zero]
  exact absurd hone (by decide)

theorem NoLeak.inside (hlen : buf.length < 2 ^ 31) (hno : NoLeak C buf) (st : PbState Head)
    (hmay : MayBeFrame buf) :
    0 ≤ 1 + 4 + headLen buf ∧ 1 + 4 + headLen buf + 4 ≤ buf.length := by
  by_contra hout
  obtain ⟨j, hj, hj'⟩ : ∃ j : Nat, j < 4 ∧
      ¬ (0 ≤ 1 + 4 + headLen buf + j ∧ 1 + 4 + headLen buf + j < buf.length) := by
    by_cases hlow : 0 ≤ 1 + 4 + headLen buf
    · exact ⟨3, by decide, by omega⟩
    · exact ⟨0, by decide, by omega⟩
  obtain ⟨hmarks, hgo, hcan⟩ := hmay
  have htaken : Taken buf (completing (1 + 4 + headLen buf)
      (bodyField buf.length (headLen buf)) 0) := ⟨hmarks, hgo, hcan.taken_bytes⟩
  have hbroken : ¬ Taken buf (completing (1 + 4 + headLen buf)
      (bodyField buf.length (headLen buf)) 1) := fun h => broken_bytes hj hj' h.2.2
  have hbin := onRawData_not_taken (C := C) st hlen hbroken
  rw [answerBin_of_head (headAccepted_of_marks hmarks)] at hbin
  have hrej : onRawData C st (completing (1 + 4 + headLen buf)
      (bodyField buf.length (headLen buf)) 1) buf ≠ .accepted := by
    rw [hbin]
    exact fun h => Answer.noConfusion h
  have hsame := hno st st _ (completing (1 + 4 + headLen buf)
    (bodyField buf.length (headLen buf)) 0) hrej
  rw [hbin, onRawData_taken st hlen htaken] at hsame
  exact answerPb_ne _ _ _ hsame.symm

theorem slice_of_makeErrorPacket {head head' : List UInt8} {iRetCode : Int}
    (hhead : head.length = 68) (hhead' : head'.length = 68)
    (h : makeErrorPacket head iRetCode = makeErrorPacket head' iRetCode) :
    slice head 20 48 = slice head' 20 48 := by
  have h₁ : (slice head 0 8).length = (slice head' 0 8).length := by
    rw [length_slice (by omega), length_slice (by omega)]
  have h₂ : (slice head 13 3).length = (slice head' 13 3).length := by
    rw [length_slice (by omega), length_slice (by omega)]
  have h₃ : (slice head 20 48).length = (slice head' 20 48).length := by
    rw [length_slice (by omega), length_slice (by omega)]
  have hrest := (List.cons.inj h).2
  simp only [respHead, List.append_assoc, List.cons_append] at hrest
  have h₄ := (List.append_inj hrest h₁).2
  have h₅ := (List.append_inj h₄ rfl).2
  have h₆ := (List.append_inj h₅ rfl).2
  have h₇ := (List.append_inj (List.cons.inj h₆).2 h₂).2
  have h₈ := (List.append_inj h₇ rfl).2
  exact (List.append_inj h₈ h₃).1

theorem NoLeak.long (hlen : buf.length < 2 ^ 31) (hno : NoLeak C buf) (st : PbState Head)
    (hmay : ¬ MayBeFrame buf) : 69 ≤ buf.length := by
  by_contra hshort
  have hbin : ∀ around, onRawData C st around buf =
      .sent (some (makeErrorPacket (bytesFrom buf around 1 68) ERR_INVALID_PACKET)) := by
    intro around
    rw [onRawData_not_taken st hlen fun h => hmay h.mayBeFrame,
      answerBin_of_head (headAccepted_of_short (by omega))]
  have hsame := hno st st (fun _ => 0) (fun _ => 1) (by
    rw [hbin]
    exact fun h => Answer.noConfusion h)
  rw [hbin, hbin, Answer.sent.injEq, Option.some.injEq] at hsame
  have hslice := slice_of_makeErrorPacket (length_bytesFrom _ _ _ _) (length_bytesFrom _ _ _ _)
    hsame
  have hbyte : ∀ around : Int → UInt8,
      (slice (bytesFrom buf around 1 68) 20 48).getD 47 0 = around 68 := by
    intro around
    rw [slice, List.getD_eq_getElem?_getD, List.getElem?_take_of_lt (by decide),
      List.getElem?_drop, ← List.getD_eq_getElem?_getD, getD_bytesFrom (by decide), byteAt,
      if_neg (by omega)]
    rfl
  have hzero := hbyte fun _ => 0
  rw [hslice, hbyte] at hzero
  exact absurd hzero (by decide)

theorem length_m_pReqPkg (buf : List UInt8) :
    (checkBasicPacketBin buf).2.m_pReqPkg.length = buf.length := by
  have hpkg := (checkSections_head buf (some MAX_SIGNATURE_LEN)).2.1
  unfold checkBasicPacketBin
  split_ifs with hhead
  · split
    · rename_i pkg hsections
      rw [hsections] at hpkg
      dsimp only at hpkg
      split_ifs
      · rw [hpkg]
      · unfold endErrMsg
        split
        · rw [List.length_set, hpkg]
        · rw [hpkg]
    · rename_i iRet pkg _ hsections
      rw [hsections] at hpkg
      rw [hpkg]
  · rfl

theorem answerBin_eq (hlong : 69 ≤ buf.length) (around around' : Int → UInt8) :
    answerBin around buf = answerBin around' buf := by
  have hlen := length_m_pReqPkg buf
  have hhead : ∀ around, bytesFrom (checkBasicPacketBin buf).2.m_pReqPkg around 1 68 =
      slice (checkBasicPacketBin buf).2.m_pReqPkg 1 68 :=
    fun around => bytesFrom_inside (p := 1) (by omega)
  unfold answerBin ackToReqBin
  dsimp only
  rw [hhead around, hhead around']

theorem ReadsItself.noLeak (hlen : buf.length < 2 ^ 31) (h : ReadsItself buf) : NoLeak C buf := by
  intro st st' around around' _
  by_cases hmay : MayBeFrame buf
  · have hin := h.1 hmay
    have htaken := hmay.taken around hin
    have htaken' := hmay.taken around' hin
    have hbody : int32From buf around (1 + 4 + headLen buf) =
        int32From buf around' (1 + 4 + headLen buf) := by
      rw [int32From, int32From, htaken.2.2, htaken'.2.2]
    rw [onRawData_taken st hlen htaken, onRawData_taken st' hlen htaken']
    have hhead : ∀ around, 0 < headLen buf → bytesFrom buf around 5 (headLen buf).toNat =
        slice buf 5 (headLen buf).toNat :=
      fun around hpos => bytesFrom_inside (p := 5) (by omega)
    apply answerPb_eq
    · dsimp only
    · dsimp only
      rw [hbody]
    · intro hpos
      dsimp only at hpos ⊢
      rw [hhead around hpos, hhead around' hpos]
  · have hlong := h.2 hmay
    rw [onRawData_not_taken st hlen fun ht => hmay ht.mayBeFrame,
      onRawData_not_taken st' hlen fun ht => hmay ht.mayBeFrame]
    exact answerBin_eq hlong around around'

/-- For a datagram as long as an `int` counts: rejected, it gets the same answer whatever was
received before exactly when it has a whole head or is a frame with the length of its body
inside. -/
theorem error_answer_iff (C : PbCodec Head) (st : PbState Head) (buf : List UInt8)
    (hlen : buf.length < 2 ^ 31) : NoLeak C buf ↔ ReadsItself buf :=
  ⟨fun hno => ⟨hno.inside hlen st, hno.long hlen st⟩, fun h => h.noLeak hlen⟩

/-- A datagram of 69 zeros is answered with them. -/
theorem error_answer_zeros : NoLeak heartCodec (List.replicate 69 0) := by
  refine (error_answer_iff heartCodec heartState (List.replicate 69 0) (by decide)).mpr ⟨?_, ?_⟩
  · intro hmay
    exact absurd hmay.1 (by decide)
  · exact fun _ => by decide

/-- The answer to a datagram of one byte carries bytes from behind it. -/
theorem error_answer_leaks :
    ¬ ∀ (Head : Type) (C : PbCodec Head) (buf : List UInt8), buf.length < 2 ^ 31 →
      NoLeak C buf := by
  intro hall
  have hmay : ¬ MayBeFrame [SPKG] := fun h => absurd h.1 (by decide)
  have hlong := (hall Unit heartCodec [SPKG] (by decide)).long (by decide) heartState hmay
  exact absurd hlong (by decide)

end Runs

end XrkMonitor.Packet.ErrorAnswer
