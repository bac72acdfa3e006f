import XrkMonitor.Packet.PbFrame

/-!
# Acknowledgements of the protocol buffer format

`AckToReqPb` sends the head of a request back, with the return code, the text for it and the mark of
a response. With a body it compares the size first; without one it writes whatever head it has into
a buffer of 1024 bytes.

## Implementation notes

A write behind the end of a response buffer has no result. The bytes that are written so far stand
for the buffer, since it is filled from its start on and sent up to where it is filled.
`m_bIsResponse` is left out: only the binary format reads it.
-/

namespace XrkMonitor.Packet

open Library

/-- The texts of `GetErrMsg`. -/
def errMsgs : List (Int × String) :=
  [(0, "no error"),
   (1, "error server (bug) !"),
   (2, "error invalid packet !"),
   (3, "error invalid packet length !"),
   (4, "error unknow cmd !"),
   (5, "error check tlv !"),
   (6, "error check signature failed"),
   (8, "error invalid tlv value !"),
   (9, "find tlv failed !"),
   (10, "response size over limit !"),
   (11, "http keep socket not find !"),
   (12, "decrypt failed !"),
   (13, "find session failed !"),
   (14, "invalid cmd content !"),
   (15, "check distribute failed !"),
   (16, "check body md5 failed !"),
   (17, "unknow signature type !"),
   (18, "no user master find !"),
   (19, "decrypt signature failed !"),
   (20, "invalid signature decrypt info !"),
   (21, "check packet crc failed !"),
   (22, "machine have no access right !"),
   (23, "have no response content !"),
   (25, "invalid appid, not find !"),
   (26, "not find report machine !"),
   (27, "dispatch log server invalid !"),
   (28, "dispatch attr server invalid !"),
   (29, "invalid magic, please change !"),
   (30, "log freq over limit !")]

/-- `GetErrMsg`. -/
def getErrMsg (err : Int) : List UInt8 :=
  let text := ((errMsgs.find? fun p => p.1 = err).map Prod.snd).getD "unknow error !"
  text.toList.map fun c => UInt8.ofNat c.toNat

/-- The size of `sBuf` in `AckToReqPb` with a body. -/
def bodyAckSize : Nat := 8192

/-- The size of `sBuf` in `AckToReqPb` without a body. -/
def ackSize : Nat := 1024

/-- Bytes are written behind those that a buffer of `size` bytes has. -/
def put (size : Nat) (sBuf bs : List UInt8) : Option (List UInt8) :=
  if sBuf.length + bs.length ≤ size then some (sBuf ++ bs) else none

/-- A frame is written, one field after another. -/
def writeFrame (size : Nat) (strHead strBody : List UInt8) : Option (List UInt8) :=
  (put size [] [SPKG_PB]).bind fun sBuf =>
    (put size sBuf (toBytes 4 strHead.length)).bind fun sBuf =>
      (put size sBuf strHead).bind fun sBuf =>
        (put size sBuf (toBytes 4 strBody.length)).bind fun sBuf =>
          (put size sBuf strBody).bind fun sBuf => put size sBuf [EPKG_PB]

section Acks

variable {Head : Type}

/-- The head of the response. -/
def ackHead (C : PbCodec Head) (pbHead : Head) (iRetCode : Int32) : Head :=
  let pbHead := C.set_uint32_result pbHead iRetCode.toUInt32
  let pbHead := C.set_uint32_magic_response_num pbHead (UInt32.ofNat MAGIC_RESPONSE_NUM)
  if iRetCode.toInt ≠ NO_ERROR then C.set_str_errmsg pbHead (getErrMsg iRetCode.toInt) else pbHead

/-- `AckToReqPb` with a body: what is sent, if anything is. -/
def ackToReqPbBody (C : PbCodec Head) (st : PbState Head) (strBody : List UInt8)
    (iRetCode : Int32) : Option (Option (List UInt8) × PbState Head) :=
  if ¬ st.m_bParsePbHead then some (none, st)
  else if (C.uint32_magic_response_num st.m_pbHead).toNat = MAGIC_RESPONSE_NUM then some (none, st)
  else
    let st := { st with m_pbHead := ackHead C st.m_pbHead iRetCode }
    match C.appendToString st.m_pbHead with
    | none => some (none, st)
    | some strHead =>
      if bodyAckSize < strHead.length + strBody.length + 10 then some (none, st)
      else (writeFrame bodyAckSize strHead strBody).map fun sBuf => (some sBuf, st)

/-- `AckToReqPb` without a body. -/
def ackToReqPb (C : PbCodec Head) (st : PbState Head) (iRetCode : Int32) :
    Option (Option (List UInt8) × PbState Head) :=
  if ¬ st.m_bParsePbHead then some (none, st)
  else if (C.uint32_magic_response_num st.m_pbHead).toNat = MAGIC_RESPONSE_NUM then some (none, st)
  else
    let st := { st with m_pbHead := ackHead C st.m_pbHead iRetCode }
    match C.appendToString st.m_pbHead with
    | none => some (none, st)
    | some strResp => (writeFrame ackSize strResp []).map fun sBuf => (some sBuf, st)

/-- The protocol buffer library reads back what it wrote, and a head is never empty, since it has
required fields. -/
structure PbCodec.Lawful (C : PbCodec Head) : Prop where
  round_trip : ∀ pbHead bs, C.appendToString pbHead = some bs → C.parseFromArray bs = some pbHead
  nonempty : ∀ pbHead, C.appendToString pbHead ≠ some []

/-- `IsPacketPb` accepts the response, with this head and this body. -/
def ResponseRight (C : PbCodec Head) (pbHead : Head) (strBody resp : List UInt8) : Prop :=
  ∀ st : PbState Head, ∃ st' strHead, isPacketPbRead (int32At resp) st resp = some (true, st') ∧
    bytesIn resp 5 st'.m_iPbHeadLen = some strHead ∧ C.parseFromArray strHead = some pbHead ∧
    bytesIn resp (9 + st'.m_iPbHeadLen.toNat) st'.m_iPbBodyLen = some strBody

/-- `CheckBasicPacket` takes the buffer for a frame and accepts it, where `field` reads the lengths
and `head` the head. -/
def AcceptedPb (C : PbCodec Head) (field : Int → Option Int) (head : Int → Option (List UInt8))
    (bUseSelfBuf : Bool) (buf : List UInt8) (st st' : PbState Head) : Prop :=
  ∃ st₁, isPacketPbRead field st buf = some (true, st₁) ∧
    checkBasicPacketPbRead C bUseSelfBuf head st₁ buf = some (NO_ERROR, st')

/-- Both functions write inside their buffers, and what they send is right. -/
structure AcksFit (C : PbCodec Head) (st : PbState Head) (iRetCode : Int32) : Prop where
  body : ∀ strBody, ∃ sent st', ackToReqPbBody C st strBody iRetCode = some (sent, st') ∧
    ∀ resp, sent = some resp → ResponseRight C (ackHead C st.m_pbHead iRetCode) strBody resp
  plain : ∃ sent st', ackToReqPb C st iRetCode = some (sent, st') ∧
    ∀ resp, sent = some resp → ResponseRight C (ackHead C st.m_pbHead iRetCode) [] resp

end Acks

section Writes

variable {size : Nat} {strHead strBody : List UInt8}

theorem put_of_le {sBuf bs : List UInt8} (h : sBuf.length + bs.length ≤ size) :
    put size sBuf bs = some (sBuf ++ bs) := by
  rw [put, if_pos h]

theorem put_eq_some {sBuf bs cs : List UInt8} (h : put size sBuf bs = some cs) :
    cs = sBuf ++ bs ∧ cs.length ≤ size := by
  unfold put at h
  split_ifs at h with hle
  rw [← Option.some.inj h]
  exact ⟨rfl, by rw [List.length_append]; exact hle⟩

theorem writeFrame_of_le (h : strHead.length + strBody.length + 10 ≤ size) :
    writeFrame size strHead strBody = some (frameBytes strHead strBody) := by
  have hhead := length_toBytes 4 strHead.length
  have hbody := length_toBytes 4 strBody.length
  unfold writeFrame
  rw [put_of_le (by simp only [List.length_nil, List.length_singleton]; omega), Option.bind_some,
    put_of_le (by simp only [List.length_append, List.length_nil, List.length_singleton]; omega),
    Option.bind_some,
    put_of_le (by simp only [List.length_append, List.length_nil, List.length_singleton]; omega),
    Option.bind_some,
    put_of_le (by simp only [List.length_append, List.length_nil, List.length_singleton]; omega),
    Option.bind_some,
    put_of_le (by simp only [List.length_append, List.length_nil, List.length_singleton]; omega),
    Option.bind_some,
    put_of_le (by simp only [List.length_append, List.length_nil, List.length_singleton]; omega)]
  simp only [List.nil_append, List.append_assoc, List.cons_append, frameBytes]

theorem le_of_writeFrame {sBuf : List UInt8} (h : writeFrame size strHead strBody = some sBuf) :
    strHead.length + strBody.length + 10 ≤ size := by
  have hhead := length_toBytes 4 strHead.length
  have hbody := length_toBytes 4 strBody.length
  obtain ⟨b₁, h₁, h⟩ := Option.bind_eq_some_iff.mp h
  obtain ⟨b₂, h₂, h⟩ := Option.bind_eq_some_iff.mp h
  obtain ⟨b₃, h₃, h⟩ := Option.bind_eq_some_iff.mp h
  obtain ⟨b₄, h₄, h⟩ := Option.bind_eq_some_iff.mp h
  obtain ⟨b₅, h₅, h₆⟩ := Option.bind_eq_some_iff.mp h
  obtain ⟨heq, hle⟩ := put_eq_some h₆
  rw [heq, (put_eq_some h₅).1, (put_eq_some h₄).1, (put_eq_some h₃).1, (put_eq_some h₂).1,
    (put_eq_some h₁).1] at hle
  simp only [List.length_append, List.length_nil, List.length_singleton] at hle
  omega

end Writes

section Acks

variable {Head : Type} {C : PbCodec Head} {st : PbState Head} {iRetCode : Int32}
  {st' : PbState Head}

theorem responseRight_frame (hC : C.Lawful) {pbHead : Head} {strHead strBody : List UInt8}
    (happend : C.appendToString pbHead = some strHead)
    (hlen : strHead.length + strBody.length + 10 ≤ bodyAckSize) :
    ResponseRight C pbHead strBody (frameBytes strHead strBody) := by
  intro st
  have hnonempty : strHead ≠ [] := by
    intro hnil
    rw [hnil] at happend
    exact hC.nonempty pbHead happend
  change _ ≤ 8192 at hlen
  have hrun := isPacketPbRead_frame strHead strBody st (Or.inl hnonempty) (by omega)
  obtain ⟨hhead, hbody⟩ := bytesIn_frame strHead strBody
  exact ⟨_, strHead, hrun, hhead, hC.round_trip pbHead strHead happend, hbody⟩

theorem silent {ack : Option (Option (List UInt8) × PbState Head)} {P : List UInt8 → Prop}
    {t : PbState Head} (h : ack = some (none, t)) :
    ∃ sent st', ack = some (sent, st') ∧ ∀ resp, sent = some resp → P resp := by
  refine ⟨none, t, h, ?_⟩
  intro resp hresp
  cases hresp

theorem ackToReqPbBody_fits (hC : C.Lawful) (strBody : List UInt8) :
    ∃ sent st', ackToReqPbBody C st strBody iRetCode = some (sent, st') ∧
      ∀ resp, sent = some resp →
        ResponseRight C (ackHead C st.m_pbHead iRetCode) strBody resp := by
  by_cases hparse : st.m_bParsePbHead = true
  · by_cases hmagic : (C.uint32_magic_response_num st.m_pbHead).toNat = MAGIC_RESPONSE_NUM
    · exact silent (by rw [ackToReqPbBody, if_neg (not_not.mpr hparse), if_pos hmagic])
    · cases happend : C.appendToString (ackHead C st.m_pbHead iRetCode) with
      | none =>
        refine silent (t := { st with m_pbHead := ackHead C st.m_pbHead iRetCode }) ?_
        rw [ackToReqPbBody, if_neg (not_not.mpr hparse), if_neg hmagic]
        dsimp only
        rw [happend]
      | some strHead =>
        by_cases hlen : bodyAckSize < strHead.length + strBody.length + 10
        · refine silent (t := { st with m_pbHead := ackHead C st.m_pbHead iRetCode }) ?_
          rw [ackToReqPbBody, if_neg (not_not.mpr hparse), if_neg hmagic]
          dsimp only
          rw [happend]
          exact if_pos hlen
        · refine ⟨some (frameBytes strHead strBody),
            { st with m_pbHead := ackHead C st.m_pbHead iRetCode }, ?_, ?_⟩
          · rw [ackToReqPbBody, if_neg (not_not.mpr hparse), if_neg hmagic]
            dsimp only
            rw [happend]
            dsimp only
            rw [if_neg hlen, writeFrame_of_le (Nat.not_lt.mp hlen), Option.map_some]
          · intro resp hresp
            rw [← Option.some.inj hresp]
            exact responseRight_frame hC happend (Nat.not_lt.mp hlen)
  · exact silent (by rw [ackToReqPbBody, if_pos hparse])

theorem ackToReqPb_of_append {strResp : List UInt8} (hparse : st.m_bParsePbHead = true)
    (hmagic : (C.uint32_magic_response_num st.m_pbHead).toNat ≠ MAGIC_RESPONSE_NUM)
    (happend : C.appendToString (ackHead C st.m_pbHead iRetCode) = some strResp) :
    ackToReqPb C st iRetCode = (writeFrame ackSize strResp []).map fun sBuf =>
      (some sBuf, { st with m_pbHead := ackHead C st.m_pbHead iRetCode }) := by
  rw [ackToReqPb, if_neg (not_not.mpr hparse), if_neg hmagic]
  dsimp only
  rw [happend]

theorem ackToReqPb_fits (hC : C.Lawful) (hparse : st.m_bParsePbHead = true)
    (hfits : (C.uint32_magic_response_num st.m_pbHead).toNat = MAGIC_RESPONSE_NUM ∨
      ∀ strResp, C.appendToString (ackHead C st.m_pbHead iRetCode) = some strResp →
        strResp.length + 10 ≤ ackSize) :
    ∃ sent st', ackToReqPb C st iRetCode = some (sent, st') ∧
      ∀ resp, sent = some resp → ResponseRight C (ackHead C st.m_pbHead iRetCode) [] resp := by
  by_cases hmagic : (C.uint32_magic_response_num st.m_pbHead).toNat = MAGIC_RESPONSE_NUM
  · exact silent (by rw [ackToReqPb, if_neg (not_not.mpr hparse), if_pos hmagic])
  · cases happend : C.appendToString (ackHead C st.m_pbHead iRetCode) with
    | none =>
      refine silent (t := { st with m_pbHead := ackHead C st.m_pbHead iRetCode }) ?_
      rw [ackToReqPb, if_neg (not_not.mpr hparse), if_neg hmagic]
      dsimp only
      rw [happend]
    | some strResp =>
      have hlen : strResp.length + ([] : List UInt8).length + 10 ≤ ackSize := by
        rcases hfits with hsame | hall
        · exact absurd hsame hmagic
        · exact hall strResp happend
      have hroom : ackSize ≤ bodyAckSize := by decide
      refine ⟨some (frameBytes strResp []),
        { st with m_pbHead := ackHead C st.m_pbHead iRetCode }, ?_, ?_⟩
      · rw [ackToReqPb_of_append hparse hmagic happend, writeFrame_of_le hlen, Option.map_some]
      · intro resp hresp
        rw [← Option.some.inj hresp]
        exact responseRight_frame hC happend (Nat.le_trans hlen hroom)

theorem ackToReqPb_unparsed (hparse : st.m_bParsePbHead = false) :
    ackToReqPb C st iRetCode = some (none, st) := by
  rw [ackToReqPb, hparse]
  rfl

theorem frame_of_ackToReqPb {resp : List UInt8}
    (hack : ackToReqPb C st iRetCode = some (some resp, st')) :
    ∃ strResp, resp = frameBytes strResp [] := by
  unfold ackToReqPb at hack
  dsimp only at hack
  split_ifs at hack with hparse hmagic
  · cases hack
  · cases happend : C.appendToString (ackHead C st.m_pbHead iRetCode) with
    | none =>
      rw [happend] at hack
      cases hack
    | some strResp =>
      rw [happend] at hack
      obtain ⟨sBuf, hwrite, hsent⟩ := Option.map_eq_some_iff.mp hack
      rw [writeFrame_of_le (le_of_writeFrame hwrite), Option.some.injEq] at hwrite
      cases hsent
      exact ⟨strResp, hwrite.symm⟩
  · cases hack

theorem AcksFit.small (hfit : AcksFit C st iRetCode) (hparse : st.m_bParsePbHead = true) :
    (C.uint32_magic_response_num st.m_pbHead).toNat = MAGIC_RESPONSE_NUM ∨
      ∀ strResp, C.appendToString (ackHead C st.m_pbHead iRetCode) = some strResp →
        strResp.length + 10 ≤ ackSize := by
  by_cases hmagic : (C.uint32_magic_response_num st.m_pbHead).toNat = MAGIC_RESPONSE_NUM
  · exact Or.inl hmagic
  · refine Or.inr ?_
    intro strResp happend
    obtain ⟨sent, st', hack, -⟩ := hfit.plain
    rw [ackToReqPb_of_append hparse hmagic happend] at hack
    obtain ⟨sBuf, hwrite, -⟩ := Option.map_eq_some_iff.mp hack
    exact le_of_writeFrame hwrite

theorem AcceptedPb.parsed {field : Int → Option Int} {head : Int → Option (List UInt8)}
    {bUseSelfBuf : Bool} {buf : List UInt8}
    (hacc : AcceptedPb C field head bUseSelfBuf buf st st') : st'.m_bParsePbHead = true := by
  obtain ⟨st₁, -, h⟩ := hacc
  unfold checkBasicPacketPbRead at h
  dsimp only at h
  by_cases hself : bUseSelfBuf = true ∧ MAX_UDP_REQ_PACKET_SIZE < buf.length
  · rw [if_pos hself] at h
    cases (Prod.mk.inj (Option.some.inj h)).1
  · rw [if_neg hself] at h
    by_cases hmarks : ¬ isPacketPb buf = true
    · rw [if_pos hmarks] at h
      cases (Prod.mk.inj (Option.some.inj h)).1
    · rw [if_neg hmarks] at h
      by_cases hlen : st₁.m_iPbHeadLen ≤ 0
      · rw [if_pos hlen] at h
        cases (Prod.mk.inj (Option.some.inj h)).1
      · rw [if_neg hlen] at h
        obtain ⟨bs, -, h⟩ := Option.bind_eq_some_iff.mp h
        cases hparse : C.parseFromArray bs with
        | none =>
          rw [hparse] at h
          cases (Prod.mk.inj (Option.some.inj h)).1
        | some pbHead =>
          rw [hparse] at h
          dsimp only at h
          split_ifs at h
          all_goals rw [← (Prod.mk.inj (Option.some.inj h)).2]

/-- For a request that is accepted, whatever the two lengths and the head were read from: both
functions are right exactly when the request is marked as a response, or the head that goes back
leaves room in 1024 bytes. -/
theorem acks_fit_iff (C : PbCodec Head) (hC : C.Lawful) (field : Int → Option Int)
    (head : Int → Option (List UInt8)) (bUseSelfBuf : Bool) (buf : List UInt8)
    (st st' : PbState Head) (hacc : AcceptedPb C field head bUseSelfBuf buf st st')
    (iRetCode : Int32) :
    AcksFit C st' iRetCode ↔
      (C.uint32_magic_response_num st'.m_pbHead).toNat = MAGIC_RESPONSE_NUM ∨
        ∀ strResp, C.appendToString (ackHead C st'.m_pbHead iRetCode) = some strResp →
          strResp.length + 10 ≤ ackSize := by
  have hparse := hacc.parsed
  constructor
  · exact fun hfit => hfit.small hparse
  · exact fun hsmall => ⟨ackToReqPbBody_fits hC, ackToReqPb_fits hC hparse hsmall⟩

theorem acceptedPb_frame (pbHead : Head) (strHead : List UInt8) (hnonempty : strHead ≠ [])
    (hlen : strHead.length + 10 < 2 ^ 31) (hparse : C.parseFromArray strHead = some pbHead)
    (hresult : C.uint32_result pbHead = 0) (st : PbState Head) :
    AcceptedPb C (int32At (frameBytes strHead [])) (bytesIn (frameBytes strHead []) 5) false
      (frameBytes strHead []) st
      { m_iPbHeadLen := strHead.length, m_iPbBodyLen := 0, m_bIsPbReq := true,
        m_bParsePbHead := true, m_pbHead := pbHead } := by
  have hsize : (strHead.length + ([] : List UInt8).length + 10 : Int) < 2 ^ 31 := by
    rw [List.length_nil]
    omega
  exact ⟨_, isPacketPbRead_frame strHead [] st (Or.inl hnonempty) hsize,
    checkBasicPacketPbRead_frame [] hnonempty hsize hparse hresult rfl rfl⟩

end Acks

section Samples

/-- Fields of `PkgHead`. -/
structure PkgHead where
  en_cmd : UInt32
  uint32_seq : UInt32
  uint32_result : Option UInt32
  str_errmsg : Option (List UInt8)
  echo_buf : Option (List UInt8)
  uint32_magic_response_num : Option UInt32
  deriving DecidableEq

/-- The library, as far as a table of heads with their bytes goes. -/
def tableCodec (table : List (PkgHead × List UInt8)) : PbCodec PkgHead where
  parseFromArray := fun bs => (table.find? fun p => p.2 = bs).map Prod.fst
  appendToString := fun h => (table.find? fun p => p.1 = h).map Prod.snd
  uint32_result := fun h => h.uint32_result.getD 0
  uint32_magic_response_num := fun h => h.uint32_magic_response_num.getD 0
  set_uint32_result := fun h x => { h with uint32_result := some x }
  set_uint32_magic_response_num := fun h x => { h with uint32_magic_response_num := some x }
  set_str_errmsg := fun h bs => { h with str_errmsg := some bs }

theorem lawful_tableCodec {table : List (PkgHead × List UInt8)}
    (hback : ∀ p ∈ table, (table.find? fun q => q.2 = p.2).map Prod.fst = some p.1)
    (hnonempty : ∀ p ∈ table, p.2 ≠ []) : (tableCodec table).Lawful := by
  have hentry : ∀ {h bs}, (tableCodec table).appendToString h = some bs → (h, bs) ∈ table := by
    intro h bs happend
    obtain ⟨p, hfind, hbytes⟩ := Option.map_eq_some_iff.mp happend
    have hdec := List.find?_some hfind
    have hhead : p.1 = h := of_decide_eq_true hdec
    rw [← hhead, ← hbytes]
    exact List.mem_of_find?_eq_some hfind
  constructor
  · exact fun h bs happend => hback (h, bs) (hentry happend)
  · exact fun h happend => hnonempty (h, []) (hentry happend) rfl

/-- The head of a `CMD_SLOG_CLIENT_HEART` with sequence 7, maybe with bytes to echo. -/
def heartRequest (echo_buf : Option (List UInt8)) : PkgHead :=
  ⟨504, 7, none, none, echo_buf, none⟩

/-- The same, sent back. -/
def heartAck (echo_buf : Option (List UInt8)) : PkgHead :=
  ⟨504, 7, some 0, none, echo_buf, some 1117250⟩

/-- The field of 1100 bytes to echo. -/
def echoField : List UInt8 := [42, 204, 8] ++ List.replicate 1100 0

/-- The heads of two exchanges. -/
def heartTable : List (PkgHead × List UInt8) :=
  [(heartRequest none, heartHead),
   (heartAck none, heartHead ++ [24, 0] ++ [48, 194, 152, 68]),
   (heartRequest (some (List.replicate 1100 0)), heartHead ++ echoField),
   (heartAck (some (List.replicate 1100 0)),
     heartHead ++ [24, 0] ++ echoField ++ [48, 194, 152, 68])]

theorem lawful_heartTable : (tableCodec heartTable).Lawful := by
  apply lawful_tableCodec
  · decide +kernel
  · decide +kernel

/-- The members before the first packet. -/
def firstState : PbState PkgHead := ⟨0, 0, false, false, heartRequest none⟩

theorem acks_fit_heart :
    AcksFit (tableCodec heartTable) ⟨5, 0, true, true, heartRequest none⟩ 0 := by
  have hacc : AcceptedPb (tableCodec heartTable) (int32At (frameBytes heartHead []))
      (bytesIn (frameBytes heartHead []) 5) false (frameBytes heartHead []) firstState
      ⟨5, 0, true, true, heartRequest none⟩ :=
    acceptedPb_frame _ _ (by decide) (by decide) (by decide +kernel) (by decide) firstState
  refine (acks_fit_iff (tableCodec heartTable) lawful_heartTable _ _ false _ firstState _ hacc
    0).mpr (Or.inr ?_)
  intro strResp happend
  have hbytes : (tableCodec heartTable).appendToString
      (ackHead (tableCodec heartTable) (heartRequest none) 0) =
        some (heartHead ++ [24, 0] ++ [48, 194, 152, 68]) := by decide +kernel
  rw [hbytes] at happend
  rw [← Option.some.inj happend]
  decide

/-- A head that echoes 1100 bytes is written behind the end of the buffer of 1024 bytes. -/
theorem ack_echo_overflows :
    ¬ ∀ (Head : Type) (C : PbCodec Head), C.Lawful →
      ∀ (field : Int → Option Int) (head : Int → Option (List UInt8)) (bUseSelfBuf : Bool)
        (buf : List UInt8) (st st' : PbState Head),
        AcceptedPb C field head bUseSelfBuf buf st st' → ∀ iRetCode, AcksFit C st' iRetCode := by
  intro hall
  have hacc := acceptedPb_frame (C := tableCodec heartTable)
    (heartRequest (some (List.replicate 1100 0))) (heartHead ++ echoField) (by decide)
    (by decide +kernel) (by decide +kernel) (by decide) firstState
  have hfit := hall PkgHead (tableCodec heartTable) lawful_heartTable _ _ _ _ _ _ hacc 0
  have hbytes : (tableCodec heartTable).appendToString
      (ackHead (tableCodec heartTable) (heartRequest (some (List.replicate 1100 0))) 0) =
        some (heartHead ++ [24, 0] ++ echoField ++ [48, 194, 152, 68]) := by decide +kernel
  rcases hfit.small rfl with hmagic | hsmall
  · exact absurd hmagic (by decide)
  · exact absurd (hsmall _ hbytes) (by decide +kernel)

end Samples

end XrkMonitor.Packet
