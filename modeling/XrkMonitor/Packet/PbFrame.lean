import XrkMonitor.Packet.Format

/-!
# Frames of the protocol buffer format

A frame is `{`, a head and a body, each behind its length in four bytes, and `}`. `IsPacketPb` takes
the two lengths from the buffer before it knows that they are there: it asks for six bytes around
the head where ten are needed, and does not ask whether the head has a negative length.

## Implementation notes

A length is an `int32_t`, and so is a sum of lengths. The field at a place is a parameter, since it
is read with and without a datagram around it; a read outside the datagram has no result. The
protocol buffer library is a parameter too.
-/

namespace XrkMonitor.Packet

open Library

/-- `sizeof(sBuf)` of `SetPacketPb`. -/
def pbBufSize : Nat := 8192

/-- What the server uses of `::comm::PkgHead`: `ParseFromArray`, `AppendToString`, and the fields
that it reads and sets. -/
structure PbCodec (Head : Type) where
  parseFromArray : List UInt8 → Option Head
  appendToString : Head → Option (List UInt8)
  uint32_result : Head → UInt32
  uint32_magic_response_num : Head → UInt32
  set_uint32_result : Head → UInt32 → Head
  set_uint32_magic_response_num : Head → UInt32 → Head
  set_str_errmsg : Head → List UInt8 → Head

/-- The members of `CBasicPacket` for the protocol buffer format. -/
structure PbState (Head : Type) where
  m_iPbHeadLen : Int
  m_iPbBodyLen : Int
  m_bIsPbReq : Bool
  m_bParsePbHead : Bool
  m_pbHead : Head

section Frames

/-- The value of an `int32_t`. -/
def toInt32 (x : Int) : Int := Int.bmod x (2 ^ 32)

/-- `ntohl` of the four bytes at a place, if they lie in the buffer. -/
def int32At (buf : List UInt8) (p : Int) : Option Int :=
  if 0 ≤ p ∧ p + 4 ≤ buf.length then some (toInt32 (netAt buf p.toNat 4)) else none

variable {Head : Type}

/-- `IsPacketPb`, where `field` reads a length. -/
def isPacketPbRead (field : Int → Option Int) (st : PbState Head) (buf : List UInt8) :
    Option (Bool × PbState Head) :=
  if isPacketPb buf then
    (field 1).bind fun iPbHeadLen =>
      if (buf.length : Int) < toInt32 (iPbHeadLen + 2 + 4) then
        some (false, { st with m_iPbHeadLen := 0, m_bIsPbReq := false })
      else (field (1 + 4 + iPbHeadLen)).bind fun iPbBodyLen =>
        if toInt32 (iPbHeadLen + iPbBodyLen + 10) ≠ buf.length then
          some (false, { st with m_iPbHeadLen := 0, m_iPbBodyLen := 0, m_bIsPbReq := false })
        else
          some (true,
            { st with
              m_iPbHeadLen := iPbHeadLen, m_iPbBodyLen := iPbBodyLen, m_bIsPbReq := true })
  else some (false, st)

/-- The bytes at a place, if they lie in the buffer. -/
def bytesIn (buf : List UInt8) (p : Nat) (n : Int) : Option (List UInt8) :=
  if 0 ≤ n ∧ p + n ≤ buf.length then some (slice buf p n.toNat) else none

/-- `CheckBasicPacketPb`, where `head` are the bytes at place 5 that `ParseFromArray` gets. -/
def checkBasicPacketPbRead (C : PbCodec Head) (bUseSelfBuf : Bool)
    (head : Int → Option (List UInt8)) (st : PbState Head) (buf : List UInt8) :
    Option (Int × PbState Head) :=
  let st := { st with m_bIsPbReq := true }
  if bUseSelfBuf ∧ MAX_UDP_REQ_PACKET_SIZE < buf.length then some (ERR_INVALID_PACKET_LEN, st)
  else
    let st := { st with m_bParsePbHead := false }
    if ¬ isPacketPb buf then some (ERR_INVALID_PACKET, st)
    else if st.m_iPbHeadLen ≤ 0 then some (ERR_INVALID_PACKET_LEN, st)
    else (head st.m_iPbHeadLen).bind fun bs =>
      match C.parseFromArray bs with
      | none => some (ERR_INVALID_PACKET_LEN, st)
      | some pbHead =>
        let st := { st with m_bParsePbHead := true, m_pbHead := pbHead }
        let bRetCode := (C.uint32_result pbHead).toUInt8
        if bRetCode ≠ 0 then some (bRetCode.toNat, st)
        else if toInt32 (st.m_iPbHeadLen + st.m_iPbBodyLen + 10) ≠ buf.length then
          some (ERR_INVALID_PACKET_LEN, st)
        else some (NO_ERROR, st)

/-- The bytes of a frame. -/
def frameBytes (strHead strBody : List UInt8) : List UInt8 :=
  SPKG_PB :: (toBytes 4 strHead.length ++ (strHead ++ (toBytes 4 strBody.length ++
    (strBody ++ [EPKG_PB]))))

/-- `SetPacketPb`; a length that is not positive stands for its own buffer. -/
def setPacketPb (strHead strBody : List UInt8) (ibufLen : Int) : Option (List UInt8) :=
  let ibufLen := if ibufLen ≤ 0 then (pbBufSize : Int) else ibufLen
  if ibufLen < toInt32 (strHead.length + strBody.length + 10) then none
  else some (frameBytes strHead strBody)

/-- A frame with lengths that an `int32_t` holds and more than ten bytes. -/
structure IsFrame (buf strHead strBody : List UInt8) : Prop where
  bytes : buf = frameBytes strHead strBody
  head_lt : strHead.length < 2 ^ 31
  body_lt : strBody.length < 2 ^ 31
  long : 10 < buf.length

end Frames

section Lengths

variable {buf strHead strBody : List UInt8} {x : Int}

theorem toInt32_of_mem (h : -2 ^ 31 ≤ x) (h' : x < 2 ^ 31) : toInt32 x = x := by
  apply Int.bmod_eq_of_le
  · omega
  · omega

theorem toInt32_mem (x : Int) : -2 ^ 31 ≤ toInt32 x ∧ toInt32 x < 2 ^ 31 := by
  have hle : -((2 ^ 32 : Nat) / 2 : Int) ≤ Int.bmod x (2 ^ 32) := Int.le_bmod (by decide)
  have hlt : Int.bmod x (2 ^ 32) < ((2 ^ 32 : Nat) + 1) / 2 := Int.bmod_lt (by decide)
  unfold toInt32
  omega

theorem toInt32_eq_length (hlong : 10 < buf.length) (hlen : buf.length < 2 ^ 31)
    (h : -2 ^ 31 ≤ x) (h' : x ≤ 2 ^ 32 + 8) : toInt32 x = buf.length ↔ x = buf.length := by
  unfold toInt32 Int.bmod
  dsimp only
  split <;> omega

theorem length_frameBytes (strHead strBody : List UInt8) :
    (frameBytes strHead strBody).length = strHead.length + strBody.length + 10 := by
  simp only [frameBytes, List.length_cons, List.length_append, length_toBytes, List.length_nil]
  omega

theorem int32At_frame (strHead strBody : List UInt8) (hhead : strHead.length < 2 ^ 31)
    (hbody : strBody.length < 2 ^ 31) :
    int32At (frameBytes strHead strBody) 1 = some (strHead.length : Int) ∧
      int32At (frameBytes strHead strBody) (1 + 4 + strHead.length) =
        some (strBody.length : Int) := by
  have hlen := length_frameBytes strHead strBody
  have hsplit : frameBytes strHead strBody = (SPKG_PB :: (toBytes 4 strHead.length ++ strHead)) ++
      (toBytes 4 strBody.length ++ (strBody ++ [EPKG_PB])) := by
    rw [frameBytes, List.cons_append, List.append_assoc]
  constructor
  · have hmark : frameBytes strHead strBody = [SPKG_PB] ++ (toBytes 4 strHead.length ++
        (strHead ++ (toBytes 4 strBody.length ++ (strBody ++ [EPKG_PB])))) := rfl
    have hfield : netAt (frameBytes strHead strBody) 1 4 = strHead.length :=
      netAt_of_split hmark rfl (by omega)
    rw [int32At, if_pos (by omega)]
    change some (toInt32 (netAt (frameBytes strHead strBody) 1 4 : Nat)) = _
    rw [hfield, toInt32_of_mem (by omega) (by omega)]
  · have hplace : ((1 : Int) + 4 + strHead.length).toNat = 5 + strHead.length := by omega
    have hfield : netAt (frameBytes strHead strBody) (5 + strHead.length) 4 = strBody.length := by
      refine netAt_of_split hsplit ?_ (by omega)
      simp only [List.length_cons, List.length_append, length_toBytes]
      omega
    rw [int32At, if_pos (by omega), hplace, hfield, toInt32_of_mem (by omega) (by omega)]

theorem slice_frame (strHead strBody : List UInt8) :
    slice (frameBytes strHead strBody) 5 strHead.length = strHead ∧
      slice (frameBytes strHead strBody) (9 + strHead.length) strBody.length = strBody := by
  have hhead : frameBytes strHead strBody = (SPKG_PB :: toBytes 4 strHead.length) ++
      (strHead ++ (toBytes 4 strBody.length ++ (strBody ++ [EPKG_PB]))) := rfl
  have hbody : frameBytes strHead strBody =
      (SPKG_PB :: (toBytes 4 strHead.length ++ (strHead ++ toBytes 4 strBody.length))) ++
        (strBody ++ [EPKG_PB]) := by
    simp only [frameBytes, List.cons_append, List.append_assoc]
  constructor
  · exact slice_of_split hhead (by rw [List.length_cons, length_toBytes]) rfl
  · refine slice_of_split hbody ?_ rfl
    simp only [List.length_cons, List.length_append, length_toBytes]
    omega

theorem isPacketPb_frame (hlong : 10 < (frameBytes strHead strBody).length) :
    isPacketPb (frameBytes strHead strBody) = true := by
  have hlast : frameBytes strHead strBody = (SPKG_PB :: (toBytes 4 strHead.length ++
      (strHead ++ (toBytes 4 strBody.length ++ strBody)))) ++ [EPKG_PB] := by
    simp only [frameBytes, List.cons_append, List.append_assoc]
  have hend : (frameBytes strHead strBody).getD
      ((frameBytes strHead strBody).length - 1) 0 = EPKG_PB := by
    rw [hlast, List.getD_eq_getElem?_getD, List.length_append, List.length_singleton,
      Nat.add_sub_cancel, List.getElem?_concat_length, Option.getD_some]
  rw [isPacketPb, hend, decide_eq_true hlong]
  rfl

theorem netAt_of_int32At {p n : Nat} (h : int32At buf p = some (n : Int)) :
    p + 4 ≤ buf.length ∧ netAt buf p 4 = n := by
  unfold int32At at h
  split_ifs at h with hin
  have hvalue := Option.some.inj h
  rw [Int.toNat_natCast] at hvalue
  have hfits : p + 4 ≤ buf.length := by omega
  have hlt : netAt buf p 4 < 2 ^ 32 := netAt_lt hfits
  refine ⟨hfits, ?_⟩
  unfold toInt32 Int.bmod at hvalue
  dsimp only at hvalue
  split at hvalue <;> omega

theorem slice_mark {p : Nat} {b : UInt8} (hp : p < buf.length) (h : buf.getD p 0 = b) :
    slice buf p 1 = [b] := by
  rw [List.getD_eq_getElem?_getD, List.getElem?_eq_getElem hp, Option.getD_some] at h
  rw [slice, List.drop_eq_getElem_cons hp, h]
  rfl

theorem frame_of_lengths {h b : Nat} (hmarks : isPacketPb buf = true)
    (hfield : int32At buf 1 = some (h : Int)) (hfield' : int32At buf (1 + 4 + h) = some (b : Int))
    (hsum : h + b + 10 = buf.length) (hlen : buf.length < 2 ^ 31) :
    IsFrame buf (slice buf 5 h) (slice buf (9 + h) b) := by
  rw [isPacketPb, Bool.and_eq_true, Bool.and_eq_true, decide_eq_true_eq, beq_iff_eq,
    beq_iff_eq] at hmarks
  obtain ⟨⟨hlong, hstart⟩, hend⟩ := hmarks
  have hplace : ((1 : Int) + 4 + h) = ((5 + h : Nat) : Int) := by omega
  rw [hplace] at hfield'
  obtain ⟨-, hhead⟩ := netAt_of_int32At (p := 1) hfield
  obtain ⟨-, hbody⟩ := netAt_of_int32At hfield'
  have hheadLen : (slice buf 5 h).length = h := length_slice (by omega)
  have hbodyLen : (slice buf (9 + h) b).length = b := length_slice (by omega)
  have hlast : buf.length - 1 = 9 + h + b := by omega
  rw [hlast] at hend
  have hrest : buf.drop (9 + h + b + 1) = [] := List.drop_eq_nil_of_le (by omega)
  have hbytes : buf = slice buf 0 1 ++ (slice buf 1 4 ++ (slice buf 5 h ++
      (slice buf (5 + h) 4 ++ (slice buf (9 + h) b ++ slice buf (9 + h + b) 1)))) := by
    have h₀ := drop_eq_slice buf 0 1
    have h₁ := drop_eq_slice buf 1 4
    have h₂ := drop_eq_slice buf 5 h
    have h₃ := drop_eq_slice buf (5 + h) 4
    have h₄ := drop_eq_slice buf (9 + h) b
    have h₅ := drop_eq_slice buf (9 + h + b) 1
    have hnine : 5 + h + 4 = 9 + h := by omega
    rw [hrest, List.append_nil] at h₅
    rw [h₅] at h₄
    rw [hnine, h₄] at h₃
    rw [h₃] at h₂
    rw [h₂] at h₁
    rw [h₁, List.drop_zero] at h₀
    exact h₀
  refine ⟨?_, by rw [hheadLen]; omega, by rw [hbodyLen]; omega, hlong⟩
  rw [frameBytes, hheadLen, hbodyLen]
  rw [slice_mark (by omega) hstart, slice_mark (by omega) hend, ← toBytes_netAt (by omega), hhead,
    ← toBytes_netAt (p := 5 + h) (by omega), hbody] at hbytes
  exact hbytes

end Lengths

section Frames

variable {Head : Type} {C : PbCodec Head} {st : PbState Head} {buf : List UInt8}
  {strHead strBody : List UInt8} {field : Int → Option Int}

/-- The length of the head is refused before the length of the body is read, or that length lies in
the buffer; a negative length of the head must not complete the length of the buffer. -/
def HeadLenOk (buf : List UInt8) : Prop :=
  isPacketPb buf = true → ∀ h, int32At buf 1 = some h →
    ((buf.length : Int) < h + 6 ∧ h + 6 < 2 ^ 31) ∨ (0 ≤ h ∧ h + 9 ≤ buf.length) ∨
      (-5 ≤ h ∧ h < 0 ∧ ∀ b, int32At buf (1 + 4 + h) = some b → h + b + 10 ≠ buf.length)

/-- `IsPacketPb` reads inside the buffer and accepts exactly the frames, with their two lengths, and
`CheckBasicPacketPb` reads inside a frame that was accepted. -/
structure FramesRight (C : PbCodec Head) (st : PbState Head) (buf : List UInt8) : Prop where
  accepts : ∃ ret st', isPacketPbRead (int32At buf) st buf = some (ret, st') ∧
    (ret = true ↔ ∃ strHead strBody, IsFrame buf strHead strBody) ∧
    ∀ strHead strBody, IsFrame buf strHead strBody →
      st'.m_iPbHeadLen = strHead.length ∧ st'.m_iPbBodyLen = strBody.length ∧ st'.m_bIsPbReq = true
  checks : ∀ st', isPacketPbRead (int32At buf) st buf = some (true, st') →
    ∀ bUseSelfBuf, ∃ r, checkBasicPacketPbRead C bUseSelfBuf (bytesIn buf 5) st' buf = some r

theorem isPacketPb_of_isFrame (h : IsFrame buf strHead strBody) :
    isPacketPb buf = true := by
  have hlong := h.long
  rw [h.bytes] at hlong ⊢
  exact isPacketPb_frame hlong

theorem IsFrame.fields (h : IsFrame buf strHead strBody) :
    int32At buf 1 = some (strHead.length : Int) ∧
      int32At buf (1 + 4 + strHead.length) = some (strBody.length : Int) ∧
      strHead.length + strBody.length + 10 = buf.length := by
  have hfields := int32At_frame strHead strBody h.head_lt h.body_lt
  have hsum := length_frameBytes strHead strBody
  rw [← h.bytes] at hfields hsum
  exact ⟨hfields.1, hfields.2, hsum.symm⟩

theorem isPacketPbRead_of_fields {h b : Int} (st : PbState Head)
    (hmarks : isPacketPb buf = true) (hfield : field 1 = some h)
    (hgo : ¬ (buf.length : Int) < toInt32 (h + 2 + 4)) (hfield' : field (1 + 4 + h) = some b) :
    isPacketPbRead field st buf =
      if toInt32 (h + b + 10) = buf.length then
        some (true, { st with m_iPbHeadLen := h, m_iPbBodyLen := b, m_bIsPbReq := true })
      else some (false, { st with m_iPbHeadLen := 0, m_iPbBodyLen := 0, m_bIsPbReq := false }) := by
  rw [isPacketPbRead, if_pos hmarks, hfield, Option.bind_some, if_neg hgo, hfield',
    Option.bind_some, ite_not]

theorem isPacketPbRead_of_long {h : Int}
    (hmarks : isPacketPb buf = true) (hfield : field 1 = some h)
    (hstop : (buf.length : Int) < toInt32 (h + 2 + 4)) :
    isPacketPbRead field st buf =
      some (false, { st with m_iPbHeadLen := 0, m_bIsPbReq := false }) := by
  rw [isPacketPbRead, if_pos hmarks, hfield, Option.bind_some, if_pos hstop]

theorem int32At_mem {p x : Int} (h : int32At buf p = some x) :
    (0 ≤ p ∧ p + 4 ≤ buf.length) ∧ -2 ^ 31 ≤ x ∧ x < 2 ^ 31 := by
  unfold int32At at h
  split_ifs at h with hin
  rw [← Option.some.inj h]
  exact ⟨hin, toInt32_mem _⟩

theorem refused_iff {h : Int} (hlo : -2 ^ 31 ≤ h) (hhi : h < 2 ^ 31) :
    (buf.length : Int) < toInt32 (h + 2 + 4) ↔ (buf.length : Int) < h + 6 ∧ h + 6 < 2 ^ 31 := by
  unfold toInt32 Int.bmod
  dsimp only
  split <;> omega

theorem int32At_last {p : Nat} (hmarks : isPacketPb buf = true) (hp : p + 4 = buf.length) :
    int32At buf p ≠ some (-1) := by
  intro hminus
  rw [isPacketPb, Bool.and_eq_true, Bool.and_eq_true, beq_iff_eq, beq_iff_eq] at hmarks
  have hlast : buf.length - 1 = p + 3 := by omega
  have hend := hmarks.2
  rw [hlast] at hend
  have hsplit : slice buf p 4 = slice buf p 3 ++ [EPKG_PB] := by
    rw [← slice_mark (by omega) hend, slice, slice, slice, List.take_add (i := 3) (j := 1),
      List.drop_drop]
  have hvalue : netAt buf p 4 = netAt buf p 3 * 256 + 125 := by
    rw [netAt, hsplit, ofBytes_concat]
    rfl
  have hlt : netAt buf p 4 < 2 ^ 32 := netAt_lt (by omega)
  unfold int32At at hminus
  split_ifs at hminus with hin
  have hread := Option.some.inj hminus
  rw [Int.toNat_natCast] at hread
  unfold toInt32 Int.bmod at hread
  dsimp only at hread
  split at hread <;> omega

theorem exists_int32At {p : Int} (h : 0 ≤ p ∧ p + 4 ≤ buf.length) :
    ∃ x, int32At buf p = some x := by
  rw [int32At, if_pos h]
  exact ⟨_, rfl⟩

/-- The buffer is refused and no frame, or both lengths are read and complete its length. -/
theorem HeadLenOk.run (hlen : buf.length < 2 ^ 31) (hok : HeadLenOk buf)
    (hmarks : isPacketPb buf = true) (st : PbState Head) :
    (∃ st', isPacketPbRead (int32At buf) st buf = some (false, st') ∧
      ¬ ∃ strHead strBody, IsFrame buf strHead strBody) ∨
    ∃ n m : Nat, int32At buf 1 = some (n : Int) ∧ int32At buf (1 + 4 + n) = some (m : Int) ∧
      n + m + 10 = buf.length ∧ isPacketPbRead (int32At buf) st buf =
        some (true, { st with m_iPbHeadLen := n, m_iPbBodyLen := m, m_bIsPbReq := true }) := by
  have hlong : 10 < buf.length := by
    rw [isPacketPb, Bool.and_eq_true, Bool.and_eq_true, decide_eq_true_eq] at hmarks
    exact hmarks.1.1
  obtain ⟨h, hfield⟩ : ∃ h, int32At buf 1 = some h := exists_int32At (by omega)
  obtain ⟨-, hlo, hhi⟩ := int32At_mem hfield
  have hframe : ∀ {strHead strBody}, IsFrame buf strHead strBody →
      (strHead.length : Int) = h ∧ strHead.length + strBody.length + 10 = buf.length := by
    intro strHead strBody hframe
    obtain ⟨hhead, -, hsum⟩ := hframe.fields
    rw [hfield, Option.some.injEq] at hhead
    exact ⟨hhead.symm, hsum⟩
  rcases hok hmarks h hfield with hstop | ⟨hpos, hroom⟩ | ⟨hback, hneg, hno⟩
  · refine Or.inl ⟨_, isPacketPbRead_of_long hmarks hfield ((refused_iff hlo hhi).mpr hstop), ?_⟩
    rintro ⟨strHead, strBody, hf⟩
    obtain ⟨hhead, hsum⟩ := hframe hf
    omega
  · obtain ⟨n, rfl⟩ := Int.eq_ofNat_of_zero_le hpos
    have hgo : ¬ (buf.length : Int) < toInt32 (n + 2 + 4) := fun hstop => by
      have hwide := (refused_iff hlo hhi).mp hstop
      omega
    obtain ⟨b, hfield'⟩ : ∃ b, int32At buf (1 + 4 + n) = some b := exists_int32At (by omega)
    obtain ⟨-, hblo, hbhi⟩ := int32At_mem hfield'
    have hrun := isPacketPbRead_of_fields st hmarks hfield hgo hfield'
    have hwrap := toInt32_eq_length (x := n + b + 10) hlong hlen (by omega) (by omega)
    by_cases hsum : (n : Int) + b + 10 = buf.length
    · have hbody : 0 ≤ b := by
        by_contra hbody
        have hplace : ((1 : Int) + 4 + n) = ((5 + n : Nat) : Int) := by omega
        have hminus : b = -1 := by omega
        rw [hplace, hminus] at hfield'
        exact int32At_last hmarks (by omega) hfield'
      obtain ⟨m, rfl⟩ := Int.eq_ofNat_of_zero_le hbody
      rw [if_pos (hwrap.mpr hsum)] at hrun
      exact Or.inr ⟨n, m, hfield, hfield', by omega, hrun⟩
    · rw [if_neg fun heq => hsum (hwrap.mp heq)] at hrun
      refine Or.inl ⟨_, hrun, ?_⟩
      rintro ⟨strHead, strBody, hf⟩
      obtain ⟨hhead, hlensum⟩ := hframe hf
      have hbody := hf.fields.2.1
      rw [hhead, hfield', Option.some.injEq] at hbody
      omega
  · have hgo : ¬ (buf.length : Int) < toInt32 (h + 2 + 4) := fun hstop => by
      have hwide := (refused_iff hlo hhi).mp hstop
      omega
    obtain ⟨b, hfield'⟩ : ∃ b, int32At buf (1 + 4 + h) = some b := exists_int32At (by omega)
    obtain ⟨-, hblo, hbhi⟩ := int32At_mem hfield'
    have hrun := isPacketPbRead_of_fields st hmarks hfield hgo hfield'
    have hwrap := toInt32_eq_length (x := h + b + 10) hlong hlen (by omega) (by omega)
    rw [if_neg fun heq => hno b hfield' (hwrap.mp heq)] at hrun
    refine Or.inl ⟨_, hrun, ?_⟩
    rintro ⟨strHead, strBody, hf⟩
    obtain ⟨hhead, -⟩ := hframe hf
    omega

theorem checkBasicPacketPbRead_some {n : Nat} (hin : 5 + n ≤ buf.length) (bUseSelfBuf : Bool)
    (hst : st.m_iPbHeadLen = n) :
    ∃ r, checkBasicPacketPbRead C bUseSelfBuf (bytesIn buf 5) st buf = some r := by
  have hread : bytesIn buf 5 n = some (slice buf 5 n) := by
    rw [bytesIn, if_pos (by omega), Int.toNat_natCast]
  unfold checkBasicPacketPbRead
  dsimp only
  rw [hst, hread, Option.bind_some]
  cases C.parseFromArray (slice buf 5 n) with
  | none => split_ifs <;> exact ⟨_, rfl⟩
  | some pbHead =>
    dsimp only
    split_ifs <;> exact ⟨_, rfl⟩

theorem HeadLenOk.right (hlen : buf.length < 2 ^ 31) (hok : HeadLenOk buf) :
    FramesRight C st buf := by
  by_cases hmarks : isPacketPb buf = true
  · rcases hok.run hlen hmarks st with ⟨st', hrun, hno⟩ | ⟨n, m, hfield, hfield', hsum, hrun⟩
    · refine ⟨⟨false, st', hrun, ?_, ?_⟩, ?_⟩
      · exact ⟨fun hret => Bool.noConfusion hret, fun hframe => absurd hframe hno⟩
      · exact fun strHead strBody hframe => absurd ⟨strHead, strBody, hframe⟩ hno
      · intro st'' htrue
        rw [hrun] at htrue
        cases htrue
    · have hframe := frame_of_lengths hmarks hfield hfield' hsum hlen
      refine ⟨⟨true, _, hrun, ⟨fun _ => ⟨_, _, hframe⟩, fun _ => rfl⟩, ?_⟩, ?_⟩
      · intro strHead strBody hf
        obtain ⟨hhead, -, hlensum⟩ := hf.fields
        rw [hfield, Option.some.injEq] at hhead
        exact ⟨hhead, by dsimp only; omega, rfl⟩
      · intro st'' htrue bUseSelfBuf
        rw [hrun, Option.some.injEq, Prod.mk.injEq] at htrue
        exact checkBasicPacketPbRead_some (n := n) (by omega) bUseSelfBuf (by rw [← htrue.2])
  · have hrun : isPacketPbRead (int32At buf) st buf = some (false, st) := by
      rw [isPacketPbRead, if_neg hmarks]
    refine ⟨⟨false, st, hrun, ?_, ?_⟩, ?_⟩
    · constructor
      · exact fun hret => Bool.noConfusion hret
      · rintro ⟨strHead, strBody, hframe⟩
        exact absurd (isPacketPb_of_isFrame hframe) hmarks
    · exact fun strHead strBody hframe => absurd (isPacketPb_of_isFrame hframe) hmarks
    · intro st'' htrue
      rw [hrun] at htrue
      cases htrue

theorem FramesRight.headLenOk (hlen : buf.length < 2 ^ 31) (hright : FramesRight C st buf) :
    HeadLenOk buf := by
  intro hmarks h hfield
  obtain ⟨ret, st', hrun, hret, -⟩ := hright.accepts
  obtain ⟨-, hlo, hhi⟩ := int32At_mem hfield
  by_cases hstop : (buf.length : Int) < toInt32 (h + 2 + 4)
  · exact Or.inl ((refused_iff hlo hhi).mp hstop)
  · cases hbody : int32At buf (1 + 4 + h) with
    | none =>
      rw [isPacketPbRead, if_pos hmarks, hfield, Option.bind_some, if_neg hstop, hbody] at hrun
      cases hrun
    | some b =>
      obtain ⟨hin, -, -⟩ := int32At_mem hbody
      by_cases hneg : 0 ≤ h
      · exact Or.inr (Or.inl ⟨hneg, by omega⟩)
      · refine Or.inr (Or.inr ⟨by omega, by omega, ?_⟩)
        intro b' hb' hsum
        rw [Option.some.injEq] at hb'
        rw [isPacketPbRead_of_fields st hmarks hfield hstop hbody, hb', hsum,
          toInt32_of_mem (by omega) (by omega), if_pos rfl] at hrun
        obtain ⟨strHead, strBody, hframe⟩ :=
          hret.mp (Prod.mk.inj (Option.some.inj hrun)).1.symm
        have hhead := hframe.fields.1
        rw [hfield, Option.some.injEq] at hhead
        omega

theorem isPacketPbRead_frame (strHead strBody : List UInt8) (st : PbState Head)
    (hnonempty : strHead ≠ [] ∨ strBody ≠ [])
    (hlen : (strHead.length + strBody.length + 10 : Int) < 2 ^ 31) :
    isPacketPbRead (int32At (frameBytes strHead strBody)) st (frameBytes strHead strBody) =
      some (true, { st with
        m_iPbHeadLen := strHead.length, m_iPbBodyLen := strBody.length, m_bIsPbReq := true }) := by
  have hpack := length_frameBytes strHead strBody
  have hlong : 10 < (frameBytes strHead strBody).length := by
    rw [← List.length_pos_iff_ne_nil, ← List.length_pos_iff_ne_nil] at hnonempty
    omega
  have hmarks := isPacketPb_frame hlong
  obtain ⟨hfield, hfield'⟩ := int32At_frame strHead strBody (by omega) (by omega)
  have hgo : ¬ ((frameBytes strHead strBody).length : Int) <
      toInt32 (strHead.length + 2 + 4) := by
    rw [toInt32_of_mem (by omega) (by omega), hpack]
    omega
  have hsum : toInt32 (strHead.length + strBody.length + 10) =
      (frameBytes strHead strBody).length := by
    rw [toInt32_of_mem (by omega) hlen, hpack]
    push_cast
    rfl
  have hrun := isPacketPbRead_of_fields st hmarks hfield hgo hfield'
  rw [if_pos hsum] at hrun
  exact hrun

theorem bytesIn_frame (strHead strBody : List UInt8) :
    bytesIn (frameBytes strHead strBody) 5 strHead.length = some strHead ∧
      bytesIn (frameBytes strHead strBody) (9 + strHead.length) strBody.length = some strBody := by
  have hpack := length_frameBytes strHead strBody
  obtain ⟨hhead, hbody⟩ := slice_frame strHead strBody
  constructor
  · rw [bytesIn, if_pos (by omega), Int.toNat_natCast, hhead]
  · rw [bytesIn, if_pos (by omega), Int.toNat_natCast, hbody]

theorem checkBasicPacketPbRead_frame {pbHead : Head} {strHead : List UInt8}
    (strBody : List UInt8) (hnonempty : strHead ≠ [])
    (hlen : (strHead.length + strBody.length + 10 : Int) < 2 ^ 31)
    (hparse : C.parseFromArray strHead = some pbHead) (hresult : C.uint32_result pbHead = 0)
    (hhead : st.m_iPbHeadLen = strHead.length) (hbody : st.m_iPbBodyLen = strBody.length) :
    checkBasicPacketPbRead C false (bytesIn (frameBytes strHead strBody) 5) st
        (frameBytes strHead strBody) =
      some (NO_ERROR,
        { st with m_bIsPbReq := true, m_bParsePbHead := true, m_pbHead := pbHead }) := by
  have hpos : 0 < strHead.length := List.length_pos_iff_ne_nil.mpr hnonempty
  have hpack := length_frameBytes strHead strBody
  have hmarks : isPacketPb (frameBytes strHead strBody) = true := isPacketPb_frame (by omega)
  have hsum : toInt32 (strHead.length + strBody.length + 10) =
      (frameBytes strHead strBody).length := by
    rw [toInt32_of_mem (by omega) hlen, hpack]
    push_cast
    rfl
  unfold checkBasicPacketPbRead
  dsimp only
  rw [if_neg (fun h => Bool.noConfusion h.1), if_neg (not_not.mpr hmarks), hhead,
    if_neg (by omega), (bytesIn_frame strHead strBody).1, Option.bind_some, hparse]
  dsimp only
  rw [hresult, if_neg (by decide), hbody, if_neg (not_not.mpr hsum)]

theorem setPacketPb_accepted {ibufLen : Int}
    (hlen : ibufLen < 2 ^ 31) (hnonempty : strHead ≠ [] ∨ strBody ≠ [])
    (hfits : (strHead.length + strBody.length + 10 : Int) ≤
      if ibufLen ≤ 0 then (pbBufSize : Int) else ibufLen) :
    ∃ pack st', setPacketPb strHead strBody ibufLen = some pack ∧
      isPacketPbRead (int32At pack) st pack = some (true, st') ∧
      bytesIn pack 5 st'.m_iPbHeadLen = some strHead ∧
      bytesIn pack (9 + st'.m_iPbHeadLen.toNat) st'.m_iPbBodyLen = some strBody := by
  have hbuf : (strHead.length + strBody.length + 10 : Int) < 2 ^ 31 := by
    split_ifs at hfits with hown
    · change _ ≤ (8192 : Int) at hfits
      omega
    · omega
  have hset : setPacketPb strHead strBody ibufLen = some (frameBytes strHead strBody) := by
    rw [setPacketPb, toInt32_of_mem (by omega) hbuf, if_neg (Int.not_lt.mpr hfits)]
  obtain ⟨hhead, hbody⟩ := bytesIn_frame strHead strBody
  exact ⟨_, _, hset, isPacketPbRead_frame strHead strBody st hnonempty hbuf, hhead, hbody⟩

/-- For a buffer as long as an `int` counts: `IsPacketPb` and `CheckBasicPacketPb` are right exactly
when the length of the head does not lead them astray, and a frame of `SetPacketPb` is accepted. -/
theorem frames_right_iff (C : PbCodec Head) (st : PbState Head) (buf : List UInt8)
    (hlen : buf.length < 2 ^ 31) :
    (FramesRight C st buf ↔ HeadLenOk buf) ∧
    ∀ (strHead strBody : List UInt8) (ibufLen : Int), ibufLen < 2 ^ 31 →
      strHead ≠ [] ∨ strBody ≠ [] →
      (strHead.length + strBody.length + 10 : Int) ≤
        (if ibufLen ≤ 0 then (pbBufSize : Int) else ibufLen) →
      ∃ pack st', setPacketPb strHead strBody ibufLen = some pack ∧
        isPacketPbRead (int32At pack) st pack = some (true, st') ∧
        bytesIn pack 5 st'.m_iPbHeadLen = some strHead ∧
        bytesIn pack (9 + st'.m_iPbHeadLen.toNat) st'.m_iPbBodyLen = some strBody :=
  ⟨⟨fun h => h.headLenOk hlen, fun h => h.right hlen⟩,
    fun _ _ _ hint hnonempty hfits => setPacketPb_accepted hint hnonempty hfits⟩

/-- The head of a `CMD_SLOG_CLIENT_HEART` with sequence 7. -/
def heartHead : List UInt8 := [8, 248, 3, 16, 7]

/-- The one head, which has no result. -/
def heartCodec : PbCodec Unit where
  parseFromArray := fun bs => if bs = heartHead then some () else none
  appendToString := fun _ => some heartHead
  uint32_result := fun _ => 0
  uint32_magic_response_num := fun _ => 0
  set_uint32_result := fun h _ => h
  set_uint32_magic_response_num := fun h _ => h
  set_str_errmsg := fun h _ => h

/-- The members before the first packet. -/
def heartState : PbState Unit := ⟨0, 0, false, false, ()⟩

theorem frames_right_heart :
    FramesRight heartCodec heartState (frameBytes heartHead []) ∧
      ∃ pack st', setPacketPb heartHead [] 0 = some pack ∧
        isPacketPbRead (int32At pack) heartState pack = some (true, st') ∧
        bytesIn pack 5 st'.m_iPbHeadLen = some heartHead ∧
        bytesIn pack (9 + st'.m_iPbHeadLen.toNat) st'.m_iPbBodyLen = some [] := by
  have hboth := frames_right_iff heartCodec heartState (frameBytes heartHead []) (by decide)
  refine ⟨hboth.1.mpr ?_, hboth.2 heartHead [] 0 (by decide) (Or.inl (by decide)) (by decide)⟩
  intro _ h hfield
  have hread : int32At (frameBytes heartHead []) 1 = some 5 := by decide
  rw [hread, Option.some.injEq] at hfield
  rw [← hfield]
  exact Or.inr (Or.inl (by decide))

/-- Marks around a length of -256 for the head. -/
def negativeHead : List UInt8 := [SPKG_PB, 255, 255, 255, 0, 0, 0, 0, 0, 0, 0, EPKG_PB]

/-- The length of the body is read 256 bytes in front of the buffer. -/
theorem frame_head_negative :
    ¬ ∀ (Head : Type) (C : PbCodec Head) (st : PbState Head) (buf : List UInt8),
      buf.length < 2 ^ 31 → FramesRight C st buf := by
  intro hall
  obtain ⟨ret, st', hrun, -⟩ := (hall Unit heartCodec heartState negativeHead (by decide)).accepts
  have hfield : int32At negativeHead 1 = some (-256) := by decide
  have hfield' : int32At negativeHead (1 + 4 + -256) = none := by decide
  rw [isPacketPbRead, if_pos (by decide), hfield, Option.bind_some, if_neg (by decide),
    hfield'] at hrun
  cases hrun

end Frames

end XrkMonitor.Packet
