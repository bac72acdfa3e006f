import XrkMonitor.Packet.RoundTrip

/-!
# Walking over the TLVs of a body

`CheckPkgBody` walks over a body with the length that is left. `GetWTlvType2_list` and
`GetWTlvByType2` walk over it again and take the lengths from the TLVs alone. On a body that was
accepted all three meet the same TLVs.

## Implementation notes

A read outside the body has no result. `GetWTlvType2_list` starts at the first TLV at every call.
The buffer that `SetWTlv` writes to keeps what stood in it elsewhere.
-/

namespace XrkMonitor.Packet

open Library

section Walkers

/-- The field of `k` bytes at place `p` of the body. -/
def readAt (body : List UInt8) (p k : Nat) : Option Nat :=
  if p + k ≤ body.length then some (netAt body p k) else none

/-- The loop of `CheckPkgBody` with `n` TLVs left, `wBodyLen` bytes left, at place `pdata`. -/
def checkLoop (body : List UInt8) : Nat → UInt16 → Nat → Option Bool
  | 0, _, _ => some true
  | n + 1, wBodyLen, pdata =>
    if wBodyLen.toNat < 4 then some false
    else (readAt body (pdata + 2) 2).bind fun wLen =>
      if wBodyLen.toNat < wLen + 4 then some false
      else checkLoop body n (wBodyLen - UInt16.ofNat (wLen + 4)) (pdata + (wLen + 4))

/-- `CheckPkgBody` with its reads. -/
def checkPkgBodyRead (body : List UInt8) (wBodyLen : UInt16) : Option Bool :=
  if wBodyLen.toNat < 1 then some false
  else (readAt body 0 1).bind fun bTlvNum => checkLoop body bTlvNum (wBodyLen - 1) 1

/-- The loop of `GetWTlvType2_list` with `n` rounds left, at TLV number `i` and place `ptlv`. -/
def typeListLoop (body : List UInt8) (iStartNum : Int) :
    Nat → Nat → Nat → Option (Option Nat × Int)
  | 0, _, _ => some (none, iStartNum)
  | n + 1, i, ptlv =>
    if iStartNum ≤ i then some (some ptlv, i + 1)
    else (readAt body (ptlv + 2) 2).bind fun wLen =>
      typeListLoop body iStartNum n (i + 1) (ptlv + (4 + wLen))

/-- `GetWTlvType2_list`: the place of the TLV, and the number to start at next. -/
def getWTlvType2List (body : List UInt8) (iStartNum : Int) : Option (Option Nat × Int) :=
  (readAt body 0 1).bind fun bTlvNum =>
    if bTlvNum ≤ iStartNum ∨ iStartNum < 0 then some (none, iStartNum)
    else typeListLoop body iStartNum bTlvNum 0 1

/-- The places of the TLVs that calls of `GetWTlvType2_list` return until there is none. -/
def iterTlvs (body : List UInt8) : Nat → Int → Option (List Nat)
  | 0, _ => none
  | fuel + 1, iStartNum =>
    (getWTlvType2List body iStartNum).bind fun r =>
      match r.1 with
      | none => some []
      | some ptlv => (iterTlvs body fuel r.2).map (ptlv :: ·)

/-- The loop of `GetWTlvByType2`. -/
def byTypeLoop (body : List UInt8) (wType : UInt16) : Nat → Nat → Option (Option Nat)
  | 0, _ => some none
  | n + 1, ptlv =>
    (readAt body ptlv 2).bind fun type =>
      if type = wType.toNat then some (some ptlv)
      else (readAt body (ptlv + 2) 2).bind fun wLen =>
        byTypeLoop body wType n (ptlv + (4 + wLen))

/-- `GetWTlvByType2` with its reads. -/
def getWTlvByType2Read (body : List UInt8) (wType : UInt16) : Option (Option Nat) :=
  (readAt body 0 1).bind fun bTlvNum => byTypeLoop body wType bTlvNum 1

end Walkers

section Layout

/-- The places of TLVs that stand one behind the other from place `p` on. -/
def places : Nat → List TWTlv → List Nat
  | _, [] => []
  | p, t :: ts => p :: places (p + t.bytes.length) ts

/-- The TLVs stand in the body from place `p` on. -/
def Holds (body : List UInt8) (p : Nat) (ts : List TWTlv) : Prop :=
  ∃ before after, body = before ++ (ts.flatMap TWTlv.bytes ++ after) ∧ before.length = p

/-- The TLV stands with its whole value at place `p`. -/
def StandsAt (body : List UInt8) (p : Nat) (t : TWTlv) : Prop :=
  p + t.bytes.length ≤ body.length ∧ slice body p t.bytes.length = t.bytes

variable {body rest : List UInt8} {p : Nat} {t : TWTlv} {ts : List TWTlv}

theorem Holds.standsAt (h : Holds body p (t :: ts)) : StandsAt body p t := by
  obtain ⟨before, after, rfl, rfl⟩ := h
  rw [List.flatMap_cons, List.append_assoc]
  constructor
  · simp only [List.length_append]
    omega
  · exact slice_of_split rfl rfl rfl

theorem Holds.tail (h : Holds body p (t :: ts)) : Holds body (p + t.bytes.length) ts := by
  obtain ⟨before, after, rfl, rfl⟩ := h
  refine ⟨before ++ t.bytes, after, ?_, List.length_append⟩
  rw [List.flatMap_cons, List.append_assoc, List.append_assoc]

theorem Holds.reads (h : Holds body p (t :: ts)) :
    readAt body p 2 = some t.wType.toNat ∧ readAt body (p + 2) 2 = some t.sValue.length := by
  have hfits := h.standsAt.1
  have hlen := length_tlvBytes t
  obtain ⟨before, after, hbody, hbefore⟩ := h
  rw [List.flatMap_cons, List.append_assoc] at hbody
  have hat : ∀ q, netAt body (before.length + q) 2 =
      netAt (t.bytes ++ (ts.flatMap TWTlv.bytes ++ after)) q 2 := by
    intro q
    rw [hbody, netAt_append_right (Nat.le_add_right _ _), Nat.add_sub_cancel_left]
  constructor
  · rw [readAt, if_pos (by omega), ← hbefore]
    exact congrArg some ((hat 0).trans (netAt_wType t _))
  · rw [readAt, if_pos (by omega), ← hbefore]
    exact congrArg some ((hat 2).trans (netAt_wLen t _))

theorem length_places (p : Nat) (ts : List TWTlv) : (places p ts).length = ts.length := by
  induction ts generalizing p with
  | nil => rfl
  | cons t ts ih => rw [places, List.length_cons, List.length_cons, ih]

theorem Holds.standsAt_places (h : Holds body p ts) {i q : Nat} (hi : ts[i]? = some t)
    (hq : (places p ts)[i]? = some q) : StandsAt body q t := by
  induction ts generalizing p i with
  | nil => cases hi
  | cons u ts ih =>
    cases i with
    | zero =>
      rw [List.getElem?_cons_zero, Option.some.injEq] at hi
      rw [places, List.getElem?_cons_zero, Option.some.injEq] at hq
      rw [← hi, ← hq]
      exact h.standsAt
    | succ i =>
      rw [List.getElem?_cons_succ] at hi
      rw [places, List.getElem?_cons_succ] at hq
      exact ih h.tail hi hq

theorem tlvs_of_checkTlvs {n : Nat} (h : checkTlvs n rest = true) :
    ∃ (ts : List TWTlv) (after : List UInt8), ts.length = n ∧
      rest = ts.flatMap TWTlv.bytes ++ after := by
  induction n generalizing rest with
  | zero => exact ⟨[], rest, rfl, rfl⟩
  | succ n ih =>
    rw [checkTlvs, Bool.and_eq_true, Bool.and_eq_true, decide_eq_true_eq, decide_eq_true_eq] at h
    obtain ⟨⟨hhead, hvalue⟩, hrest⟩ := h
    obtain ⟨ts, after, hlen, hts⟩ := ih hrest
    have hvalueLen : (slice rest 4 (netAt rest 2 2)).length = netAt rest 2 2 :=
      length_slice (by omega)
    let t : TWTlv := {
      wType := UInt16.ofNat (netAt rest 0 2)
      sValue := slice rest 4 (netAt rest 2 2)
      length_lt := by
        rw [hvalueLen]
        exact netAt_lt (by omega) }
    have ht : t.bytes = rest.take (netAt rest 2 2 + 4) := by
      have htype : t.wType.toNat = netAt rest 0 2 := by
        rw [UInt16.toNat_ofNat']
        exact Nat.mod_eq_of_lt (netAt_lt (by omega))
      have hsplit : rest.take (netAt rest 2 2 + 4) =
          slice rest 0 2 ++ (slice rest 2 2 ++ slice rest 4 (netAt rest 2 2)) := by
        rw [Nat.add_comm, slice, slice, slice, List.drop_zero, List.take_add (i := 4),
          List.take_add (i := 2) (j := 2), List.append_assoc]
      rw [TWTlv.bytes, htype, hvalueLen, toBytes_netAt (by omega), toBytes_netAt (by omega),
        hsplit]
    refine ⟨t :: ts, after, by rw [List.length_cons, hlen], ?_⟩
    rw [List.flatMap_cons, List.append_assoc, ← hts, ht, List.take_append_drop]

end Layout

section Walks

variable {body : List UInt8} {p : Nat} {ts : List TWTlv} {wType : UInt16}

theorem typeListLoop_holds (h : Holds body p ts) (i k : Nat) :
    typeListLoop body (i + k : Nat) ts.length i p =
      some ((places p ts)[k]?, ((if k < ts.length then i + k + 1 else i + k : Nat) : Int)) := by
  induction ts generalizing p i k with
  | nil =>
    rw [List.length_nil, typeListLoop, places, List.getElem?_nil, if_neg (Nat.not_lt_zero k)]
  | cons t ts ih =>
    rw [List.length_cons, typeListLoop, places]
    cases k with
    | zero =>
      rw [Nat.add_zero, if_pos (Int.le_refl _), List.getElem?_cons_zero,
        if_pos (Nat.succ_pos _)]
      rfl
    | succ k =>
      have hnot : ¬ ((i + (k + 1) : Nat) : Int) ≤ i := by omega
      have hnext : p + (4 + t.sValue.length) = p + t.bytes.length := by
        rw [length_tlvBytes, Nat.add_comm 4]
      have hnum : i + (k + 1) = i + 1 + k := by omega
      rw [if_neg hnot, h.reads.2, Option.bind_some, hnext, hnum, ih h.tail (i + 1) k,
        List.getElem?_cons_succ]
      simp only [Nat.succ_lt_succ_iff]

/-- The body starts with the number of its TLVs, and they stand behind it. -/
structure IsBody (body : List UInt8) (ts : List TWTlv) : Prop where
  num : readAt body 0 1 = some ts.length
  holds : Holds body 1 ts

theorem getWTlvType2List_body (h : IsBody body ts) (k : Nat) :
    getWTlvType2List body k =
      some ((places 1 ts)[k]?, ((if k < ts.length then k + 1 else k : Nat) : Int)) := by
  rw [getWTlvType2List, h.num, Option.bind_some]
  by_cases hk : k < ts.length
  · have hloop := typeListLoop_holds h.holds 0 k
    rw [Nat.zero_add] at hloop
    rw [if_neg (by omega), hloop]
  · have hnone : (places 1 ts)[k]? = none := by
      rw [List.getElem?_eq_none_iff, length_places]
      omega
    rw [if_pos (by omega), hnone, if_neg hk]

theorem iterTlvs_body (h : IsBody body ts) (fuel k : Nat) (hfuel : ts.length < fuel + k) :
    fuel ≠ 0 → iterTlvs body fuel k = some ((places 1 ts).drop k) := by
  induction fuel generalizing k with
  | zero => exact fun hzero => absurd rfl hzero
  | succ fuel ih =>
    intro _
    rw [iterTlvs, getWTlvType2List_body h k, Option.bind_some]
    by_cases hk : k < ts.length
    · have hlt : k < (places 1 ts).length := by
        rw [length_places]
        exact hk
      rw [List.getElem?_eq_getElem hlt, if_pos hk]
      dsimp only
      rw [ih (k + 1) (by omega) (by omega), Option.map_some, ← List.drop_eq_getElem_cons hlt]
    · have hlen : (places 1 ts).length ≤ k := by
        rw [length_places]
        omega
      rw [List.getElem?_eq_none hlen, List.drop_eq_nil_of_le hlen]

/-- The place of the first TLV of a type. -/
def firstPlace (wType : UInt16) : Nat → List TWTlv → Option Nat
  | _, [] => none
  | p, t :: ts => if t.wType = wType then some p else firstPlace wType (p + t.bytes.length) ts

theorem byTypeLoop_holds (wType : UInt16) (h : Holds body p ts) :
    byTypeLoop body wType ts.length p = some (firstPlace wType p ts) := by
  induction ts generalizing p with
  | nil => rfl
  | cons t ts ih =>
    rw [List.length_cons, byTypeLoop, firstPlace, h.reads.1, Option.bind_some]
    by_cases htype : t.wType = wType
    · rw [if_pos htype, if_pos (congrArg UInt16.toNat htype)]
    · have hne : ¬ t.wType.toNat = wType.toNat := fun heq => htype (UInt16.toNat_inj.mp heq)
      have hnext : p + (4 + t.sValue.length) = p + t.bytes.length := by
        rw [length_tlvBytes, Nat.add_comm 4]
      rw [if_neg htype, if_neg hne, h.reads.2, Option.bind_some, hnext, ih h.tail]

theorem firstPlace_eq_some {q : Nat} :
    firstPlace wType p ts = some q ↔
      ∃ (i : Nat) (t : TWTlv), ts[i]? = some t ∧ (places p ts)[i]? = some q ∧ t.wType = wType ∧
        ∀ j < i, ∀ u : TWTlv, ts[j]? = some u → u.wType ≠ wType := by
  induction ts generalizing p with
  | nil => simp [firstPlace]
  | cons t ts ih =>
    rw [firstPlace, places]
    by_cases htype : t.wType = wType
    · rw [if_pos htype, Option.some.injEq]
      constructor
      · intro hq
        exact ⟨0, t, rfl, by rw [List.getElem?_cons_zero, hq], htype, fun j hj => by omega⟩
      · rintro ⟨i, u, -, hq, -, hfirst⟩
        cases i with
        | zero => exact Option.some.inj hq
        | succ i => exact absurd htype (hfirst 0 (Nat.succ_pos i) t rfl)
    · rw [if_neg htype, ih]
      constructor
      · rintro ⟨i, u, hu, hq, htu, hfirst⟩
        refine ⟨i + 1, u, hu, hq, htu, ?_⟩
        intro j hj w hw
        cases j with
        | zero =>
          obtain rfl := Option.some.inj hw
          exact htype
        | succ j => exact hfirst j (Nat.lt_of_succ_lt_succ hj) w hw
      · rintro ⟨i, u, hu, hq, htu, hfirst⟩
        cases i with
        | zero =>
          obtain rfl := Option.some.inj hu
          exact absurd htu htype
        | succ i =>
          refine ⟨i, u, hu, hq, htu, ?_⟩
          intro j hj w hw
          exact hfirst (j + 1) (Nat.succ_lt_succ hj) w hw

theorem firstPlace_eq_none :
    firstPlace wType p ts = none ↔ ∀ t ∈ ts, t.wType ≠ wType := by
  induction ts generalizing p with
  | nil => simp [firstPlace]
  | cons t ts ih =>
    rw [firstPlace, List.forall_mem_cons]
    by_cases htype : t.wType = wType
    · rw [if_pos htype]
      constructor
      · intro h
        cases h
      · exact fun h => absurd htype h.1
    · rw [if_neg htype, ih]
      exact ⟨fun h => ⟨htype, h⟩, fun h => h.2⟩

end Walks

section Checked

variable {body : List UInt8} {ts : List TWTlv} {wBodyLen : UInt16}

theorem toNat_sub_tlv {m : Nat} (h : m ≤ wBodyLen.toNat) :
    (wBodyLen - UInt16.ofNat m).toNat = wBodyLen.toNat - m := by
  have hm : (UInt16.ofNat m).toNat = m := by
    rw [UInt16.toNat_ofNat']
    exact Nat.mod_eq_of_lt (Nat.lt_of_le_of_lt h wBodyLen.toNat_lt)
  have hle : UInt16.ofNat m ≤ wBodyLen := by
    rw [UInt16.le_iff_toNat_le, hm]
    exact h
  rw [UInt16.toNat_sub_of_le _ _ hle, hm]

theorem checkLoop_eq (n : Nat) (before rest : List UInt8)
    (hlen : wBodyLen.toNat = rest.length) :
    checkLoop (before ++ rest) n wBodyLen before.length = some (checkTlvs n rest) := by
  induction n generalizing before rest wBodyLen with
  | zero => rfl
  | succ n ih =>
    rw [checkLoop, checkTlvs, hlen]
    by_cases hhead : rest.length < 4
    · rw [if_pos hhead, decide_eq_false (Nat.not_le.mpr hhead), Bool.false_and, Bool.false_and]
    · have hread : readAt (before ++ rest) (before.length + 2) 2 = some (netAt rest 2 2) := by
        rw [readAt, if_pos (by rw [List.length_append]; omega),
          netAt_append_right (Nat.le_add_right _ _), Nat.add_sub_cancel_left]
      rw [if_neg hhead, hread, Option.bind_some, decide_eq_true (Nat.not_lt.mp hhead),
        Bool.true_and]
      by_cases hvalue : rest.length < netAt rest 2 2 + 4
      · rw [if_pos hvalue, decide_eq_false (Nat.not_le.mpr hvalue), Bool.false_and]
      · have hle := Nat.not_lt.mp hvalue
        have hleft : (wBodyLen - UInt16.ofNat (netAt rest 2 2 + 4)).toNat =
            (rest.drop (netAt rest 2 2 + 4)).length := by
          rw [toNat_sub_tlv (by rw [hlen]; exact hle), hlen, List.length_drop]
        have hstep := ih (before ++ rest.take (netAt rest 2 2 + 4))
          (rest.drop (netAt rest 2 2 + 4)) hleft
        rw [List.append_assoc, List.take_append_drop, List.length_append, List.length_take,
          Nat.min_eq_left hle] at hstep
        rw [if_neg hvalue, decide_eq_true hle, Bool.true_and, hstep]

theorem readAt_num (b : UInt8) (rest : List UInt8) : readAt (b :: rest) 0 1 = some b.toNat := by
  have hnum := netAt_uint8 b rest
  rw [toBytes_one, List.singleton_append] at hnum
  rw [readAt, if_pos (by rw [List.length_cons]; omega), hnum]

theorem checkPkgBodyRead_eq (hlen : wBodyLen.toNat = body.length) :
    checkPkgBodyRead body wBodyLen = some (checkPkgBody body) := by
  cases body with
  | nil => rw [checkPkgBodyRead, hlen, if_pos (by decide), checkPkgBody]
  | cons b rest =>
    rw [List.length_cons] at hlen
    have hrest : (wBodyLen - 1).toNat = rest.length := by
      have hsub : (wBodyLen - 1).toNat = wBodyLen.toNat - 1 :=
        toNat_sub_tlv (m := 1) (by omega)
      rw [hlen, Nat.add_sub_cancel] at hsub
      exact hsub
    have hloop := checkLoop_eq b.toNat [b] rest hrest
    rw [List.singleton_append, List.length_singleton] at hloop
    rw [checkPkgBodyRead, if_neg (by omega), readAt_num, Option.bind_some, hloop, checkPkgBody]

theorem isBody_of_checkPkgBody (h : checkPkgBody body = true) : ∃ ts, IsBody body ts := by
  cases body with
  | nil => cases h
  | cons b rest =>
    obtain ⟨ts, after, hlen, hrest⟩ := tlvs_of_checkTlvs h
    refine ⟨ts, ?_, [b], after, ?_, rfl⟩
    · rw [readAt_num, hlen]
    · rw [hrest, List.singleton_append]

/-- The three walkers meet the TLVs of a body, each with its whole value inside it. -/
structure Walks (body : List UInt8) (ts : List TWTlv) : Prop where
  num : readAt body 0 1 = some ts.length
  iter : iterTlvs body 256 0 = some (places 1 ts)
  stands : ∀ (i : Nat) (t : TWTlv) (q : Nat), ts[i]? = some t → (places 1 ts)[i]? = some q → StandsAt body q t
  first : ∀ wType q, getWTlvByType2Read body wType = some (some q) ↔
    ∃ (i : Nat) (t : TWTlv), ts[i]? = some t ∧ (places 1 ts)[i]? = some q ∧ t.wType = wType ∧
      ∀ j < i, ∀ u : TWTlv, ts[j]? = some u → u.wType ≠ wType
  null : ∀ wType, getWTlvByType2Read body wType = some none ↔ ∀ t ∈ ts, t.wType ≠ wType

theorem IsBody.length_lt (h : IsBody body ts) : ts.length < 256 := by
  have hnum := h.num
  unfold readAt at hnum
  split_ifs at hnum with hfits
  rw [← Option.some.inj hnum]
  exact netAt_lt hfits

theorem IsBody.walks (h : IsBody body ts) : Walks body ts := by
  have hfound : ∀ wType, getWTlvByType2Read body wType = some (firstPlace wType 1 ts) := by
    intro wType
    rw [getWTlvByType2Read, h.num, Option.bind_some, byTypeLoop_holds wType h.holds]
  refine ⟨h.num, ?_, ?_, ?_, ?_⟩
  · have hlt := h.length_lt
    exact iterTlvs_body h 256 0 (by omega) (by decide)
  · intro i t q hi hq
    exact h.holds.standsAt_places hi hq
  · intro wType q
    rw [hfound, Option.some.injEq, firstPlace_eq_some]
  · intro wType
    rw [hfound, Option.some.injEq, firstPlace_eq_none]

end Checked

section Writes

/-- `SetWTlv`: the memory, and the bytes that it took. -/
def setWTlv (mem : Nat → UInt8) (ptlv : Nat) (t : TWTlv) : (Nat → UInt8) × Nat :=
  let mem := writeAt mem ptlv (toBytes 2 t.wType.toNat)
  let mem := writeAt mem (ptlv + 2) (toBytes 2 t.sValue.length)
  (writeAt mem (ptlv + 4) t.sValue, 4 + t.sValue.length)

/-- TLVs written one after another, and the place behind them. -/
def setTlvs (mem : Nat → UInt8) : Nat → List TWTlv → (Nat → UInt8) × Nat
  | ptlv, [] => (mem, ptlv)
  | ptlv, t :: ts =>
    let r := setWTlv mem ptlv t
    setTlvs r.1 (ptlv + r.2) ts

/-- A body written at the start of the memory, and its length. -/
def setBody (mem : Nat → UInt8) (b : TPkgBody) : (Nat → UInt8) × Nat :=
  let r := setTlvs mem 1 b.stTlv
  (writeAt r.1 0 [UInt8.ofNat b.stTlv.length], r.2)

variable {mem : Nat → UInt8} {p : Nat} {bs : List UInt8}

theorem setWTlv_stands (t : TWTlv) (h : Stands mem 1 bs) (hp : 1 + bs.length = p) :
    Stands (setWTlv mem p t).1 1 (bs ++ t.bytes) ∧ (setWTlv mem p t).2 = t.bytes.length := by
  have htype := length_toBytes 2 t.wType.toNat
  have hlen := length_toBytes 2 t.sValue.length
  constructor
  · rw [stands_append, TWTlv.bytes, stands_append, stands_append, hp, htype, hlen]
    unfold setWTlv
    refine ⟨?_, ?_, ?_, ?_⟩
    · have h₁ : Stands (writeAt mem p (toBytes 2 t.wType.toNat)) 1 bs :=
        h.writeAt (Or.inl (by omega))
      have h₂ : Stands (writeAt (writeAt mem p (toBytes 2 t.wType.toNat)) (p + 2)
          (toBytes 2 t.sValue.length)) 1 bs := h₁.writeAt (Or.inl (by omega))
      exact h₂.writeAt (Or.inl (by omega))
    · have h₁ := stands_writeAt mem p (toBytes 2 t.wType.toNat)
      have h₂ : Stands (writeAt (writeAt mem p (toBytes 2 t.wType.toNat)) (p + 2)
          (toBytes 2 t.sValue.length)) p (toBytes 2 t.wType.toNat) :=
        h₁.writeAt (Or.inl (by omega))
      exact h₂.writeAt (Or.inl (by omega))
    · have h₂ := stands_writeAt (writeAt mem p (toBytes 2 t.wType.toNat)) (p + 2)
        (toBytes 2 t.sValue.length)
      exact h₂.writeAt (Or.inl (by omega))
    · exact stands_writeAt _ (p + 4) t.sValue
  · rw [length_tlvBytes]
    exact Nat.add_comm 4 t.sValue.length

theorem setTlvs_stands (ts : List TWTlv) (h : Stands mem 1 bs) (hp : 1 + bs.length = p) :
    Stands (setTlvs mem p ts).1 1 (bs ++ ts.flatMap TWTlv.bytes) ∧
      (setTlvs mem p ts).2 = 1 + (bs ++ ts.flatMap TWTlv.bytes).length := by
  induction ts generalizing mem p bs with
  | nil =>
    rw [List.flatMap_nil, List.append_nil]
    exact ⟨h, hp.symm⟩
  | cons t ts ih =>
    obtain ⟨hstands, hlen⟩ := setWTlv_stands t h hp
    have hrest := ih hstands (p := p + (setWTlv mem p t).2) (by
      rw [hlen, List.length_append]
      omega)
    rw [List.append_assoc] at hrest
    exact hrest

theorem bytesAt_setBody (mem : Nat → UInt8) (b : TPkgBody) :
    bytesAt (setBody mem b).1 0 (setBody mem b).2 = b.bytes := by
  have hnone : Stands mem 1 [] := rfl
  obtain ⟨hstands, hlen⟩ := setTlvs_stands b.stTlv hnone (p := 1) rfl
  rw [List.nil_append] at hstands hlen
  have hnum := stands_writeAt (setTlvs mem 1 b.stTlv).1 0 [UInt8.ofNat b.stTlv.length]
  have htlvs : Stands (setBody mem b).1 1 (b.stTlv.flatMap TWTlv.bytes) :=
    hstands.writeAt (Or.inr (by rw [List.length_singleton]))
  have hboth : Stands (setBody mem b).1 0
      ([UInt8.ofNat b.stTlv.length] ++ b.stTlv.flatMap TWTlv.bytes) :=
    stands_append.mpr ⟨hnum, htlvs⟩
  have htotal : (setBody mem b).2 =
      ([UInt8.ofNat b.stTlv.length] ++ b.stTlv.flatMap TWTlv.bytes).length := by
    rw [List.length_append]
    exact hlen
  rw [htotal]
  exact hboth

theorem isBody_bytes (b : TPkgBody) : checkPkgBody b.bytes = true ∧ IsBody b.bytes b.stTlv := by
  have hnum : (UInt8.ofNat b.stTlv.length).toNat = b.stTlv.length := by
    rw [UInt8.toNat_ofNat']
    exact Nat.mod_eq_of_lt b.length_lt
  refine ⟨?_, ?_, [UInt8.ofNat b.stTlv.length], [], ?_, rfl⟩
  · rw [TPkgBody.bytes, checkPkgBody, hnum]
    exact checkTlvs_flatMap b.stTlv
  · rw [TPkgBody.bytes, readAt_num, hnum]
  · rw [List.append_nil, TPkgBody.bytes, List.singleton_append]

/-- On a body that `CheckPkgBody` accepts the walkers meet as many TLVs as it names, and on one that
was written with `SetWTlv` those that were written; no call reads outside the body. -/
theorem tlv_walks (body : List UInt8) (wBodyLen : UInt16) (hlen : wBodyLen.toNat = body.length) :
    (∃ ret, checkPkgBodyRead body wBodyLen = some ret ∧
      (ret = true → ∃ ts, Walks body ts)) ∧
    ∀ (mem : Nat → UInt8) (b : TPkgBody), body = bytesAt (setBody mem b).1 0 (setBody mem b).2 →
      checkPkgBodyRead body wBodyLen = some true ∧ Walks body b.stTlv := by
  rw [checkPkgBodyRead_eq hlen]
  refine ⟨⟨_, rfl, fun h => ?_⟩, ?_⟩
  · obtain ⟨ts, hts⟩ := isBody_of_checkPkgBody h
    exact ⟨ts, hts.walks⟩
  · intro mem b hb
    rw [hb, bytesAt_setBody]
    obtain ⟨hcheck, hisBody⟩ := isBody_bytes b
    rw [hcheck]
    exact ⟨rfl, hisBody.walks⟩

/-- A body of one TLV of type 5 with two bytes. -/
def oneTlvBody : TPkgBody := ⟨[⟨5, [1, 2], by decide⟩], by decide⟩

theorem tlv_walks_one : checkPkgBodyRead oneTlvBody.bytes 7 = some true ∧
    Walks oneTlvBody.bytes oneTlvBody.stTlv :=
  (tlv_walks oneTlvBody.bytes 7 (by decide)).2 (fun _ => 255) oneTlvBody (by decide)

end Writes

end XrkMonitor.Packet
