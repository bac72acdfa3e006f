import XrkMonitor.AttrDay.Codec

/-!
# Records from elsewhere

The display reads the head of a record before it knows that the record is long
enough, and checks the length before it reads the rest. An index of a compact record
may be equal to the number of periods of the day, which is one more than the array of
the display has when the periods are minutes.
-/

namespace XrkMonitor.AttrDay

open Library WarnAttr

section Head

variable {mem : Nat → UInt8} {len : Nat} {l : Layout}

theorem readHead_le_iff : (readHead mem len).1 ≤ len ↔
    1 ≤ len ∧ (mem 0 = ATTR_DAY_BIN_TYPE_ARRAY_V2 → 3 ≤ len) ∧
      (mem 0 = ATTR_DAY_BIN_TYPE_PRESS_V2 → 3 ≤ len) ∧
      (mem 0 = ATTR_DAY_BIN_TYPE_PRESS_V2 → isValidStaticTime (ntohsAt mem 1) = true → 5 ≤ len) := by
  have hne : ATTR_DAY_BIN_TYPE_ARRAY_V2 ≠ ATTR_DAY_BIN_TYPE_PRESS_V2 := by decide
  rw [readHead]
  by_cases harray : mem 0 = ATTR_DAY_BIN_TYPE_ARRAY_V2
  · have hpress : mem 0 ≠ ATTR_DAY_BIN_TYPE_PRESS_V2 := fun h => hne (harray.symm.trans h)
    have hend : ∀ (c : Prop) [Decidable c] (a b : Option Layout), (if c then (3, a) else (3, b)).1 = 3 := by
      intro c _ a b
      split <;> rfl
    simp only [harray, if_true, hend, hne, true_implies, false_implies, and_true]
    omega
  · by_cases hpress : mem 0 = ATTR_DAY_BIN_TYPE_PRESS_V2
    · simp only [hpress, hne.symm, if_false, if_true, true_implies, false_implies, true_and]
      by_cases hvalid : isValidStaticTime (ntohsAt mem 1) = true
      · have hend : ∀ (c : Prop) [Decidable c] (a b : Option Layout), (if c then (5, a) else (5, b)).1 = 5 := by
          intro c _ a b
          split <;> rfl
        simp only [hvalid, if_true, hend, true_implies]
        omega
      · have hfalse : isValidStaticTime (ntohsAt mem 1) = false := by simpa using hvalid
        simp only [hfalse, Bool.false_eq_true, if_false, false_implies, and_true]
        omega
    · simp only [harray, hpress, if_false, false_implies, and_true]

theorem readHead_some (h : (readHead mem len).2 = some l) :
    (∃ n ≤ 1440, l = ⟨none, 3, n, n, false⟩ ∧ len = 3 + n * 4) ∨
      (mem 0 = ATTR_DAY_BIN_TYPE_PRESS_V2 ∧ isValidStaticTime (ntohsAt mem 1) = true ∧
        len = 5 + ntohsAt mem 3 * (2 + 4) ∧ l = ⟨some 5, 5 + 2 * ntohsAt mem 3, ntohsAt mem 3,
          getStaticTimeMaxIdxOfDay (ntohsAt mem 1), false⟩) ∨
      (l = ⟨none, 0, 1440, 1440, true⟩ ∧ len = 4 * 1440) := by
  have holdest : ∀ {o : Option Layout}, o = (if len = 4 * 1440 then some ⟨none, 0, 1440, 1440, true⟩ else none) →
      o = some l → l = ⟨none, 0, 1440, 1440, true⟩ ∧ len = 4 * 1440 := by
    intro o ho hl
    rw [ho] at hl
    split at hl
    · rename_i hlen
      exact ⟨(Option.some.inj hl).symm, hlen⟩
    · cases hl
  rw [readHead] at h
  split at h
  · simp only at h
    split at h
    · rename_i hok
      exact Or.inl ⟨_, (maxIdx_le hok.1).1, (Option.some.inj h).symm, hok.2⟩
    · exact Or.inr (Or.inr (holdest rfl h))
  · split at h
    · rename_i hpress
      split at h
      · rename_i hvalid
        simp only at h
        split at h
        · rename_i hlen
          exact Or.inr (Or.inl ⟨hpress, hvalid, hlen, (Option.some.inj h).symm⟩)
        · exact Or.inr (Or.inr (holdest rfl h))
      · exact Or.inr (Or.inr (holdest rfl h))
    · exact Or.inr (Or.inr (holdest rfl h))

theorem readHead_press (hpress : mem 0 = ATTR_DAY_BIN_TYPE_PRESS_V2)
    (hvalid : isValidStaticTime (ntohsAt mem 1) = true) (hlen : len = 5 + ntohsAt mem 3 * (2 + 4)) :
    (readHead mem len).2 = some ⟨some 5, 5 + 2 * ntohsAt mem 3, ntohsAt mem 3,
      getStaticTimeMaxIdxOfDay (ntohsAt mem 1), false⟩ := by
  rw [readHead, hpress, if_neg (by decide), if_pos rfl, if_pos hvalid]
  simp only [← hlen, if_true]

end Head

section Rounds

variable {mem : Nat → UInt8} {t : Option AttrDataType} {l : Layout} {r : DayRead} {len m i : Nat}

/-- A round skips an index that is too large. -/
def Layout.skips (l : Layout) (mem : Nat → UInt8) (i : Nat) : Prop :=
  l.pattrIdx.isSome = true ∧ l.iMaxAttrCountIdx < l.attrDbIdx mem i

theorem readValue_bounds (mem : Nat → UInt8) (t : Option AttrDataType) (r : DayRead) (hidx : l.idxEnd i ≤ len) (hval : l.pattrVal + 4 * i + 4 ≤ len) :
    r.top ≤ (readValue mem t l r i).top ∧ (readValue mem t l r i).top ≤ max r.top len := by
  rw [readValue]
  simp only
  split
  · simp only [DayRead.read]
    omega
  · simp only [DayRead.read]
    omega

theorem mem_wrote_readValue (r : DayRead) (i k : Nat) : k ∈ (readValue mem t l r i).wrote ↔
    k ∈ r.wrote ∨ (¬l.skips mem i ∧ l.attrDbIdx mem i = k) := by
  rw [readValue]
  unfold Layout.skips
  simp only
  split
  · rename_i hskip
    simp [DayRead.read, hskip]
  · rename_i hskip
    simp only [hskip, not_false_eq_true, true_and, List.mem_append, List.mem_singleton]
    exact or_congr_right ⟨Eq.symm, Eq.symm⟩

theorem rounds_top (mem : Nat → UInt8) (t : Option AttrDataType) (r : DayRead) (hidx : ∀ i < m, l.idxEnd i ≤ len)
    (hval : ∀ i < m, l.pattrVal + 4 * i + 4 ≤ len) :
    r.top ≤ ((List.range m).foldl (readValue mem t l) r).top ∧
      ((List.range m).foldl (readValue mem t l) r).top ≤ max r.top len := by
  induction m with
  | zero => exact ⟨Nat.le_refl _, Nat.le_max_left _ _⟩
  | succ m ih =>
    obtain ⟨hge, hle⟩ := ih (fun i hi => hidx i (by omega)) (fun i hi => hval i (by omega))
    have hround := readValue_bounds mem t ((List.range m).foldl (readValue mem t l) r)
      (hidx m (Nat.lt_succ_self m)) (hval m (Nat.lt_succ_self m))
    rw [List.range_succ, List.foldl_append, List.foldl_cons, List.foldl_nil]
    omega

theorem mem_wrote_rounds (r : DayRead) (k : Nat) :
    k ∈ ((List.range m).foldl (readValue mem t l) r).wrote ↔
      k ∈ r.wrote ∨ ∃ i < m, ¬l.skips mem i ∧ l.attrDbIdx mem i = k := by
  induction m with
  | zero => simp
  | succ m ih =>
    rw [List.range_succ, List.foldl_append, List.foldl_cons, List.foldl_nil, mem_wrote_readValue, ih]
    constructor
    · rintro ((hr | ⟨i, hi, hround⟩) | hround)
      · exact Or.inl hr
      · exact Or.inr ⟨i, by omega, hround⟩
      · exact Or.inr ⟨m, Nat.lt_succ_self m, hround⟩
    · rintro (hr | ⟨i, hi, hround⟩)
      · exact Or.inl (Or.inl hr)
      · rcases Nat.lt_succ_iff_lt_or_eq.mp hi with hlt | rfl
        · exact Or.inl (Or.inr ⟨i, hlt, hround⟩)
        · exact Or.inr hround

end Rounds

section Bounds

variable {mem : Nat → UInt8} {t : Option AttrDataType} {len : Nat} {l : Layout}

theorem layout_inside (h : (readHead mem len).2 = some l) :
    (∀ i < l.iCoundIdx, l.idxEnd i ≤ len) ∧ ∀ i < l.iCoundIdx, l.pattrVal + 4 * i + 4 ≤ len := by
  rcases readHead_some h with ⟨n, -, rfl, hlen⟩ | ⟨-, -, hlen, rfl⟩ | ⟨rfl, hlen⟩
  · refine ⟨fun i _ => Nat.zero_le _, ?_⟩
    intro i hi
    simp only at hi ⊢
    omega
  · refine ⟨?_, ?_⟩
    · intro i hi
      simp only [Layout.idxEnd] at hi ⊢
      omega
    · intro i hi
      simp only at hi ⊢
      omega
  · refine ⟨fun i _ => Nat.zero_le _, ?_⟩
    intro i hi
    simp only at hi ⊢
    omega

theorem top_le_iff : (getAttrDayVal mem len t).top ≤ len ↔ (readHead mem len).1 ≤ len := by
  rw [getAttrDayVal]
  cases hhead : (readHead mem len).2 with
  | none => exact Iff.rfl
  | some l =>
    obtain ⟨hidx, hval⟩ := layout_inside hhead
    obtain ⟨hge, hle⟩ := rounds_top mem t ⟨(readHead mem len).1, fun _ => 0, []⟩ hidx hval
    simp only at hge hle ⊢
    omega

/-- The reader stays in the record and in its array exactly if the record is as long as its head and
has no index 1440 in a one-minute record. -/
theorem readSafe_iff (mem : Nat → UInt8) (len : Nat) (t : Option AttrDataType) :
    ReadSafe mem len t ↔ RecordOk mem len := by
  rw [ReadSafe, top_le_iff, readHead_le_iff]
  constructor
  · rintro ⟨⟨htyped, harray, hpress, hcount⟩, hwrote⟩
    refine ⟨htyped, harray, hpress, hcount, ?_⟩
    intro htype hone hlen i hi heq
    have hvalid : isValidStaticTime (ntohsAt mem 1) = true := by
      rw [hone]
      rfl
    have hhead := readHead_press htype hvalid hlen
    have hmem : 1440 ∈ (getAttrDayVal mem len t).wrote := by
      rw [getAttrDayVal, hhead]
      refine (mem_wrote_rounds _ _).mpr (Or.inr ⟨i, hi, ?_, heq⟩)
      rintro ⟨-, hlarge⟩
      have hidx : Layout.attrDbIdx ⟨some 5, 5 + 2 * ntohsAt mem 3, ntohsAt mem 3,
        getStaticTimeMaxIdxOfDay (ntohsAt mem 1), false⟩ mem i = 1440 := heq
      have hday : getStaticTimeMaxIdxOfDay (ntohsAt mem 1) = 1440 := by
        rw [hone]
        rfl
      rw [hidx] at hlarge
      simp only [hday] at hlarge
      omega
    exact absurd (hwrote 1440 hmem) (by decide)
  · intro h
    refine ⟨⟨h.typed, h.array, h.press, h.count⟩, ?_⟩
    intro k hk
    rw [getAttrDayVal] at hk
    cases hhead : (readHead mem len).2 with
    | none =>
      rw [hhead] at hk
      cases hk
    | some l =>
      rw [hhead] at hk
      obtain ⟨i, hi, hskip, rfl⟩ := ((mem_wrote_rounds _ _).mp hk).resolve_left (by simp)
      unfold COUNT_STATIC_TIMES_PER_DAY
      rcases readHead_some hhead with ⟨n, hn, rfl, -⟩ | ⟨htype, hvalid, hlen, rfl⟩ | ⟨rfl, -⟩
      · exact Nat.lt_of_lt_of_le hi hn
      · obtain ⟨hmax, hminute, -⟩ := maxIdx_le hvalid
        have hle : ntohsAt mem (5 + 2 * i) ≤ getStaticTimeMaxIdxOfDay (ntohsAt mem 1) := by
          by_contra hlarge
          exact hskip ⟨rfl, Nat.lt_of_not_le hlarge⟩
        change ntohsAt mem (5 + 2 * i) < 1440
        rcases Nat.lt_or_eq_of_le (hle.trans hmax) with hlt | heq
        · exact hlt
        · have hone := hminute (by omega)
          exact absurd heq (h.index htype hone hlen i hi)
      · exact hi

end Bounds

section Claim

/-- The record of a day comes back, and the reader of a record from elsewhere stays in its bounds
exactly if the record is as long as its head and has no index 1440 in a one-minute record. -/
theorem day_record_iff {T : Nat} (hT : isValidStaticTime T = true) {d : DayValues} (hd : d.Ok T)
    (mem : Nat → UInt8) (len : Nat) (t : Option AttrDataType) :
    (∃ blob, changeAttrSaveType T d = some blob ∧ ∀ mem t, Stands mem 0 blob →
      ∀ k, (getAttrDayVal mem blob.length t).iReport k = d.arrydwValue k) ∧
      (ReadSafe mem len t ↔ RecordOk mem len) :=
  ⟨record_roundTrip hT hd, readSafe_iff mem len t⟩

/-- A day with one report, and a record of that day. -/
theorem day_record_iff_one :
    (DayValues.mk 7 3 fun k => if k = 3 then 7 else 0).Ok 60 ∧
      ReadSafe (fun x => ([2, 0, 60, 0, 1, 0, 3, 0, 0, 0, 7] : List UInt8).getD x 0) 11 none := by
  have hd : (DayValues.mk 7 3 fun k => if k = 3 then 7 else 0).Ok 60 := by
    refine ⟨by decide, ⟨3, by decide⟩, ?_, by decide⟩
    intro k hk
    have heq : k = 3 := by
      by_contra hne
      simp [hne] at hk
    rw [heq]
    decide
  refine ⟨hd, ((day_record_iff rfl hd _ _ _).2).mpr ⟨?_, ?_, ?_, ?_, ?_⟩⟩
  all_goals decide

/-- A compact one-minute record with the index 1440 is written behind the array. -/
theorem index_behind_array :
    ¬ReadSafe (fun x => ([2, 0, 1, 0, 1, 5, 160, 0, 0, 0, 7] : List UInt8).getD x 0) 11 none := by
  intro h
  have hmem : 1440 ∈ (getAttrDayVal (fun x => ([2, 0, 1, 0, 1, 5, 160, 0, 0, 0, 7] : List UInt8).getD x 0)
      11 none).wrote := by decide
  exact absurd (h.2 1440 hmem) (by decide)

end Claim

end XrkMonitor.AttrDay
