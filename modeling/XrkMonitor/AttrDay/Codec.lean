import XrkMonitor.AttrDay.Record

/-!
# Day records come back

The compaction of the array never writes in front of what it has still to read, so
both forms of a record hold the values of the day, and the display finds them again.
A record from elsewhere is read inside its bounds only if it is as long as its head,
and inside the array of the display only if no index of a one-minute record is 1440:
the reader compares with `>` where the array ends one earlier.
-/

namespace XrkMonitor.AttrDay

open Library WarnAttr

section Saved

variable {n : Nat} {arr v : Nat → UInt32}

theorem htonl_zero : htonl 0 = 0 := by decide

theorem nativeBytes_htonl (x : UInt32) : nativeBytes 4 (htonl x).toNat = toBytes 4 x.toNat := by
  have hlt : ofBytes (nativeBytes 4 x.toNat) < 2 ^ 32 := by
    have h := ofBytes_lt (nativeBytes 4 x.toNat)
    rw [length_nativeBytes] at h
    exact h
  have hback := toBytes_ofBytes (nativeBytes 4 x.toNat)
  rw [length_nativeBytes] at hback
  rw [htonl, UInt32.toNat_ofNat', Nat.mod_eq_of_lt hlt, nativeBytes, hback, nativeBytes,
    List.reverse_reverse]

theorem toNet_eq (n : Nat) (arr : Nat → UInt32) (k : Nat) :
    toNet n arr k = if k < n then htonl (arr k) else arr k := by
  induction n generalizing k with
  | zero => rfl
  | succ n ih =>
    have hstep : toNet (n + 1) arr = if 0 < toNet n arr n then
        Function.update (toNet n arr) n (htonl (toNet n arr n)) else toNet n arr := by
      rw [toNet, List.range_succ, List.foldl_append]
      rfl
    have hn : toNet n arr n = arr n := by
      rw [ih, if_neg (Nat.lt_irrefl n)]
    rw [hstep, hn]
    by_cases hk : k = n
    · subst hk
      rw [if_pos (Nat.lt_succ_self k)]
      by_cases hpos : 0 < arr k
      · rw [if_pos hpos, Function.update_self]
      · have hzero : arr k = 0 := by
          apply UInt32.toNat_inj.mp
          have hle : ¬0 < (arr k).toNat := fun h => hpos (UInt32.lt_iff_toNat_lt.mpr h)
          change (arr k).toNat = 0
          omega
        rw [if_neg hpos, hn, hzero, htonl_zero]
    · have hlt : k < n + 1 ↔ k < n := by omega
      split
      · rw [Function.update_of_ne hk, ih]
        simp only [hlt]
      · rw [ih]
        simp only [hlt]

/-- The periods that have a report, among the first `n`. -/
def reported (v : Nat → UInt32) (n : Nat) : List Nat := (List.range n).filter fun k => v k ≠ 0

theorem length_reported_le (v : Nat → UInt32) (n : Nat) : (reported v n).length ≤ n := by
  have h := List.length_filter_le (fun k => decide (v k ≠ 0)) (List.range n)
  rw [List.length_range] at h
  exact h

theorem press_spec (n : Nat) (v : Nat → UInt32) :
    (press n v).1 = reported v n ∧ (∀ k, n ≤ k → (press n v).2 k = v k) ∧
      ∀ j k, (reported v n)[j]? = some k → (press n v).2 j = htonl (v k) := by
  induction n with
  | zero =>
    refine ⟨rfl, fun k _ => rfl, ?_⟩
    intro j k h
    cases h
  | succ n ih =>
    obtain ⟨hidx, hrest, hvals⟩ := ih
    have hle := length_reported_le v n
    have hstep : press (n + 1) v = pressStep (press n v) n := by
      rw [press, List.range_succ, List.foldl_append]
      rfl
    have hsucc : reported v (n + 1) = reported v n ++ if v n ≠ 0 then [n] else [] := by
      rw [reported, List.range_succ, List.filter_append]
      by_cases hn : v n = 0
      · simp [hn, reported]
      · simp [hn, reported]
    rw [hstep, pressStep, hrest n (Nat.le_refl n), hidx, hsucc]
    by_cases hn : v n = 0
    · simp only [hn, ne_eq, not_true_eq_false, if_false, List.append_nil]
      exact ⟨hidx, fun k hk => hrest k (by omega), hvals⟩
    · simp only [ne_eq, hn, not_false_eq_true, if_true]
      refine ⟨trivial, ?_, ?_⟩
      · intro k hk
        rw [Function.update_of_ne (by omega)]
        exact hrest k (by omega)
      · intro j k hjk
        by_cases hj : j < (reported v n).length
        · rw [List.getElem?_append_left hj] at hjk
          rw [Function.update_of_ne (by omega)]
          exact hvals j k hjk
        · rw [List.getElem?_append_right (by omega)] at hjk
          have hzero : j - (reported v n).length = 0 := by
            by_contra hne
            rw [List.getElem?_singleton, if_neg hne] at hjk
            cases hjk
          rw [hzero, List.getElem?_cons_zero, Option.some.injEq] at hjk
          have hj : j = (reported v n).length := by omega
          rw [hj, Function.update_self, hjk]

theorem arrayBytes_eq {l : List Nat} (h : ∀ j k, l[j]? = some k → arr j = htonl (v k)) :
    arrayBytes arr l.length = l.flatMap fun k => toBytes 4 (v k).toNat := by
  have hmap : (List.range l.length).map (fun j => nativeBytes 4 (arr j).toNat) =
      l.map fun k => toBytes 4 (v k).toNat := by
    apply List.ext_getElem
    · simp
    · intro j hj hj'
      rw [List.length_map] at hj'
      have hget := h j l[j] (List.getElem?_eq_getElem hj')
      simp only [List.getElem_map, List.getElem_range]
      rw [hget, nativeBytes_htonl]
  rw [arrayBytes, List.flatMap_def, hmap, ← List.flatMap_def]

end Saved

section Values

variable {mem : Nat → UInt8} {t : Option AttrDataType} {l : Layout} {r : DayRead} {v : Nat → UInt32}
variable {keys : List Nat} {n : Nat}

/-- The layout gives the values of the keys, in this order. -/
structure Gives (mem : Nat → UInt8) (l : Layout) (keys : List Nat) (v : Nat → UInt32) : Prop where
  count : l.iCoundIdx = keys.length
  newer : l.oldest = false
  index : ∀ i k, keys[i]? = some k → l.attrDbIdx mem i = k
  value : ∀ i k, keys[i]? = some k → ofBytes (bytesAt mem (l.pattrVal + 4 * i) 4) = (v k).toNat
  inside : ∀ k ∈ keys, k ≤ l.iMaxAttrCountIdx

theorem readValue_iReport (h : Gives mem l keys v) {i k : Nat} (hi : keys[i]? = some k) (r : DayRead) :
    (readValue mem t l r i).iReport = Function.update r.iReport k (getAttrIdxData (r.iReport k) (v k) t) := by
  have hk := h.inside k (List.mem_of_getElem? hi)
  have hidx := h.index i k hi
  have hval : UInt32.ofNat (v k).toNat = v k := UInt32.ofNat_toNat
  rw [readValue]
  simp only [hidx]
  rw [if_neg (by omega)]
  simp only [Layout.newVal, h.newer, h.value i k hi, hval]
  rfl

theorem rounds_iReport (h : Gives mem l keys v) (hnodup : keys.Nodup) (r : DayRead)
    (hr : ∀ k, r.iReport k = 0) {m : Nat} (hm : m ≤ keys.length) (k : Nat) :
    ((List.range m).foldl (readValue mem t l) r).iReport k = if k ∈ keys.take m then v k else 0 := by
  induction m generalizing k with
  | zero => simp [hr]
  | succ m ih =>
    obtain ⟨key, hkey⟩ : ∃ key, keys[m]? = some key := ⟨keys[m], List.getElem?_eq_getElem hm⟩
    have htake : keys.take (m + 1) = keys.take m ++ [key] := by
      rw [List.take_add_one, hkey]
      rfl
    have hfresh : key ∉ keys.take m := by
      have hnodup' := hnodup.sublist (List.take_sublist (m + 1) keys)
      rw [htake] at hnodup'
      intro hmem
      exact (List.nodup_append.mp hnodup').2.2 key hmem key (List.mem_singleton_self key) rfl
    rw [List.range_succ, List.foldl_append, List.foldl_cons, List.foldl_nil, readValue_iReport h hkey,
      htake]
    by_cases hk : k = key
    · subst hk
      rw [Function.update_self, ih (by omega), if_neg hfresh, if_pos (by simp)]
      rfl
    · have hmem : k ∈ keys.take m ++ [key] ↔ k ∈ keys.take m := by simp [hk]
      rw [Function.update_of_ne hk, ih (by omega)]
      simp only [hmem]

theorem getAttrDayVal_iReport {len : Nat} (hhead : (readHead mem len).2 = some l)
    (h : Gives mem l keys v) (hnodup : keys.Nodup) (k : Nat) :
    (getAttrDayVal mem len t).iReport k = if k ∈ keys then v k else 0 := by
  rw [getAttrDayVal, hhead]
  simp only
  rw [h.count, rounds_iReport h hnodup _ (fun _ => rfl) (Nat.le_refl _), List.take_length]

end Values

section RoundTrip

theorem range_getElem? {n i k : Nat} (h : (List.range n)[i]? = some k) : i < n ∧ i = k := by
  obtain ⟨hi, hk⟩ := List.getElem?_eq_some_iff.mp h
  rw [List.length_range] at hi
  rw [List.getElem_range] at hk
  exact ⟨hi, hk⟩

variable {T : Nat} {v : Nat → UInt32} {mem : Nat → UInt8} {t : Option AttrDataType}

theorem maxIdx_le (hT : isValidStaticTime T = true) :
    getStaticTimeMaxIdxOfDay T ≤ 1440 ∧ (getStaticTimeMaxIdxOfDay T = 1440 → T = 1) ∧ T < 256 ^ 2 := by
  have hmem : T ∈ [1, 5, 10, 15, 30, 60, 120, 180] := by simpa [isValidStaticTime] using hT
  have hall : ∀ T ∈ [1, 5, 10, 15, 30, 60, 120, 180], getStaticTimeMaxIdxOfDay T ≤ 1440 ∧
      (getStaticTimeMaxIdxOfDay T = 1440 → T = 1) ∧ T < 256 ^ 2 := by decide
  exact hall T hmem

theorem read_array (hT : isValidStaticTime T = true) {bs : List UInt8}
    (hbs : bs = (List.range (getStaticTimeMaxIdxOfDay T)).flatMap fun k => toBytes 4 (v k).toNat)
    (hstands : Stands mem 0 (ATTR_DAY_BIN_TYPE_ARRAY_V2 :: (toBytes 2 T ++ bs))) (k : Nat) :
    (getAttrDayVal mem (ATTR_DAY_BIN_TYPE_ARRAY_V2 :: (toBytes 2 T ++ bs)).length t).iReport k =
      if k < getStaticTimeMaxIdxOfDay T then v k else 0 := by
  obtain ⟨hmax, -, hfit⟩ := maxIdx_le hT
  obtain ⟨htype, hstands⟩ := stands_cons.mp hstands
  obtain ⟨htime, hvals⟩ := stands_append.mp hstands
  rw [Stands, length_toBytes] at htime
  rw [length_toBytes] at hvals
  have htime : ntohsAt mem 1 = T := by
    rw [ntohsAt, htime, ofBytes_toBytes_of_lt hfit]
  have hlen : (ATTR_DAY_BIN_TYPE_ARRAY_V2 :: (toBytes 2 T ++ bs)).length =
      3 + getStaticTimeMaxIdxOfDay T * 4 := by
    rw [hbs]
    simp
    omega
  have hhead : (readHead mem (ATTR_DAY_BIN_TYPE_ARRAY_V2 :: (toBytes 2 T ++ bs)).length).2 =
      some ⟨none, 3, getStaticTimeMaxIdxOfDay T, getStaticTimeMaxIdxOfDay T, false⟩ := by
    rw [readHead, if_pos htype, htime, hlen, if_pos ⟨hT, rfl⟩]
  have hgives : Gives mem ⟨none, 3, getStaticTimeMaxIdxOfDay T, getStaticTimeMaxIdxOfDay T, false⟩
      (List.range (getStaticTimeMaxIdxOfDay T)) v := by
    refine ⟨List.length_range.symm, rfl, ?_, ?_, ?_⟩
    · intro i k hi
      obtain ⟨-, rfl⟩ := range_getElem? hi
      rfl
    · intro i k hi
      rw [hbs] at hvals
      exact field_of_stands (f := fun y => (v y).toNat) (fun y _ => (v y).toNat_lt) hvals hi
    · intro k hk
      exact (List.mem_range.mp hk).le
  rw [getAttrDayVal_iReport hhead hgives List.nodup_range]
  simp only [List.mem_range]

theorem read_press (hT : isValidStaticTime T = true) {keys : List Nat}
    (hkeys : ∀ k ∈ keys, k < getStaticTimeMaxIdxOfDay T) (hnodup : keys.Nodup)
    (hcount : keys.length ≤ 1440) {blob : List UInt8}
    (hblob : blob = ATTR_DAY_BIN_TYPE_PRESS_V2 :: (toBytes 2 T ++ (toBytes 2 keys.length ++
      (keys.flatMap (toBytes 2) ++ keys.flatMap fun k => toBytes 4 (v k).toNat))))
    (hstands : Stands mem 0 blob) (k : Nat) :
    (getAttrDayVal mem blob.length t).iReport k = if k ∈ keys then v k else 0 := by
  obtain ⟨hmax, -, hfit⟩ := maxIdx_le hT
  have hlen : blob.length = 5 + keys.length * (2 + 4) := by
    rw [hblob]
    simp
    omega
  rw [hblob] at hstands
  obtain ⟨htype, hstands⟩ := stands_cons.mp hstands
  obtain ⟨htime, hstands⟩ := stands_append.mp hstands
  obtain ⟨hnum, hstands⟩ := stands_append.mp hstands
  obtain ⟨hidx, hvals⟩ := stands_append.mp hstands
  have hidxLen : (keys.flatMap (toBytes 2)).length = 2 * keys.length := by
    simp
    omega
  rw [Stands, length_toBytes] at htime hnum
  simp only [length_toBytes, hidxLen] at hnum hidx hvals
  have htime : ntohsAt mem 1 = T := by
    rw [ntohsAt, htime, ofBytes_toBytes_of_lt hfit]
  have hnum : ntohsAt mem 3 = keys.length := by
    rw [ntohsAt, hnum, ofBytes_toBytes_of_lt (by omega)]
  have hhead : (readHead mem blob.length).2 =
      some ⟨some 5, 5 + 2 * keys.length, keys.length, getStaticTimeMaxIdxOfDay T, false⟩ := by
    rw [readHead, htype, if_neg (by decide), if_pos rfl, htime, if_pos hT, hnum, hlen, if_pos rfl]
  have hgives : Gives mem ⟨some 5, 5 + 2 * keys.length, keys.length, getStaticTimeMaxIdxOfDay T, false⟩
      keys v := by
    refine ⟨rfl, rfl, ?_, ?_, fun k hk => (hkeys k hk).le⟩
    · intro i k hi
      exact field_of_stands (f := id) (fun y hy => (hkeys y hy).trans_le (hmax.trans (by decide))) hidx hi
    · intro i k hi
      exact field_of_stands (f := fun y => (v y).toNat) (fun y _ => (v y).toNat_lt) hvals hi
  exact getAttrDayVal_iReport hhead hgives hnodup k

/-- The values of a day as `ChangeAttrSaveType` has them: not all zero, and none behind the last
index with a report. -/
structure DayValues.Ok (T : Nat) (d : DayValues) : Prop where
  max : d.dwMax ≠ 0
  some : ∃ k, d.arrydwValue k ≠ 0
  last : ∀ k, d.arrydwValue k ≠ 0 → (k : Int) ≤ d.iMaxReportIdx
  below : d.iMaxReportIdx < getStaticTimeMaxIdxOfDay T

/-- The record of a day is read as the values of the day. -/
theorem record_roundTrip (hT : isValidStaticTime T = true) {d : DayValues} (hd : d.Ok T) :
    ∃ blob, changeAttrSaveType T d = some blob ∧ ∀ mem t, Stands mem 0 blob →
      ∀ k, (getAttrDayVal mem blob.length t).iReport k = d.arrydwValue k := by
  obtain ⟨k₀, hk₀⟩ := hd.some
  have hlast₀ := hd.last k₀ hk₀
  have hbelow := hd.below
  obtain ⟨hmax, -, -⟩ := maxIdx_le hT
  obtain ⟨m, hm⟩ : ∃ m : Nat, d.iMaxReportIdx = m := ⟨d.iMaxReportIdx.toNat, by omega⟩
  rw [hm] at hlast₀ hbelow
  have hlast : ∀ k, d.arrydwValue k ≠ 0 → k ≤ m := by
    intro k hk
    have := hd.last k hk
    omega
  have hzero : ∀ k, ¬k ≤ m → d.arrydwValue k = 0 := by
    intro k hk
    by_contra hne
    exact hk (hlast k hne)
  have hpass : ¬(d.dwMax = 0 ∨ d.iMaxReportIdx < 0 ∨ (COUNT_STATIC_TIMES_PER_DAY : Int) ≤ d.iMaxReportIdx ∨
      (getStaticTimeMaxIdxOfDay T : Int) ≤ d.iMaxReportIdx) := by
    rw [hm]
    unfold COUNT_STATIC_TIMES_PER_DAY
    rintro (hzero | hneg)
    · exact hd.max hzero
    · omega
  have hn : d.iMaxReportIdx.toNat + 1 = m + 1 := by
    rw [hm]
    rfl
  unfold changeAttrSaveType
  simp only [hpass, if_false, hn]
  obtain ⟨hidx, -, hvals⟩ := press_spec (m + 1) d.arrydwValue
  split
  · refine ⟨_, rfl, ?_⟩
    intro mem t hstands k
    have hbytes : arrayBytes (toNet (getStaticTimeMaxIdxOfDay T) d.arrydwValue) (getStaticTimeMaxIdxOfDay T) =
        (List.range (getStaticTimeMaxIdxOfDay T)).flatMap fun k => toBytes 4 (d.arrydwValue k).toNat := by
      have hnet : ∀ j k, (List.range (getStaticTimeMaxIdxOfDay T))[j]? = some k →
          toNet (getStaticTimeMaxIdxOfDay T) d.arrydwValue j = htonl (d.arrydwValue k) := by
        intro j k hj
        obtain ⟨hlt, rfl⟩ := range_getElem? hj
        rw [toNet_eq, if_pos hlt]
      have h := arrayBytes_eq hnet
      rw [List.length_range] at h
      exact h
    rw [read_array hT hbytes hstands]
    split
    · rfl
    · exact (hzero k (by omega)).symm
  · have hmem : k₀ ∈ reported d.arrydwValue (m + 1) := by
      rw [reported, List.mem_filter, List.mem_range]
      exact ⟨by have := hlast k₀ hk₀; omega, by simpa using hk₀⟩
    have hpos : 0 < (press (m + 1) d.arrydwValue).1.length := by
      rw [hidx]
      exact List.length_pos_of_mem hmem
    rw [if_pos hpos, hidx, arrayBytes_eq hvals]
    refine ⟨_, rfl, ?_⟩
    intro mem t hstands k
    have hle := length_reported_le d.arrydwValue (m + 1)
    have hnodup : (reported d.arrydwValue (m + 1)).Nodup := List.nodup_range.filter _
    have hkeys : ∀ k ∈ reported d.arrydwValue (m + 1), k < getStaticTimeMaxIdxOfDay T := by
      intro k hk
      have hk := List.mem_range.mp (List.mem_filter.mp hk).1
      omega
    rw [read_press hT hkeys hnodup (by omega) rfl hstands]
    split
    · rfl
    · rename_i hnot
      by_contra hne
      apply hnot
      have hne : d.arrydwValue k ≠ 0 := fun h => hne h.symm
      rw [reported, List.mem_filter, List.mem_range]
      exact ⟨by have := hlast k hne; omega, by simpa using hne⟩

end RoundTrip

section Collected

variable {T : Nat}

/-- What the collected values keep, row by row. -/
structure Collects (d : DayValues) : Prop where
  last : ∀ k, d.arrydwValue k ≠ 0 → (k : Int) ≤ d.iMaxReportIdx
  max : ∀ k, d.arrydwValue k ≤ d.dwMax

end Collected

end XrkMonitor.AttrDay
