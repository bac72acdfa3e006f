import Mathlib.Data.List.Perm.Subperm
import XrkMonitor.StrAttr.Pool

/-!
# The chain of one pair

The loops over a chain are described by the list of nodes that the chain runs through.
`Owned` says how the chain of one pair stands in the array, beside the nodes of the
other pairs, and each operation is shown to keep it and to leave the other nodes alone.
-/

namespace XrkMonitor.StrAttr

open Library

/-- The links of the nodes. -/
def nextOf (stInfo : Int → StrAttrNodeVal) (i : Int) : Int := (stInfo i).iNextStrAttr

/-- The strings and values of some nodes. -/
def contents (stInfo : Int → StrAttrNodeVal) (l : List Int) : List (CStr × Int) :=
  l.map fun i => ((stInfo i).szStrInfo, (stInfo i).iStrVal)

/-- The nodes of a list are free. -/
def clearedInfo (stInfo : Int → StrAttrNodeVal) (l : List Int) (i : Int) : StrAttrNodeVal :=
  if i ∈ l then
    { stInfo i with
      iStrVal := -1 }
  else stInfo i

section Loops

variable {stInfo : Int → StrAttrNodeVal} {idx : Int} {l : List Int} {w : Int} {n : Nat}

theorem clearNodes_path {fuel : Nat} (hpath : Path (nextOf stInfo) idx l (-1)) (hnd : l.Nodup)
    (hvalid : ∀ i ∈ l, validIdx i) (hfuel : l.length < fuel) :
    clearNodes fuel stInfo idx = some (clearedInfo stInfo l) := by
  induction l generalizing stInfo idx fuel with
  | nil =>
    obtain ⟨fuel, rfl⟩ := Nat.exists_eq_succ_of_ne_zero (Nat.ne_of_gt hfuel)
    obtain rfl : idx = -1 := hpath
    rfl
  | cons a l ih =>
    obtain ⟨fuel, rfl⟩ := Nat.exists_eq_succ_of_ne_zero (Nat.ne_of_gt (Nat.zero_lt_of_lt hfuel))
    obtain ⟨rfl, htail⟩ := hpath
    obtain ⟨ha, hl⟩ := List.nodup_cons.mp hnd
    have hva : validIdx idx := hvalid idx (by simp)
    have hsame : ∀ i ∈ l, nextOf stInfo i = nextOf
        (Function.update stInfo idx
          { stInfo idx with
            iStrVal := -1 }) i := by
      intro i hi
      have hne : i ≠ idx := fun h => ha (h ▸ hi)
      simp [nextOf, Function.update_of_ne hne]
    have hrest := ih ((path_congr hsame).mp htail) hl (fun i hi => hvalid i (by simp [hi]))
      (Nat.lt_of_succ_lt_succ hfuel)
    simp only [clearNodes, hva, reduceIte]
    refine hrest.trans ?_
    congr 1
    funext i
    by_cases hi : i = idx
    · simp [clearedInfo, hi, ha]
    · simp [clearedInfo, hi]

theorem searchStr_found {pstr : CStr} (hpath : Path (nextOf stInfo) idx l (-1))
    (hvalid : ∀ i ∈ l, validIdx i) (hmem : pstr ∈ (contents stInfo l).map Prod.fst) :
    ∃ i ∈ l, (stInfo i).szStrInfo = pstr ∧ searchStr stInfo pstr l.length idx = .found i := by
  induction l generalizing idx with
  | nil => simp [contents] at hmem
  | cons a l ih =>
    obtain ⟨rfl, htail⟩ := hpath
    have hva : validIdx idx := hvalid idx (by simp)
    by_cases hstr : (stInfo idx).szStrInfo = pstr
    · exact ⟨idx, by simp, hstr, by simp [searchStr, hva, hstr]⟩
    · have hmem' : pstr ∈ (contents stInfo l).map Prod.fst := by
        simp only [contents, List.map_cons, List.mem_cons] at hmem
        obtain heq | hmem := hmem
        · exact absurd heq.symm hstr
        · exact hmem
      obtain ⟨i, hi, his, hsearch⟩ := ih htail (fun i hi => hvalid i (by simp [hi])) hmem'
      have hne : l.length ≠ 0 := by
        rw [Ne, List.length_eq_zero_iff]
        exact List.ne_nil_of_mem hi
      refine ⟨i, by simp [hi], his, ?_⟩
      simpa [searchStr, hva, hstr, hne, nextOf] using hsearch

theorem searchStr_last {pstr : CStr} (hpath : Path (nextOf stInfo) idx l (-1))
    (hvalid : ∀ i ∈ l, validIdx i) (hmem : pstr ∉ (contents stInfo l).map Prod.fst) :
    searchStr stInfo pstr l.length idx = .last (l.getLast?.getD (-1)) := by
  induction l generalizing idx with
  | nil => rfl
  | cons a l ih =>
    obtain ⟨rfl, htail⟩ := hpath
    have hva : validIdx idx := hvalid idx (by simp)
    simp only [contents, List.map_cons, List.mem_cons, not_or] at hmem
    have hstr : ¬ (stInfo idx).szStrInfo = pstr := fun h => hmem.1 h.symm
    have hrest := ih htail (fun i hi => hvalid i (by simp [hi])) hmem.2
    cases l with
    | nil => simp [searchStr, hva, hstr]
    | cons b l =>
      simp only [List.length_cons, searchStr, hva, hstr, not_true, reduceIte, Nat.succ_ne_zero]
      simpa [searchStr, nextOf, List.getLast?_cons_cons] using hrest

theorem collectNodes_path (hpath : Path (nextOf stInfo) idx l (-1))
    (hvalid : ∀ i ∈ l, validIdx i) (hzero : (0 : Int) ∉ l) :
    collectNodes stInfo l.length idx = l.map fun i => ((stInfo i).iStrVal, i) := by
  induction l generalizing idx with
  | nil => rfl
  | cons a l ih =>
    obtain ⟨rfl, htail⟩ := hpath
    have hva : validIdx idx := hvalid idx (by simp)
    simp only [List.mem_cons, not_or] at hzero
    have hpos : 0 < idx ∧ idx < MAX_STR_ATTR_ARRY_NODE_VAL_COUNT :=
      ⟨lt_of_le_of_ne hva.1 hzero.1, hva.2⟩
    simp only [List.length_cons, collectNodes, hpos, and_self, reduceIte, List.map_cons]
    rw [← ih htail (fun i hi => hvalid i (by simp [hi])) hzero.2]
    rfl

theorem freeNodes_apply (stInfo : Int → StrAttrNodeVal) (l : List Int) (i : Int) :
    freeNodes stInfo l i =
      if i ∈ l then
        { stInfo i with
          iStrVal := -1
          iNextStrAttr := -1 }
      else stInfo i := by
  induction l generalizing stInfo with
  | nil => simp [freeNodes]
  | cons a l ih =>
    rw [freeNodes, ih]
    by_cases hi : i = a
    · by_cases hl : a ∈ l <;> simp [hi, hl]
    · simp [hi]

/-- A chain that is linked anew runs through its nodes in their order. -/
theorem relinkNodes_path (stInfo : Int → StrAttrNodeVal) {a : Int} {l : List Int}
    (hnd : (a :: l).Nodup) :
    Path (nextOf (relinkNodes stInfo a l).1) a (a :: l) (-1) ∧
    (relinkNodes stInfo a l).2 = (a :: l).getLast?.getD (-1) ∧
    (∀ i, i ∉ a :: l → (relinkNodes stInfo a l).1 i = stInfo i) ∧
    ∀ i, ((relinkNodes stInfo a l).1 i).szStrInfo = (stInfo i).szStrInfo ∧
      ((relinkNodes stInfo a l).1 i).iStrVal = (stInfo i).iStrVal := by
  induction l generalizing stInfo a with
  | nil =>
    refine ⟨⟨rfl, ?_⟩, rfl, ?_, ?_⟩
    · simp [relinkNodes, nextOf]
    · intro i hi
      have hne : i ≠ a := by simpa using hi
      simp [relinkNodes, Function.update_of_ne hne]
    · intro i
      by_cases hi : i = a
      · simp [relinkNodes, hi]
      · simp [relinkNodes, Function.update_of_ne hi]
  | cons b l ih =>
    obtain ⟨ha, hl⟩ := List.nodup_cons.mp hnd
    obtain ⟨hpath, hlast, hout, hval⟩ := ih
      (Function.update stInfo a
        { stInfo a with
          iNextStrAttr := b }) hl
    have houta := hout a ha
    rw [Function.update_self] at houta
    refine ⟨⟨rfl, ?_⟩, ?_, ?_, ?_⟩
    · have hnext : nextOf (relinkNodes stInfo a (b :: l)).1 a = b := by
        change ((relinkNodes _ b l).1 a).iNextStrAttr = b
        rw [houta]
      rw [hnext]
      exact hpath
    · rw [List.getLast?_cons_cons]
      exact hlast
    · intro i hi
      simp only [List.mem_cons, not_or] at hi
      refine (hout i (by simp [hi])).trans ?_
      exact Function.update_of_ne hi.1 _ _
    · intro i
      obtain ⟨hs, hv⟩ := hval i
      by_cases hi : i = a
      · subst hi
        rw [Function.update_self] at hs hv
        exact ⟨hs, hv⟩
      · rw [Function.update_of_ne hi] at hs hv
        exact ⟨hs, hv⟩

theorem nextWriteIdx_valid (hw : validIdx w) : validIdx (nextWriteIdx w) := by
  simp only [validIdx, nextWriteIdx, MAX_STR_ATTR_ARRY_NODE_VAL_COUNT] at hw ⊢
  omega

theorem nextWriteIdx_mod (hw : validIdx w) {j : Nat} :
    (nextWriteIdx w + j) % MAX_STR_ATTR_ARRY_NODE_VAL_COUNT =
      (w + ((j + 1 : Nat) : Int)) % MAX_STR_ATTR_ARRY_NODE_VAL_COUNT := by
  simp only [validIdx, nextWriteIdx, MAX_STR_ATTR_ARRY_NODE_VAL_COUNT] at hw ⊢
  omega

theorem findFree_none {w w' : Int} (hw : validIdx w)
    (h : findFree stInfo n w = (none, w')) (j : Nat) (hj : j < n) :
    0 < (stInfo ((w + j) % MAX_STR_ATTR_ARRY_NODE_VAL_COUNT)).iStrVal := by
  induction n generalizing w j with
  | zero => omega
  | succ n ih =>
    simp only [findFree] at h
    split at h
    · simp at h
    · next hpos =>
      cases j with
      | zero =>
        have hmod : (w + ((0 : Nat) : Int)) % MAX_STR_ATTR_ARRY_NODE_VAL_COUNT = w := by
          rw [Int.natCast_zero, Int.add_zero]
          exact Int.emod_eq_of_lt hw.1 hw.2
        rw [hmod]
        omega
      | succ j =>
        rw [← nextWriteIdx_mod hw]
        exact ih (nextWriteIdx_valid hw) h j (by omega)

theorem findFree_write (hw : validIdx w) :
    validIdx (findFree stInfo n w).2 := by
  induction n generalizing w with
  | zero => exact hw
  | succ n ih =>
    simp only [findFree]
    split
    · exact nextWriteIdx_valid hw
    · exact ih (nextWriteIdx_valid hw)

theorem findFree_some {w i w' : Int} (hw : validIdx w)
    (h : findFree stInfo n w = (some i, w')) : validIdx i ∧ (stInfo i).iStrVal ≤ 0 := by
  induction n generalizing w with
  | zero => simp [findFree] at h
  | succ n ih =>
    simp only [findFree] at h
    split at h
    · next hle =>
      obtain ⟨hi, -⟩ := Prod.mk.inj h
      obtain rfl := Option.some.inj hi
      exact ⟨hw, hle⟩
    · exact ih (nextWriteIdx_valid hw) h

theorem findFree_of_free (hw : validIdx w) {i : Int} (hi : validIdx i)
    (hfree : (stInfo i).iStrVal ≤ 0) :
    ∃ j w', findFree stInfo MAX_STR_ATTR_ARRY_NODE_VAL_COUNT w = (some j, w') ∧ validIdx j ∧
      (stInfo j).iStrVal ≤ 0 ∧ validIdx w' := by
  cases h : findFree stInfo MAX_STR_ATTR_ARRY_NODE_VAL_COUNT w with
  | mk r w' =>
    have hw' : validIdx (findFree stInfo MAX_STR_ATTR_ARRY_NODE_VAL_COUNT w).2 :=
      findFree_write hw
    rw [h] at hw'
    cases r with
    | some j =>
      obtain ⟨hj, hval⟩ := findFree_some hw h
      exact ⟨j, w', rfl, hj, hval, hw'⟩
    | none =>
      have hpos := findFree_none hw h ((i - w) % MAX_STR_ATTR_ARRY_NODE_VAL_COUNT).toNat
        (by simp only [MAX_STR_ATTR_ARRY_NODE_VAL_COUNT]; omega)
      have hidx : (w + (((i - w) % MAX_STR_ATTR_ARRY_NODE_VAL_COUNT).toNat : Int)) %
          MAX_STR_ATTR_ARRY_NODE_VAL_COUNT = i := by
        simp only [validIdx, MAX_STR_ATTR_ARRY_NODE_VAL_COUNT] at hi hw ⊢
        omega
      rw [hidx] at hpos
      omega

end Loops

/-- The chain of a pair runs through `l`, `others` are the nodes of the other pairs, and every other
node is free. -/
structure Owned (p : StrAttrNodeValShmInfo) (e : TStrAttrReportInfo) (l others : List Int) :
    Prop where
  path : Path (nextOf p.stInfo) e.iReportIdx l (-1)
  count : l.length = e.bStrCount
  countLe : e.bStrCount ≤ STR_ATTR_COUNT_FOR_SELECT_STR + MAX_STR_ATTR_STR_COUNT
  strs : ((contents p.stInfo l).map Prod.fst).Nodup
  nodup : (l ++ others).Nodup
  valid : ∀ i ∈ l ++ others, validIdx i
  used : ∀ i ∈ l ++ others, 0 < (p.stInfo i).iStrVal
  free : ∀ i, validIdx i → i ∉ l ++ others → (p.stInfo i).iStrVal ≤ 0
  nodeUse : p.iNodeUse = (l ++ others).length
  write : validIdx p.iWriteIdx

section Operations

variable {p : StrAttrNodeValShmInfo} {e : TStrAttrReportInfo} {l others : List Int} {pstr : CStr}

theorem contents_congr {f g : Int → StrAttrNodeVal} {l : List Int}
    (h : ∀ i ∈ l, (f i).szStrInfo = (g i).szStrInfo ∧ (f i).iStrVal = (g i).iStrVal) :
    contents f l = contents g l := by
  apply List.map_congr_left
  intro i hi
  rw [(h i hi).1, (h i hi).2]

@[simp] theorem contents_append (f : Int → StrAttrNodeVal) (l l' : List Int) :
    contents f (l ++ l') = contents f l ++ contents f l' := List.map_append

@[simp] theorem contents_length (f : Int → StrAttrNodeVal) (l : List Int) :
    (contents f l).length = l.length := List.length_map _

theorem toInt32_of_fits {x : Int} (hpos : 0 ≤ x) (hlt : x < 2 ^ 31) : toInt32 x = x := by
  rw [toInt32, Int.bmod_eq_of_le] <;> omega

/-- A chain that is cleared gives its nodes back. -/
theorem Owned.clear (h : Owned p e l others) (now mday : Nat) :
    ∃ p' e' l', checkClearStrAttrNodeShm p e now mday = some (p', e') ∧ Owned p' e' l' others ∧
      (∀ i ∈ others, p'.stInfo i = p.stInfo i) ∧
      contents p'.stInfo l' =
        (if dayChanged e now mday = true ∧ 0 < e.bStrCount then [] else contents p.stInfo l) ∧
      (e'.iAttrId, e'.iMachineId) = (e.iAttrId, e.iMachineId) ∧
      (¬ (dayChanged e now mday = true ∧ 0 < e.bStrCount) → p' = p ∧ e' = e ∧ l' = l) := by
  by_cases hc : dayChanged e now mday = true ∧ 0 < e.bStrCount
  · have hl : l.Nodup := (List.nodup_append.mp h.nodup).1
    have hdisj : ∀ i ∈ others, i ∉ l := by
      intro i hi hil
      exact (List.nodup_append.mp h.nodup).2.2 i hil i hi rfl
    have hle : l.length < MAX_STR_ATTR_ARRY_NODE_VAL_COUNT + 1 := by
      have hcount := h.count
      have hcountLe := h.countLe
      simp only [STR_ATTR_COUNT_FOR_SELECT_STR, MAX_STR_ATTR_STR_COUNT,
        MAX_STR_ATTR_ARRY_NODE_VAL_COUNT] at hcountLe ⊢
      omega
    have hclear := clearNodes_path h.path hl
      (fun i hi => h.valid i (List.mem_append_left _ hi)) hle
    have hkeep : ∀ i ∈ others, clearedInfo p.stInfo l i = p.stInfo i := by
      intro i hi
      exact if_neg (hdisj i hi)
    refine ⟨⟨p.iNodeUse - e.bStrCount, p.iWriteIdx, clearedInfo p.stInfo l⟩,
      ⟨e.iAttrId, e.iMachineId, e.dwLastReportTime, 0, -1, e.bLastReportDayOfMonth⟩,
      [], ?_, ?_, hkeep, ?_, rfl, ?_⟩
    · rw [checkClearStrAttrNodeShm, if_pos hc, hclear]
      rfl
    · constructor
      · rfl
      · rfl
      · exact Nat.zero_le _
      · exact List.nodup_nil
      · exact (List.nodup_append.mp h.nodup).2.1
      · intro i hi
        exact h.valid i (List.mem_append_right _ hi)
      · intro i hi
        simp only [hkeep i hi]
        exact h.used i (List.mem_append_right _ hi)
      · intro i hi hnot
        by_cases hil : i ∈ l
        · simp [clearedInfo, hil]
        · simp only [clearedInfo, hil, reduceIte]
          apply h.free i hi
          simpa [hil] using hnot
      · have huse := h.nodeUse
        have hcount := h.count
        simp only [List.length_append, List.nil_append] at huse ⊢
        omega
      · exact h.write
    · simp [hc, contents]
    · exact fun hno => absurd hc hno
  · refine ⟨p, e, l, ?_, h, fun _ _ => rfl, ?_, rfl, fun _ => ⟨rfl, rfl, rfl⟩⟩
    · rw [checkClearStrAttrNodeShm, if_neg hc]
    · rw [if_neg hc]

/-- A node that is added behind the last one. -/
theorem Owned.store (h : Owned p e l others) (p' : StrAttrNodeValShmInfo)
    (e' : TStrAttrReportInfo) (pstr : CStr) (val : Int) {j : Int} (hj : validIdx j)
    (hfree : (p.stInfo j).iStrVal ≤ 0)
    (hnew : pstr ∉ (contents p.stInfo l).map Prod.fst) (hval : 0 < val)
    (hroom : e.bStrCount < STR_ATTR_COUNT_FOR_SELECT_STR + MAX_STR_ATTR_STR_COUNT)
    (hpath : Path (nextOf p'.stInfo) e'.iReportIdx (l ++ [j]) (-1))
    (hcount : e'.bStrCount = e.bStrCount + 1)
    (hsame : ∀ i, i ≠ j → (p'.stInfo i).szStrInfo = (p.stInfo i).szStrInfo ∧
      (p'.stInfo i).iStrVal = (p.stInfo i).iStrVal)
    (hstored : (p'.stInfo j).szStrInfo = pstr ∧ (p'.stInfo j).iStrVal = val)
    (huse : p'.iNodeUse = p.iNodeUse + 1) (hwrite : validIdx p'.iWriteIdx) :
    Owned p' e' (l ++ [j]) others ∧
      contents p'.stInfo (l ++ [j]) = contents p.stInfo l ++ [(pstr, val)] := by
  have hjnot : j ∉ l ++ others := by
    intro hmem
    have := h.used j hmem
    omega
  have hne : ∀ i ∈ l ++ others, i ≠ j := by
    intro i hi heq
    exact hjnot (heq ▸ hi)
  have hcont : contents p'.stInfo (l ++ [j]) = contents p.stInfo l ++ [(pstr, val)] := by
    rw [contents_append, contents_congr fun i hi => hsame i (hne i (List.mem_append_left _ hi))]
    simp [contents, hstored]
  have hperm : (l ++ [j] ++ others).Perm (j :: (l ++ others)) := by
    rw [List.append_assoc, List.singleton_append]
    exact List.perm_middle
  refine ⟨?_, hcont⟩
  constructor
  · exact hpath
  · rw [List.length_append, h.count, hcount]
    rfl
  · rw [hcount]
    exact hroom
  · rw [hcont, List.map_append, List.nodup_append]
    refine ⟨h.strs, List.nodup_singleton _, ?_⟩
    intro a ha b hb heq
    obtain rfl := List.mem_singleton.mp hb
    exact hnew (heq ▸ ha)
  · rw [hperm.nodup_iff]
    exact List.nodup_cons.mpr ⟨hjnot, h.nodup⟩
  · intro i hi
    obtain rfl | hi := List.mem_cons.mp (hperm.mem_iff.mp hi)
    · exact hj
    · exact h.valid i hi
  · intro i hi
    obtain rfl | hi := List.mem_cons.mp (hperm.mem_iff.mp hi)
    · rw [hstored.2]
      exact hval
    · rw [(hsame i (hne i hi)).2]
      exact h.used i hi
  · intro i hi hnot
    have hnot' := mt hperm.mem_iff.mpr hnot
    simp only [List.mem_cons, not_or] at hnot'
    rw [(hsame i hnot'.1).2]
    exact h.free i hi hnot'.2
  · have hlen := hperm.length_eq
    have huse' := h.nodeUse
    rw [List.length_cons] at hlen
    rw [huse, huse', hlen]
    push_cast
    rfl
  · exact hwrite

/-- A new string is stored when there is a free node. -/
theorem Owned.storeStr (h : Owned p e l others) {val : Nat} (mday : Nat)
    (hroom : e.bStrCount < STR_ATTR_COUNT_FOR_SELECT_STR + MAX_STR_ATTR_STR_COUNT)
    (hfree : ∃ i, validIdx i ∧ (p.stInfo i).iStrVal ≤ 0) (hlen : pstr.length ≤ 64)
    (hval : 0 < val ∧ val < 2 ^ 31) (hnew : pstr ∉ (contents p.stInfo l).map Prod.fst) :
    ∃ p' e' l', storeStr p e (l.getLast?.getD (-1)) pstr val mday = (p', e') ∧
      Owned p' e' l' others ∧ (∀ i ∈ others, p'.stInfo i = p.stInfo i) ∧
      contents p'.stInfo l' = contents p.stInfo l ++ [(pstr, (val : Int))] ∧
      (e'.iAttrId, e'.iMachineId) = (e.iAttrId, e.iMachineId) := by
  obtain ⟨i, hi, hifree⟩ := hfree
  obtain ⟨j, w', hfind, hj, hjfree, hw'⟩ := findFree_of_free h.write hi hifree
  have hjnot : j ∉ l ++ others := by
    intro hmem
    have := h.used j hmem
    omega
  have hcut : pstr.take 64 = pstr := List.take_of_length_le hlen
  have hkept : toInt32 val = val := toInt32_of_fits (Int.natCast_nonneg _) (by omega)
  obtain rfl | ⟨l₀, b, rfl⟩ := List.eq_nil_or_concat' l
  · have hcount : e.bStrCount = 0 := h.count.symm
    have hinv : ¬ validIdx (([] : List Int).getLast?.getD (-1)) := by decide
    have hstore := h.store
      ⟨p.iNodeUse + 1, w', Function.update p.stInfo j ⟨pstr, val, -1⟩⟩
      ⟨e.iAttrId, e.iMachineId, e.dwLastReportTime, 1, j, mday⟩
      pstr val hj hjfree hnew (by omega) hroom
      (by simp [nextOf]) (by simp [hcount])
      (by intro i hne; simp [Function.update_of_ne hne]) (by simp) rfl hw'
    refine ⟨_, _, [j], ?_, hstore.1, ?_, hstore.2, rfl⟩
    · simp only [StrAttr.storeStr, hfind, hinv, reduceIte, hcut, hkept]
    · intro i hi
      exact Function.update_of_ne (fun heq => hjnot (by simp [← heq, hi])) _ _
  · have hb : validIdx b := h.valid b (by simp)
    have hbj : b ≠ j := fun heq => hjnot (by simp [← heq])
    have hl : (l₀ ++ [b]).Nodup := (List.nodup_append.mp h.nodup).1
    have hjl : j ∉ l₀ ++ [b] := fun hmem => hjnot (List.mem_append_left _ hmem)
    have hnext : nextOf p.stInfo b = -1 := (path_concat.mp h.path).2
    have hpath := h.path.insert_after hl hjl
    rw [hnext] at hpath
    have hinc : wordInc 8 e.bStrCount = e.bStrCount + 1 := by
      apply wordInc_of_lt
      simp only [STR_ATTR_COUNT_FOR_SELECT_STR, MAX_STR_ATTR_STR_COUNT] at hroom
      omega
    have hlast : (l₀ ++ [b]).getLast?.getD (-1) = b := by simp
    have hlink : nextOf (Function.update (Function.update p.stInfo j ⟨pstr, val, -1⟩) b
        { p.stInfo b with
          iNextStrAttr := j }) =
        Function.update (Function.update (nextOf p.stInfo) j (-1)) b j := by
      funext i
      by_cases hib : i = b
      · simp [nextOf, hib]
      · by_cases hij : i = j
        · simp [nextOf, hij, hbj.symm]
        · simp [nextOf, hib, hij]
    have hstore := h.store
      ⟨p.iNodeUse + 1, w',
        Function.update (Function.update p.stInfo j ⟨pstr, val, -1⟩) b
          { p.stInfo b with
            iNextStrAttr := j }⟩
      ⟨e.iAttrId, e.iMachineId, e.dwLastReportTime, e.bStrCount + 1, e.iReportIdx, mday⟩
      pstr val hj hjfree hnew (by omega) hroom
      (by rw [hlink]; simpa using hpath) rfl
      (by
        intro i hne
        by_cases hib : i = b
        · simp [hib]
        · simp [hib, hne])
      (by simp [hbj.symm]) rfl hw'
    refine ⟨_, _, l₀ ++ [b] ++ [j], ?_, hstore.1, ?_, hstore.2, rfl⟩
    · simp only [StrAttr.storeStr, hfind, hlast, hb, reduceIte, hcut, hkept, hinc,
        Function.update_of_ne hbj]
    · intro i hi
      have hib : i ≠ b := by
        rintro rfl
        exact (List.nodup_append.mp h.nodup).2.2 i (by simp) i hi rfl
      have hij : i ≠ j := fun heq => hjnot (by simp [← heq, hi])
      change Function.update _ _ _ i = _
      rw [Function.update_of_ne hib, Function.update_of_ne hij]

/-- The strings of a chain by their values, equal values in the order of the chain. -/
def sortContent (xs : List (CStr × Int)) : List (CStr × Int) :=
  xs.insertionSort fun a b => a.2 ≤ b.2

theorem Owned.repMap (h : Owned p e l others) (hzero : (0 : Int) ∉ l) :
    ∃ ls : List Int, repMap p.stInfo e = ls.map (fun i => ((p.stInfo i).iStrVal, i)) ∧
      ls.Perm l ∧ contents p.stInfo ls = sortContent (contents p.stInfo l) := by
  have hcollect := collectNodes_path h.path (fun i hi => h.valid i (List.mem_append_left _ hi)) hzero
  rw [h.count] at hcollect
  have hsort : StrAttr.repMap p.stInfo e =
      (l.insertionSort fun i j => (p.stInfo i).iStrVal ≤ (p.stInfo j).iStrVal).map
        fun i => ((p.stInfo i).iStrVal, i) := by
    rw [StrAttr.repMap, hcollect]
    exact (List.map_insertionSort (fun i j => (p.stInfo i).iStrVal ≤ (p.stInfo j).iStrVal)
      (fun a b : Int × Int => a.1 ≤ b.1) _ l (by simp)).symm
  refine ⟨_, hsort, List.perm_insertionSort _ _, ?_⟩
  exact List.map_insertionSort (fun i j => (p.stInfo i).iStrVal ≤ (p.stInfo j).iStrVal)
    (fun a b : CStr × Int => a.2 ≤ b.2) _ l (by simp)

/-- A full chain without node 0 keeps the strings with the largest values. -/
theorem Owned.evict (h : Owned p e l others) (hzero : (0 : Int) ∉ l)
    (hfull : e.bStrCount = STR_ATTR_COUNT_FOR_SELECT_STR + MAX_STR_ATTR_STR_COUNT) :
    ∃ p' e' l', evictNodes p e = some (p', e', l'.getLast?.getD (-1)) ∧ Owned p' e' l' others ∧
      (∀ i ∈ others, p'.stInfo i = p.stInfo i) ∧
      contents p'.stInfo l' =
        (sortContent (contents p.stInfo l)).drop STR_ATTR_COUNT_FOR_SELECT_STR ∧
      (e'.iAttrId, e'.iMachineId) = (e.iAttrId, e.iMachineId) ∧
      e'.bStrCount = MAX_STR_ATTR_STR_COUNT ∧ ∃ i, validIdx i ∧ (p'.stInfo i).iStrVal ≤ 0 := by
  obtain ⟨ls, hmap, hperm, hcont⟩ := h.repMap hzero
  have hlen : ls.length = 28 := by
    rw [hperm.length_eq, h.count, hfull]
    rfl
  have hnd : (ls ++ others).Nodup := (hperm.append_right others).nodup_iff.mpr h.nodup
  have hls : ls.Nodup := (List.nodup_append.mp hnd).1
  obtain ⟨removed, kept, hsplit, hrem, hkept⟩ : ∃ removed kept, ls = removed ++ kept ∧
      removed = ls.take 8 ∧ kept = ls.drop 8 :=
    ⟨_, _, (List.take_append_drop 8 ls).symm, rfl, rfl⟩
  have hremlen : removed.length = 8 := by simp [hrem, hlen]
  have hkeptlen : kept.length = 20 := by simp [hkept, hlen]
  obtain ⟨k, ks, hk⟩ : ∃ k ks, kept = k :: ks := by
    apply List.exists_cons_of_length_pos
    omega
  have hdisj : ∀ i ∈ kept, i ∉ removed := by
    intro i hi hir
    rw [hsplit] at hls
    exact (List.nodup_append.mp hls).2.2 i hir i hi rfl
  have hout : ∀ i ∈ others, i ∉ ls := by
    intro i hi hil
    exact (List.nodup_append.mp hnd).2.2 i hil i hi rfl
  have hknd : (k :: ks).Nodup := by
    rw [← hk]
    rw [hsplit] at hls
    exact (List.nodup_append.mp hls).2.1
  obtain ⟨hpath, hlast, hoff, hsame⟩ := relinkNodes_path (freeNodes p.stInfo removed) hknd
  obtain ⟨stInfo', hst⟩ : ∃ f, f = (relinkNodes (freeNodes p.stInfo removed) k ks).1 := ⟨_, rfl⟩
  rw [← hst] at hpath hoff hsame
  rw [← hk] at hpath hoff hlast
  have hsv : ∀ i, i ∉ removed → (stInfo' i).szStrInfo = (p.stInfo i).szStrInfo ∧
      (stInfo' i).iStrVal = (p.stInfo i).iStrVal := by
    intro i hi
    have hs := hsame i
    rw [freeNodes_apply, if_neg hi] at hs
    exact hs
  have hfree : ∀ i ∈ removed, (stInfo' i).iStrVal ≤ 0 := by
    intro i hi
    rw [(hsame i).2, freeNodes_apply, if_pos hi]
    exact Int.neg_nonpos_of_nonneg Int.one_nonneg
  have hkeptcont : contents stInfo' kept = contents p.stInfo kept :=
    contents_congr fun i hi => hsv i (hdisj i hi)
  have hsub : ∀ i ∈ kept ++ others, i ∈ ls ++ others := by
    intro i hi
    rw [hsplit, List.append_assoc]
    exact List.mem_append_right _ hi
  have hnotrem : ∀ i ∈ kept ++ others, i ∉ removed := by
    intro i hi hir
    obtain hi | hi := List.mem_append.mp hi
    · exact hdisj i hi hir
    · exact hout i hi (by rw [hsplit]; exact List.mem_append_left _ hir)
  have hmem : ∀ i, i ∈ ls ++ others ↔ i ∈ l ++ others := fun i =>
    (hperm.append_right others).mem_iff
  refine ⟨⟨p.iNodeUse - 8, p.iWriteIdx, stInfo'⟩,
    ⟨e.iAttrId, e.iMachineId, e.dwLastReportTime, 20, k, e.bLastReportDayOfMonth⟩, kept,
    ?_, ?_, ?_, ?_, rfl, rfl, ?_⟩
  · have htake : ((StrAttr.repMap p.stInfo e).take STR_ATTR_COUNT_FOR_SELECT_STR).map Prod.snd =
        removed := by
      rw [hmap, ← List.map_take, List.map_map, hrem]
      exact List.map_id _
    have hdrop : ((StrAttr.repMap p.stInfo e).drop STR_ATTR_COUNT_FOR_SELECT_STR).map Prod.snd =
        k :: ks := by
      rw [hmap, ← List.map_drop, List.map_map, ← hk, hkept]
      exact List.map_id _
    simp only [evictNodes, htake, hdrop, hfull, ← hst, hlast]
    rfl
  · constructor
    · rw [hk] at hpath ⊢
      exact hpath
    · exact hkeptlen
    · exact Nat.le_add_left 20 8
    · have hall : ((contents p.stInfo ls).map Prod.fst).Nodup :=
        ((hperm.map _).map Prod.fst).nodup_iff.mpr h.strs
      rw [hkeptcont]
      rw [hsplit, contents_append, List.map_append] at hall
      exact (List.nodup_append.mp hall).2.1
    · rw [hsplit, List.append_assoc] at hnd
      exact (List.nodup_append.mp hnd).2.1
    · intro i hi
      exact h.valid i ((hmem i).mp (hsub i hi))
    · intro i hi
      change 0 < (stInfo' i).iStrVal
      rw [(hsv i (hnotrem i hi)).2]
      exact h.used i ((hmem i).mp (hsub i hi))
    · intro i hi hnot
      by_cases hir : i ∈ removed
      · exact hfree i hir
      · change (stInfo' i).iStrVal ≤ 0
        rw [(hsv i hir).2]
        apply h.free i hi
        rw [← hmem i, hsplit, List.append_assoc]
        simp only [List.mem_append, not_or] at hnot ⊢
        exact ⟨hir, hnot⟩
    · have huse := h.nodeUse
      have hcount := h.count
      simp only [List.length_append, hfull, STR_ATTR_COUNT_FOR_SELECT_STR,
        MAX_STR_ATTR_STR_COUNT, hkeptlen] at huse hcount ⊢
      omega
    · exact h.write
  · intro i hi
    have hil := hout i hi
    rw [hsplit, List.mem_append, not_or] at hil
    change stInfo' i = _
    rw [hoff i hil.2, freeNodes_apply, if_neg hil.1]
  · change contents stInfo' kept = _
    rw [hkeptcont, ← hcont, hkept]
    exact List.map_drop
  · obtain ⟨i, is, hi⟩ : ∃ i is, removed = i :: is := by
      apply List.exists_cons_of_length_pos
      omega
    have hmemr : i ∈ removed := by simp [hi]
    refine ⟨i, ?_, hfree i hmemr⟩
    apply h.valid i
    rw [← hmem i, hsplit]
    simp [hmemr]

/-- The strings of a chain after a report: the value is added, or the string comes last, behind what
a full chain keeps. -/
def reportContent (xs : List (CStr × Int)) (pstr : CStr) (val : Int) : List (CStr × Int) :=
  if pstr ∈ xs.map Prod.fst then
    xs.map fun x => if x.1 = pstr then (x.1, x.2 + val) else x
  else
    (if STR_ATTR_COUNT_FOR_SELECT_STR + MAX_STR_ATTR_STR_COUNT ≤ xs.length then
      (sortContent xs).drop STR_ATTR_COUNT_FOR_SELECT_STR
    else xs) ++ [(pstr, val)]

/-- The indices of the array. -/
def allIdx : List Int := (List.range MAX_STR_ATTR_ARRY_NODE_VAL_COUNT).map fun n : Nat => (n : Int)

theorem mem_allIdx {i : Int} : i ∈ allIdx ↔ validIdx i := by
  simp only [allIdx, List.mem_map, List.mem_range]
  constructor
  · rintro ⟨n, hn, rfl⟩
    exact ⟨Int.natCast_nonneg n, Int.ofNat_lt.mpr hn⟩
  · rintro ⟨hpos, hlt⟩
    exact ⟨i.toNat, (Int.toNat_lt hpos).mpr hlt, Int.toNat_of_nonneg hpos⟩

theorem allIdx_nodup : allIdx.Nodup := List.nodup_range.map Int.ofNat_injective

theorem allIdx_length : allIdx.length = MAX_STR_ATTR_ARRY_NODE_VAL_COUNT := by
  rw [allIdx, List.length_map, List.length_range]

theorem length_le_of_valid {l : List Int} (hnd : l.Nodup) (hvalid : ∀ i ∈ l, validIdx i) :
    l.length ≤ MAX_STR_ATTR_ARRY_NODE_VAL_COUNT := by
  rw [← allIdx_length]
  exact (List.subperm_of_subset hnd fun i hi => mem_allIdx.mpr (hvalid i hi)).length_le

theorem Owned.exists_free (h : Owned p e l others)
    (hlt : p.iNodeUse < MAX_STR_ATTR_ARRY_NODE_VAL_COUNT) :
    ∃ i, validIdx i ∧ (p.stInfo i).iStrVal ≤ 0 := by
  by_contra hno
  have hall : ∀ i, validIdx i → i ∈ l ++ others := by
    intro i hi
    by_contra hnot
    exact hno ⟨i, hi, h.free i hi hnot⟩
  have hlen : allIdx.length ≤ (l ++ others).length :=
    (List.subperm_of_subset allIdx_nodup fun i hi => hall i (mem_allIdx.mp hi)).length_le
  have huse := h.nodeUse
  rw [allIdx_length] at hlen
  omega

/-- The value of a string that is there grows. -/
theorem Owned.addFound (h : Owned p e l others) (val : Int) {i : Int} (mday : Nat)
    (hi : i ∈ l)
    (his : (p.stInfo i).szStrInfo = pstr) (hpos : 0 < (p.stInfo i).iStrVal + val) :
    Owned
      { p with
        stInfo := Function.update p.stInfo i
          { p.stInfo i with
            iStrVal := (p.stInfo i).iStrVal + val } }
      { e with
        bLastReportDayOfMonth := mday } l others ∧
    contents
        (Function.update p.stInfo i
          { p.stInfo i with
            iStrVal := (p.stInfo i).iStrVal + val }) l =
      reportContent (contents p.stInfo l) pstr val := by
  have hstr : ∀ j, (Function.update p.stInfo i
      { p.stInfo i with
        iStrVal := (p.stInfo i).iStrVal + val } j).szStrInfo = (p.stInfo j).szStrInfo := by
    intro j
    by_cases hj : j = i
    · simp [hj]
    · simp [hj]
  have hmem : pstr ∈ (contents p.stInfo l).map Prod.fst := by
    simp only [contents, List.map_map, List.mem_map, Function.comp_apply]
    exact ⟨i, hi, his⟩
  have hinj : ∀ j ∈ l, (p.stInfo j).szStrInfo = pstr → j = i := by
    intro j hj hjs
    have hnd : (l.map fun i => (p.stInfo i).szStrInfo).Nodup := by
      have hstrs := h.strs
      rwa [contents, List.map_map] at hstrs
    exact List.inj_on_of_nodup_map hnd hj hi (hjs.trans his.symm)
  refine ⟨?_, ?_⟩
  · constructor
    · refine (path_congr ?_).mp h.path
      intro j _
      by_cases hj : j = i
      · simp [nextOf, hj]
      · simp [nextOf, hj]
    · exact h.count
    · exact h.countLe
    · have hstrs := h.strs
      rw [contents, List.map_map] at hstrs ⊢
      simpa only [Function.comp_def, hstr] using hstrs
    · exact h.nodup
    · exact h.valid
    · intro j hj
      by_cases hji : j = i
      · simpa [hji] using hpos
      · simpa [hji] using h.used j hj
    · intro j hj hnot
      have hji : j ≠ i := fun heq => hnot (by simp [heq, hi])
      simpa [hji] using h.free j hj hnot
    · exact h.nodeUse
    · exact h.write
  · rw [reportContent, if_pos hmem, contents, contents, List.map_map]
    apply List.map_congr_left
    intro j hj
    simp only [Function.comp_apply, hstr]
    by_cases hji : j = i
    · simp [hji, his]
    · have hne : (p.stInfo j).szStrInfo ≠ pstr := fun heq => hji (hinj j hj heq)
      simp [hji, hne]

/-- A report keeps the chain and adds to its strings. -/
theorem Owned.addStr (h : Owned p e l others) {val : Nat} (mday : Nat)
    (hlen : pstr.length ≤ 64) (hval : 0 < val)
    (hfits : ∀ x ∈ contents p.stInfo l, x.1 = pstr → x.2 + val < 2 ^ 31) (hfits' : val < 2 ^ 31)
    (hnew : pstr ∉ (contents p.stInfo l).map Prod.fst →
      if e.bStrCount < STR_ATTR_COUNT_FOR_SELECT_STR + MAX_STR_ATTR_STR_COUNT then
        ∃ i, validIdx i ∧ (p.stInfo i).iStrVal ≤ 0
      else (0 : Int) ∉ l) :
    ∃ p' e' l', addStr p e pstr val mday = some (p', e') ∧ Owned p' e' l' others ∧
      (∀ i ∈ others, p'.stInfo i = p.stInfo i) ∧
      contents p'.stInfo l' = reportContent (contents p.stInfo l) pstr val ∧
      (e'.iAttrId, e'.iMachineId) = (e.iAttrId, e.iMachineId) := by
  have hvalid : ∀ i ∈ l, validIdx i := fun i hi => h.valid i (List.mem_append_left _ hi)
  by_cases hmem : pstr ∈ (contents p.stInfo l).map Prod.fst
  · obtain ⟨i, hi, his, hsearch⟩ := searchStr_found h.path hvalid hmem
    rw [h.count] at hsearch
    have hpos := h.used i (List.mem_append_left _ hi)
    have hsum : toInt32 ((p.stInfo i).iStrVal + val) = (p.stInfo i).iStrVal + val := by
      apply toInt32_of_fits
      · omega
      · exact hfits _ (List.mem_map_of_mem hi) his
    obtain ⟨howned, hcont⟩ := h.addFound val mday hi his (by omega)
    refine ⟨_, _, l, ?_, howned, ?_, hcont, rfl⟩
    · simp only [StrAttr.addStr, hsearch, hsum]
    · intro j hj
      have hji : j ≠ i := by
        rintro rfl
        exact (List.nodup_append.mp h.nodup).2.2 j hi j hj rfl
      exact Function.update_of_ne hji _ _
  · have hsearch := searchStr_last h.path hvalid hmem
    rw [h.count] at hsearch
    have hlen' : (contents p.stInfo l).length = e.bStrCount := by
      rw [contents_length, h.count]
    by_cases hroom : e.bStrCount < STR_ATTR_COUNT_FOR_SELECT_STR + MAX_STR_ATTR_STR_COUNT
    · have hfree := hnew hmem
      rw [if_pos hroom] at hfree
      obtain ⟨p', e', l', hstore, howned, hframe, hcont, hkey⟩ :=
        h.storeStr mday hroom hfree hlen ⟨hval, hfits'⟩ hmem
      refine ⟨p', e', l', ?_, howned, hframe, ?_, hkey⟩
      · simp only [StrAttr.addStr, hsearch, Nat.not_le.mpr hroom, reduceIte, hstore]
      · rw [hcont, reportContent, if_neg hmem, hlen', if_neg (Nat.not_le.mpr hroom)]
    · have hzero := hnew hmem
      rw [if_neg hroom] at hzero
      have hfull : e.bStrCount = STR_ATTR_COUNT_FOR_SELECT_STR + MAX_STR_ATTR_STR_COUNT :=
        Nat.le_antisymm h.countLe (Nat.le_of_not_lt hroom)
      obtain ⟨p₁, e₁, l₁, hevict, howned₁, hframe₁, hcont₁, hkey₁, hcount₁, hfree₁⟩ :=
        h.evict hzero hfull
      have hsub : ∀ x ∈ contents p₁.stInfo l₁, x ∈ contents p.stInfo l := by
        intro x hx
        rw [hcont₁] at hx
        exact (List.perm_insertionSort _ _).mem_iff.mp (List.mem_of_mem_drop hx)
      have hmem₁ : pstr ∉ (contents p₁.stInfo l₁).map Prod.fst := by
        intro hin
        obtain ⟨x, hx, hxs⟩ := List.mem_map.mp hin
        exact hmem (List.mem_map.mpr ⟨x, hsub x hx, hxs⟩)
      have hroom₁ : e₁.bStrCount < STR_ATTR_COUNT_FOR_SELECT_STR + MAX_STR_ATTR_STR_COUNT := by
        rw [hcount₁]
        decide
      obtain ⟨p', e', l', hstore, howned, hframe, hcont, hkey⟩ :=
        howned₁.storeStr mday hroom₁ hfree₁ hlen ⟨hval, hfits'⟩ hmem₁
      refine ⟨p', e', l', ?_, howned, ?_, ?_, hkey.trans hkey₁⟩
      · simp only [StrAttr.addStr, hsearch]
        rw [if_pos (Nat.le_of_not_lt hroom), hevict]
        simp only [Option.bind_eq_bind, Option.bind_some, hstore]
      · intro i hi
        rw [hframe i hi, hframe₁ i hi]
      · rw [hcont, hcont₁, reportContent, if_neg hmem, hlen', if_pos (Nat.le_of_not_lt hroom)]

end Operations

end XrkMonitor.StrAttr
