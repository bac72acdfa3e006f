import XrkMonitor.Attr.StrReport
import XrkMonitor.Attr.Sums
import XrkMonitor.SharedHash.Runs

/-!
# Conservation of string attribute counters

A run is any sequence of tries of `MtReport_Str_Attr_Add` calls and of rounds of
`ReadStrAttr` drains. What was added of an attribute and a string is what was
drained and what is still there, as long as every try that returns `0` finds a
cell and gets the flag, and as long as the search in a batch does not miss an
entry of the node's key.

## Implementation notes

`MtReport_Str_Attr_Add` returns `0` also when its search gives no cell, and it
does not look at what `InsertHashNode` returns. The search in a batch is by
another order than the sorting, so it misses entries; this shows when a key
comes back during a drain.
-/

namespace XrkMonitor.Attr

open Library SharedHash SharedHashTable

/-- The call that a step tries. -/
def StrRun.callOf (r : StrRun) : StrCall → Option StrAdd
  | .add _ attr pstr iValue =>
    if attr ≤ 0 ∨ iValue ≤ 0 then none else some ⟨attr, pstr, iValue, 0⟩
  | .tryAgain _ i => r.sleeping[i]?
  | _ => none

/-- The flag that a step meets. -/
def StrCall.env : StrCall → LockEnv
  | .add env _ _ _ => env
  | .tryAgain env _ => env
  | .readStep env => env
  | _ => ⟨fun _ => false, 0, 0⟩

/-- A string fits into a node. -/
def FitsNode (pstr : List UInt8) : Prop := pstr.length ≤ 64 ∧ ∀ b ∈ pstr, b ≠ 0

instance (pstr : List UInt8) : Decidable (FitsNode pstr) := inferInstanceAs (Decidable (_ ∧ _))

/-- The step is possible, and keeps the sums within `int32_t`; the strings of calls fit into a
node. -/
def StrPromised (r : StrRun) (call : StrCall) : Prop :=
  (∀ a ∈ r.callOf call, FitsNode a.pstr ∧ strAddedOf (a.attr, a.pstr) r.added + a.iValue < 2 ^ 31) ∧
    match call with
    | .add _ _ _ _ => True
    | .tryAgain _ i => i < r.sleeping.length
    | .readBegin => r.reading = none
    | .readStep _ => r.reading.isSome = true
    | .contend c _ => r.table.used c = false

/-- The try gives up, finds the counter, finds a cell that is held, or finds a cell and gets the
flag. -/
def TryRecords (env : LockEnv) (t : SharedHashTable StrAttrNode) (a : StrAdd) : Prop :=
  10 < a.bCheckCount ∨
    (a.search t).2.isSome = true ∧ ∀ c ∈ (a.search t).2, (a.search t).1 = true ∨
      0 < (t.node c).bSyncProcess ∧ (t.node c).bSyncProcess < 10 ∨ lockLoop env false = true

/-- The search in the batch does not miss an entry of the node's key. -/
def SearchFinds (stStrAttrRead : List StrAttrNode) (node : StrAttrNode) : Prop :=
  node.key ∈ stStrAttrRead.map StrAttrNode.key →
    (bsearch (strAttrCmp node) stStrAttrRead).isSome = true

/-- The round ends the drain, or gets the flag and does not split a key. -/
def RoundKeeps (env : LockEnv) (t : SharedHashTable StrAttrNode) (rd : StrRead) : Prop :=
  ∀ c ∈ rd.pNode, rd.stStrAttrRead.length < MAX_STR_ATTR_READ_PER_EACH →
    lockLoop env false = true ∧ SearchFinds rd.stStrAttrRead (t.node c)

/-- A try of a call records what it returns `0` for, and a round of a drain neither loses nor splits
a key. -/
def StrRecordable (r : StrRun) (call : StrCall) : Prop :=
  (∀ a ∈ r.callOf call, TryRecords call.env r.table a) ∧
    match call with
    | .readStep env => ∀ rd ∈ r.reading, RoundKeeps env r.table rd
    | _ => True

section Decide

instance (r : StrRun) : ∀ call, Decidable (StrPromised r call)
  | .add _ _ _ _ => inferInstanceAs (Decidable (_ ∧ True))
  | .tryAgain _ _ => inferInstanceAs (Decidable (_ ∧ _ < _))
  | .readBegin =>
    have : Decidable (r.reading = none) :=
      decidable_of_iff (r.reading.isNone = true) Option.isNone_iff_eq_none
    inferInstanceAs (Decidable (_ ∧ r.reading = none))
  | .readStep _ => inferInstanceAs (Decidable (_ ∧ _ = true))
  | .contend _ _ => inferInstanceAs (Decidable (_ ∧ _ = false))

instance (env : LockEnv) (t : SharedHashTable StrAttrNode) (a : StrAdd) :
    Decidable (TryRecords env t a) := inferInstanceAs (Decidable (_ ∨ _))

instance (b : List StrAttrNode) (node : StrAttrNode) : Decidable (SearchFinds b node) :=
  inferInstanceAs (Decidable (_ → _))

instance (env : LockEnv) (t : SharedHashTable StrAttrNode) (rd : StrRead) :
    Decidable (RoundKeeps env t rd) := inferInstanceAs (Decidable (∀ c ∈ rd.pNode, _))

instance (r : StrRun) : ∀ call, Decidable (StrRecordable r call)
  | .add _ _ _ _ => inferInstanceAs (Decidable (_ ∧ True))
  | .tryAgain _ _ => inferInstanceAs (Decidable (_ ∧ True))
  | .readBegin => inferInstanceAs (Decidable (_ ∧ True))
  | .readStep _ => inferInstanceAs (Decidable (_ ∧ ∀ rd ∈ r.reading, _))
  | .contend _ _ => inferInstanceAs (Decidable (_ ∧ True))

end Decide

section Compare

theorem strcmp_eq_zero {as bs : List UInt8} (h : strcmp as bs = 0) : as = bs := by
  induction as generalizing bs with
  | nil =>
    cases bs with
    | nil => rfl
    | cons b bs => simp [strcmp] at h
  | cons a as ih =>
    cases bs with
    | nil => simp [strcmp] at h
    | cons b bs =>
      simp only [strcmp] at h
      split at h
      · simp at h
      · rename_i hab
        split at h
        · simp at h
        · rename_i hba
          rw [ih h, UInt8.le_antisymm (UInt8.not_lt.mp hba) (UInt8.not_lt.mp hab)]

variable {x y : StrAttrNode}

theorem key_of_mtreportStrAttrCmp (h : mtreportStrAttrCmp x y = 0) :
    x.key = y.key := by
  unfold mtreportStrAttrCmp at h
  split at h
  · rename_i heq
    exact Prod.ext heq.1 (strcmp_eq_zero heq.2)
  · cases h

theorem key_of_strAttrCmp (h : strAttrCmp x y = 0) : x.key = y.key := by
  unfold strAttrCmp at h
  split at h
  · rename_i heq
    exact Prod.ext heq.1 (strcmp_eq_zero heq.2)
  · split at h
    · cases h
    · cases h

end Compare

section Try

variable {t : SharedHashTable StrAttrNode} {l : List Nat} {env : LockEnv} {a : StrAdd} {c : Nat}

/-- The string attribute table between two steps. -/
def StrTableOk (t : SharedHashTable StrAttrNode) (l : List Nat) : Prop :=
  CountersOk mtreportStrAttrCmp StrAttrNode.iStrVal t l

/-- What a try may leave of the table. -/
structure TryOk (t : SharedHashTable StrAttrNode) (a : StrAdd)
    (x : Option Int × SharedHashTable StrAttrNode) : Prop where
  table : ∃ l, StrTableOk x.2 l
  kept : CursorKept t x.2
  sum : ∀ k, strSumOf k x.2.usedNodes =
    strSumOf k t.usedNodes + if x.1 = some 0 ∧ (a.attr, a.pstr) = k then a.iValue else 0

theorem key_stRecord (h : FitsNode a.pstr) : a.stRecord.key = (a.attr, a.pstr) :=
  Prod.ext rfl (CharBuf.str_strncpy h.2 h.1)

theorem StrTableOk.grow (h : StrTableOk t l) (hc : c ∈ l)
    (hkey : (t.node c).key = (a.attr, a.pstr)) (hv : 0 < a.iValue)
    (hmax : strSumOf (a.attr, a.pstr) t.usedNodes + a.iValue < 2 ^ 31) :
    TryOk t a
      (some 0, t.setNode c { t.node c with iStrVal := int32 ((t.node c).iStrVal + a.iValue) }) := by
  have hpos := h.pos c hc
  have hle : (t.node c).iStrVal ≤ strSumOf (t.node c).key (l.map t.node) :=
    val_le_keyedSum h.pos_nodes (List.mem_map_of_mem hc)
  have hsum : strSumOf (t.node c).key t.usedNodes = strSumOf (t.node c).key (l.map t.node) :=
    h.keyedSum_usedNodes _ _
  rw [← hkey] at hmax
  rw [int32_of_range (by omega) (by omega)]
  obtain ⟨hok, hsum⟩ := h.setUsedNode StrAttrNode.key hc
    (n := { t.node c with iStrVal := (t.node c).iStrVal + a.iValue }) (by simp only; omega)
  refine ⟨⟨l, hok⟩, CursorKept.setNode t c _, ?_⟩
  intro k
  have hk : ({ t.node c with iStrVal := (t.node c).iStrVal + a.iValue } : StrAttrNode).key =
      (t.node c).key := rfl
  rw [strSumOf, hsum, strSumOf, keyedWorth, keyedWorth, hk, hkey]
  simp only [true_and]
  split
  · omega
  · omega

theorem StrTableOk.fill (h : StrTableOk t l) (hlt : c < t.dwRealNodeCount)
    (hused : t.used c = false) (henv : lockLoop env false = true) (hfit : FitsNode a.pstr)
    (hv : 0 < a.iValue) (b : Nat) :
    TryOk t a (some 0,
      (insertHashNode env (t.setNode c ⟨b, CharBuf.strncpy 65 a.pstr, a.attr, a.iValue⟩) c).2) := by
  obtain ⟨t', ht', hok, hsum, hkept⟩ := h.insert StrAttrNode.key hlt hused henv
    (n := ⟨b, CharBuf.strncpy 65 a.pstr, a.attr, a.iValue⟩) hv
  rw [ht']
  refine ⟨⟨_, hok⟩, hkept, ?_⟩
  intro k
  have hkey : (⟨b, CharBuf.strncpy 65 a.pstr, a.attr, a.iValue⟩ : StrAttrNode).key =
      (a.attr, a.pstr) := key_stRecord hfit
  simp only [strSumOf, hsum, keyedWorth, hkey, true_and]

theorem StrTableOk.mark (h : StrTableOk t l) (hused : t.used c = false) (b : Nat) :
    StrTableOk (t.setNode c { t.node c with bSyncProcess := b }) l ∧
      (t.setNode c { t.node c with bSyncProcess := b }).usedNodes = t.usedNodes :=
  ⟨(h.setFreeNode (h.ready.not_mem hused) _).1, CountersOk.usedNodes_setFreeNode hused _⟩

theorem strAddTry_ok (h : StrTableOk t l) (hrec : TryRecords env t a) (hfit : FitsNode a.pstr)
    (hv : 0 < a.iValue) (hmax : strSumOf (a.attr, a.pstr) t.usedNodes + a.iValue < 2 ^ 31) :
    TryOk t a (strAddTry env t a) := by
  unfold strAddTry
  by_cases hcount : 10 < a.bCheckCount
  · rw [if_pos hcount]
    have hsame : (t.report 238).usedNodes = t.usedNodes := rfl
    exact ⟨⟨l, h.report 238⟩, ⟨rfl, rfl, fun _ _ h => h⟩, by simp [hsame]⟩
  rw [if_neg hcount]
  obtain ⟨hsome, hcell⟩ := hrec.resolve_left hcount
  obtain ⟨isFind, pNode, hsearch, hspec, -⟩ :=
    hashTableSearchEx_spec h.ready h.rows a.stRecord a.dwShortKey
  change a.search t = _ at hsearch
  rw [hsearch] at hsome hcell ⊢
  cases pNode with
  | none => cases hsome
  | some c =>
    obtain ⟨hlt, hused, hcmp⟩ := hspec c rfl
    have hcell := hcell c rfl
    cases isFind with
    | true =>
      have hkey : (t.node c).key = (a.attr, a.pstr) := by
        have hcmp := hcmp rfl
        rw [h.cmp_eq] at hcmp
        rw [← key_of_mtreportStrAttrCmp hcmp, key_stRecord hfit]
      exact h.grow ((h.ready.linked.mem c).mpr ⟨hlt, hused⟩) hkey hv hmax
    | false =>
      simp only
      split
      · rename_i hfree
        have henv : lockLoop env false = true := by
          rcases hcell with hcell | hcell | hcell
          · cases hcell
          · omega
          · exact hcell
        exact h.fill hlt hused henv hfit hv _
      · obtain ⟨hok, hsum⟩ := h.mark hused ((t.node c).bSyncProcess + 1)
        exact ⟨⟨l, hok⟩, CursorKept.setNode t c _, by simp [hsum]⟩

end Try

section Round

variable {t : SharedHashTable StrAttrNode} {l : List Nat} {env : LockEnv} {b : List StrAttrNode}
  {n : StrAttrNode} {rd : StrRead}

/-- A batch has no two entries of one key, and its values are positive. -/
structure StrBatchOk (b : List StrAttrNode) : Prop where
  keys : (b.map StrAttrNode.key).Nodup
  pos : ∀ n ∈ b, 0 < n.iStrVal

theorem perm_sortStrAttr (b : List StrAttrNode) : (sortStrAttr b).Perm b :=
  List.perm_insertionSort _ b

theorem StrBatchOk.grow (h : StrBatchOk b) {i : Nat} {x : StrAttrNode} (hx : b[i]? = some x)
    (hkey : x.key = n.key) (hn : 0 < n.iStrVal) (hmax : strSumOf n.key b + n.iStrVal < 2 ^ 31) :
    StrBatchOk (b.modify i fun x => { x with iStrVal := int32 (x.iStrVal + n.iStrVal) }) ∧
      ∀ k, strSumOf k (b.modify i fun x => { x with iStrVal := int32 (x.iStrVal + n.iStrVal) }) =
        strSumOf k b + keyedWorth StrAttrNode.key StrAttrNode.iStrVal k n := by
  have hmem : x ∈ b := List.mem_of_getElem? hx
  have hpos := h.pos x hmem
  have hle : x.iStrVal ≤ strSumOf x.key b := val_le_keyedSum h.pos hmem
  rw [hkey] at hle
  have hmod : (b.modify i fun x => { x with iStrVal := int32 (x.iStrVal + n.iStrVal) }) =
      b.set i { x with iStrVal := x.iStrVal + n.iStrVal } := by
    rw [List.modify_eq_set, hx, Option.getD_some, int32_of_range (by omega) (by omega)]
  rw [hmod]
  refine ⟨⟨?_, ?_⟩, ?_⟩
  · have hkeys : (b.set i { x with iStrVal := x.iStrVal + n.iStrVal }).map StrAttrNode.key =
        b.map StrAttrNode.key := by
      obtain ⟨hi, rfl⟩ := List.getElem?_eq_some_iff.mp hx
      have hself := List.set_getElem_self
        (show i < (b.map StrAttrNode.key).length by simpa using hi)
      rw [List.getElem_map] at hself
      rw [List.map_set]
      exact hself
    rw [hkeys]
    exact h.keys
  · intro m hm
    rcases List.mem_or_eq_of_mem_set hm with hm | rfl
    · exact h.pos m hm
    · simp only
      omega
  · intro k
    have hk : ({ x with iStrVal := x.iStrVal + n.iStrVal } : StrAttrNode).key = x.key := rfl
    rw [strSumOf, keyedSum_set hx, strSumOf]
    simp only [keyedWorth, hk, hkey]
    split
    · omega
    · omega

theorem StrBatchOk.merge (h : StrBatchOk b) (hfind : SearchFinds b n) (hn : 0 < n.iStrVal)
    (hmax : strSumOf n.key b + n.iStrVal < 2 ^ 31) :
    StrBatchOk (mergeStrAttr b n) ∧ ∀ k, strSumOf k (mergeStrAttr b n) =
      strSumOf k b + keyedWorth StrAttrNode.key StrAttrNode.iStrVal k n := by
  unfold mergeStrAttr
  cases hs : bsearch (strAttrCmp n) b with
  | some i =>
    obtain ⟨x, hx, hcmp⟩ := bsearch_some hs
    exact h.grow hx (key_of_strAttrCmp hcmp).symm hn hmax
  | none =>
    have hnew : n.key ∉ b.map StrAttrNode.key := by
      intro hmem
      have := hfind hmem
      rw [hs] at this
      cases this
    simp only [if_pos hn]
    have hperm := perm_sortStrAttr (b ++ [n])
    refine ⟨⟨?_, ?_⟩, ?_⟩
    · rw [(hperm.map StrAttrNode.key).nodup_iff, List.map_append]
      exact List.nodup_append.mpr ⟨h.keys, List.nodup_singleton _, by
        intro k hk k' hk' heq
        obtain rfl : k' = n.key := by simpa using hk'
        exact hnew (heq ▸ hk)⟩
    · intro m hm
      rcases List.mem_append.mp (hperm.mem_iff.mp hm) with hm | hm
      · exact h.pos m hm
      · obtain rfl : m = n := by simpa using hm
        exact hn
    · intro k
      rw [strSumOf, keyedSum_perm hperm, keyedSum_append, strSumOf]
      simp

/-- A running drain: its batch, and its node under the cursor of the table. -/
structure StrReadOk (t : SharedHashTable StrAttrNode) (rd : StrRead) : Prop where
  forward : rd.bReverse = false
  batch : StrBatchOk rd.stStrAttrRead
  cursor : ∀ c, rd.pNode = some c → t.dwCurIndex = c ∧ c < t.dwRealNodeCount ∧ t.used c = true

theorem StrReadOk.kept {t' : SharedHashTable StrAttrNode} (h : StrReadOk t rd)
    (hk : CursorKept t t') : StrReadOk t' rd := by
  refine ⟨h.forward, h.batch, ?_⟩
  intro c hc
  obtain ⟨hcur, hlt, hused⟩ := h.cursor c hc
  refine ⟨hk.cur.trans hcur, ?_, hk.used c hlt hused⟩
  rw [hk.real]
  exact hlt

theorem strReadBegin_ok (h : StrTableOk t l) :
    StrTableOk (strReadBegin t).2 l ∧ (strReadBegin t).2.usedNodes = t.usedNodes ∧
      StrReadOk (strReadBegin t).2 (strReadBegin t).1 ∧ (strReadBegin t).1.stStrAttrRead = [] := by
  obtain ⟨hfirst, hok, hstart⟩ := CountersOk.drainFirst h
  simp only [strReadBegin, hfirst]
  refine ⟨hok, rfl, ⟨rfl, ⟨by simp, by simp⟩, ?_⟩, trivial⟩
  intro c hc
  obtain ⟨hcur, hmem⟩ := hstart c hc
  exact ⟨hcur, h.ready.linked.lt hmem, h.ready.linked.used hmem⟩

/-- A round of a drain keeps the sums over the batch and the table. -/
theorem strReadStep_ok (h : StrTableOk t l) (hrd : StrReadOk t rd) (hkeep : RoundKeeps env t rd)
    (hmax : ∀ k, strSumOf k rd.stStrAttrRead + strSumOf k t.usedNodes < 2 ^ 31) :
    (∃ l', StrTableOk (strReadStep env t rd).2 l') ∧
      ((strReadStep env t rd).1 = none → (strReadStep env t rd).2.usedNodes = t.usedNodes) ∧
      ∀ rd', (strReadStep env t rd).1 = some rd' → StrReadOk (strReadStep env t rd).2 rd' ∧
        ∀ k, strSumOf k rd'.stStrAttrRead + strSumOf k (strReadStep env t rd).2.usedNodes =
          strSumOf k rd.stStrAttrRead + strSumOf k t.usedNodes := by
  obtain ⟨hend, hsame⟩ := CountersOk.drainEnd h
  unfold strReadStep
  rw [hrd.forward]
  cases hc : rd.pNode with
  | none => exact ⟨⟨l, hend⟩, fun _ => hsame, by simp⟩
  | some c =>
    simp only
    split
    · rename_i hroom
      obtain ⟨hcur, hlt, hused⟩ := hrd.cursor c hc
      have hmem : c ∈ l := (h.ready.linked.mem c).mpr ⟨hlt, hused⟩
      obtain ⟨henv, hfind⟩ := hkeep c hc hroom.2
      obtain ⟨pNode, t', l', hdrain, hok', hsum', hnext⟩ :=
        CountersOk.drainNode h StrAttrNode.key hmem hcur henv
      have hval : (t.node c).iStrVal ≤ strSumOf (t.node c).key t.usedNodes := by
        have h0 := hok'.sum_nonneg StrAttrNode.key (t.node c).key
        have hsum := hsum' (t.node c).key
        rw [keyedWorth, if_pos rfl] at hsum
        rw [strSumOf]
        omega
      have hfit := hmax (t.node c).key
      obtain ⟨hbatch, hsums⟩ := hrd.batch.merge hfind (h.pos c hmem) (by omega)
      simp only [hdrain]
      refine ⟨⟨l', hok'⟩, by simp, ?_⟩
      intro rd' hrd'
      obtain rfl := Option.some.inj hrd'
      refine ⟨⟨rfl, hbatch, ?_⟩, ?_⟩
      · intro d hd
        obtain ⟨hcur', hmem'⟩ := hnext d hd
        exact ⟨hcur', hok'.ready.linked.lt hmem', hok'.ready.linked.used hmem'⟩
      · intro k
        have hsum := hsum' k
        have hsums := hsums k
        simp only [strSumOf] at hsums ⊢
        omega
    · exact ⟨⟨l, hend⟩, fun _ => hsame, by simp⟩

end Round

section Run

variable {r r' : StrRun} {env : LockEnv} {a : StrAdd}

/-- Nothing is lost or split so far. -/
structure StrInv (r : StrRun) : Prop where
  table : ∃ l, StrTableOk r.table l
  reading : ∀ rd, r.reading = some rd → StrReadOk r.table rd
  sleeping : ∀ a ∈ r.sleeping, 0 < a.iValue
  sum : ∀ k, strAddedOf k r.added =
    strDrainedOf k r.drained + strSumOf k r.inFlight + strSumOf k r.table.usedNodes
  fits : ∀ k, strAddedOf k r.added < 2 ^ 31
  drained_nonneg : ∀ k, 0 ≤ strDrainedOf k r.drained
  batches : ∀ b ∈ r.drained, (b.map StrAttrNode.key).Nodup

theorem StrInv.inFlight_ok (h : StrInv r) : StrBatchOk r.inFlight := by
  unfold StrRun.inFlight
  cases hrd : r.reading with
  | none => exact ⟨by simp, by simp⟩
  | some rd => exact (h.reading rd hrd).batch

theorem StrInv.inFlight_nonneg (h : StrInv r) (k : Int × List UInt8) :
    0 ≤ strSumOf k r.inFlight :=
  keyedSum_nonneg h.inFlight_ok.pos k

theorem StrInv.tryOk (h : StrInv r) (hv : 0 < a.iValue) (hfit : FitsNode a.pstr)
    (hmax : strAddedOf (a.attr, a.pstr) r.added + a.iValue < 2 ^ 31)
    (hrec : TryRecords env r.table a) : TryOk r.table a (strAddTry env r.table a) := by
  obtain ⟨l, hl⟩ := h.table
  have hin := h.inFlight_nonneg (a.attr, a.pstr)
  have hout := h.drained_nonneg (a.attr, a.pstr)
  have hsum := h.sum (a.attr, a.pstr)
  exact strAddTry_ok hl hrec hfit hv (by omega)

theorem StrInv.tryAdd (h : StrInv r) (hv : 0 < a.iValue)
    (hmax : strAddedOf (a.attr, a.pstr) r.added + a.iValue < 2 ^ 31)
    (htry : TryOk r.table a (strAddTry env r.table a)) {sleeping : List StrAdd}
    (hsleep : ∀ a ∈ sleeping, 0 < a.iValue) : StrInv (r.tryAdd env a sleeping).2 := by
  have hadded : ∀ k, strAddedOf k (r.tryAdd env a sleeping).2.added = strAddedOf k r.added +
      if (strAddTry env r.table a).1 = some 0 ∧ (a.attr, a.pstr) = k then a.iValue else 0 := by
    intro k
    simp only [StrRun.tryAdd]
    by_cases hret : (strAddTry env r.table a).1 = some 0
    · simp only [hret, if_true, true_and, strAddedOf, keyedSum_cons, keyedWorth]
      omega
    · simp [hret]
  refine ⟨htry.table, ?_, ?_, ?_, ?_, h.drained_nonneg, h.batches⟩
  · intro rd hrd
    exact (h.reading rd hrd).kept htry.kept
  · intro b hb
    simp only [StrRun.tryAdd] at hb
    split at hb
    · rcases List.mem_cons.mp hb with rfl | hb
      · exact hv
      · exact hsleep b hb
    · exact hsleep b hb
  · intro k
    have hsum := h.sum k
    have hpend := htry.sum k
    rw [hadded]
    change _ = strDrainedOf k r.drained + strSumOf k r.inFlight +
      strSumOf k (strAddTry env r.table a).2.usedNodes
    omega
  · intro k
    have hfits := h.fits k
    rw [hadded]
    split
    · rename_i hk
      rw [← hk.2]
      exact hmax
    · omega

/-- A round of a drain keeps the sums. -/
theorem StrInv.readStep (h : StrInv r) {rd : StrRead} (hrd : r.reading = some rd)
    (hkeep : RoundKeeps env r.table rd) :
    ∃ r', strStep r (.readStep env) = some (none, r') ∧ StrInv r' := by
  obtain ⟨l, hl⟩ := h.table
  have hin : r.inFlight = rd.stStrAttrRead := by simp [StrRun.inFlight, hrd]
  have hsum := h.sum
  rw [hin] at hsum
  have hmax : ∀ k, strSumOf k rd.stStrAttrRead + strSumOf k r.table.usedNodes < 2 ^ 31 := by
    intro k
    have hfits := h.fits k
    have hout := h.drained_nonneg k
    have hsum := hsum k
    omega
  have hread := h.reading rd hrd
  obtain ⟨htable, hdone, hgoes⟩ := strReadStep_ok hl hread hkeep hmax
  refine ⟨⟨(strReadStep env r.table rd).2, r.sleeping, (strReadStep env r.table rd).1, r.added,
    if (strReadStep env r.table rd).1.isNone then rd.stStrAttrRead :: r.drained else r.drained⟩,
    by simp only [strStep, hrd, Option.map_some], ?_⟩
  cases hx : (strReadStep env r.table rd).1 with
  | some rd' =>
    obtain ⟨hread', hsums⟩ := hgoes rd' hx
    refine ⟨htable, ?_, h.sleeping, ?_, h.fits, h.drained_nonneg, h.batches⟩
    · intro rd'' hrd''
      obtain rfl : rd' = rd'' := Option.some.inj hrd''
      exact hread'
    · intro k
      have hsum := hsum k
      have hsums := hsums k
      change strAddedOf k r.added = strDrainedOf k r.drained + strSumOf k rd'.stStrAttrRead +
        strSumOf k (strReadStep env r.table rd).2.usedNodes
      omega
  | none =>
    have hsame := hdone hx
    have hbatch := hread.batch
    have hdrained : ∀ k, strDrainedOf k (rd.stStrAttrRead :: r.drained) =
        strSumOf k rd.stStrAttrRead + strDrainedOf k r.drained := by
      intro k
      simp [strDrainedOf]
    refine ⟨htable, by simp, h.sleeping, ?_, h.fits, ?_, ?_⟩
    · intro k
      have hsum := hsum k
      change strAddedOf k r.added = strDrainedOf k (rd.stStrAttrRead :: r.drained) +
        strSumOf k [] + strSumOf k (strReadStep env r.table rd).2.usedNodes
      have hnil : strSumOf k [] = 0 := rfl
      rw [hsame, hdrained, hnil]
      omega
    · intro k
      have hout := h.drained_nonneg k
      have hnonneg : 0 ≤ strSumOf k rd.stStrAttrRead := keyedSum_nonneg hbatch.pos k
      change 0 ≤ strDrainedOf k (rd.stStrAttrRead :: r.drained)
      rw [hdrained]
      omega
    · exact List.forall_mem_cons.mpr ⟨hbatch.keys, h.batches⟩

theorem StrInv.readBegin (h : StrInv r) (hidle : r.reading = none) :
    ∃ r', strStep r .readBegin = some (none, r') ∧ StrInv r' := by
  obtain ⟨l, hl⟩ := h.table
  obtain ⟨hok, hsame, hread, hnil⟩ := strReadBegin_ok hl
  refine ⟨{ r with table := (strReadBegin r.table).2, reading := some (strReadBegin r.table).1 },
    by simp only [strStep, hidle, Option.isSome_none, Bool.false_eq_true, if_false], ?_⟩
  refine ⟨⟨l, hok⟩, ?_, h.sleeping, ?_, h.fits, h.drained_nonneg, h.batches⟩
  · intro rd hrd
    obtain rfl := Option.some.inj hrd
    exact hread
  · intro k
    have hsum := h.sum k
    change strAddedOf k r.added = strDrainedOf k r.drained +
      strSumOf k (strReadBegin r.table).1.stStrAttrRead +
      strSumOf k (strReadBegin r.table).2.usedNodes
    rw [hsame, hnil]
    simpa only [StrRun.inFlight, hidle] using hsum

theorem StrInv.contend (h : StrInv r) {c : Nat} (hused : r.table.used c = false) (b : Nat) :
    StrInv { r with table := r.table.setNode c { r.table.node c with bSyncProcess := b } } := by
  obtain ⟨l, hl⟩ := h.table
  obtain ⟨hok, hsame⟩ := hl.mark hused b
  refine ⟨⟨l, hok⟩, ?_, h.sleeping, ?_, h.fits, h.drained_nonneg, h.batches⟩
  · intro rd hrd
    exact (h.reading rd hrd).kept (CursorKept.setNode r.table c _)
  · intro k
    rw [hsame]
    exact h.sum k

theorem strStep_callOf {call : StrCall} (hcall : r.callOf call = some a) :
    ∃ sleeping, strStep r call = some (r.tryAdd call.env a sleeping) ∧
      ((∀ a ∈ r.sleeping, 0 < a.iValue) → 0 < a.iValue ∧ ∀ a ∈ sleeping, 0 < a.iValue) := by
  cases call with
  | add env attr pstr iValue =>
    simp only [StrRun.callOf] at hcall
    split at hcall
    · cases hcall
    · rename_i hargs
      obtain rfl := Option.some.inj hcall
      refine ⟨r.sleeping, by simp only [strStep, if_neg hargs, StrCall.env], ?_⟩
      intro hsleep
      exact ⟨by simp only; omega, hsleep⟩
  | tryAgain env i =>
    have hi : r.sleeping[i]? = some a := hcall
    refine ⟨r.sleeping.eraseIdx i, by simp only [strStep, hi, Option.map_some, StrCall.env], ?_⟩
    intro hsleep
    exact ⟨hsleep a (List.mem_of_getElem? hi), fun b hb => hsleep b (List.mem_of_mem_eraseIdx hb)⟩
  | readBegin => cases hcall
  | readStep env => cases hcall
  | contend c b => cases hcall

theorem StrInv.step (r : StrRun) (call : StrCall) (h : StrInv r)
    (hok : StrPromised r call ∧ StrRecordable r call) :
    ∃ o r', strStep r call = some (o, r') ∧ True ∧ StrInv r' := by
  obtain ⟨⟨hfits, hcan⟩, hrec, hround⟩ := hok
  cases hcall : r.callOf call with
  | some a =>
    obtain ⟨sleeping, hstep, hsleep⟩ := strStep_callOf hcall
    obtain ⟨hv, hsleep⟩ := hsleep h.sleeping
    obtain ⟨hfit, hmax⟩ := hfits a hcall
    exact ⟨_, _, hstep, trivial, h.tryAdd hv hmax (h.tryOk hv hfit hmax (hrec a hcall)) hsleep⟩
  | none =>
    cases call with
    | add env attr pstr iValue =>
      have hargs : attr ≤ 0 ∨ iValue ≤ 0 := by
        by_contra hargs
        simp [StrRun.callOf, hargs] at hcall
      exact ⟨some (-1), r, by simp only [strStep, if_pos hargs], trivial, h⟩
    | tryAgain env i =>
      have hlen : r.sleeping.length ≤ i := List.getElem?_eq_none_iff.mp hcall
      have hi : i < r.sleeping.length := hcan
      omega
    | readBegin =>
      obtain ⟨r', hr', hinv⟩ := h.readBegin hcan
      exact ⟨none, r', hr', trivial, hinv⟩
    | readStep env =>
      obtain ⟨rd, hrd⟩ := Option.isSome_iff_exists.mp hcan
      obtain ⟨r', hr', hinv⟩ := h.readStep hrd (hround rd hrd)
      exact ⟨none, r', hr', trivial, hinv⟩
    | contend c b => exact ⟨none, _, rfl, trivial, h.contend hcan b⟩

/-- The string attribute table as `MtReport_InitAttr` finds it after `InitHashTable`. -/
structure EmptyStrTable (t : SharedHashTable StrAttrNode) : Prop where
  empty : EmptyTable t
  rows : RowsOk t
  cmp : t.funCmp = mtreportStrAttrCmp

theorem EmptyStrTable.strInv {t : SharedHashTable StrAttrNode} (h : EmptyStrTable t) :
    StrInv ⟨t, [], none, [], []⟩ := by
  have hok : StrTableOk t [] := ⟨h.empty.ready, h.rows, h.cmp, by simp⟩
  refine ⟨⟨[], hok⟩, by simp, by simp, ?_, by simp [strAddedOf], by simp [strDrainedOf], by simp⟩
  intro k
  have hzero : strSumOf k t.usedNodes = 0 := hok.keyedSum_usedNodes StrAttrNode.key k
  rw [hzero]
  rfl

end Run

/-- The string attribute table in fresh shared memory. -/
def strAttrTable : SharedHashTable StrAttrNode where
  dwNodeSize := 74
  dwRealNodeCount := 19692
  dwShareMemBytes := 29 + 2000 * 83
  dwNodeNums := [1999, 1997, 1993, 1987, 1979, 1973, 1951, 1949, 1933, 1931]
  bInitSuccess := true
  bAccessCheck := false
  dwCurIndex := 19692
  dwCurIndexRevers := 19692
  funCmp := mtreportStrAttrCmp
  head := ⟨19692, 19692, 0, 0, 0, false⟩
  nodeHead := fun _ => ⟨false, 0, 0⟩
  node := fun _ => default
  attrSpec := []

theorem emptyStrTable_strAttrTable : EmptyStrTable strAttrTable where
  empty := ⟨rfl, rfl, rfl, rfl, rfl, rfl, fun _ _ => rfl, by decide⟩
  rows := ⟨by decide, by decide⟩
  cmp := rfl

/-- The flag is free. -/
def strFlag : LockEnv := ⟨fun _ => false, 7, 1⟩

/-- A drain during which a call finds the cell held, sleeps and tries again. -/
def sleepAndRead : List StrCall :=
  [.contend 101 9, .add strFlag 4 [97] 5, .readBegin, .tryAgain strFlag 0]

/-- Ten strings of the same four characters, so of the same short key. -/
def tenStrings : List StrCall :=
  [[97, 98, 99, 100], [98, 97, 99, 100], [99, 98, 97, 100], [98, 99, 97, 100], [99, 97, 98, 100],
    [97, 99, 98, 100], [100, 99, 98, 97], [99, 100, 98, 97], [99, 98, 100, 97],
    [100, 98, 99, 97]].map fun pstr => .add strFlag 1 pstr 1

/-- A key that comes back during the drain whose batch holds it. -/
def keyComesBack : List StrCall :=
  [.add strFlag 2 [97] 1, .add strFlag 1 [98] 1, .add strFlag 3 [99] 1, .readBegin,
    .readStep strFlag, .readStep strFlag, .add strFlag 2 [97] 1, .readStep strFlag,
    .readStep strFlag, .readStep strFlag]

end XrkMonitor.Attr
