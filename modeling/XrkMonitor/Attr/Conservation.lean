import XrkMonitor.Attr.Sums
import XrkMonitor.Library.KeyedSum
import XrkMonitor.SharedHash.Runs

/-!
# Conservation of attribute counters

A run is any sequence of `MtReport_Attr_Add` calls that return `0` and of the
rounds of `ReadAttr` drains. `added` and `drained` record its history. As long
as `InsertHashNode` and `RemoveHashNode` get the flag of the table, what was
added of an attribute is what was drained, what the running drain has in its
batch and what is pending in the shared memory.

## Implementation notes

`InsertHashNode` returns without linking the node when ten tries do not get the
flag, and `MtReport_Attr_Add` does not look at what it returns.
-/

namespace XrkMonitor.Attr

open Library SharedHash SharedHashTable

/-- The sum of an attribute over the tables. -/
def tablesSum (attr : Int) (ts : List (SharedHashTable AttrNode)) : Int :=
  (ts.map fun t => sumOf attr (usedNodes t)).sum

/-- A cursor on a used cell stays on it from `t` to `t'`. -/
structure KeepsCursor (t t' : SharedHashTable AttrNode) : Prop where
  cur : t'.dwCurIndex = t.dwCurIndex
  real : t'.dwRealNodeCount = t.dwRealNodeCount
  used : ∀ c < t.dwRealNodeCount, t.used c = true → t'.used c = true

/-- The shared memory between two steps. -/
structure ShmOk (s : AttrShm) : Prop where
  tables : ∀ t ∈ s.stAttrHash, ∃ l, TableOk t l
  count : s.iAttrSpecialCount ≤ MTATTR_SPECIAL_COUNT
  pos : ∀ n ∈ specNodes s, 0 < n.iCurValue
  ids : ((specNodes s).map AttrNode.iAttrID).Nodup

section Add

variable {s : AttrShm} {t : SharedHashTable AttrNode} {ts : List (SharedHashTable AttrNode)}
  {l : List Nat} {env : LockEnv} {attr iValue : Int}

theorem KeepsCursor.refl (t : SharedHashTable AttrNode) : KeepsCursor t t :=
  ⟨rfl, rfl, fun _ _ h => h⟩

theorem keepsCursor_setNode (t : SharedHashTable AttrNode) (c : Nat) (n : AttrNode) :
    KeepsCursor t (t.setNode c n) :=
  ⟨rfl, rfl, fun _ _ h => h⟩

@[simp] theorem tablesSum_cons (attr : Int) (t : SharedHashTable AttrNode)
    (ts : List (SharedHashTable AttrNode)) :
    tablesSum attr (t :: ts) = sumOf attr (usedNodes t) + tablesSum attr ts := by
  simp [tablesSum]

theorem sumOf_usedNodes (h : TableOk t l) (attr : Int) :
    sumOf attr (usedNodes t) = sumOf attr (l.map t.node) :=
  sumOf_perm (perm_usedNodes h.ready.linked) attr

theorem TableOk.sum_nonneg (h : TableOk t l) (attr : Int) : 0 ≤ sumOf attr (usedNodes t) := by
  rw [sumOf_usedNodes h]
  exact sumOf_nonneg h.pos_nodes attr

theorem tablesSum_nonneg (h : ∀ t ∈ ts, ∃ l, TableOk t l) (attr : Int) :
    0 ≤ tablesSum attr ts := by
  induction ts with
  | nil => simp [tablesSum]
  | cons t ts ih =>
    obtain ⟨l, hl⟩ := h t (by simp)
    have ht := hl.sum_nonneg attr
    have hts := ih fun t ht => h t (by simp [ht])
    rw [tablesSum_cons]
    omega

/-- What the loop over the tables `ts` may leave of them. -/
structure AddOk (attr iValue : Int) (ts : List (SharedHashTable AttrNode))
    (r : AddEnd × List (SharedHashTable AttrNode)) : Prop where
  tables : ∀ t ∈ r.2, ∃ l, TableOk t l
  keeps : List.Forall₂ KeepsCursor ts r.2
  sum : ∀ a, tablesSum a r.2 = tablesSum a ts + if r.1 = .stored ∧ attr = a then iValue else 0

theorem AddOk.cons {t' : SharedHashTable AttrNode}
    {r : AddEnd × List (SharedHashTable AttrNode)} (h : AddOk attr iValue ts r)
    (hok : ∃ l, TableOk t' l) (hkeep : KeepsCursor t t')
    (hsum : ∀ a, sumOf a (usedNodes t') = sumOf a (usedNodes t)) :
    AddOk attr iValue (t :: ts) (passTable t' r) where
  tables := List.forall_mem_cons.mpr ⟨hok, h.tables⟩
  keeps := h.keeps.cons hkeep
  sum := by
    intro a
    change tablesSum a (t' :: r.2) =
      tablesSum a (t :: ts) + if r.1 = .stored ∧ attr = a then iValue else 0
    rw [tablesSum_cons, tablesSum_cons, hsum, h.sum, Int.add_assoc]

theorem AddOk.ends {t' : SharedHashTable AttrNode} (e : AddEnd)
    (hrest : ∀ t ∈ ts, ∃ l, TableOk t l) (hok : ∃ l, TableOk t' l) (hkeep : KeepsCursor t t')
    (hsum : ∀ a, sumOf a (usedNodes t') =
      sumOf a (usedNodes t) + if e = .stored ∧ attr = a then iValue else 0) :
    AddOk attr iValue (t :: ts) (e, t' :: ts) where
  tables := List.forall_mem_cons.mpr ⟨hok, hrest⟩
  keeps := (List.forall₂_same.mpr fun t _ => KeepsCursor.refl t).cons hkeep
  sum := by
    intro a
    rw [tablesSum_cons, tablesSum_cons, hsum]
    exact Int.add_right_comm _ _ _

theorem TableOk.addUsed (h : TableOk t l) {c : Nat} (hlt : c < t.dwRealNodeCount)
    (hused : t.used c = true) (hid : (t.node c).iAttrID = attr) (hv : 0 < iValue)
    (hmax : sumOf attr (usedNodes t) + iValue < 2 ^ 31) :
    TableOk (t.setNode c { t.node c with iCurValue := int32 ((t.node c).iCurValue + iValue) }) l ∧
      ∀ a, sumOf a (usedNodes
          (t.setNode c { t.node c with iCurValue := int32 ((t.node c).iCurValue + iValue) })) =
        sumOf a (usedNodes t) + if attr = a then iValue else 0 := by
  have hc : c ∈ l := (h.ready.linked.mem c).mpr ⟨hlt, hused⟩
  have hpos := h.pos c hc
  have hle := value_le_sumOf h.pos_nodes (List.mem_map_of_mem hc)
  rw [hid, ← sumOf_usedNodes h] at hle
  rw [int32_of_range (by omega) (by omega)]
  obtain ⟨hok, hsum⟩ := h.setUsedNode hc
    (n := { t.node c with iCurValue := (t.node c).iCurValue + iValue }) (by simp only; omega)
  refine ⟨hok, ?_⟩
  intro a
  rw [sumOf_usedNodes hok, hsum, sumOf_usedNodes h]
  simp only [worth, hid]
  split
  · omega
  · omega

theorem TableOk.addFree (h : TableOk t l) {c : Nat} (hlt : c < t.dwRealNodeCount)
    (hused : t.used c = false) (henv : lockLoop env false = true) (hv : 0 < iValue) (b : Nat)
    (attr : Int) :
    ∃ t', insertHashNode env (t.setNode c ⟨b, attr, iValue⟩) c = (0, t') ∧ (∃ l, TableOk t' l) ∧
      KeepsCursor t t' ∧ ∀ a, sumOf a (usedNodes t') =
        sumOf a (usedNodes t) + if attr = a then iValue else 0 := by
  obtain ⟨t', ht', hok, hsum, hcur, hreal⟩ := h.insert hlt hused henv (n := ⟨b, attr, iValue⟩) hv
  refine ⟨t', ht', ⟨_, hok⟩, ⟨hcur, hreal, ?_⟩, ?_⟩
  · intro d hd hdused
    have hmem := (h.ready.linked.mem d).mpr ⟨hd, hdused⟩
    exact hok.ready.linked.used (List.mem_append_left [c] hmem)
  · intro a
    rw [sumOf_usedNodes hok, hsum, sumOf_usedNodes h, worth]

/-- How the search for the attribute in a table ends: at a counter of it, at a cell that is not
used, or at neither. -/
inductive SearchEnds (t : SharedHashTable AttrNode) (attr : Int) : Bool × Option Nat → Prop
  | found (c : Nat) (lt : c < t.dwRealNodeCount) (used : t.used c = true)
      (id : (t.node c).iAttrID = attr) : SearchEnds t attr (true, some c)
  | free (c : Nat) (lt : c < t.dwRealNodeCount) (unused : t.used c = false) :
      SearchEnds t attr (false, some c)
  | nowhere : SearchEnds t attr (false, none)

theorem TableOk.searchEnds (h : TableOk t l) (attr : Int) :
    SearchEnds t attr (hashTableSearchEx t ⟨0, attr, 0⟩ attr.toNat) := by
  obtain ⟨isFind, pNode, hsearch, hcell, hsome⟩ :=
    hashTableSearchEx_spec h.ready h.rows ⟨0, attr, 0⟩ attr.toNat
  rw [hsearch]
  cases pNode with
  | none =>
    cases isFind with
    | false => exact .nowhere
    | true => simp at hsome
  | some c =>
    obtain ⟨hlt, hused, hcmp⟩ := hcell c rfl
    cases isFind with
    | true =>
      refine .found c hlt hused ?_
      have hcmp := hcmp rfl
      rw [h.cmp] at hcmp
      by_contra hne
      simp [mtreportAttrCmp, Ne.symm hne] at hcmp
    | false => exact .free c hlt hused

theorem TableOk.writeFree (h : TableOk t l) {c : Nat} (hused : t.used c = false) (n : AttrNode) :
    TableOk (t.setNode c n) l ∧
      ∀ a, sumOf a (usedNodes (t.setNode c n)) = sumOf a (usedNodes t) := by
  obtain ⟨hok, hkeep⟩ := h.setFreeNode (h.ready.not_mem hused) n
  refine ⟨hok, ?_⟩
  intro a
  rw [sumOf_usedNodes hok, hkeep, sumOf_usedNodes h]

theorem attrAddLoop_ok (hv : 0 < iValue) (henv : lockLoop env false = true)
    (hts : ∀ t ∈ ts, ∃ l, TableOk t l) (hmax : tablesSum attr ts + iValue < 2 ^ 31)
    (bCheckCount : Nat) :
    AddOk attr iValue ts (attrAddLoop env attr iValue bCheckCount ts) := by
  induction ts generalizing bCheckCount with
  | nil => exact ⟨by simp [attrAddLoop], List.Forall₂.nil, by simp [attrAddLoop]⟩
  | cons t ts ih =>
    obtain ⟨⟨l, hl⟩, hrest⟩ := List.forall_mem_cons.mp hts
    have hsum0 := hl.sum_nonneg attr
    have hrest0 := tablesSum_nonneg hrest attr
    rw [tablesSum_cons] at hmax
    have ih := ih hrest (by omega)
    have hends := hl.searchEnds attr
    unfold attrAddLoop
    generalize hashTableSearchEx t ⟨0, attr, 0⟩ attr.toNat = result at hends ⊢
    cases hends with
    | nowhere => exact (ih bCheckCount).cons ⟨l, hl⟩ (KeepsCursor.refl t) fun _ => rfl
    | found c hlt hused hid =>
      obtain ⟨hok, hsum⟩ := hl.addUsed hlt hused hid hv (by omega)
      apply AddOk.ends .stored hrest ⟨l, hok⟩ (keepsCursor_setNode t c _)
      simpa using hsum
    | free c hlt hused =>
      simp only
      split
      · generalize (if (t.node c).bSyncProcess = 0 then 1 else (t.node c).bSyncProcess) = b
        obtain ⟨t', ht', hok, hkeep, hsum⟩ := hl.addFree hlt hused henv hv b attr
        rw [ht']
        apply AddOk.ends .stored hrest hok hkeep
        simpa using hsum
      · obtain ⟨hok, hsum⟩ := hl.writeFree hused
          { t.node c with bSyncProcess := (t.node c).bSyncProcess + 1 }
        split
        · apply AddOk.ends .gaveUp hrest ⟨l, hok⟩ (keepsCursor_setNode t c _)
          simpa using hsum
        · exact (ih _).cons ⟨l, hok⟩ (keepsCursor_setNode t c _) hsum

theorem flushSpec_of_nil (h : ∀ t ∈ s.stAttrHash, t.attrSpec = []) : flushSpec s = s := by
  have hnil : s.stAttrHash.flatMap (·.attrSpec) = [] := by
    rw [List.flatMap_eq_nil_iff]
    exact h
  have hmap : s.stAttrHash.map (fun t => { t with attrSpec := [] }) = s.stAttrHash := by
    conv_rhs => rw [← List.map_id s.stAttrHash]
    apply List.map_congr_left
    intro t ht
    rw [← h t ht]
    rfl
  simp only [flushSpec, hnil, hmap, List.foldl_nil]

theorem flushSpec_of_ok (h : ∀ t ∈ s.stAttrHash, ∃ l, TableOk t l) : flushSpec s = s := by
  apply flushSpec_of_nil
  intro t ht
  obtain ⟨l, hl⟩ := h t ht
  exact hl.spec

theorem specIndex_some {i : Nat} (h : specIndex s attr = some i) :
    i < s.iAttrSpecialCount ∧ (s.sArrtListSpec i).iAttrID = attr := by
  constructor
  · exact List.mem_range.mp (List.mem_of_find?_eq_some h)
  · simpa using List.find?_some h

theorem specIndex_none (h : specIndex s attr = none) :
    attr ∉ (specNodes s).map AttrNode.iAttrID := by
  intro hmem
  obtain ⟨n, hn, hid⟩ := List.mem_map.mp hmem
  obtain ⟨i, hi, rfl⟩ := List.mem_map.mp hn
  have := List.find?_eq_none.mp h i hi
  simp [hid] at this

/-- A counter of the special list grows. -/
theorem ShmOk.addSpec (h : ShmOk s) {i : Nat} (hi : i < s.iAttrSpecialCount)
    (hid : (s.sArrtListSpec i).iAttrID = attr) (hv : 0 < iValue) :
    ShmOk
        { s with
          sArrtListSpec := Function.update s.sArrtListSpec i
            { s.sArrtListSpec i with iCurValue := (s.sArrtListSpec i).iCurValue + iValue } } ∧
      ∀ a, sumOf a (specNodes
          { s with
            sArrtListSpec := Function.update s.sArrtListSpec i
              { s.sArrtListSpec i with iCurValue := (s.sArrtListSpec i).iCurValue + iValue } }) =
        sumOf a (specNodes s) + if attr = a then iValue else 0 := by
  have hmem : i ∈ List.range s.iAttrSpecialCount := List.mem_range.mpr hi
  have hpos := h.pos (s.sArrtListSpec i) (List.mem_map_of_mem hmem)
  refine ⟨⟨h.tables, h.count, ?_, ?_⟩, ?_⟩
  · intro n hn
    obtain ⟨j, hj, rfl⟩ := List.mem_map.mp hn
    by_cases hji : j = i
    · subst hji
      simp only [Function.update_self]
      omega
    · simp only [Function.update_of_ne hji]
      exact h.pos _ (List.mem_map_of_mem hj)
  · have hids : (specNodes
        { s with
          sArrtListSpec := Function.update s.sArrtListSpec i
            { s.sArrtListSpec i with
              iCurValue := (s.sArrtListSpec i).iCurValue + iValue } }).map AttrNode.iAttrID =
        (specNodes s).map AttrNode.iAttrID := by
      simp only [specNodes, List.map_map]
      apply List.map_congr_left
      intro j _
      by_cases hji : j = i
      · subst hji
        simp
      · simp [hji]
    rw [hids]
    exact h.ids
  · intro a
    simp only [specNodes]
    rw [sumOf_map_update List.nodup_range hmem]
    simp only [worth, hid]
    split
    · omega
    · omega

theorem ShmOk.newSpec (h : ShmOk s) (hnew : attr ∉ (specNodes s).map AttrNode.iAttrID)
    (hroom : s.iAttrSpecialCount < MTATTR_SPECIAL_COUNT) (hv : 0 < iValue)
    {n : AttrNode} (hid : n.iAttrID = attr) (hval : n.iCurValue = iValue) :
    ShmOk ⟨s.stAttrHash, s.iAttrSpecialCount + 1,
        Function.update s.sArrtListSpec s.iAttrSpecialCount n⟩ ∧
      ∀ a, sumOf a (specNodes ⟨s.stAttrHash, s.iAttrSpecialCount + 1,
          Function.update s.sArrtListSpec s.iAttrSpecialCount n⟩) =
        sumOf a (specNodes s) + if attr = a then iValue else 0 := by
  have hnodes : specNodes ⟨s.stAttrHash, s.iAttrSpecialCount + 1,
      Function.update s.sArrtListSpec s.iAttrSpecialCount n⟩ = specNodes s ++ [n] := by
    simp only [specNodes, List.range_succ, List.map_append]
    rw [map_update_of_not_mem (by simp)]
    simp
  refine ⟨⟨h.tables, hroom, ?_, ?_⟩, ?_⟩
  · rw [hnodes]
    intro m hm
    rcases List.mem_append.mp hm with hm | hm
    · exact h.pos m hm
    · obtain rfl : m = n := by simpa using hm
      omega
  · rw [hnodes, List.map_append]
    apply List.nodup_append.mpr
    refine ⟨h.ids, List.nodup_singleton _, ?_⟩
    intro x hx y hy hxy
    have hy : y = n.iAttrID := by simpa using hy
    rw [hy, hid] at hxy
    exact hnew (hxy ▸ hx)
  · intro a
    rw [hnodes, sumOf_append]
    simp [worth, hid, hval]

theorem ShmOk.spec (h : ShmOk s) (hv : 0 < iValue)
    (hmax : sumOf attr (specNodes s) + iValue < 2 ^ 31)
    (hret : (mtReportAttrSpec s attr iValue).1 = 0) :
    ∃ s', mtReportAttrSpec s attr iValue = (0, s') ∧ ShmOk s' ∧ s'.stAttrHash = s.stAttrHash ∧
      ∀ a, sumOf a (specNodes s') = sumOf a (specNodes s) + if attr = a then iValue else 0 := by
  unfold mtReportAttrSpec at hret ⊢
  by_cases hargs : attr ≤ 0 ∨ iValue ≤ 0
  · simp [hargs] at hret
  rw [if_neg hargs] at hret ⊢
  cases hidx : specIndex s attr with
  | some i =>
    obtain ⟨hi, hid⟩ := specIndex_some hidx
    have hmem := List.mem_map_of_mem (f := s.sArrtListSpec) (List.mem_range.mpr hi)
    have hpos := h.pos _ hmem
    have hle := value_le_sumOf h.pos hmem
    rw [hid] at hle
    obtain ⟨hok, hsum⟩ := h.addSpec hi hid hv
    refine ⟨_, rfl, ?_, rfl, ?_⟩
    · rw [int32_of_range (by omega) (by omega)]
      exact hok
    · rw [int32_of_range (by omega) (by omega)]
      exact hsum
  | none =>
    rw [hidx] at hret
    by_cases hroom : MTATTR_SPECIAL_COUNT ≤ s.iAttrSpecialCount
    · simp [hroom] at hret
    · simp only [if_neg hroom]
      obtain ⟨hok, hsum⟩ := h.newSpec (specIndex_none hidx) (by omega) hv
        (n := { s.sArrtListSpec s.iAttrSpecialCount with iAttrID := attr, iCurValue := iValue })
        rfl rfl
      exact ⟨_, rfl, hok, rfl, hsum⟩

theorem pendingOf_eq (s : AttrShm) (attr : Int) :
    pendingOf s attr = tablesSum attr s.stAttrHash + sumOf attr (specNodes s) := rfl

theorem ShmOk.pending_nonneg (h : ShmOk s) (attr : Int) : 0 ≤ pendingOf s attr := by
  have hspec := sumOf_nonneg h.pos attr
  have htab := tablesSum_nonneg h.tables attr
  rw [pendingOf_eq]
  omega

/-- `MtReport_Attr_Add` that returns `0` adds its value to what is pending. -/
theorem ShmOk.add (h : ShmOk s) (henv : lockLoop env false = true)
    (hmax : pendingOf s attr + iValue < 2 ^ 31)
    (hret : (mtReportAttrAdd env s attr iValue).1 = 0) :
    ∃ s', mtReportAttrAdd env s attr iValue = (0, s') ∧ ShmOk s' ∧ 0 < iValue ∧
      List.Forall₂ KeepsCursor s.stAttrHash s'.stAttrHash ∧
      ∀ a, pendingOf s' a = pendingOf s a + if attr = a then iValue else 0 := by
  unfold mtReportAttrAdd at hret ⊢
  by_cases hargs : attr ≤ 0 ∨ iValue ≤ 0
  · simp [hargs] at hret
  rw [if_neg hargs] at hret ⊢
  have hv : 0 < iValue := by omega
  rw [pendingOf_eq] at hmax
  have hspec0 := sumOf_nonneg h.pos attr
  have htab0 := tablesSum_nonneg h.tables attr
  have hmax' : tablesSum attr s.stAttrHash + iValue < 2 ^ 31 := by omega
  have hloop := attrAddLoop_ok hv henv h.tables hmax' 0
  obtain ⟨e, ts, hr⟩ : ∃ e ts, attrAddLoop env attr iValue 0 s.stAttrHash = (e, ts) :=
    ⟨_, _, rfl⟩
  rw [hr] at hret hloop ⊢
  have hok : ShmOk { s with stAttrHash := ts } := ⟨hloop.tables, h.count, h.pos, h.ids⟩
  have hflush := flushSpec_of_ok hok.tables
  cases e with
  | stored =>
    refine ⟨{ s with stAttrHash := ts }, by simp only [hflush], hok, hv, hloop.keeps, ?_⟩
    intro a
    have hsum := hloop.sum a
    simp only [true_and] at hsum
    simp only [pendingOf_eq, hsum]
    exact Int.add_right_comm _ _ _
  | gaveUp => simp at hret
  | noTable =>
    simp only [hflush] at hret ⊢
    have hmax' : sumOf attr (specNodes { s with stAttrHash := ts }) + iValue < 2 ^ 31 := by
      change sumOf attr (specNodes s) + iValue < 2 ^ 31
      omega
    obtain ⟨s', hs', hok', hts', hsum'⟩ := hok.spec hv hmax' hret
    refine ⟨s', hs', hok', hv, by rw [hts']; exact hloop.keeps, ?_⟩
    intro a
    have hsum := hloop.sum a
    simp only [reduceCtorEq, false_and, if_false, Int.add_zero] at hsum
    rw [pendingOf_eq, pendingOf_eq, hts', hsum', ← hsum, Int.add_assoc]
    rfl

end Add

section Read

variable {s : AttrShm} {t t' : SharedHashTable AttrNode} {l : List Nat} {env : LockEnv}
  {b : List AttrNode} {r : ReadState} {i : Nat}

/-- A running drain: its batch, and its node under the cursor of the table. -/
structure ReadOk (s : AttrShm) (r : ReadState) : Prop where
  forward : r.bReverse = false
  batch : BatchOk r.stAttrRead
  length : r.stAttrRead.length ≤ MAX_ATTR_READ_PER_EACH
  cursor : ∀ c t, r.pNode = some c → s.stAttrHash[r.i]? = some t →
    t.dwCurIndex = c ∧ c < t.dwRealNodeCount ∧ t.used c = true

/-- What a round of a drain leaves, where `total` is the sum of an attribute over the
batch and the shared memory. -/
structure DrainOk (total : Int → Int) (x : List AttrNode × Option ReadState × AttrShm) :
    Prop where
  shm : ShmOk x.2.2
  length : x.1.length ≤ MAX_ATTR_READ_PER_EACH
  ids : (x.1.map AttrNode.iAttrID).Nodup
  pos : ∀ n ∈ x.1, 0 < n.iCurValue
  sum : ∀ a, sumOf a x.1 + pendingOf x.2.2 a = total a
  reading : ∀ r, x.2.1 = some r → ReadOk x.2.2 r ∧ r.stAttrRead = x.1

theorem TableOk.setCursor (h : TableOk t l) (c : Nat) : TableOk { t with dwCurIndex := c } l where
  ready :=
    ⟨h.ready.linked.setCursors c t.dwCurIndexRevers, h.ready.init, h.ready.free, h.ready.noWriter,
      h.ready.word⟩
  rows := ⟨h.rows.pos, h.rows.sum⟩
  cmp := h.cmp
  spec := h.spec
  pos := h.pos

theorem TableOk.endTable (h : TableOk t l) :
    TableOk (endTable false t) l ∧ usedNodes (endTable false t) = usedNodes t := by
  simp only [Attr.endTable, Bool.false_and, Bool.false_eq_true, if_false]
  split
  · refine ⟨⟨⟨⟨?_, ?_, ?_, ?_, ?_⟩, h.ready.init, h.ready.free, h.ready.noWriter, h.ready.word⟩,
      ⟨h.rows.pos, h.rows.sum⟩, h.cmp, h.spec, h.pos⟩, rfl⟩
    · exact h.ready.linked.fwd
    · exact h.ready.linked.bwd
    · exact h.ready.linked.nodup
    · exact h.ready.linked.mem
    · exact h.ready.linked.count
  · exact ⟨h, rfl⟩

theorem tablesSum_set {ts : List (SharedHashTable AttrNode)} (ht : ts[i]? = some t) (a : Int) :
    tablesSum a (ts.set i t') =
      tablesSum a ts - sumOf a (usedNodes t) + sumOf a (usedNodes t') := by
  have hsum := sum_map_set ht (fun t => sumOf a (usedNodes t)) t'
  unfold tablesSum
  omega

theorem ShmOk.setTable (h : ShmOk s) (ht : s.stAttrHash[i]? = some t) (hok : TableOk t' l) :
    ShmOk (s.setTable i t') ∧ ∀ a, pendingOf (s.setTable i t') a =
      pendingOf s a - sumOf a (usedNodes t) + sumOf a (usedNodes t') := by
  constructor
  · refine ⟨?_, h.count, h.pos, h.ids⟩
    intro u hu
    rcases List.mem_or_eq_of_mem_set hu with hu | rfl
    · exact h.tables u hu
    · exact ⟨l, hok⟩
  · intro a
    rw [pendingOf_eq, pendingOf_eq]
    change tablesSum a (s.stAttrHash.set i t') + sumOf a (specNodes s) = _
    rw [tablesSum_set ht]
    omega

theorem getElem?_setTable (ht : s.stAttrHash[i]? = some t) :
    (s.setTable i t').stAttrHash[i]? = some t' := by
  obtain ⟨hi, -⟩ := List.getElem?_eq_some_iff.mp ht
  simp [AttrShm.setTable, hi]

theorem ShmOk.beginTable (h : ShmOk s) (hb : BatchOk b)
    (hlen : b.length ≤ MAX_ATTR_READ_PER_EACH) (i : Nat) :
    DrainOk (fun a => sumOf a b + pendingOf s a) (b, beginTable s i b) := by
  unfold Attr.beginTable
  cases ht : s.stAttrHash[i]? with
  | none => exact ⟨h, hlen, hb.ids_nodup, hb.pos, fun _ => rfl, by simp⟩
  | some t =>
    obtain ⟨l, hl⟩ := h.tables t (List.mem_of_getElem? ht)
    obtain ⟨hfirst, hstart⟩ := getFirstNode_linked hl.ready.linked
    have hcond : (l.head?.isNone && decide (0 < t.head.dwNodeUseCount)) = false := by
      cases l with
      | nil => simp [hl.ready.linked.count]
      | cons c l => rfl
    obtain ⟨hok, hpend⟩ := h.setTable ht (hl.setCursor t.head.dwNodeStartIndex)
    simp only [hfirst, hcond, Bool.false_eq_true, if_false]
    refine ⟨hok, hlen, hb.ids_nodup, hb.pos, ?_, ?_⟩
    · intro a
      rw [hpend]
      change sumOf a b + (pendingOf s a - sumOf a (usedNodes t) + sumOf a (usedNodes t)) = _
      omega
    · intro r hr
      obtain rfl := Option.some.inj hr
      refine ⟨⟨rfl, hb, hlen, ?_⟩, rfl⟩
      intro c u hc hu
      rw [getElem?_setTable ht] at hu
      obtain rfl := Option.some.inj hu
      have hc : l.head? = some c := hc
      have hmem : c ∈ l := List.mem_of_mem_head? hc
      exact ⟨hstart c hc, hl.ready.linked.lt hmem, hl.ready.linked.used hmem⟩

theorem DrainOk.congr {f g : Int → Int} {x : List AttrNode × Option ReadState × AttrShm}
    (h : DrainOk f x) (hfg : ∀ a, f a = g a) : DrainOk g x :=
  ⟨h.shm, h.length, h.ids, h.pos, fun a => (h.sum a).trans (hfg a), h.reading⟩

theorem specNodes_split (hlong : MAX_ATTR_READ_PER_EACH < s.iAttrSpecialCount) :
    specNodes s = (List.range MAX_ATTR_READ_PER_EACH).map s.sArrtListSpec ++
      (List.range (s.iAttrSpecialCount - MAX_ATTR_READ_PER_EACH)).map fun i =>
        s.sArrtListSpec (i + MAX_ATTR_READ_PER_EACH) := by
  have hsplit : s.iAttrSpecialCount =
      MAX_ATTR_READ_PER_EACH + (s.iAttrSpecialCount - MAX_ATTR_READ_PER_EACH) := by omega
  unfold specNodes
  conv_lhs => rw [hsplit, List.range_add, List.map_append, List.map_map]
  congr 1
  apply List.map_congr_left
  intro i _
  simp only [Function.comp, Nat.add_comm]

/-- The start of a drain. -/
theorem ShmOk.readBegin (h : ShmOk s) : DrainOk (pendingOf s) (readBegin s) := by
  unfold Attr.readBegin
  by_cases hshort : 0 < s.iAttrSpecialCount ∧ s.iAttrSpecialCount ≤ MAX_ATTR_READ_PER_EACH
  · rw [if_pos hshort]
    have hok : ShmOk { s with iAttrSpecialCount := 0 } :=
      ⟨h.tables, Nat.zero_le _, by simp [specNodes], by simp [specNodes]⟩
    have hlen : (sortAttr (specNodes s)).length ≤ MAX_ATTR_READ_PER_EACH := by
      rw [length_sortAttr, specNodes, List.length_map, List.length_range]
      exact hshort.2
    apply (hok.beginTable (batchOk_sortAttr h.ids h.pos) hlen 0).congr
    intro a
    rw [sumOf_perm (perm_sortAttr _), pendingOf_eq, pendingOf_eq]
    simp only [specNodes, List.range_zero, List.map_nil, sumOf_nil]
    omega
  rw [if_neg hshort]
  by_cases hlong : MAX_ATTR_READ_PER_EACH < s.iAttrSpecialCount
  · rw [if_pos hlong]
    have hsplit := specNodes_split hlong
    have hids := h.ids
    have hpos := h.pos
    rw [hsplit, List.map_append] at hids
    rw [hsplit] at hpos
    have hnodes : specNodes
        { s with
          iAttrSpecialCount := s.iAttrSpecialCount - MAX_ATTR_READ_PER_EACH
          sArrtListSpec := fun i =>
            if i < s.iAttrSpecialCount - MAX_ATTR_READ_PER_EACH
            then s.sArrtListSpec (i + MAX_ATTR_READ_PER_EACH) else s.sArrtListSpec i } =
        (List.range (s.iAttrSpecialCount - MAX_ATTR_READ_PER_EACH)).map fun i =>
          s.sArrtListSpec (i + MAX_ATTR_READ_PER_EACH) := by
      apply List.map_congr_left
      intro i hi
      simp only [List.mem_range.mp hi, if_true]
    refine ⟨⟨h.tables, ?_, ?_, ?_⟩, by simp, (List.nodup_append.mp hids).1,
      fun n hn => hpos n (List.mem_append_left _ hn), ?_, by simp⟩
    · exact (Nat.sub_le _ _).trans h.count
    · rw [hnodes]
      intro n hn
      exact hpos n (List.mem_append_right _ hn)
    · rw [hnodes]
      exact (List.nodup_append.mp hids).2.1
    · intro a
      rw [pendingOf_eq, pendingOf_eq, hnodes, hsplit, sumOf_append]
      simp only
      omega
  · rw [if_neg hlong]
    apply (h.beginTable ⟨List.Pairwise.nil, by simp⟩ (by simp) 0).congr
    intro a
    simp

/-- One round of a drain. -/
theorem ShmOk.readStep (h : ShmOk s) (hr : ReadOk s r) (henv : lockLoop env false = true)
    (hmax : ∀ a, sumOf a r.stAttrRead + pendingOf s a < 2 ^ 31) :
    DrainOk (fun a => sumOf a r.stAttrRead + pendingOf s a) (readStep env s r) := by
  unfold Attr.readStep
  cases ht : s.stAttrHash[r.i]? with
  | none => exact ⟨h, hr.length, hr.batch.ids_nodup, hr.batch.pos, fun _ => rfl, by simp⟩
  | some t =>
    obtain ⟨l, hl⟩ := h.tables t (List.mem_of_getElem? ht)
    have hleave : DrainOk (fun a => sumOf a r.stAttrRead + pendingOf s a)
        (Attr.readStep.leave s r t) := by
      obtain ⟨hend, hused⟩ := hl.endTable
      obtain ⟨hok, hpend⟩ := h.setTable ht hend
      have hpend : ∀ a, pendingOf (s.setTable r.i (Attr.endTable false t)) a = pendingOf s a := by
        intro a
        rw [hpend, hused]
        omega
      simp only [readStep.leave, hr.forward, flushSpec_of_ok hok.tables]
      split
      · exact ⟨hok, hr.length, hr.batch.ids_nodup, hr.batch.pos, by simp [hpend], by simp⟩
      · apply (hok.beginTable hr.batch hr.length (r.i + 1)).congr
        simp [hpend]
    cases hc : r.pNode with
    | none => exact hleave
    | some c =>
      simp only
      split
      · rename_i hroom
        obtain ⟨hcur, hlt, hused⟩ := hr.cursor c t hc ht
        have hmem : c ∈ l := (hl.ready.linked.mem c).mpr ⟨hlt, hused⟩
        obtain ⟨pNode, t', l', htake, hok', hsum', hnext⟩ := hl.take hmem hcur henv
        obtain ⟨hok, hpend⟩ := h.setTable ht hok'
        have hpend : ∀ a, pendingOf (s.setTable r.i t') a =
            pendingOf s a - worth a (t.node c) := by
          intro a
          have := hsum' a
          rw [hpend, sumOf_usedNodes hl, sumOf_usedNodes hok']
          omega
        have hval : (t.node c).iCurValue ≤ pendingOf s (t.node c).iAttrID := by
          have h0 := hok.pending_nonneg (t.node c).iAttrID
          rw [hpend, worth, if_pos rfl] at h0
          omega
        have hfit := hmax (t.node c).iAttrID
        obtain ⟨hbatch, hlen, hsums⟩ := hr.batch.merge (hl.pos c hmem) (by omega)
        have hlen : (mergeAttr r.stAttrRead (t.node c)).length ≤ MAX_ATTR_READ_PER_EACH := by
          omega
        simp only [hr.forward, htake, flushSpec_of_ok hok.tables]
        refine ⟨hok, hlen, hbatch.ids_nodup, hbatch.pos, ?_, ?_⟩
        · intro a
          rw [hsums, hpend]
          omega
        · intro r' hr'
          obtain rfl := Option.some.inj hr'
          refine ⟨⟨rfl, hbatch, hlen, ?_⟩, rfl⟩
          intro d u hd hu
          rw [getElem?_setTable ht] at hu
          obtain rfl := Option.some.inj hu
          obtain ⟨hcur', hmem'⟩ := hnext d hd
          exact ⟨hcur', hok'.ready.linked.lt hmem', hok'.ready.linked.used hmem'⟩
      · exact hleave

end Read

end XrkMonitor.Attr
