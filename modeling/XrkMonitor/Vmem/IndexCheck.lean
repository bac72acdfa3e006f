import XrkMonitor.Vmem.Runs

/-!
# Indices that are read from shared memory

An index names a cell size, a segment and a cell, and any 32 bits may be read where an index
should stand. `MtReport_GetFromVmem` and `MtReport_FreeVmem` each test the index on their own. The
test of the first one lets segment 5 through, which is behind the last segment. Neither test
refuses cell 0, the segment's own record: a free of it with the segment held by another process
raises `wNodeCount`, and goes on behind the last cell.

## Implementation notes

`getCells` and `freeCells` are the loops once more, with the cells that they touch as their result.
The segment's own record is read before the cell number is tested, and counts as touched.
-/

namespace XrkMonitor.Vmem

open Library

section Touched

/-- The cells that the loop of `VMEM_GET_DATA` reads. -/
def getCells (s : VmemSegment) : Nat → Nat → Int → List Nat
  | 0, _, _ => []
  | fuel + 1, nIdx, iBufLen =>
    nIdx ::
      if iBufLen < s.dataLen nIdx then []
      else if s.next nIdx < s.wNodeCount then
        getCells s fuel (s.next nIdx) (iBufLen - s.dataLen nIdx)
      else []

/-- The cells that the loop of `VMEM_FREE_NODE` reads and writes. -/
def freeCells (bUseFlagGet : Bool) : Nat → VmemSegment → Nat → List Nat
  | 0, _, _ => []
  | fuel + 1, s, nIdx =>
    nIdx ::
      if s.next nIdx < (freeStep bUseFlagGet s nIdx).wNodeCount then
        freeCells bUseFlagGet fuel (freeStep bUseFlagGet s nIdx) (s.next nIdx)
      else []

/-- A cell of the pools: its size, its segment and its number. -/
abbrev CellId := SegId × Nat

/-- The cells that `MtReport_GetFromVmem` touches. -/
def getTouches (p : VmemPools) (index iBufLen : Int) : List CellId :=
  let (len, tIdx, nIdx) := vmemParseIdex32 index
  if VMEM_SHM_COUNT < tIdx then []
  else
    match VmemType.ofLen len with
    | none => []
    | some type =>
      let s := p.shm type tIdx
      ((type, tIdx), 0) ::
        if s.wNodeCount ≤ nIdx then []
        else (getCells s walkBound nIdx iBufLen).map fun i => ((type, tIdx), i)

/-- Whether `MtReport_FreeVmem` gets the flag of the segment. -/
def useFlagGet (env : VmemEnv) (p : VmemPools) (type : VmemType) (tIdx : Nat) : Bool :=
  env.cas type tIdx 0 || flagIsTimeout (p.shm type tIdx) (env.clock type tIdx 0)

/-- The cells that `MtReport_FreeVmem` touches. -/
def freeTouches (env : VmemEnv) (p : VmemPools) (index : Int) : List CellId :=
  let (len, tIdx, nIdx) := vmemParseIdex32 index
  if VMEM_SHM_COUNT ≤ tIdx then []
  else
    match VmemType.ofLen len with
    | none => []
    | some type =>
      let s := p.shm type tIdx
      ((type, tIdx), 0) ::
        if s.wNodeCount ≤ nIdx then []
        else
          (freeCells (useFlagGet env p type tIdx) walkBound s nIdx).map fun i => ((type, tIdx), i)

end Touched

section Spec

/-- The cell is one of its segment, and the segment is there. -/
def Inside (p : VmemPools) (x : CellId) : Prop :=
  x.1.2 < VMEM_SHM_COUNT ∧ x.2 < (p.shm x.1.1 x.1.2).wNodeCount

/-- The segment, the cell size or the cell number of the index is invalid. -/
def Invalid (p : VmemPools) (index : Int) : Prop :=
  let (len, tIdx, nIdx) := vmemParseIdex32 index
  VMEM_SHM_COUNT ≤ tIdx ∨
    match VmemType.ofLen len with
    | none => True
    | some type => (p.shm type tIdx).wNodeCount ≤ nIdx

/-- The codes with which an index is refused. -/
def refusals : List Int := [-1, -2, -3]

/-- What both operations must do with any index. -/
structure IndexChecked (env : VmemEnv) (p : VmemPools) (index iBufLen : Int) : Prop where
  get_inside : ∀ x ∈ getTouches p index iBufLen, Inside p x
  free_inside : ∀ x ∈ freeTouches env p index, Inside p x
  get_refuses : (∃ r, getFromVmem p index iBufLen = some r ∧ r.1 ∈ refusals) ↔ Invalid p index
  free_refuses : (∃ r, freeVmem env p index = some r ∧ r.1 ∈ refusals) ↔ Invalid p index

/-- The index names a cell size, and the segment behind the last one. -/
def NamesSegmentFive (index : Int) : Prop :=
  (vmemParseIdex32 index).2.1 = VMEM_SHM_COUNT ∧
    VmemType.ofLen (vmemParseIdex32 index).1 ≠ none

/-- The index names the record of a segment that another process holds. -/
def NamesHeldRecord (env : VmemEnv) (p : VmemPools) (index : Int) : Prop :=
  (vmemParseIdex32 index).2.1 < VMEM_SHM_COUNT ∧ (vmemParseIdex32 index).2.2 = 0 ∧
    ∃ type, VmemType.ofLen (vmemParseIdex32 index).1 = some type ∧
      useFlagGet env p type (vmemParseIdex32 index).2.1 = false

end Spec

section Loops

variable {s : VmemSegment} {n i fuel : Nat} {get : Bool}

theorem getCells_lt (hi : i < s.wNodeCount) (iBufLen : Int) :
    ∀ j ∈ getCells s fuel i iBufLen, j < s.wNodeCount := by
  induction fuel generalizing i iBufLen with
  | zero => exact fun j hj => absurd hj List.not_mem_nil
  | succ fuel ih =>
    intro j hj
    rw [getCells] at hj
    rcases List.mem_cons.mp hj with rfl | hj
    · exact hi
    · split_ifs at hj with hbuf hnext
      · exact absurd hj List.not_mem_nil
      · exact ih hnext _ j hj
      · exact absurd hj List.not_mem_nil

theorem getLoop_code {iBufLen : Int} {pbuf : List UInt8} {r : Int × List UInt8}
    (h : getLoop s fuel i iBufLen pbuf = some r) : r.1 = 0 ∨ r.1 = -4 := by
  induction fuel generalizing i iBufLen pbuf with
  | zero => cases h
  | succ fuel ih =>
    rw [getLoop] at h
    split_ifs at h with hbuf hnext
    · exact Or.inr (congrArg Prod.fst (Option.some.inj h).symm)
    · exact ih h
    · exact Or.inl (congrArg Prod.fst (Option.some.inj h).symm)

/-- No link leads to the segment's own record, and the cells are `n`. -/
structure NoLinkToRecord (n : Nat) (s : VmemSegment) : Prop where
  count : s.wNodeCount = n
  free : 0 < s.wFreeNodeIndex ∧ s.wFreeNodeIndex ≤ n
  next : ∀ i, 0 < i → i < n → 0 < s.next i

theorem SegReady.noLinkToRecord {w : SegmentView} (h : SegReady n s w) (hn : 0 < n) :
    NoLinkToRecord n s := by
  refine ⟨h.inv.count, ?_, ?_⟩
  · have hfree := h.inv.free
    cases hw : w.free with
    | nil =>
      rw [hw] at hfree
      have heq : s.wFreeNodeIndex = n := hfree
      omega
    | cons x xs =>
      rw [hw] at hfree
      have hx : x ∈ w.free := hw ▸ List.mem_cons_self
      have hbound := h.inv.mem_iff.mp (SegInv.mem_cells_free hx)
      have heq : s.wFreeNodeIndex = x := hfree.1
      omega
  · intro i hi hlt
    have hmem := h.inv.mem_iff.mpr ⟨hi, hlt⟩
    simp only [SegmentView.cells, h.held, List.append_nil, List.mem_append] at hmem
    rcases hmem with (hf | hd) | hl
    · rcases h.inv.free.next_mem hf with hnext | hend
      · exact (h.inv.mem_iff.mp (SegInv.mem_cells_free hnext)).1
      · omega
    · rw [(h.inv.deferred i hd).1]
      exact Nat.succ_pos n
    · obtain ⟨c, hc, hic⟩ := List.mem_flatMap.mp hl
      rcases (h.inv.live c hc).path.next_mem hic with hnext | hend
      · exact (h.inv.mem_iff.mp (SegInv.mem_cells_live hc hnext)).1
      · rw [hend, h.inv.count]
        exact hn

theorem NoLinkToRecord.freeStep (h : NoLinkToRecord n s) (get : Bool) (hi : 0 < i) (hlt : i < n) :
    NoLinkToRecord n (freeStep get s i) := by
  have hi0 : i ≠ 0 := hi.ne'
  have hother : ∀ j, 0 < j → j ≠ i → (Vmem.freeStep get s i).next j = s.next j := by
    intro j hj hji
    refine VmemSegment.next_congr hj.ne' ?_
    have hset : (s.setDataLen i 0).node j = s.node j := by
      simp [VmemSegment.setDataLen_of_ne_zero hi0, hji]
    cases get with
    | true => exact (node_pushFree_of_ne hi0 hji).trans hset
    | false =>
      rw [← hset]
      simp [Vmem.freeStep, VmemSegment.setNext_of_ne_zero hi0, hji]
  have hfree : (s.setDataLen i 0).wFreeNodeIndex = s.wFreeNodeIndex := by
    simp [VmemSegment.setDataLen_of_ne_zero hi0]
  have hcount : (s.setDataLen i 0).wNodeCount = n := by
    simp [VmemSegment.setDataLen_of_ne_zero hi0, h.count]
  cases get with
  | true =>
    refine ⟨(wNodeCount_pushFree hi0).trans hcount, ⟨hi, hlt.le⟩, ?_⟩
    intro j hj hjn
    by_cases hji : j = i
    · subst hji
      have hself := next_pushFree_self (s := s.setDataLen j 0) hi0
      rw [hfree] at hself
      exact hself.symm ▸ h.free.1
    · exact (hother j hj hji).symm ▸ h.next j hj hjn
  | false =>
    refine ⟨?_, ?_, ?_⟩
    · simp [Vmem.freeStep, VmemSegment.setNext_of_ne_zero hi0, hcount]
    · simpa [Vmem.freeStep, VmemSegment.setNext_of_ne_zero hi0, hfree] using h.free
    · intro j hj hjn
      by_cases hji : j = i
      · subst hji
        simp [Vmem.freeStep, VmemSegment.next_of_ne_zero hi0, VmemSegment.setNext_of_ne_zero hi0]
      · exact (hother j hj hji).symm ▸ h.next j hj hjn

theorem freeCells_lt (h : NoLinkToRecord n s) (hi : 0 < i) (hlt : i < n) :
    ∀ j ∈ freeCells get fuel s i, j < n := by
  induction fuel generalizing s i with
  | zero => exact fun j hj => absurd hj List.not_mem_nil
  | succ fuel ih =>
    intro j hj
    rw [freeCells] at hj
    rcases List.mem_cons.mp hj with rfl | hj
    · exact hlt
    · have hstep := h.freeStep get hi hlt
      split_ifs at hj with hnext
      · rw [hstep.count] at hnext
        exact ih hstep (h.next i hi hlt) hnext j hj
      · exact absurd hj List.not_mem_nil

theorem freeCells_record (h : NoLinkToRecord n s) (hn : 0 < n) :
    (∀ j ∈ freeCells get walkBound s 0, j < n) ↔ get = true := by
  have hwalk : walkBound = 2 ^ 16 - 2 + 1 + 1 := rfl
  have hnext : s.next 0 = n := h.count
  rw [hwalk, freeCells, hnext]
  cases get with
  | true =>
    have hcount : (freeStep true s 0).wNodeCount = s.wFreeNodeIndex := rfl
    rw [hcount, if_neg (not_lt.mpr h.free.2)]
    refine iff_of_true ?_ rfl
    intro j hj
    rw [List.mem_singleton.mp hj]
    exact hn
  | false =>
    have hcount : (freeStep false s 0).wNodeCount = n + 1 := congrArg (· + 1) h.count
    rw [hcount, if_pos (Nat.lt_succ_self n), freeCells]
    refine iff_of_false ?_ (by decide)
    intro hall
    exact lt_irrefl n (hall n (List.mem_cons_of_mem _ List.mem_cons_self))

theorem freeCells_lt_iff (h : NoLinkToRecord n s) (hlt : i < n) :
    (∀ j ∈ freeCells get walkBound s i, j < n) ↔ ¬ (i = 0 ∧ get = false) := by
  by_cases hi : i = 0
  · subst hi
    rw [freeCells_record h hlt, not_and, Bool.not_eq_false]
    exact ⟨fun hget _ => hget, fun hget => hget rfl⟩
  · exact iff_of_true (freeCells_lt h (Nat.pos_of_ne_zero hi) hlt) fun hboth => hi hboth.1

end Loops

section Calls

variable {p : VmemPools} {live : SegId → List Chain} {env : VmemEnv} {index iBufLen : Int}
  {type : VmemType}

theorem indexChecked_of_refused {e e' : Int} (hget : getFromVmem p index iBufLen = some (e, []))
    (hfree : freeVmem env p index = some (e', p)) (he : e ∈ refusals) (he' : e' ∈ refusals)
    (hgt : ∀ x ∈ getTouches p index iBufLen, Inside p x)
    (hft : ∀ x ∈ freeTouches env p index, Inside p x) (hinv : Invalid p index) :
    IndexChecked env p index iBufLen :=
  ⟨hgt, hft, iff_of_true ⟨_, hget, he⟩ hinv, iff_of_true ⟨_, hfree, he'⟩ hinv⟩

theorem indexChecked_of_no_size {len tIdx nIdx : Nat} (hinit : p.cIsInit = true)
    (hparse : vmemParseIdex32 index = (len, tIdx, nIdx))
    (h : VMEM_SHM_COUNT < tIdx ∨ VmemType.ofLen len = none) :
    IndexChecked env p index iBufLen := by
  have hgt : getTouches p index iBufLen = [] := by
    rw [getTouches, hparse]
    rcases h with hlt | hnone
    · simp [hlt]
    · simp [hnone]
  have hft : freeTouches env p index = [] := by
    rw [freeTouches, hparse]
    rcases h with hlt | hnone
    · simp [hlt.le]
    · simp [hnone]
  have hinv : Invalid p index := by
    rw [Invalid, hparse]
    rcases h with hlt | hnone
    · exact Or.inl hlt.le
    · exact Or.inr (by rw [hnone]; trivial)
  have hget : ∃ e ∈ refusals, getFromVmem p index iBufLen = some (e, []) := by
    rw [getFromVmem, hparse, hinit]
    by_cases hlt : VMEM_SHM_COUNT < tIdx
    · exact ⟨-1, by decide, by simp [hlt]⟩
    · exact ⟨-3, by decide, by simp [hlt, h.resolve_left hlt]⟩
  have hfree : ∃ e ∈ refusals, freeVmem env p index = some (e, p) := by
    rw [freeVmem, hparse, hinit]
    by_cases hle : VMEM_SHM_COUNT ≤ tIdx
    · exact ⟨-1, by decide, by simp [hle]⟩
    · exact ⟨-3, by decide, by simp [hle, h.resolve_left fun hlt => hle hlt.le]⟩
  obtain ⟨e, he, hget⟩ := hget
  obtain ⟨e', he', hfree⟩ := hfree
  refine indexChecked_of_refused hget hfree he he' ?_ ?_ hinv
  · rw [hgt]
    exact fun x hx => absurd hx List.not_mem_nil
  · rw [hft]
    exact fun x hx => absurd hx List.not_mem_nil

section Size

variable {type : VmemType} {tIdx nIdx : Nat}

theorem getTouches_eq (hparse : vmemParseIdex32 index = (type.len, tIdx, nIdx))
    (ht : tIdx ≤ VMEM_SHM_COUNT) :
    getTouches p index iBufLen =
      ((type, tIdx), 0) ::
        if (p.shm type tIdx).wNodeCount ≤ nIdx then []
        else (getCells (p.shm type tIdx) walkBound nIdx iBufLen).map fun i => ((type, tIdx), i) := by
  rw [getTouches, hparse]
  simp only [if_neg (not_lt.mpr ht), VmemType.ofLen_len]

theorem freeTouches_eq (hparse : vmemParseIdex32 index = (type.len, tIdx, nIdx))
    (ht : tIdx < VMEM_SHM_COUNT) :
    freeTouches env p index =
      ((type, tIdx), 0) ::
        if (p.shm type tIdx).wNodeCount ≤ nIdx then []
        else (freeCells (useFlagGet env p type tIdx) walkBound (p.shm type tIdx) nIdx).map
          fun i => ((type, tIdx), i) := by
  rw [freeTouches, hparse]
  simp only [if_neg (not_le.mpr ht), VmemType.ofLen_len]

theorem invalid_iff (hparse : vmemParseIdex32 index = (type.len, tIdx, nIdx))
    (ht : tIdx < VMEM_SHM_COUNT) : Invalid p index ↔ (p.shm type tIdx).wNodeCount ≤ nIdx := by
  rw [Invalid, hparse]
  simp only [VmemType.ofLen_len]
  exact or_iff_right (not_le.mpr ht)

/-- An index with a segment and a size. -/
theorem indexChecked_iff_of_size (h : PoolsInv p live)
    (hparse : vmemParseIdex32 index = (type.len, tIdx, nIdx)) (ht : tIdx < VMEM_SHM_COUNT) :
    IndexChecked env p index iBufLen ↔ ¬ (nIdx = 0 ∧ useFlagGet env p type tIdx = false) := by
  obtain ⟨w, hw, -⟩ := h.seg (type, tIdx) ht
  have hn : 0 < type.nodeCount := lt_trans Nat.one_pos type.one_lt_nodeCount
  have hcount : (p.shm type tIdx).wNodeCount = type.nodeCount := hw.inv.count
  have hrecord : Inside p ((type, tIdx), 0) := ⟨ht, hcount.symm ▸ hn⟩
  have hgt : getTouches p index iBufLen = _ := getTouches_eq hparse ht.le
  have hft : freeTouches env p index = _ := freeTouches_eq hparse ht
  have hget : getFromVmem p index iBufLen = _ := getFromVmem_eq h.init hparse
  have hfree : freeVmem env p index = _ := freeVmem_eq h.init hparse
  rw [if_neg (not_lt.mpr ht.le)] at hget
  rw [if_neg (not_le.mpr ht)] at hfree
  by_cases hle : (p.shm type tIdx).wNodeCount ≤ nIdx
  · rw [if_pos hle] at hgt hft hget hfree
    refine iff_of_true ?_ fun hzero => by omega
    refine indexChecked_of_refused hget hfree (by decide) (by decide) ?_ ?_
      ((invalid_iff hparse ht).mpr hle)
    · rw [hgt]
      exact fun x hx => List.mem_singleton.mp hx ▸ hrecord
    · rw [hft]
      exact fun x hx => List.mem_singleton.mp hx ▸ hrecord
  · rw [if_neg hle] at hgt hft hget hfree
    have hlt : nIdx < (p.shm type tIdx).wNodeCount := not_le.mp hle
    have hvalid : ¬ Invalid p index := (invalid_iff hparse ht).not.mpr hle
    rw [← freeCells_lt_iff (hw.noLinkToRecord hn) (hcount ▸ hlt)]
    constructor
    · intro hchecked j hj
      have hinside := hchecked.free_inside ((type, tIdx), j) (by
        rw [hft]
        exact List.mem_cons_of_mem _ (List.mem_map_of_mem hj))
      exact hcount ▸ hinside.2
    · intro hcells
      refine ⟨?_, ?_, iff_of_false ?_ hvalid, iff_of_false ?_ hvalid⟩
      · intro x hx
        rw [hgt] at hx
        rcases List.mem_cons.mp hx with rfl | hx
        · exact hrecord
        · obtain ⟨j, hj, rfl⟩ := List.mem_map.mp hx
          exact ⟨ht, getCells_lt hlt iBufLen j hj⟩
      · intro x hx
        rw [hft] at hx
        rcases List.mem_cons.mp hx with rfl | hx
        · exact hrecord
        · obtain ⟨j, hj, rfl⟩ := List.mem_map.mp hx
          exact ⟨ht, hcount.symm ▸ hcells j hj⟩
      · rintro ⟨r, hr, hcode⟩
        rw [hget] at hr
        rcases getLoop_code hr with hzero | hshort
        · exact absurd (hzero ▸ hcode) (by decide)
        · exact absurd (hshort ▸ hcode) (by decide)
      · rintro ⟨r, hr, hcode⟩
        rw [hfree] at hr
        obtain ⟨r', -, rfl⟩ := Option.map_eq_some_iff.mp hr
        have hzero : (0 : Int) ∈ refusals := hcode
        exact absurd hzero (by decide)

end Size

theorem not_indexChecked_of_five {nIdx : Nat}
    (hparse : vmemParseIdex32 index = (type.len, VMEM_SHM_COUNT, nIdx)) :
    ¬ IndexChecked env p index iBufLen := by
  intro hchecked
  have hinside := hchecked.get_inside ((type, VMEM_SHM_COUNT), 0) (by
    rw [getTouches_eq hparse le_rfl]
    exact List.mem_cons_self)
  exact lt_irrefl _ hinside.1

theorem VmemType.len_of_ofLen {len : Nat} (h : VmemType.ofLen len = some type) :
    len = type.len := by
  unfold VmemType.ofLen at h
  split at h
  all_goals cases h
  all_goals rfl

end Calls

/-- An index that a save returns decodes to the size, the segment and the first cell of the string
that it has stored. -/
def SaveDecodes (p : VmemPools) (live : SegId → List Chain) : Prop :=
  ∀ (env : VmemEnv) (pdata : List UInt8), 0 ≤ (saveToVmem env p pdata).1 →
    ∃ (g : SegId) (c : Chain), c.data = pdata ∧
      PoolsInv (saveToVmem env p pdata).2 (Function.update live g (c :: live g)) ∧
      vmemParseIdex32 (saveToVmem env p pdata).1 = (g.1.len, g.2, c.first)

/-- In every state that a run reaches: any 32 bits are checked alike by both operations, and the
cells that they touch are cells of the pools, exactly when the index neither names segment 5 nor
the record of a segment that is held; and an index that a save returns decodes to where the string
was put. -/
theorem index_checked {r : VmemRun} (hr : Reached r) :
    (∀ (env : VmemEnv) (index : Int32) (iBufLen : Int),
      IndexChecked env r.pools index.toInt iBufLen ↔
        ¬ NamesSegmentFive index.toInt ∧ ¬ NamesHeldRecord env r.pools index.toInt) ∧
      ∃ live, PoolsInv r.pools live ∧ SaveDecodes r.pools live := by
  obtain ⟨live, hinv⟩ := hr.inv
  refine ⟨?_, live, hinv.pools, ?_⟩
  · intro env index iBufLen
    rcases hparse : vmemParseIdex32 index.toInt with ⟨len, tIdx, nIdx⟩
    unfold NamesSegmentFive NamesHeldRecord
    rw [hparse]
    cases htype : VmemType.ofLen len with
    | none =>
      refine iff_of_true ?_ ⟨fun hfive => hfive.2 rfl, ?_⟩
      · exact indexChecked_of_no_size hinv.pools.init hparse (Or.inr htype)
      · rintro ⟨-, -, type, hsome, -⟩
        cases hsome
    | some type =>
      obtain rfl := VmemType.len_of_ofLen htype
      rcases lt_trichotomy tIdx VMEM_SHM_COUNT with hlt | heq | hgt
      · rw [indexChecked_iff_of_size hinv.pools hparse hlt]
        constructor
        · intro hcond
          refine ⟨fun hfive => hlt.ne hfive.1, ?_⟩
          rintro ⟨-, hzero, type', hsome, hget⟩
          obtain rfl := Option.some.inj hsome
          exact hcond ⟨hzero, hget⟩
        · rintro ⟨-, hcond⟩ ⟨hzero, hget⟩
          exact hcond ⟨hlt, hzero, type, rfl, hget⟩
      · subst heq
        refine iff_of_false (not_indexChecked_of_five hparse) fun hboth => hboth.1 ⟨rfl, ?_⟩
        exact Option.some_ne_none type
      · refine iff_of_true (indexChecked_of_no_size hinv.pools.init hparse (Or.inl hgt)) ⟨?_, ?_⟩
        · exact fun hfive => hgt.ne' hfive.1
        · exact fun hheld => absurd hheld.1 hgt.asymm
  · intro env pdata hsaved
    rcases saveToVmem_outcome env pdata hinv.pools with ⟨hneg, -⟩ | ⟨g, c, hg, hdata, hret, hpools⟩
    · omega
    · refine ⟨g, c, hdata, hpools, ?_⟩
      have hc : c ∈ Function.update live g (c :: live g) g := by
        rw [Function.update_self]
        exact List.mem_cons_self
      rw [hret]
      exact (hpools.first_lt hg hc).2.2

theorem index_checked_start :
    Reached vmemStart ∧ IndexChecked uncontended vmemStart.pools (1048577 : Int32).toInt 100 := by
  have hreached : Reached vmemStart := ⟨[], [], trivial, rfl⟩
  refine ⟨hreached, ((index_checked hreached).1 uncontended 1048577 100).mpr ⟨?_, ?_⟩⟩
  · exact fun hfive => absurd hfive.1 (by decide)
  · exact fun hheld => absurd hheld.2.1 (by decide)

/-- No compare-and-swap succeeds, and no segment is held for too long. -/
def contended : VmemEnv := ⟨fun _ _ _ => false, fun _ _ _ => 0⟩

/-- An index of segment 5 is read, and a free of the record of a held segment goes on behind the
last cell. -/
theorem index_let_through :
    Reached vmemStart ∧
      ¬ IndexChecked uncontended vmemStart.pools (84934657 : Int32).toInt 100 ∧
      ¬ IndexChecked contended vmemStart.pools (1048576 : Int32).toInt 100 := by
  refine ⟨⟨[], [], trivial, rfl⟩, ?_, ?_⟩
  · have hparse : vmemParseIdex32 (84934657 : Int32).toInt = (VmemType.v16.len, VMEM_SHM_COUNT, 1) := by
      decide
    exact not_indexChecked_of_five hparse
  · have hparse : vmemParseIdex32 (1048576 : Int32).toInt = (VmemType.v16.len, 0, 0) := by decide
    rw [indexChecked_iff_of_size runInv_start.pools hparse (by decide)]
    exact not_not.mpr ⟨rfl, by decide⟩

end XrkMonitor.Vmem
