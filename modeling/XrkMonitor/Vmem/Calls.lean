import XrkMonitor.Vmem.SaveLoad

/-!
# The calls of the allocator on the whole set of segments

`PoolsInv p live` says that every segment is ready and that segment `g` stores
the strings `live g`. A save adds one string or none, a free removes the string
its index names, and a check changes no string; a read returns the stored bytes.
-/

namespace XrkMonitor.Vmem

open Library

/-- A segment's size and number. -/
abbrev SegId := VmemType × Nat

variable {p : VmemPools} {live : SegId → List Chain} {pdata : List UInt8} {type : VmemType}
  {s : VmemSegment} {w : SegmentView} {env : VmemEnv}

/-- Between two calls every segment is ready and stores `live` of it. -/
structure PoolsInv (p : VmemPools) (live : SegId → List Chain) : Prop where
  init : p.cIsInit = true
  vmemInit : p.cIsVmemInit = true
  bug : p.commLibBug = false
  seg : ∀ g : SegId, g.2 < VMEM_SHM_COUNT →
    ∃ w, SegReady g.1.nodeCount (p.shm g.1 g.2) w ∧ w.live = live g

theorem VmemType.len_pos (type : VmemType) : 0 < type.len := by cases type <;> decide

theorem VmemType.len_le (type : VmemType) : type.len ≤ 255 := by cases type <;> decide

theorem VmemType.ofLen_len (type : VmemType) : VmemType.ofLen type.len = some type := by
  cases type <;> rfl

theorem VmemType.one_lt_nodeCount (type : VmemType) : 1 < type.nodeCount := by
  cases type <;> decide

theorem VmemType.nodeCount_lt (type : VmemType) : type.nodeCount < 2 ^ 16 := by
  cases type <;> decide

theorem shm_setShm_self (type : VmemType) (i : Nat) (s : VmemSegment) :
    (p.setShm type i s).shm type i = s := by
  simp [VmemPools.setShm]

theorem shm_setShm_of_ne {g : SegId} {i : Nat} (hg : g ≠ (type, i))
    (s : VmemSegment) : (p.setShm type i s).shm g.1 g.2 = p.shm g.1 g.2 := by
  obtain ⟨type', j⟩ := g
  by_cases ht : type' = type
  · subst ht
    have hj : j ≠ i := by
      rintro rfl
      exact hg rfl
    simp [VmemPools.setShm, hj]
  · simp [VmemPools.setShm, ht]

theorem PoolsInv.setShm {i : Nat}
    (h : PoolsInv p live) (hs : SegReady type.nodeCount s w) :
    PoolsInv (p.setShm type i s) (Function.update live (type, i) w.live) where
  init := h.init
  vmemInit := h.vmemInit
  bug := h.bug
  seg := by
    intro g hg
    by_cases hgi : g = (type, i)
    · subst hgi
      refine ⟨w, ?_, by simp⟩
      rw [shm_setShm_self]
      exact hs
    · obtain ⟨w', hw', hl'⟩ := h.seg g hg
      refine ⟨w', ?_, by simp [hgi, hl']⟩
      rw [shm_setShm_of_ne hgi]
      exact hw'

theorem SegReady.setTime {n k : Nat} (h : SegReady n s w) :
    SegReady n { s with dwUseFlagStartTime := k } w where
  inv :=
    { count := h.inv.count
      free := h.inv.free
      deferred := h.inv.deferred
      live := fun c hc => (h.inv.live c hc).congr rfl fun _ _ => rfl
      perm := h.inv.perm
      used := h.inv.used
      scan := h.inv.scan
      word := h.inv.word }
  held := h.held

/-- The index of a string stored in a segment. -/
def chainIndex (g : SegId) (c : Chain) : Int := (vmemMakeIdex32 g.1.len g.2 c.first : Nat)

theorem chainIndex_pos (g : SegId) (c : Chain) : 0 < chainIndex g c := by
  have := g.1.len_pos
  unfold chainIndex vmemMakeIdex32
  omega

theorem vmemParseIdex32_make {len t_idx n_idx : Nat} (hl : len < 2 ^ 8) (ht : t_idx < 2 ^ 8)
    (hn : n_idx < 2 ^ 16) :
    vmemParseIdex32 (vmemMakeIdex32 len t_idx n_idx : Nat) = (len, t_idx, n_idx) := by
  unfold vmemParseIdex32 vmemMakeIdex32
  refine Prod.ext ?_ (Prod.ext ?_ ?_) <;> simp only <;> omega

/-- What a save of `data` leaves: a failure that changes no stored string, or
one more stored string and its index. -/
def SaveOutcome (live : SegId → List Chain) (data : List UInt8) (r : Int × VmemPools) : Prop :=
  (r.1 < 0 ∧ PoolsInv r.2 live) ∨
    ∃ g c, g.2 < VMEM_SHM_COUNT ∧ c.data = data ∧ r.1 = chainIndex g c ∧
      PoolsInv r.2 (Function.update live g (c :: live g))

theorem saveDataLoop_outcome (env : VmemEnv) (type : VmemType)
    (hpos : 0 < pdata.length) (hmax : pdata.length ≤ VMEM_MAX_DATA_LEN) (is : List Nat)
    (his : ∀ i ∈ is, i < VMEM_SHM_COUNT) (h : PoolsInv p live) :
    SaveOutcome live pdata (saveDataLoop env type pdata is p) := by
  induction is generalizing p with
  | nil => exact Or.inl ⟨(by decide : (-101 : Int) < 0), h⟩
  | cons i is ih =>
    have hrest : ∀ j ∈ is, j < VMEM_SHM_COUNT := fun j hj => his j (by simp [hj])
    obtain ⟨w, hw, hl⟩ := h.seg (type, i) (his i (by simp))
    have hw' := hw.setTime (k := env.clock type i 1 % 2 ^ 32)
    unfold saveDataLoop
    split
    · exact ih hrest h
    · dsimp only
      split
      · apply ih hrest
        have := h.setShm (i := i) hw'
        rwa [hl, Function.update_eq_self] at this
      · rename_i hroom
        rw [hw.inv.count, not_lt] at hroom
        obtain ⟨w₂, c, hw₂, hl₂, hfirst, hdata⟩ :=
          saveInSegment_ready type.one_lt_nodeCount hw' type.len_pos type.len_le hpos hmax hroom
        refine Or.inr ⟨(type, i), c, his i (by simp), hdata, ?_, ?_⟩
        · rw [chainIndex, hfirst]
        · have := h.setShm (i := i) hw₂
          rwa [hl₂, hl] at this

theorem SaveOutcome.orElse {data : List UInt8} {r : Int × VmemPools}
    (h : SaveOutcome live data r) {f : VmemPools → Int × VmemPools}
    (hf : ∀ q, PoolsInv q live → SaveOutcome live data (f q)) (b : Prop) [Decidable b] :
    SaveOutcome live data (if r.1 < 0 ∧ b then f r.2 else r) := by
  split
  · rename_i hneg
    rcases h with ⟨-, hp⟩ | ⟨g, c, -, -, hr, -⟩
    · exact hf r.2 hp
    · have := chainIndex_pos g c
      omega
  · exact h

theorem saveDataToVmem_outcome (env : VmemEnv) (type : VmemType)
    (hpos : 0 < pdata.length) (hmax : pdata.length ≤ VMEM_MAX_DATA_LEN) (h : PoolsInv p live) :
    SaveOutcome live pdata (saveDataToVmem env p type pdata) := by
  apply saveDataLoop_outcome env type hpos hmax _ _ h
  intro i hi
  exact List.mem_range.mp hi

theorem saveDataToVmem_first (hcas : env.cas type 0 0 = true)
    (hroom : ¬ (p.shm type 0).wNodeCount <
      (p.shm type 0).wNodeUsed + needCount type.len pdata.length) :
    saveDataToVmem env p type pdata =
      let r := saveInSegment type.len
        { p.shm type 0 with dwUseFlagStartTime := env.clock type 0 1 % 2 ^ 32 } pdata
      (Int.ofNat (vmemMakeIdex32 type.len 0 r.1), p.setShm type 0 r.2) := by
  rw [saveDataToVmem, show List.range VMEM_SHM_COUNT = 0 :: [1, 2, 3, 4] from rfl, saveDataLoop]
  simp only [hcas, Bool.not_true, Bool.false_and, Bool.false_eq_true, if_false]
  rw [if_neg hroom]
  rfl

theorem saveDataToVmem_stored
    (h : PoolsInv p live) (hpos : 0 < pdata.length) (hmax : pdata.length ≤ VMEM_MAX_DATA_LEN)
    (hcas : env.cas type 0 0 = true)
    (hroom : (p.shm type 0).wNodeUsed + needCount type.len pdata.length ≤ type.nodeCount) :
    ∃ s c, saveDataToVmem env p type pdata = (chainIndex (type, 0) c, p.setShm type 0 s) ∧
      c.data = pdata ∧
      PoolsInv (p.setShm type 0 s) (Function.update live (type, 0) (c :: live (type, 0))) := by
  obtain ⟨w, hw, hl⟩ := h.seg (type, 0) (show 0 < VMEM_SHM_COUNT by decide)
  dsimp only at hw
  have hw' := hw.setTime (k := env.clock type 0 1 % 2 ^ 32)
  obtain ⟨w₂, c, hw₂, hl₂, hfirst, hdata⟩ :=
    saveInSegment_ready type.one_lt_nodeCount hw' type.len_pos type.len_le hpos hmax hroom
  refine ⟨(saveInSegment type.len
    { p.shm type 0 with dwUseFlagStartTime := env.clock type 0 1 % 2 ^ 32 } pdata).2, c, ?_,
    hdata, ?_⟩
  · rw [saveDataToVmem_first hcas (by rw [hw.inv.count]; omega), chainIndex, hfirst]
    rfl
  · have := h.setShm (i := 0) hw₂
    rwa [hl₂, hl] at this

section SaveState

variable {env : VmemEnv} {pdata : List UInt8} {st : SaveState}

theorem tryBest_outcome (hpos : 0 < pdata.length) (hmax : pdata.length ≤ VMEM_MAX_DATA_LEN)
    (h : SaveOutcome live pdata (st.iRet, st.pools)) (type : VmemType) :
    SaveOutcome live pdata
      ((tryBest env pdata st type).iRet, (tryBest env pdata st type).pools) := by
  have := h.orElse (fun q hq => saveDataToVmem_outcome env type hpos hmax hq)
    (type.len ≤ pdata.length)
  unfold tryBest
  split_ifs at this ⊢ <;> exact this

theorem tryRest_outcome (hpos : 0 < pdata.length) (hmax : pdata.length ≤ VMEM_MAX_DATA_LEN)
    (h : SaveOutcome live pdata (st.iRet, st.pools)) (type : VmemType) :
    SaveOutcome live pdata
      ((tryRest env pdata st type).iRet, (tryRest env pdata st type).pools) := by
  have := h.orElse (fun q hq => saveDataToVmem_outcome env type hpos hmax hq)
    (type ∉ st.iCheckFlag)
  unfold tryRest
  split_ifs at this ⊢ <;> exact this

theorem foldl_outcome {f : SaveState → VmemType → SaveState}
    (hf : ∀ (st : SaveState) (type : VmemType), SaveOutcome live pdata (st.iRet, st.pools) →
      SaveOutcome live pdata ((f st type).iRet, (f st type).pools))
    (types : List VmemType) (h : SaveOutcome live pdata (st.iRet, st.pools)) :
    SaveOutcome live pdata ((types.foldl f st).iRet, (types.foldl f st).pools) := by
  induction types generalizing st with
  | nil => exact h
  | cons type types ih => exact ih (hf st type h)

theorem saveToVmem_outcome (env : VmemEnv) (pdata : List UInt8) (h : PoolsInv p live) :
    SaveOutcome live pdata (saveToVmem env p pdata) := by
  unfold saveToVmem
  rw [h.init]
  simp only [Bool.not_true, Bool.false_eq_true, if_false]
  split
  · exact Or.inl ⟨(by decide : (-1 : Int) < 0), h⟩
  · rename_i hlen
    rw [not_or, not_le, not_lt] at hlen
    refine foldl_outcome (fun st type hst => tryRest_outcome hlen.1 hlen.2 hst type) _ ?_
    refine foldl_outcome (fun st type hst => tryBest_outcome hlen.1 hlen.2 hst type) _ ?_
    exact Or.inl ⟨(by decide : (-1 : Int) < 0), h⟩

end SaveState

section Stored

variable {g : SegId} {c : Chain} {type : VmemType}

theorem PoolsInv.first_lt (h : PoolsInv p live) (hg : g.2 < VMEM_SHM_COUNT) (hc : c ∈ live g) :
    (p.shm g.1 g.2).wNodeCount = g.1.nodeCount ∧ c.first < g.1.nodeCount ∧
      vmemParseIdex32 (chainIndex g c) = (g.1.len, g.2, c.first) := by
  obtain ⟨w, hw, hl⟩ := h.seg g hg
  have hcw : c ∈ w.live := by rwa [hl]
  have hst := hw.inv.live c hcw
  have hfirst : c.first ∈ c.cells := by
    obtain ⟨i, r, hcells⟩ := List.exists_cons_of_ne_nil hst.ne_nil
    simp [Chain.first, hcells]
  have hlt := (hw.inv.mem_iff.mp (SegInv.mem_cells_live hcw hfirst)).2
  have hword := hw.inv.word
  have hlen := g.1.len_le
  have hg' : g.2 < 5 := hg
  exact ⟨hw.inv.count, hlt, vmemParseIdex32_make (by omega) (by omega) (by omega)⟩

theorem getFromVmem_eq {idx iBufLen : Int} {j n : Nat}
    (hinit : p.cIsInit = true) (hparse : vmemParseIdex32 idx = (type.len, j, n)) :
    getFromVmem p idx iBufLen =
      if VMEM_SHM_COUNT < j then some (-1, [])
      else if (p.shm type j).wNodeCount ≤ n then some (-2, [])
      else getLoop (p.shm type j) walkBound n iBufLen [] := by
  unfold getFromVmem
  rw [hparse, hinit]
  simp only [VmemType.ofLen_len]
  rfl

theorem freeVmem_eq {env : VmemEnv} {idx : Int} {j n : Nat}
    (hinit : p.cIsInit = true) (hparse : vmemParseIdex32 idx = (type.len, j, n)) :
    freeVmem env p idx =
      if VMEM_SHM_COUNT ≤ j then some (-1, p)
      else if (p.shm type j).wNodeCount ≤ n then some (-2, p)
      else
        let get := env.cas type j 0 || flagIsTimeout (p.shm type j) (env.clock type j 0)
        let s := if get then
          { p.shm type j with dwUseFlagStartTime := env.clock type j 1 % 2 ^ 32 } else p.shm type j
        (freeLoop get walkBound s n p.commLibBug).map fun r =>
          (0, { p.setShm type j r.1 with commLibBug := r.2 }) := by
  unfold freeVmem
  rw [hparse, hinit]
  simp only [VmemType.ofLen_len]
  rfl

theorem getFromVmem_stored (h : PoolsInv p live) (hg : g.2 < VMEM_SHM_COUNT) (hc : c ∈ live g)
    {iBufLen : Int} (hbuf : (c.data.length : Int) ≤ iBufLen) :
    getFromVmem p (chainIndex g c) iBufLen = some (0, c.data) := by
  obtain ⟨hcount, hfirst, hparse⟩ := h.first_lt hg hc
  obtain ⟨w, hw, hl⟩ := h.seg g hg
  have hcw : c ∈ w.live := by rwa [hl]
  have hcells : ∀ j ∈ c.cells, j < g.1.nodeCount := fun j hj =>
    (hw.inv.mem_iff.mp (SegInv.mem_cells_live hcw hj)).2
  have hloop := (hw.inv.live c hcw).getLoop (hcount ▸ hcells) (hw.inv.length_lt hcw) hbuf
  rw [getFromVmem_eq h.init hparse, if_neg (by omega), if_neg (by omega)]
  exact hloop

theorem freeVmem_stored (env : VmemEnv) (h : PoolsInv p live) (hg : g.2 < VMEM_SHM_COUNT)
    (l₁ l₂ : List Chain) (hl : live g = l₁ ++ c :: l₂) :
    ∃ q, freeVmem env p (chainIndex g c) = some (0, q) ∧
      PoolsInv q (Function.update live g (l₁ ++ l₂)) := by
  have hc : c ∈ live g := by simp [hl]
  obtain ⟨hcount, hfirst, hparse⟩ := h.first_lt hg hc
  obtain ⟨w, hw, hlw⟩ := h.seg g hg
  rw [hl] at hlw
  let get := env.cas g.1 g.2 0 || flagIsTimeout (p.shm g.1 g.2) (env.clock g.1 g.2 0)
  let s₀ : VmemSegment := if get then
    { p.shm g.1 g.2 with dwUseFlagStartTime := env.clock g.1 g.2 1 % 2 ^ 32 } else p.shm g.1 g.2
  have hs₀ : SegReady g.1.nodeCount s₀ w := by
    unfold s₀
    split
    · exact hw.setTime
    · exact hw
  obtain ⟨s', w', hrun, hr, hlive⟩ := hs₀.free l₁ l₂ hlw get p.commLibBug
  refine ⟨p.setShm g.1 g.2 s', ?_, ?_⟩
  · rw [freeVmem_eq h.init hparse, if_neg (by omega), if_neg (by omega)]
    change Option.map _ (freeLoop get walkBound s₀ c.first p.commLibBug) = _
    rw [hrun]
    rfl
  · rw [← hlive]
    exact h.setShm hr

end Stored

theorem checkSegment_inv (env : VmemEnv) (k : Nat) {g : SegId} (hg : g.2 < VMEM_SHM_COUNT)
    (h : PoolsInv p live) : PoolsInv (checkSegment env (k, p) g).2 live := by
  obtain ⟨w, hw, hl⟩ := h.seg g hg
  have hrange : ∀ i ∈ List.range' 1 ((p.shm g.1 g.2).wNodeCount - 1),
      1 ≤ i ∧ i < g.1.nodeCount := by
    intro i hi
    have hcount := hw.inv.count
    have hscan := hw.inv.scan
    rw [List.mem_range'_1] at hi
    omega
  obtain ⟨w', hw', hl', hbug⟩ := checkCells_ready (env.cas g.1 g.2) _ hrange hw p.commLibBug k
  have hinv := h.setShm (i := g.2) hw'
  rw [hl', hl] at hinv
  have hsame : Function.update live (g.1, g.2) (live g) = live := Function.update_eq_self g live
  rw [hsame] at hinv
  exact ⟨hinv.init, hinv.vmemInit, hbug.trans h.bug, hinv.seg⟩

theorem checkVmem_inv (env : VmemEnv) (h : PoolsInv p live) :
    PoolsInv (checkVmem env p).2 live := by
  have hfold : ∀ (gs : List SegId) (r : Nat × VmemPools), (∀ g ∈ gs, g.2 < VMEM_SHM_COUNT) →
      PoolsInv r.2 live → PoolsInv (gs.foldl (checkSegment env) r).2 live := by
    intro gs
    induction gs with
    | nil =>
      intro r _ hr
      exact hr
    | cons g gs ih =>
      intro r hgs hr
      apply ih
      · intro g' hg'
        exact hgs g' (by simp [hg'])
      · exact checkSegment_inv env r.1 (hgs g (by simp)) hr
  have hall : ∀ g ∈ allSegments, g.2 < VMEM_SHM_COUNT := by decide
  unfold checkVmem
  rw [h.init, h.vmemInit]
  exact hfold allSegments (0, p) hall h

theorem path_succ (s : VmemSegment) (n a k : Nat) (ha : a ≠ 0)
    (hs : ∀ i ≠ 0, s.next i = i + 1) (hn : a + k = n) :
    Path s.next a (List.range' a k) n := by
  induction k generalizing a with
  | zero => exact hn
  | succ k ih =>
    refine ⟨rfl, ?_⟩
    rw [hs a ha]
    exact ih (a + 1) (by omega) (by omega)

theorem initVmem_inv : PoolsInv initVmem fun _ => [] where
  init := rfl
  vmemInit := rfl
  bug := rfl
  seg := by
    intro g _
    have hn := g.1.one_lt_nodeCount
    refine ⟨⟨List.range' 1 (g.1.nodeCount - 1), [], [], []⟩, ⟨⟨rfl, ?_, by simp, by simp, ?_, rfl, ?_,
      g.1.nodeCount_lt⟩, rfl⟩, rfl⟩
    · exact path_succ (initVmem.shm g.1 g.2) g.1.nodeCount 1 (g.1.nodeCount - 1) (by decide)
        (fun i hi => VmemSegment.next_of_ne_zero hi) (by omega)
    · simp [SegmentView.cells, SegmentView.liveCells]
    · exact Nat.lt_of_succ_lt hn

end XrkMonitor.Vmem
