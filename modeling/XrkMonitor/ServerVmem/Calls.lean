import XrkMonitor.ServerVmem.Segment

/-!
# The calls of the server's allocator on all segments

`BufInv b live` says that segment `g` stores exactly the strings `live g`. A
save adds one string or none, a free removes the string its index names, and a
read returns the stored bytes.
-/

namespace XrkMonitor.ServerVmem

open Library Vmem

variable {b : VmemBuf} {live : SegId → List Chain} {pdata : List UInt8}

/-- Between two calls every segment is ready and stores `live` of it. -/
structure BufInv (b : VmemBuf) (live : SegId → List Chain) : Prop where
  init : b.cIsInit = true
  seg : ∀ g : SegId, g.2 < VMEM_SHM_COUNT →
    ∃ w, CellsReady g.1 (b.shm g.1 g.2) w ∧ w.live = live g

theorem shm_setShm (b : VmemBuf) (g h : SegId) (s : VmemSegment) :
    (b.setShm g.1 g.2 s).shm h.1 h.2 = if h = g then s else b.shm h.1 h.2 := by
  obtain ⟨type, i⟩ := g
  obtain ⟨type', j⟩ := h
  unfold VmemBuf.setShm
  by_cases ht : type' = type
  · subst ht
    by_cases hj : j = i
    · subst hj
      simp
    · simp [hj]
  · simp [ht]

theorem BufInv.setShm {g : SegId} {s : VmemSegment} {w : SegmentView} (h : BufInv b live)
    (hs : CellsReady g.1 s w) :
    BufInv (b.setShm g.1 g.2 s) (Function.update live g w.live) where
  init := h.init
  seg := by
    intro g' hg'
    by_cases heq : g' = g
    · subst heq
      exact ⟨w, by rwa [shm_setShm, if_pos rfl], by simp⟩
    · obtain ⟨w', hw', hl'⟩ := h.seg g' hg'
      exact ⟨w', by rwa [shm_setShm, if_neg heq], by simp [heq, hl']⟩

/-- What a save of `data` leaves: a failure that changes no stored string, or
one more stored string and its index. -/
def SaveOutcome (live : SegId → List Chain) (data : List UInt8) (r : Int × VmemBuf) : Prop :=
  (r.1 < 0 ∧ BufInv r.2 live) ∨
    ∃ g c, g.2 < VMEM_SHM_COUNT ∧ c.data = data ∧ r.1 = chainIndex g c ∧
      BufInv r.2 (Function.update live g (c :: live g))

theorem saveDataLoop_outcome (env : VmemEnv) (type : VmemType)
    (hpos : 0 < pdata.length) (hmax : pdata.length ≤ VMEM_MAX_DATA_LEN) (is : List Nat)
    (his : ∀ i ∈ is, i < VMEM_SHM_COUNT) (h : BufInv b live) :
    SaveOutcome live pdata (saveDataLoop env type pdata is b) := by
  induction is generalizing b with
  | nil => exact Or.inl ⟨(by decide : (-1 : Int) < 0), h⟩
  | cons i is ih =>
    have hrest : ∀ j ∈ is, j < VMEM_SHM_COUNT := fun j hj => his j (by simp [hj])
    obtain ⟨w, hw, hl⟩ := h.seg (type, i) (his i (by simp))
    have hw' := hw.setTime (k := env.clock type i 1 % 2 ^ 32)
    unfold saveDataLoop
    split
    · exact ih hrest h
    · dsimp only
      split
      · apply ih hrest
        have := h.setShm (g := (type, i)) hw'
        rwa [hl, Function.update_eq_self] at this
      · rename_i hroom
        rw [hw.count, not_lt] at hroom
        obtain ⟨w₂, c, hw₂, hl₂, hfirst, hdata⟩ :=
          saveScanned_cellsReady hw' hpos hmax hroom
        refine Or.inr ⟨(type, i), c, his i (by simp), hdata, ?_, ?_⟩
        · rw [chainIndex, hfirst]
        · have := h.setShm (g := (type, i)) hw₂
          rwa [hl₂, hl] at this

theorem trySave_outcome (env : Nat → VmemEnv) {st : Int × VmemBuf}
    (hpos : 0 < pdata.length) (hmax : pdata.length ≤ VMEM_MAX_DATA_LEN)
    (h : SaveOutcome live pdata st) (attempt : (Bool × VmemType) × Nat) :
    SaveOutcome live pdata (trySave env pdata st attempt) := by
  unfold trySave
  split
  · rename_i hneg
    rcases h with ⟨-, hb⟩ | ⟨g, c, -, -, hr, -⟩
    · apply saveDataLoop_outcome _ _ hpos hmax _ _ hb
      intro i hi
      exact List.mem_range.mp hi
    · have := chainIndex_pos g c
      omega
  · exact h

theorem saveToVmem_outcome (env : Nat → VmemEnv) (pdata : List UInt8) (h : BufInv b live) :
    SaveOutcome live pdata (saveToVmem env b pdata) := by
  unfold saveToVmem
  rw [h.init]
  simp only [Bool.not_true, Bool.false_eq_true, if_false]
  split
  · exact Or.inl ⟨(by decide : (-1 : Int) < 0), h⟩
  · rename_i hlen
    rw [not_or, not_le, not_lt] at hlen
    have hfold : ∀ (as : List ((Bool × VmemType) × Nat)) (st : Int × VmemBuf),
        SaveOutcome live pdata st → SaveOutcome live pdata (as.foldl (trySave env pdata) st) := by
      intro as
      induction as with
      | nil =>
        intro st hst
        exact hst
      | cons a as ih =>
        intro st hst
        exact ih _ (trySave_outcome env hlen.1 hlen.2 hst a)
    exact hfold _ _ (Or.inl ⟨(by decide : (-1 : Int) < 0), h⟩)

section FirstAttempt

variable {env : Nat → VmemEnv} {pdata : List UInt8} {as : List ((Bool × VmemType) × Nat)}
  {st : Int × VmemBuf} {type : VmemType}

theorem saveDataToVmem_first {env : VmemEnv} (h : BufInv b live)
    (hpos : 0 < pdata.length) (hmax : pdata.length ≤ VMEM_MAX_DATA_LEN)
    (hcas : env.cas type 0 0 = true)
    (hroom : (b.shm type 0).wNodeUsed + needCount type.len pdata.length ≤ nodeCount type) :
    ∃ s c, saveDataToVmem env b type pdata = (chainIndex (type, 0) c, b.setShm type 0 s) ∧
      c.data = pdata ∧
      BufInv (b.setShm type 0 s) (Function.update live (type, 0) (c :: live (type, 0))) := by
  obtain ⟨w, hw, hl⟩ : ∃ w, CellsReady type (b.shm type 0) w ∧ w.live = live (type, 0) :=
    h.seg (type, 0) (show 0 < VMEM_SHM_COUNT by decide)
  let s₀ : VmemSegment := { b.shm type 0 with dwUseFlagStartTime := env.clock type 0 1 % 2 ^ 32 }
  have hs₀ : CellsReady type s₀ w := hw.setTime
  obtain ⟨w₂, c, hw₂, hl₂, hfirst, hdata⟩ := saveScanned_cellsReady hs₀ hpos hmax hroom
  refine ⟨(saveScanned type.len (scanFreeNode s₀) pdata).2, c, ?_, hdata, ?_⟩
  · have hcount := hw.count
    have hnone : ¬ (b.shm type 0).wNodeCount <
        (b.shm type 0).wNodeUsed + needCount type.len pdata.length := by omega
    rw [saveDataToVmem, show List.range VMEM_SHM_COUNT = 0 :: [1, 2, 3, 4, 5, 6, 7, 8, 9] from rfl,
      saveDataLoop]
    simp only [hcas, Bool.not_true, Bool.false_and, Bool.false_eq_true, if_false]
    rw [if_neg hnone, chainIndex, hfirst]
  · have := h.setShm (g := (type, 0)) hw₂
    rwa [hl₂, hl] at this

theorem foldl_trySave_of_false
    (h : ∀ a ∈ as, a.1.1 = false) : as.foldl (trySave env pdata) st = st := by
  induction as with
  | nil => rfl
  | cons a as ih =>
    have ha : ¬ (st.1 < 0 ∧ a.1.1 = true) := by
      rw [h a (by simp)]
      simp
    rw [List.foldl_cons, trySave, if_neg ha]
    exact ih fun a' ha' => h a' (List.mem_cons_of_mem _ ha')

theorem foldl_trySave_of_saved (h : 0 ≤ st.1) : as.foldl (trySave env pdata) st = st := by
  induction as with
  | nil => rfl
  | cons a as ih =>
    rw [List.foldl_cons, trySave, if_neg (by omega)]
    exact ih

theorem saveToVmem_eq {as bs : List ((Bool × VmemType) × Nat)} {k : Nat}
    (h : BufInv b live) (hpos : 0 < pdata.length) (hmax : pdata.length ≤ VMEM_MAX_DATA_LEN)
    (hsplit : (saveAttempts pdata.length).zipIdx = as ++ ((true, type), k) :: bs)
    (has : ∀ a ∈ as, a.1.1 = false) (hsaved : 0 ≤ (saveDataToVmem (env k) b type pdata).1) :
    saveToVmem env b pdata = saveDataToVmem (env k) b type pdata := by
  have hlen : ¬ (pdata.length ≤ 0 ∨ VMEM_MAX_DATA_LEN < pdata.length) := by omega
  unfold saveToVmem
  rw [h.init, if_neg hlen, hsplit, List.foldl_append, foldl_trySave_of_false has, List.foldl_cons]
  have hstep : trySave env pdata (-1, b) ((true, type), k) =
      saveDataToVmem (env k) b type pdata := rfl
  simp only [Bool.not_true, Bool.false_eq_true, if_false]
  rw [hstep, foldl_trySave_of_saved hsaved]

theorem saveAttempts_short {n : Nat} (h : n ≤ 16) :
    ∃ bs, (saveAttempts n).zipIdx = [] ++ ((true, .v16), 0) :: bs := by
  refine ⟨((saveAttempts n).zipIdx).drop 1, ?_⟩
  simp [saveAttempts, List.zipIdx_cons, h]

theorem saveToVmem_short (h : BufInv b live) (hpos : 0 < pdata.length)
    (hshort : pdata.length ≤ 16) (hcas : (env 0).cas .v16 0 0 = true)
    (hroom : (b.shm .v16 0).wNodeUsed + 1 ≤ nodeCount .v16) :
    0 ≤ (saveToVmem env b pdata).1 := by
  have hmax : pdata.length ≤ VMEM_MAX_DATA_LEN := Nat.le_trans hshort (by decide)
  obtain ⟨k, hneed, hlo, -⟩ := needCount_spec (VmemType.len_pos .v16) hpos hmax
  have hk : k * 16 < pdata.length := hlo
  have hone : needCount VmemType.v16.len pdata.length = 1 := by omega
  obtain ⟨s, c, hsave, -, -⟩ := saveDataToVmem_first h hpos hmax hcas (by rw [hone]; exact hroom)
  obtain ⟨bs, hsplit⟩ := saveAttempts_short hshort
  have hidx := chainIndex_pos (.v16, 0) c
  have hsaved : 0 ≤ (saveDataToVmem (env 0) b .v16 pdata).1 := by
    rw [hsave]
    exact Int.le_of_lt hidx
  rw [saveToVmem_eq h hpos hmax hsplit (by simp) hsaved]
  exact hsaved

end FirstAttempt

section Stored

variable {g : SegId} {c : Chain} {iBufLen : Nat}

theorem BufInv.first_lt (h : BufInv b live) (hg : g.2 < VMEM_SHM_COUNT) (hc : c ∈ live g) :
    (b.shm g.1 g.2).wNodeCount = nodeCount g.1 ∧ c.first < nodeCount g.1 ∧
      vmemParseIdex32 (chainIndex g c) = (g.1.len, g.2, c.first) := by
  obtain ⟨w, hw, hl⟩ := h.seg g hg
  have hcw : c ∈ w.live := by rwa [hl]
  have hst := hw.ready.inv.live c hcw
  have hfirst : c.first ∈ c.cells := by
    obtain ⟨i, r, hcells⟩ := List.exists_cons_of_ne_nil hst.ne_nil
    simp [Chain.first, hcells]
  have hlt := (hw.ready.inv.mem_iff.mp (SegInv.mem_cells_live hcw hfirst)).2
  have hword := nodeCount_lt g.1
  have hlen := g.1.len_le
  have hg' : g.2 < 10 := hg
  exact ⟨hw.count, hlt, vmemParseIdex32_make (by omega) (by omega) (by omega)⟩

theorem BufInv.index_ok (h : BufInv b live) (g : SegId) (c : Chain) :
    ¬ ((!b.cIsInit) = true ∨ chainIndex g c ≤ 0) := by
  have hpos := chainIndex_pos g c
  rw [h.init, not_or]
  exact ⟨by decide, by omega⟩

theorem getFromVmemZeroCp_eq (h : BufInv b live) (hg : g.2 < VMEM_SHM_COUNT) (hc : c ∈ live g)
    (iBufLen : Nat) :
    getFromVmemZeroCp b (chainIndex g c) iBufLen =
      zeroCpRead g.1.len (b.shm g.1 g.2) c.first iBufLen := by
  obtain ⟨hcount, hfirst, hparse⟩ := h.first_lt hg hc
  unfold getFromVmemZeroCp
  rw [if_neg (h.index_ok g c), hparse]
  simp only [VmemType.ofLen_len]
  rw [if_neg (by omega), if_neg (by omega)]

theorem getFromVmemZeroCp_stored (h : BufInv b live) (hg : g.2 < VMEM_SHM_COUNT)
    (hc : c ∈ live g) (hbuf : c.data.length ≤ iBufLen) :
    getFromVmemZeroCp b (chainIndex g c) iBufLen = some (.ok c.data) := by
  obtain ⟨w, hw, hl⟩ := h.seg g hg
  rw [getFromVmemZeroCp_eq h hg hc]
  exact hw.zeroCpRead_fits (by rwa [hl]) hbuf

theorem getFromVmem_stored (h : BufInv b live) (hg : g.2 < VMEM_SHM_COUNT) (hc : c ∈ live g)
    (hbuf : c.data.length ≤ iBufLen) :
    getFromVmem b (chainIndex g c) iBufLen = some (.ok c.data) := by
  obtain ⟨hcount, hfirst, hparse⟩ := h.first_lt hg hc
  obtain ⟨w, hw, hl⟩ := h.seg g hg
  rw [getFromVmem, if_neg (h.index_ok g c), hparse]
  simp only [VmemType.ofLen_len]
  rw [if_neg (by omega), if_neg (by omega)]
  exact hw.zeroCpLoop_fits (by rwa [hl]) hbuf

theorem getFromVmemZeroCp_short (h : BufInv b live) (hg : g.2 < VMEM_SHM_COUNT)
    (hc : c ∈ live g) (hbuf : iBufLen < c.data.length)
    (hlen : g.1.len ≤ iBufLen) (hmod : iBufLen % g.1.len ≠ 0) :
    getFromVmemZeroCp b (chainIndex g c) iBufLen = some (.error (-4)) := by
  obtain ⟨w, hw, hl⟩ := h.seg g hg
  rw [getFromVmemZeroCp_eq h hg hc]
  exact hw.zeroCpRead_short (by rwa [hl]) hbuf hlen hmod

theorem freeVmem_stored (env : VmemEnv) (h : BufInv b live) (hg : g.2 < VMEM_SHM_COUNT)
    (l₁ l₂ : List Chain) (hl : live g = l₁ ++ c :: l₂) :
    ∃ b', freeVmem env b (chainIndex g c) = some (0, b') ∧
      BufInv b' (Function.update live g (l₁ ++ l₂)) := by
  have hc : c ∈ live g := by simp [hl]
  obtain ⟨hcount, hfirst, hparse⟩ := h.first_lt hg hc
  obtain ⟨w, hw, hlw⟩ := h.seg g hg
  rw [hl] at hlw
  let get := env.cas g.1 g.2 0 || flagIsTimeout (b.shm g.1 g.2) (env.clock g.1 g.2 0)
  let s₀ : VmemSegment := if get then
    { b.shm g.1 g.2 with dwUseFlagStartTime := env.clock g.1 g.2 1 % 2 ^ 32 } else b.shm g.1 g.2
  have hs₀ : CellsReady g.1 s₀ w := by
    unfold s₀
    split
    · exact hw.setTime
    · exact hw
  obtain ⟨s', w', hrun, hr, hlive⟩ := hs₀.free l₁ l₂ hlw get
  refine ⟨b.setShm g.1 g.2 s', ?_, ?_⟩
  · unfold freeVmem
    rw [if_neg (h.index_ok g c), hparse]
    simp only [VmemType.ofLen_len]
    rw [if_neg (by omega), if_neg (by omega)]
    change Option.map _ (freeLoop get walkBound s₀ c.first) = _
    rw [hrun]
    rfl
  · rw [← hlive]
    exact h.setShm hr

end Stored

theorem initVmem_bufInv : BufInv initVmem fun _ => [] where
  init := rfl
  seg := by
    intro g _
    have hn := one_lt_nodeCount g.1
    refine ⟨⟨List.range' 1 (nodeCount g.1 - 1), [], [], []⟩, ⟨⟨⟨rfl, ?_, by simp, by simp, ?_, rfl,
      ?_, nodeCount_lt g.1⟩, rfl⟩, by simp⟩, rfl⟩
    · exact path_succ (withScan 0 (initVmem.shm g.1 g.2)) (nodeCount g.1) 1 (nodeCount g.1 - 1)
        (by decide) (fun i hi => VmemSegment.next_of_ne_zero hi) (by omega)
    · simp [SegmentView.cells, SegmentView.liveCells]
    · exact Nat.lt_of_succ_lt hn

end XrkMonitor.ServerVmem
