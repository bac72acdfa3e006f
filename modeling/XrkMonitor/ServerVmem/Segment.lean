import XrkMonitor.ServerVmem.Pool

/-!
# The cells of one segment of the server's memory

The loops of the server's allocator keep the split of the cells that the
client's keep. Its scan may leave its position one behind the last cell, so
the split is stated with the position put back to cell 0. Every stored string
is packed, which the read without copy and the free rely on.
-/

namespace XrkMonitor.ServerVmem

open Library Vmem

variable {type : VmemType} {s s' : VmemSegment} {w w' : SegmentView} {n i k : Nat}

/-- The segment with another scan position. -/
def withScan (k : Nat) (s : VmemSegment) : VmemSegment := { s with wScanFreeIndex := k }

section WithScan

@[simp] theorem next_withScan : (withScan k s).next = s.next := rfl

@[simp] theorem wNodeCount_withScan : (withScan k s).wNodeCount = s.wNodeCount := rfl

theorem keepsLive_withScan (m : Nat) :
    KeepsLive w (withScan k s) (withScan m s') ↔ KeepsLive w s s' := Iff.rfl

theorem packed_withScan {len : Nat} {c : Chain} : Packed len (withScan k s) c ↔ Packed len s c :=
  Iff.rfl

@[simp] theorem withScan_withScan (m : Nat) : withScan k (withScan m s) = withScan k s := rfl

theorem setNext_withScan (v : Nat) : (withScan k s).setNext i v = withScan k (s.setNext i v) := by
  unfold VmemSegment.setNext
  split <;> rfl

theorem setDataLen_withScan (v : Nat) :
    (withScan k s).setDataLen i v = withScan k (s.setDataLen i v) := by
  unfold VmemSegment.setDataLen
  split <;> rfl

theorem copyIn_withScan (data : List UInt8) :
    (withScan k s).copyIn i data = withScan k (s.copyIn i data) := rfl

theorem pushFree_withScan : pushFree (withScan k s) i = withScan k (pushFree s i) := by
  unfold pushFree
  rw [setNext_withScan]
  rfl

theorem freeStep_withScan (get : Bool) :
    freeStep get (withScan k s) i = withScan k (freeStep get s i) := by
  cases get with
  | true =>
    change pushFree ((withScan k s).setDataLen i 0) i = _
    rw [setDataLen_withScan, pushFree_withScan]
    rfl
  | false =>
    change ((withScan k s).setDataLen i 0).setNext i _ = _
    rw [setDataLen_withScan, setNext_withScan]
    rfl

theorem saveCells_withScan (len need : Nat) (data : List UInt8) :
    saveCells len need (withScan k s) i data = withScan k (saveCells len need s i data) := by
  have hlast : ∀ (t : VmemSegment) (a : Nat) (d : List UInt8),
      fillLast (withScan k t) a d = withScan k (fillLast t a d) := by
    intro t a d
    change (((withScan k t).setNext a t.wNodeCount).copyIn a d).setDataLen a d.length = _
    rw [setNext_withScan, copyIn_withScan, setDataLen_withScan]
    rfl
  induction need generalizing s i data with
  | zero => exact hlast s i data
  | succ need ih =>
    cases need with
    | zero => exact hlast s i data
    | succ need =>
      have hfill : fillCell len (withScan k s) i data = withScan k (fillCell len s i data) := by
        let t := (s.copyIn i (data.take len)).setDataLen i len
        unfold fillCell
        rw [copyIn_withScan, setDataLen_withScan]
        exact setNext_withScan (s := { t with wFreeNodeIndex := t.next t.wFreeNodeIndex }) _
      rw [saveCells_succ, saveCells_succ, hfill, copyIn_withScan, setDataLen_withScan]
      exact ih _

theorem saveScanned_withScan (len : Nat) (data : List UInt8) :
    saveScanned len (withScan k s) data =
      ((saveScanned len s data).1, withScan k (saveScanned len s data).2) := by
  let t : VmemSegment :=
    { s with
      wFreeNodeIndex := s.next s.wFreeNodeIndex
      wNodeUsed := (s.wNodeUsed + needCount len data.length) % 2 ^ 16 }
  have hcells := saveCells_withScan (k := k) (s := t) (i := s.wFreeNodeIndex) len
    (needCount len data.length) data
  exact Prod.ext rfl hcells

end WithScan

/-- Between two operations the cells are split as `w` says and every stored
string is packed. -/
structure CellsReady (type : VmemType) (s : VmemSegment) (w : SegmentView) : Prop where
  ready : SegReady (nodeCount type) (withScan 0 s) w
  packed : ∀ c ∈ w.live, Packed type.len s c

theorem one_lt_nodeCount (type : VmemType) : 1 < nodeCount type := by cases type <;> decide

theorem nodeCount_lt (type : VmemType) : nodeCount type < 2 ^ 16 := by cases type <;> decide

theorem CellsReady.count (h : CellsReady type s w) : s.wNodeCount = nodeCount type :=
  h.ready.inv.count

theorem CellsReady.packed_of_keepsLive (h : CellsReady type s w)
    (hcount : s'.wNodeCount = s.wNodeCount) (hkeep : KeepsLive w s s') :
    ∀ c ∈ w.live, Packed type.len s' c := by
  intro c hc
  exact (h.packed c hc).congr hcount (h.ready.inv.live c hc).pos (hkeep c hc)

theorem CellsReady.setTime (h : CellsReady type s w) :
    CellsReady type { s with dwUseFlagStartTime := k } w where
  ready := h.ready.setTime
  packed := h.packed_of_keepsLive rfl fun _ _ _ _ => rfl

theorem scanFreeNodeRound_ready (h : CellsReady type s w) :
    ∃ w', CellsReady type (scanFreeNodeRound s) w' ∧ w'.live = w.live ∧
      w.free.length ≤ w'.free.length := by
  have hn1 := one_lt_nodeCount type
  have hcount := h.count
  obtain ⟨j, hj, hround⟩ : ∃ j < nodeCount type, scanFreeNodeRound s =
      withScan (wordInc 16 j) (if s.next j = s.wNodeCount + 1 then pushFree s j else s) := by
    by_cases hend : s.wNodeCount ≤ s.wScanFreeIndex
    · refine ⟨1, hn1, ?_⟩
      simp only [scanFreeNodeRound, if_pos hend]
      split
      · rename_i hmark
        rw [if_pos (show s.next 1 = s.wNodeCount + 1 from hmark)]
        rw [show ({ s with wScanFreeIndex := 1 } : VmemSegment) = withScan 1 s from rfl,
          pushFree_withScan]
        rfl
      · rename_i hmark
        rw [if_neg (show ¬ s.next 1 = s.wNodeCount + 1 from hmark)]
        rfl
    · refine ⟨s.wScanFreeIndex, by omega, ?_⟩
      simp only [scanFreeNodeRound, if_neg hend]
      split
      · have hscan : (pushFree s s.wScanFreeIndex).wScanFreeIndex = s.wScanFreeIndex := by
          unfold pushFree VmemSegment.setNext
          split <;> rfl
        rw [hscan]
        rfl
      · rfl
  rw [hround]
  split
  · rename_i hmark
    have hj1 : 1 ≤ j := by
      by_contra hz
      have hz' : j = 0 := by omega
      rw [hz', VmemSegment.next, if_pos rfl] at hmark
      omega
    have hmark' : (withScan 0 s).next j = nodeCount type + 1 := by
      rw [next_withScan, hmark, hcount]
    obtain ⟨w', hw', hlive, hfree, -⟩ := h.ready.reclaim hj1 hj hmark'
    have hkeep := h.ready.keepsLive_pushFree (by omega) hmark'
    rw [pushFree_withScan] at hw' hkeep
    rw [keepsLive_withScan] at hkeep
    refine ⟨w', ⟨?_, ?_⟩, hlive, hfree⟩
    · rw [withScan_withScan]
      exact hw'
    · intro c hc
      rw [hlive] at hc
      rw [packed_withScan]
      have hsame := hw'.inv.count
      rw [wNodeCount_withScan, ← hcount] at hsame
      exact h.packed_of_keepsLive hsame hkeep c hc
  · refine ⟨w, ⟨?_, ?_⟩, rfl, le_refl _⟩
    · rw [withScan_withScan]
      exact h.ready
    · intro c hc
      rw [packed_withScan]
      exact h.packed c hc

theorem scanFreeNode_ready (h : CellsReady type s w) :
    ∃ w', CellsReady type (scanFreeNode s) w' ∧ w'.live = w.live ∧
      w.free.length ≤ w'.free.length := by
  have hiter : ∀ m, ∃ w', CellsReady type (scanFreeNodeRound^[m] s) w' ∧ w'.live = w.live ∧
      w.free.length ≤ w'.free.length := by
    intro m
    induction m with
    | zero => exact ⟨w, h, rfl, le_refl _⟩
    | succ m ih =>
      obtain ⟨w₁, hr₁, hl₁, hf₁⟩ := ih
      obtain ⟨w₂, hr₂, hl₂, hf₂⟩ := scanFreeNodeRound_ready hr₁
      rw [Function.iterate_succ_apply']
      exact ⟨w₂, hr₂, hl₂.trans hl₁, hf₁.trans hf₂⟩
  exact hiter 10

theorem saveScanned_cellsReady {pdata : List UInt8} (h : CellsReady type s w)
    (hpos : 0 < pdata.length) (hmax : pdata.length ≤ VMEM_MAX_DATA_LEN)
    (hroom : s.wNodeUsed + needCount type.len pdata.length ≤ nodeCount type) :
    ∃ w' c, CellsReady type (saveScanned type.len (scanFreeNode s) pdata).2 w' ∧
      w'.live = c :: w.live ∧ c.first = (saveScanned type.len (scanFreeNode s) pdata).1 ∧
      c.data = pdata := by
  obtain ⟨w₁, h₁, hlive₁, hfree₁⟩ := scanFreeNode_ready h
  have hsum : s.wNodeUsed + w.free.length = nodeCount type := h.ready.inv.used_add_free
  obtain ⟨w₂, c, h₂, hlive₂, hfirst, hdata, hpacked, hkeep⟩ :=
    saveScanned_ready h₁.ready type.len_pos type.len_le hpos hmax (by omega)
  rw [saveScanned_withScan] at h₂ hfirst hpacked hkeep
  dsimp only at h₂ hfirst hpacked hkeep
  rw [packed_withScan] at hpacked
  rw [keepsLive_withScan] at hkeep
  have hcount : (saveScanned type.len (scanFreeNode s) pdata).2.wNodeCount =
      (scanFreeNode s).wNodeCount := h₂.inv.count.trans h₁.count.symm
  refine ⟨w₂, c, ⟨h₂, ?_⟩, by rw [hlive₂, hlive₁], hfirst, hdata⟩
  rw [hlive₂]
  intro d hd
  rcases List.mem_cons.mp hd with rfl | hd
  · exact hpacked
  · exact h₁.packed_of_keepsLive hcount hkeep d hd

section Free

theorem freeLoop_succ (get : Bool) (fuel : Nat) (hpos : 0 < s.dataLen i) :
    freeLoop get (fuel + 1) s i =
      if s.next i < (freeStep get s i).wNodeCount then freeLoop get fuel (freeStep get s i) (s.next i)
      else some (freeStep get s i) := by
  have hne : ¬ s.dataLen i ≤ 0 := by omega
  cases get <;> simp [freeLoop, freeStep, hne]

/-- `VMEM_FREE_NODE` frees or marks every held cell and touches no other. -/
theorem freeLoop_inv (get : Bool) (r : List Nat) (fuel : Nat) (h : SegInv n (withScan 0 s) w)
    (hh : w.held = i :: r) (hp : Path s.next (s.next i) r n)
    (hpos : ∀ j ∈ i :: r, 0 < s.dataLen j) (hf : r.length < fuel) :
    ∃ s' w', freeLoop get fuel s i = some s' ∧ SegReady n (withScan 0 s') w' ∧
      w'.live = w.live ∧ ∀ j ∉ i :: r, s'.node j = s.node j := by
  induction r generalizing s w i fuel with
  | nil =>
    obtain ⟨fuel, rfl⟩ : ∃ k, fuel = k + 1 := ⟨fuel - 1, by simp at hf; omega⟩
    obtain ⟨w', hinv, hheld, hlive, -, hkeep⟩ := freeStep_inv h [] hh get
    rw [freeStep_withScan] at hinv hkeep
    have hend : s.next i = n := hp
    have hcount : (freeStep get s i).wNodeCount = n := hinv.count
    refine ⟨freeStep get s i, w', ?_, ⟨hinv, hheld⟩, hlive, ?_⟩
    · rw [freeLoop_succ get fuel (hpos i (by simp)), if_neg (by omega)]
    · intro j hj
      exact hkeep j (by simpa using hj)
  | cons j r ih =>
    obtain ⟨fuel, rfl⟩ : ∃ k, fuel = k + 1 := ⟨fuel - 1, by omega⟩
    obtain ⟨w', hinv, hheld, hlive, -, hkeep⟩ := freeStep_inv h (j :: r) hh get
    have hp' := freeStep_path h hh hp get hkeep
    rw [freeStep_withScan] at hinv hkeep hp'
    have hj : s.next i = j := hp.1
    have hcount : (freeStep get s i).wNodeCount = n := hinv.count
    have hlt : j < n := (h.mem_iff.mp (SegInv.mem_cells_held (by simp [hh]))).2
    have hnd := h.nodup_held
    rw [hh, List.nodup_cons] at hnd
    have hpos' : ∀ k ∈ j :: r, 0 < (freeStep get s i).dataLen k := by
      intro k hk
      have hki : k ≠ i := by
        rintro rfl
        exact hnd.1 hk
      have hk0 : k ≠ 0 := by
        apply h.ne_zero
        apply SegInv.mem_cells_held
        rw [hh]
        exact List.mem_cons_of_mem _ hk
      have hsame : (freeStep get s i).node k = s.node k := hkeep k hki
      rw [VmemSegment.dataLen_congr hk0 hsame]
      exact hpos k (List.mem_cons_of_mem _ hk)
    obtain ⟨s₂, w₂, hrun, hr₂, hl₂, hk₂⟩ :=
      ih fuel hinv hheld hp' hpos' (by simp at hf; omega)
    refine ⟨s₂, w₂, ?_, hr₂, hl₂.trans hlive, ?_⟩
    · rw [freeLoop_succ get fuel (hpos i (by simp)), if_pos (by omega), hj]
      exact hrun
    · intro k hk
      rw [List.mem_cons, not_or] at hk
      exact (hk₂ k hk.2).trans (hkeep k hk.1)

theorem CellsReady.free (h : CellsReady type s w) (l₁ l₂ : List Chain) {c : Chain}
    (hl : w.live = l₁ ++ c :: l₂) (get : Bool) :
    ∃ s' w', freeLoop get walkBound s c.first = some s' ∧ CellsReady type s' w' ∧
      w'.live = l₁ ++ l₂ := by
  have hcw : c ∈ w.live := by simp [hl]
  have hc : Stores (withScan 0 s) c := h.ready.inv.live c hcw
  have hhold := h.ready.hold l₁ l₂ hl
  obtain ⟨i, r, hcells⟩ := List.exists_cons_of_ne_nil hc.ne_nil
  have hpath := hc.path
  rw [Chain.first, hcells, h.ready.inv.count] at hpath
  have hlen : r.length < walkBound := by
    have := h.ready.inv.length_lt hcw
    rw [hcells, List.length_cons] at this
    omega
  have hpos : ∀ j ∈ i :: r, 0 < s.dataLen j := by
    intro j hj
    exact (h.packed c hcw j (by rwa [hcells])).1
  obtain ⟨s', w', hrun, hr, hlive, hkeep⟩ :=
    freeLoop_inv get r walkBound hhold hcells hpath.2 hpos hlen
  rw [Chain.first, hcells]
  refine ⟨s', w', hrun, ⟨hr, ?_⟩, hlive⟩
  intro d hd
  rw [hlive] at hd
  have hdw : d ∈ w.live := by
    rw [hl]
    exact ((List.sublist_cons_self c l₂).append_left l₁).mem hd
  have hcount : s'.wNodeCount = s.wNodeCount := hr.inv.count.trans h.count.symm
  apply (h.packed d hdw).congr hcount (h.ready.inv.live d hdw).pos
  intro j hj
  apply hkeep
  intro hmem
  have hnd := hhold.nodup
  rw [SegmentView.cells, List.nodup_append] at hnd
  refine hnd.2.2 j ?_ j ?_ rfl
  · rw [hcells]
    exact List.mem_append_right _ hmem
  · exact List.mem_flatMap.mpr ⟨d, hd, hj⟩

end Free

section Load

variable {c : Chain} {iBufLen : Nat} {r : List Nat} {pbuf : List UInt8}

theorem CellsReady.data_pos (h : CellsReady type s w) (hc : c ∈ w.live) :
    0 < c.data.length := by
  have hst := h.ready.inv.live c hc
  obtain ⟨i, r, hcells⟩ := List.exists_cons_of_ne_nil hst.ne_nil
  have hi : i ∈ c.cells := by simp [hcells]
  have hpos : 0 < s.dataLen i := (h.packed c hc i hi).1
  have hbytes : (s.bytes i).length = s.dataLen i := hst.bytes_length i hi
  have hdata : c.cells.flatMap s.bytes = c.data := hst.data
  rw [← hdata, hcells, List.flatMap_cons, List.length_append]
  omega

theorem zeroCpLoop_path {fuel iBufLen : Nat}
    (hp : Path s.next (s.next i) r s.wNodeCount) (hlt : ∀ j ∈ r, j < s.wNodeCount)
    (hb : ∀ j ∈ i :: r, (s.bytes j).length = s.dataLen j)
    (hpos : ∀ j ∈ i :: r, 0 < s.dataLen j)
    (hbuf : ((i :: r).flatMap s.bytes).length ≤ iBufLen) (hf : iBufLen < fuel) :
    zeroCpLoop s fuel i iBufLen pbuf = some (.ok (pbuf ++ (i :: r).flatMap s.bytes)) := by
  induction r generalizing i fuel iBufLen pbuf with
  | nil =>
    obtain ⟨fuel, rfl⟩ : ∃ k, fuel = k + 1 := ⟨fuel - 1, by omega⟩
    have hend : s.next i = s.wNodeCount := hp
    have hi := hb i (by simp)
    have hpi := hpos i (by simp)
    simp only [List.flatMap_cons, List.flatMap_nil, List.append_nil, hi] at hbuf
    have hroom : ¬ iBufLen < s.dataLen i := by omega
    have hsome : ¬ s.dataLen i ≤ 0 := by omega
    rw [zeroCpLoop, if_neg hroom, if_neg hsome, if_neg (by omega)]
    simp
  | cons j r ih =>
    obtain ⟨fuel, rfl⟩ : ∃ k, fuel = k + 1 := ⟨fuel - 1, by omega⟩
    obtain ⟨hj, hp⟩ := hp
    have hi := hb i (by simp)
    have hpi := hpos i (by simp)
    have hpj := hpos j (by simp)
    have hbj := hb j (by simp)
    have hgo : s.next i < s.wNodeCount := by
      rw [hj]
      exact hlt j (by simp)
    rw [List.flatMap_cons, List.length_append, hi] at hbuf
    have hmore : s.dataLen j ≤ ((j :: r).flatMap s.bytes).length := by
      rw [List.flatMap_cons, List.length_append, hbj]
      omega
    have hroom : ¬ iBufLen < s.dataLen i := by omega
    have hsome : ¬ s.dataLen i ≤ 0 := by omega
    rw [zeroCpLoop, if_neg hroom, if_neg hsome, if_pos ⟨hgo, by omega⟩, hj,
      ih hp (fun k hk => hlt k (by simp [hk])) (fun k hk => hb k (List.mem_cons_of_mem _ hk))
        (fun k hk => hpos k (List.mem_cons_of_mem _ hk)) (by omega) (by omega)]
    simp

theorem CellsReady.zeroCpRead_cons (h : CellsReady type s w) (hc : c ∈ w.live)
    {j : Nat} (hcells : c.cells = i :: j :: r) (iBufLen : Nat) :
    zeroCpRead type.len s c.first iBufLen = zeroCpLoop s (iBufLen + 1) i iBufLen [] ∧
      Path s.next (s.next i) (j :: r) s.wNodeCount ∧ ∀ k ∈ j :: r, k < s.wNodeCount := by
  have hcount := h.count
  have hpath : Path s.next c.first c.cells s.wNodeCount := (h.ready.inv.live c hc).path
  rw [Chain.first, hcells] at hpath
  have hlt : ∀ k ∈ j :: r, k < s.wNodeCount := by
    intro k hk
    have hmem : k ∈ c.cells := by
      rw [hcells]
      exact List.mem_cons_of_mem _ hk
    have := (h.ready.inv.mem_iff.mp (SegInv.mem_cells_live hc hmem)).2
    omega
  have hgo : s.next i < s.wNodeCount := by
    rw [show s.next i = j from hpath.2.1]
    exact hlt j (by simp)
  have hfull : s.dataLen i = type.len := (h.packed c hc i (by simp [hcells])).2.2 hgo
  refine ⟨?_, hpath.2, hlt⟩
  rw [zeroCpRead, Chain.first, hcells, List.headD_cons, if_neg (by omega)]

theorem CellsReady.zeroCpRead_one (h : CellsReady type s w) (hc : c ∈ w.live)
    (hcells : c.cells = [i]) (iBufLen : Nat) :
    zeroCpRead type.len s c.first iBufLen = some (.ok c.data) := by
  have hst : Stores (withScan 0 s) c := h.ready.inv.live c hc
  have hdata : c.cells.flatMap s.bytes = c.data := hst.data
  have hpath : Path s.next c.first c.cells s.wNodeCount := hst.path
  rw [Chain.first, hcells] at hpath
  rw [hcells, List.flatMap_cons, List.flatMap_nil, List.append_nil] at hdata
  have hend : s.next i = s.wNodeCount := hpath.2
  rw [zeroCpRead, Chain.first, hcells, List.headD_cons, if_pos (Or.inr hend.ge), hdata]

theorem CellsReady.zeroCpLoop_fits (h : CellsReady type s w) (hc : c ∈ w.live)
    (hbuf : c.data.length ≤ iBufLen) :
    zeroCpLoop s (iBufLen + 1) c.first iBufLen [] = some (.ok c.data) := by
  have hst : Stores (withScan 0 s) c := h.ready.inv.live c hc
  obtain ⟨i, r, hcells⟩ := List.exists_cons_of_ne_nil hst.ne_nil
  have hdata : c.cells.flatMap s.bytes = c.data := hst.data
  have hpacked := h.packed c hc
  have hcount := h.count
  have hpath : Path s.next c.first c.cells s.wNodeCount := hst.path
  have hlt : ∀ k ∈ c.cells, k < s.wNodeCount := by
    intro k hk
    have := (h.ready.inv.mem_iff.mp (SegInv.mem_cells_live hc hk)).2
    omega
  rw [Chain.first, hcells] at hpath ⊢
  rw [hcells] at hdata hlt
  rw [List.headD_cons, ← hdata]
  apply zeroCpLoop_path hpath.2 fun k hk => hlt k (List.mem_cons_of_mem _ hk)
  · intro k hk
    exact hst.bytes_length k (by rwa [hcells])
  · intro k hk
    exact (hpacked k (by rwa [hcells])).1
  · rw [hdata]
    exact hbuf
  · exact Nat.lt_succ_self iBufLen

theorem CellsReady.zeroCpRead_fits (h : CellsReady type s w) (hc : c ∈ w.live)
    (hbuf : c.data.length ≤ iBufLen) :
    zeroCpRead type.len s c.first iBufLen = some (.ok c.data) := by
  obtain ⟨i, r, hcells⟩ := List.exists_cons_of_ne_nil (h.ready.inv.live c hc).ne_nil
  cases r with
  | nil => exact h.zeroCpRead_one hc hcells iBufLen
  | cons j r =>
    have hfirst : c.first = i := by rw [Chain.first, hcells, List.headD_cons]
    rw [(h.zeroCpRead_cons hc hcells iBufLen).1, ← hfirst]
    exact h.zeroCpLoop_fits hc hbuf

theorem zeroCpLoop_short {len : Nat} {fuel iBufLen : Nat}
    (hp : Path s.next (s.next i) r s.wNodeCount) (hlt : ∀ j ∈ r, j < s.wNodeCount)
    (hb : ∀ j ∈ i :: r, (s.bytes j).length = s.dataLen j)
    (hpos : ∀ j ∈ i :: r, 0 < s.dataLen j)
    (hfull : ∀ j ∈ i :: r, s.next j < s.wNodeCount → s.dataLen j = len)
    (hbuf : iBufLen < ((i :: r).flatMap s.bytes).length) (hmod : iBufLen % len ≠ 0)
    (hf : iBufLen < fuel) : zeroCpLoop s fuel i iBufLen pbuf = some (.error (-4)) := by
  induction r generalizing i fuel iBufLen pbuf with
  | nil =>
    obtain ⟨fuel, rfl⟩ : ∃ k, fuel = k + 1 := ⟨fuel - 1, by omega⟩
    have hi := hb i (by simp)
    simp only [List.flatMap_cons, List.flatMap_nil, List.append_nil, hi] at hbuf
    rw [zeroCpLoop, if_pos hbuf]
  | cons j r ih =>
    obtain ⟨fuel, rfl⟩ : ∃ k, fuel = k + 1 := ⟨fuel - 1, by omega⟩
    rw [zeroCpLoop]
    split
    · rfl
    · rename_i hroom
      obtain ⟨hj, hp⟩ := hp
      have hi := hb i (by simp)
      have hgo : s.next i < s.wNodeCount := by
        rw [hj]
        exact hlt j (by simp)
      have hlen := hfull i (by simp) hgo
      have hpi := hpos i (by simp)
      rw [List.flatMap_cons, List.length_append, hi] at hbuf
      have hne : iBufLen - s.dataLen i ≠ 0 := by
        intro hz
        have heq : iBufLen = len := by omega
        rw [heq, Nat.mod_self] at hmod
        exact hmod rfl
      have hmod' : (iBufLen - s.dataLen i) % len ≠ 0 := by
        rw [hlen, ← Nat.mod_eq_sub_mod (by omega)]
        exact hmod
      rw [if_neg (by omega), if_pos ⟨hgo, by omega⟩, hj]
      exact ih hp (fun k hk => hlt k (by simp [hk]))
        (fun k hk => hb k (List.mem_cons_of_mem _ hk))
        (fun k hk => hpos k (List.mem_cons_of_mem _ hk))
        (fun k hk => hfull k (List.mem_cons_of_mem _ hk)) (by omega) hmod' (by omega)

theorem CellsReady.zeroCpRead_short (h : CellsReady type s w) (hc : c ∈ w.live)
    (hbuf : iBufLen < c.data.length) (hlen : type.len ≤ iBufLen)
    (hmod : iBufLen % type.len ≠ 0) :
    zeroCpRead type.len s c.first iBufLen = some (.error (-4)) := by
  have hst : Stores (withScan 0 s) c := h.ready.inv.live c hc
  obtain ⟨i, r, hcells⟩ := List.exists_cons_of_ne_nil hst.ne_nil
  have hdata : c.cells.flatMap s.bytes = c.data := hst.data
  have hpacked := h.packed c hc
  have hbytes : ∀ k ∈ i :: r, (s.bytes k).length = s.dataLen k := by
    intro k hk
    exact hst.bytes_length k (by rwa [hcells])
  rw [hcells] at hdata
  rw [← hdata] at hbuf
  cases r with
  | nil =>
    have hle := (hpacked i (by simp [hcells])).2.1
    simp only [List.flatMap_cons, List.flatMap_nil, List.append_nil,
      hbytes i (by simp)] at hbuf
    omega
  | cons j r =>
    obtain ⟨hloop, hpath, hlt⟩ := h.zeroCpRead_cons hc hcells iBufLen
    rw [hloop]
    apply zeroCpLoop_short hpath hlt hbytes
    · intro k hk
      exact (hpacked k (by rwa [hcells])).1
    · intro k hk
      exact (hpacked k (by rwa [hcells])).2.2
    · exact hbuf
    · exact hmod
    · omega

end Load

end XrkMonitor.ServerVmem
