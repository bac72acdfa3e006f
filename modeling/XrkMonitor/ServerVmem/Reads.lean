import XrkMonitor.ServerVmem.Runs

/-!
# Reads of the server's memory

A read is to deliver the whole string where the buffer has room for it, and to
fail otherwise. The copy loop also ends when the buffer is full, so a buffer
that is filled by the first cells of a longer string receives these cells, and
the read returns 0. The read without copy agrees with it where it succeeds.
-/

namespace XrkMonitor.ServerVmem

open Library Vmem

/-- The index names a string longer than the buffer, and the buffer ends where a cell of it does. -/
def EndsAtCell (index : Int) (pdata : List UInt8) (iBufLen : Nat) : Prop :=
  0 < iBufLen ∧ iBufLen < pdata.length ∧ iBufLen % (vmemParseIdex32 index).1 = 0

instance EndsAtCell.decidable (index : Int) (pdata : List UInt8) (iBufLen : Nat) :
    Decidable (EndsAtCell index pdata iBufLen) :=
  inferInstanceAs (Decidable (_ ∧ _ ∧ _))

/-- Both reads end; the copying one returns 0 exactly if the buffer has room for the string, and
then gives the string; the one without copy gives the same wherever the copying one returns 0. -/
structure ReadsWhole (b : VmemBuf) (index : Int) (pdata : List UInt8) (iBufLen : Nat) : Prop where
  ends : getFromVmem b index iBufLen ≠ none ∧ getFromVmemZeroCp b index iBufLen ≠ none
  success : (∃ bytes, getFromVmem b index iBufLen = some (.ok bytes)) ↔ pdata.length ≤ iBufLen
  data : ∀ bytes, getFromVmem b index iBufLen = some (.ok bytes) → bytes = pdata
  zeroCp : ∀ bytes, getFromVmem b index iBufLen = some (.ok bytes) →
    getFromVmemZeroCp b index iBufLen = some (.ok bytes)

section Loop

variable {s : VmemSegment} {i len fuel iBufLen : Nat} {r : List Nat} {pbuf : List UInt8}

theorem zeroCpLoop_empty (hpos : 0 < s.dataLen i) :
    zeroCpLoop s (fuel + 1) i 0 pbuf = some (.error (-4)) := by
  rw [zeroCpLoop, if_pos hpos]

/-- A buffer that ends where a cell does is filled with the bytes in front of that end. -/
theorem zeroCpLoop_full (hp : Path s.next (s.next i) r s.wNodeCount)
    (hlt : ∀ j ∈ r, j < s.wNodeCount)
    (hb : ∀ j ∈ i :: r, (s.bytes j).length = s.dataLen j)
    (hpos : ∀ j ∈ i :: r, 0 < s.dataLen j) (hle : ∀ j ∈ i :: r, s.dataLen j ≤ len)
    (hfull : ∀ j ∈ i :: r, s.next j < s.wNodeCount → s.dataLen j = len)
    (hbuf : iBufLen < ((i :: r).flatMap s.bytes).length) (hsome : 0 < iBufLen)
    (hmod : iBufLen % len = 0) (hf : iBufLen < fuel) :
    zeroCpLoop s fuel i iBufLen pbuf =
      some (.ok (pbuf ++ ((i :: r).flatMap s.bytes).take iBufLen)) := by
  have hcell : len ≤ iBufLen := Nat.le_of_dvd hsome (Nat.dvd_of_mod_eq_zero hmod)
  induction r generalizing i fuel iBufLen pbuf with
  | nil =>
    have hi := hb i (by simp)
    have hlast := hle i (by simp)
    simp only [List.flatMap_cons, List.flatMap_nil, List.append_nil, hi] at hbuf
    omega
  | cons j r ih =>
    obtain ⟨fuel, rfl⟩ : ∃ k, fuel = k + 1 := ⟨fuel - 1, by omega⟩
    obtain ⟨hj, hp⟩ := hp
    have hgo : s.next i < s.wNodeCount := by
      rw [hj]
      exact hlt j (by simp)
    have hi := hb i (by simp)
    have hpi := hpos i (by simp)
    have hlen := hfull i (by simp) hgo
    rw [List.flatMap_cons, List.length_append, hi] at hbuf
    have htake : ((i :: j :: r).flatMap s.bytes).take iBufLen =
        s.bytes i ++ ((j :: r).flatMap s.bytes).take (iBufLen - s.dataLen i) := by
      rw [List.flatMap_cons, List.take_append, hi, List.take_of_length_le (by omega)]
    have hroom : ¬ iBufLen < s.dataLen i := by omega
    have hbyte : ¬ s.dataLen i ≤ 0 := by omega
    rw [zeroCpLoop, if_neg hroom, if_neg hbyte, htake]
    by_cases hend : iBufLen - s.dataLen i = 0
    · have hstop : ¬ (s.next i < s.wNodeCount ∧ 0 < iBufLen - s.dataLen i) := by omega
      rw [if_neg hstop, hend, List.take_zero, List.append_nil]
    · have hmod' : (iBufLen - s.dataLen i) % len = 0 := by
        rw [hlen, ← Nat.mod_eq_sub_mod (by omega)]
        exact hmod
      have hcell' : len ≤ iBufLen - s.dataLen i :=
        Nat.le_of_dvd (Nat.pos_of_ne_zero hend) (Nat.dvd_of_mod_eq_zero hmod')
      rw [if_pos ⟨hgo, Nat.pos_of_ne_zero hend⟩, hj,
        ih hp (fun k hk => hlt k (List.mem_cons_of_mem _ hk))
          (fun k hk => hb k (List.mem_cons_of_mem _ hk))
          (fun k hk => hpos k (List.mem_cons_of_mem _ hk))
          (fun k hk => hle k (List.mem_cons_of_mem _ hk))
          (fun k hk => hfull k (List.mem_cons_of_mem _ hk)) (by omega)
          (Nat.pos_of_ne_zero hend) hmod' (by omega) hcell', List.append_assoc]

end Loop

section Stored

variable {b : VmemBuf} {live : SegId → List Chain} {g : SegId} {c : Chain} {iBufLen : Nat}

theorem getFromVmem_eq (h : BufInv b live) (hg : g.2 < VMEM_SHM_COUNT) (hc : c ∈ live g) :
    getFromVmem b (chainIndex g c) iBufLen =
      zeroCpLoop (b.shm g.1 g.2) (iBufLen + 1) c.first iBufLen [] := by
  obtain ⟨hcount, hfirst, hparse⟩ := h.first_lt hg hc
  rw [getFromVmem, if_neg (h.index_ok g c), hparse]
  simp only [VmemType.ofLen_len]
  rw [if_neg (by omega), if_neg (by omega)]

theorem getFromVmem_short (h : BufInv b live) (hg : g.2 < VMEM_SHM_COUNT) (hc : c ∈ live g)
    (hbuf : iBufLen < c.data.length) :
    getFromVmem b (chainIndex g c) iBufLen =
      if EndsAtCell (chainIndex g c) c.data iBufLen then some (.ok (c.data.take iBufLen))
      else some (.error (-4)) := by
  obtain ⟨w, hw, hl⟩ := h.seg g hg
  have hcw : c ∈ w.live := by rwa [hl]
  have hst : Stores (withScan 0 (b.shm g.1 g.2)) c := hw.ready.inv.live c hcw
  have hpacked := hw.packed c hcw
  unfold Packed at hpacked
  have hpath : Path (b.shm g.1 g.2).next c.first c.cells (b.shm g.1 g.2).wNodeCount := hst.path
  have hdata : c.cells.flatMap (b.shm g.1 g.2).bytes = c.data := hst.data
  have hbytes : ∀ j ∈ c.cells, ((b.shm g.1 g.2).bytes j).length = (b.shm g.1 g.2).dataLen j :=
    hst.bytes_length
  have hlt : ∀ k ∈ c.cells, k < (b.shm g.1 g.2).wNodeCount := by
    intro k hk
    rw [hw.count]
    exact (hw.ready.inv.mem_iff.mp (SegInv.mem_cells_live hcw hk)).2
  have hends : EndsAtCell (chainIndex g c) c.data iBufLen ↔
      0 < iBufLen ∧ iBufLen < c.data.length ∧ iBufLen % g.1.len = 0 := by
    unfold EndsAtCell
    rw [(h.first_lt hg hc).2.2]
  obtain ⟨i, r, hcells⟩ := List.exists_cons_of_ne_nil hst.ne_nil
  have hfirst : c.first = i := by rw [Chain.first, hcells, List.headD_cons]
  have hbuf' : iBufLen < ((i :: r).flatMap (b.shm g.1 g.2).bytes).length := by
    rwa [← hcells, hdata]
  rw [getFromVmem_eq h hg hc, hfirst]
  rw [hcells] at hpath hdata hbytes hlt hpacked
  have htail : ∀ j ∈ r, j < (b.shm g.1 g.2).wNodeCount :=
    fun j hj => hlt j (List.mem_cons_of_mem _ hj)
  by_cases hmod : iBufLen % g.1.len = 0
  · rcases Nat.eq_zero_or_pos iBufLen with rfl | hsome
    · rw [if_neg (fun hend => absurd (hends.mp hend).1 (lt_irrefl 0))]
      exact zeroCpLoop_empty (hpacked i (by simp)).1
    · rw [if_pos (hends.mpr ⟨hsome, hbuf, hmod⟩), ← hdata]
      exact zeroCpLoop_full hpath.2 htail hbytes (fun j hj => (hpacked j hj).1)
        (fun j hj => (hpacked j hj).2.1) (fun j hj => (hpacked j hj).2.2) hbuf' hsome hmod
        (Nat.lt_succ_self iBufLen)
  · rw [if_neg (fun hend => hmod (hends.mp hend).2.2)]
    exact zeroCpLoop_short hpath.2 htail hbytes (fun j hj => (hpacked j hj).1)
      (fun j hj => (hpacked j hj).2.2) hbuf' hmod (Nat.lt_succ_self iBufLen)

theorem getFromVmemZeroCp_cases (h : BufInv b live) (hg : g.2 < VMEM_SHM_COUNT) (hc : c ∈ live g)
    (iBufLen : Nat) :
    getFromVmemZeroCp b (chainIndex g c) iBufLen = some (.ok c.data) ∨
      getFromVmemZeroCp b (chainIndex g c) iBufLen = getFromVmem b (chainIndex g c) iBufLen := by
  obtain ⟨w, hw, hl⟩ := h.seg g hg
  have hcw : c ∈ w.live := by rwa [hl]
  obtain ⟨i, r, hcells⟩ := List.exists_cons_of_ne_nil (hw.ready.inv.live c hcw).ne_nil
  rw [getFromVmemZeroCp_eq h hg hc, getFromVmem_eq h hg hc]
  cases r with
  | nil =>
    exact Or.inl (hw.zeroCpRead_one hcw hcells iBufLen)
  | cons j r =>
    refine Or.inr ?_
    have hfirst : c.first = i := by rw [Chain.first, hcells, List.headD_cons]
    rw [(hw.zeroCpRead_cons hcw hcells iBufLen).1, hfirst]

end Stored

/-- For every index handed out and every size of the buffer the two reads are all or nothing and
agree, unless the buffer ends where a cell of a longer string does. -/
theorem reads_whole {r : BufRun} (hr : Reached r) {x : Int × List UInt8} (hx : x ∈ r.handed)
    (iBufLen : Nat) :
    ReadsWhole r.buf x.1 x.2 iBufLen ↔ ¬ EndsAtCell x.1 x.2 iBufLen := by
  obtain ⟨live, hinv⟩ := hr.inv
  obtain ⟨g, c, hg, hc, rfl⟩ := hinv.stored hx
  have hcases := getFromVmemZeroCp_cases hinv.buf hg hc iBufLen
  change ReadsWhole r.buf (chainIndex g c) c.data iBufLen ↔
    ¬ EndsAtCell (chainIndex g c) c.data iBufLen
  rcases le_or_gt c.data.length iBufLen with hroom | hbuf
  · have hread := getFromVmem_stored hinv.buf hg hc hroom
    have hzero := getFromVmemZeroCp_stored hinv.buf hg hc hroom
    refine iff_of_true ⟨?_, ?_, ?_, ?_⟩ fun hend => absurd hend.2.1 hroom.not_gt
    · rw [hread, hzero]
      exact ⟨Option.some_ne_none _, Option.some_ne_none _⟩
    · exact iff_of_true ⟨c.data, hread⟩ hroom
    · intro bytes hbytes
      rw [hread] at hbytes
      exact (Except.ok.inj (Option.some.inj hbytes)).symm
    · intro bytes hbytes
      rw [hzero, ← hread]
      exact hbytes
  · have hread := getFromVmem_short hinv.buf hg hc hbuf
    by_cases hend : EndsAtCell (chainIndex g c) c.data iBufLen
    · rw [if_pos hend] at hread
      refine iff_of_false (fun hwhole => ?_) (not_not.mpr hend)
      exact absurd (hwhole.success.mp ⟨_, hread⟩) hbuf.not_ge
    · rw [if_neg hend] at hread
      have hnone : ∀ bytes, getFromVmem r.buf (chainIndex g c) iBufLen ≠ some (.ok bytes) := by
        intro bytes hbytes
        rw [hread] at hbytes
        cases hbytes
      refine iff_of_true ⟨⟨?_, ?_⟩, ?_, ?_, ?_⟩ hend
      · rw [hread]
        exact Option.some_ne_none _
      · rcases hcases with hzero | hzero
        · rw [hzero]
          exact Option.some_ne_none _
        · rw [hzero, hread]
          exact Option.some_ne_none _
      · exact iff_of_false (fun ⟨bytes, hbytes⟩ => hnone bytes hbytes) hbuf.not_ge
      · exact fun bytes hbytes => absurd hbytes (hnone bytes)
      · exact fun bytes hbytes => absurd hbytes (hnone bytes)

/-- Every compare-and-swap succeeds and the clock stands at zero. -/
def freeLocks : Nat → VmemEnv := fun _ => ⟨fun _ _ _ => true, fun _ _ _ => 0⟩

/-- 256 bytes take two cells of 255. -/
def twoCells : List UInt8 := List.replicate 256 7

/-- The state after one save of `twoCells`. -/
def savedTwoCells : BufRun := ⟨(saveToVmem freeLocks initVmem twoCells).2, [(16711681, twoCells)]⟩

theorem reached_savedTwoCells : Reached savedTwoCells := by
  have hindex : (saveToVmem freeLocks initVmem twoCells).1 = 16711681 := by decide +kernel
  refine ⟨[.save freeLocks twoCells], [16711681], ⟨trivial, fun _ _ _ => trivial⟩, ?_⟩
  simp only [runSteps, bufStep, bufStart, hindex]
  rfl

theorem reads_whole_twoCells :
    Reached savedTwoCells ∧ (16711681, twoCells) ∈ savedTwoCells.handed ∧
      ReadsWhole savedTwoCells.buf 16711681 twoCells 256 :=
  ⟨reached_savedTwoCells, List.mem_singleton_self _,
    (reads_whole reached_savedTwoCells (List.mem_singleton_self (16711681, twoCells)) 256).mpr
      (by decide +kernel)⟩

/-- With a buffer of 255 bytes the read returns 0 and 255 of the 256 bytes. -/
theorem read_cut_at_cell :
    Reached savedTwoCells ∧ (16711681, twoCells) ∈ savedTwoCells.handed ∧
      ¬ ReadsWhole savedTwoCells.buf 16711681 twoCells 255 := by
  refine ⟨reached_savedTwoCells, List.mem_singleton_self _, fun hwhole => ?_⟩
  have hread : getFromVmem savedTwoCells.buf 16711681 255 = some (.ok (List.replicate 255 7)) := by
    decide +kernel
  exact absurd (hwhole.success.mp ⟨_, hread⟩) (by decide +kernel)

end XrkMonitor.ServerVmem
