import XrkMonitor.Vmem.SegmentOps

/-!
# Storing a string in one segment and reading it back

A save fills a front part of the free list and the string it leaves is stored
in the sense of `Stores`; the read loop returns exactly the bytes of a stored
string when the buffer has room for them.
-/

namespace XrkMonitor.Vmem

open Library

variable {s s' : VmemSegment} {w : SegmentView} {n i : Nat} {data : List UInt8} {cs rest : List Nat}
  {pdata : List UInt8} {iBufLen : Int}

/-- `s'` is `s` after `cells` were taken from the front of the free list and
filled with `data`; `rest` is the free list that is left. -/
structure Saved (n : Nat) (s s' : VmemSegment) (cells rest : List Nat) (data : List UInt8) :
    Prop where
  stores : Stores s' ⟨cells, data⟩
  free : Path s'.next s'.wFreeNodeIndex rest n
  node : ∀ i ∉ cells, s'.node i = s.node i
  count : s'.wNodeCount = n
  used : s'.wNodeUsed = s.wNodeUsed
  scan : s'.wScanFreeIndex = s.wScanFreeIndex

/-- The segment after the last cell of a save is filled. -/
def fillLast (s : VmemSegment) (a : Nat) (data : List UInt8) : VmemSegment :=
  ((s.setNext a s.wNodeCount).copyIn a data).setDataLen a data.length

/-- The segment after another cell of a save is filled and linked. -/
def fillCell (len : Nat) (s : VmemSegment) (a : Nat) (data : List UInt8) : VmemSegment :=
  let t := (s.copyIn a (data.take len)).setDataLen a len
  ({ t with wFreeNodeIndex := t.next t.wFreeNodeIndex }).setNext a t.wFreeNodeIndex

theorem saveCells_one (len a : Nat) (data : List UInt8) :
    saveCells len 1 s a data = fillLast s a data := rfl

theorem saveCells_succ (len need a : Nat) (data : List UInt8) :
    saveCells len (need + 2) s a data =
      saveCells len (need + 1) (fillCell len s a data)
        ((s.copyIn a (data.take len)).setDataLen a len).wFreeNodeIndex (data.drop len) := rfl

theorem fillLast_eq {a : Nat} (ha : a ≠ 0) (data : List UInt8) :
    fillLast s a data =
      { s with
        node := Function.update s.node a
          ⟨s.wNodeCount, data.length % 256, data ++ (s.node a).sDataBuf.drop data.length⟩ } := by
  simp [fillLast, VmemSegment.setNext_of_ne_zero ha, VmemSegment.setDataLen_of_ne_zero ha,
    VmemSegment.copyIn]

theorem fillCell_eq (len : Nat) {a b : Nat} (ha : a ≠ 0) (hb : b ≠ 0) (hab : b ≠ a)
    (hfree : s.wFreeNodeIndex = b) (data : List UInt8) :
    fillCell len s a data =
      { s with
        wFreeNodeIndex := s.next b
        node := Function.update s.node a
          ⟨b, len % 256, data.take len ++ (s.node a).sDataBuf.drop (data.take len).length⟩ } := by
  simp [fillCell, VmemSegment.setNext_of_ne_zero ha, VmemSegment.setDataLen_of_ne_zero ha,
    VmemSegment.copyIn, VmemSegment.next_of_ne_zero hb, hab, hfree]

theorem Saved.last {a : Nat} {rest : List Nat} (hcount : s.wNodeCount = n)
    (hfree : s.wFreeNodeIndex = s.next a) (hp : Path s.next (s.next a) rest n) (ha : a ≠ 0)
    (hout : a ∉ rest) (h0 : ∀ i ∈ rest, i ≠ 0) (hlen : data.length ≤ 255) :
    Saved n s (fillLast s a data) [a] rest data := by
  have hnode : ∀ i ∉ [a], (fillLast s a data).node i = s.node i := by
    intro i hi
    rw [fillLast_eq ha]
    exact Function.update_of_ne (by simpa using hi) _ _
  have hself : (fillLast s a data).node a =
      ⟨s.wNodeCount, data.length % 256, data ++ (s.node a).sDataBuf.drop data.length⟩ := by
    rw [fillLast_eq ha]
    exact Function.update_self _ _ _
  have hbytes : (fillLast s a data).bytes a = data := by
    rw [VmemSegment.bytes, VmemSegment.dataLen_of_ne_zero ha, hself,
      Nat.mod_eq_of_lt (by omega)]
    simp
  have hc : (fillLast s a data).wNodeCount = s.wNodeCount := by rw [fillLast_eq ha]
  refine ⟨⟨by simp, by simpa using ha, ?_, ?_, ?_⟩, ?_, hnode, hc.trans hcount, ?_, ?_⟩
  · refine ⟨rfl, ?_⟩
    rw [path_nil, VmemSegment.next_of_ne_zero ha, hself, hc]
  · simp [hbytes]
  · intro i hi
    obtain rfl : i = a := by simpa using hi
    rw [hbytes, VmemSegment.dataLen_of_ne_zero ha, hself, Nat.mod_eq_of_lt (by omega)]
  · have hhead : (fillLast s a data).wFreeNodeIndex = s.next a := by
      rw [fillLast_eq ha]
      exact hfree
    rw [hhead]
    apply (path_congr _).mpr hp
    intro i hi
    apply VmemSegment.next_congr (h0 i hi)
    apply hnode
    rintro hia
    obtain rfl : i = a := by simpa using hia
    exact hout hi
  · rw [fillLast_eq ha]
  · rw [fillLast_eq ha]

theorem Saved.node_fillCell {len a b : Nat} {data data' : List UInt8}
    (ha : a ≠ 0) (hb : b ≠ 0) (hab : b ≠ a) (hout : a ∉ b :: cs) (hfree : s.wFreeNodeIndex = b)
    (h : Saved n (fillCell len s a data) s' (b :: cs) rest data') :
    s'.node a =
      ⟨b, len % 256, data.take len ++ (s.node a).sDataBuf.drop (data.take len).length⟩ := by
  rw [h.node a hout, fillCell_eq len ha hb hab hfree data]
  exact Function.update_self _ _ _

theorem Saved.cons {len a b : Nat} {cs rest : List Nat} {data : List UInt8}
    (ha : a ≠ 0) (hb : b ≠ 0) (hab : b ≠ a) (hout : a ∉ b :: cs)
    (hfree : s.wFreeNodeIndex = b) (hlen : len ≤ 255) (hlo : len ≤ data.length)
    (h : Saved n (fillCell len s a data) s' (b :: cs) rest (data.drop len)) :
    Saved n s s' (a :: b :: cs) rest data := by
  have hfill := fillCell_eq (s := s) len ha hb hab hfree data
  have hself := h.node_fillCell ha hb hab hout hfree
  have htake : (data.take len).length = len := by
    rw [List.length_take]
    omega
  have hdata : s'.dataLen a = len := by
    rw [VmemSegment.dataLen_of_ne_zero ha, hself]
    exact Nat.mod_eq_of_lt (by omega)
  have hbytes : s'.bytes a = data.take len := by
    rw [VmemSegment.bytes, hdata, hself]
    exact List.take_left' htake
  refine ⟨⟨by simp, ?_, ?_, ?_, ?_⟩, h.free, ?_, h.count, ?_, ?_⟩
  · intro i hi
    rcases List.mem_cons.mp hi with rfl | hi
    · exact ha
    · exact h.stores.pos i hi
  · refine ⟨rfl, ?_⟩
    rw [VmemSegment.next_of_ne_zero ha, hself]
    exact h.stores.path
  · have hrest := h.stores.data
    rw [List.flatMap_cons, hbytes, hrest]
    exact List.take_append_drop len data
  · intro i hi
    rcases List.mem_cons.mp hi with rfl | hi
    · rw [hbytes, hdata, htake]
    · exact h.stores.bytes_length i hi
  · intro i hi
    simp only [List.mem_cons, not_or] at hi
    rw [h.node i (by simpa using hi.2), hfill]
    exact Function.update_of_ne hi.1 _ _
  · rw [h.used, hfill]
  · rw [h.scan, hfill]

theorem packed_fillLast {len a : Nat} (ha : a ≠ 0) (hpos : 0 < data.length)
    (hfit : data.length ≤ len) (hlen : len ≤ 255) : Packed len (fillLast s a data) ⟨[a], data⟩ := by
  intro i hi
  obtain rfl : i = a := by simpa using hi
  have hself : (fillLast s i data).node i =
      ⟨s.wNodeCount, data.length % 256, data ++ (s.node i).sDataBuf.drop data.length⟩ := by
    rw [fillLast_eq ha]
    exact Function.update_self _ _ _
  have hcount : (fillLast s i data).wNodeCount = s.wNodeCount := by rw [fillLast_eq ha]
  rw [VmemSegment.dataLen_of_ne_zero ha, VmemSegment.next_of_ne_zero ha, hself, hcount]
  have hmod : data.length % 256 = data.length := Nat.mod_eq_of_lt (by omega)
  exact ⟨by simpa only [hmod] using hpos, by simpa only [hmod] using hfit,
    fun hlt => absurd hlt (lt_irrefl _)⟩

/-- The copy loop of a save fills as many cells as the data needs, all but the
last one to the end. -/
theorem saveCells_saved {len a : Nat} (hlen : len ≤ 255)
    (hcount : s.wNodeCount = n) (hfree : s.wFreeNodeIndex = s.next a)
    (hp : Path s.next (s.next a) (cs ++ rest) n) (hnd : (a :: (cs ++ rest)).Nodup)
    (h0 : ∀ i ∈ a :: (cs ++ rest), i ≠ 0) (hlo : cs.length * len < data.length)
    (hhi : data.length ≤ (cs.length + 1) * len) :
    Saved n s (saveCells len (cs.length + 1) s a data) (a :: cs) rest data ∧
      Packed len (saveCells len (cs.length + 1) s a data) ⟨a :: cs, data⟩ := by
  have ha : a ≠ 0 := h0 a (by simp)
  induction cs generalizing s a data with
  | nil =>
    rw [List.length_nil, saveCells_one]
    have hdata : data.length ≤ len := by
      simpa using hhi
    refine ⟨Saved.last hcount hfree hp ha (List.nodup_cons.mp hnd).1 ?_ (by omega),
      packed_fillLast ha (by omega) hdata hlen⟩
    intro i hi
    exact h0 i (List.mem_cons_of_mem _ hi)
  | cons b cs ih =>
    have hb : b ≠ 0 := h0 b (by simp)
    have hnd' := List.nodup_cons.mp hnd
    have hab : b ≠ a := by
      rintro rfl
      exact hnd'.1 (by simp)
    obtain ⟨hab', hp⟩ := hp
    have hbfree : s.wFreeNodeIndex = b := hfree.trans hab'
    have hfill := fillCell_eq (s := s) len ha hb hab hbfree data
    have hmul : (cs.length + 1) * len = cs.length * len + len := Nat.succ_mul _ _
    have hmul2 : (cs.length + 1 + 1) * len = cs.length * len + len + len := by
      rw [Nat.succ_mul, hmul]
    simp only [List.length_cons, hmul, hmul2] at hlo hhi
    have hnext : ∀ i ∈ b :: (cs ++ rest), (fillCell len s a data).next i = s.next i := by
      intro i hi
      apply VmemSegment.next_congr (h0 i (List.mem_cons_of_mem _ hi))
      rw [hfill]
      apply Function.update_of_ne
      rintro rfl
      exact hnd'.1 hi
    have hhead : ((s.copyIn a (data.take len)).setDataLen a len).wFreeNodeIndex = b := by
      rw [VmemSegment.setDataLen_of_ne_zero ha]
      exact hbfree
    rw [List.length_cons, saveCells_succ, hhead]
    have hout : a ∉ b :: cs := by
      intro hm
      apply hnd'.1
      rcases List.mem_cons.mp hm with rfl | hm
      · simp
      · simp [hm]
    have hrest : Saved n (fillCell len s a data)
          (saveCells len (cs.length + 1) (fillCell len s a data) b (data.drop len)) (b :: cs)
          rest (data.drop len) ∧
        Packed len (saveCells len (cs.length + 1) (fillCell len s a data) b (data.drop len))
          ⟨b :: cs, data.drop len⟩ := by
      apply ih
      · rw [hfill]
        exact hcount
      · rw [hnext b (by simp), hfill]
      · rw [hnext b (by simp)]
        apply (path_congr _).mpr hp
        intro i hi
        exact hnext i (List.mem_cons_of_mem _ hi)
      · exact hnd'.2
      · intro i hi
        exact h0 i (List.mem_cons_of_mem _ hi)
      · rw [List.length_drop]
        omega
      · rw [List.length_drop]
        omega
      · exact hb
    refine ⟨hrest.1.cons ha hb hab hout hbfree hlen (by omega), ?_⟩
    intro i hi
    rcases List.mem_cons.mp hi with rfl | hi
    · have hnode := hrest.1.node_fillCell ha hb hab hout hbfree
      have hdata := VmemSegment.dataLen_of_ne_zero
        (s := saveCells len (cs.length + 1) (fillCell len s i data) b (data.drop len)) ha
      rw [hnode] at hdata
      have hmod : len % 256 = len := Nat.mod_eq_of_lt (by omega)
      have hlen0 : 0 < len := by
        rcases Nat.eq_zero_or_pos len with rfl | hpos
        · omega
        · exact hpos
      have heq := hdata.trans hmod
      exact ⟨heq.symm ▸ hlen0, heq.le, fun _ => heq⟩
    · exact hrest.2 i hi

theorem needCount_spec {len iDataLen : Nat} (hlen : 0 < len) (hpos : 0 < iDataLen)
    (hmax : iDataLen ≤ VMEM_MAX_DATA_LEN) :
    ∃ k, needCount len iDataLen = k + 1 ∧ k * len < iDataLen ∧ iDataLen ≤ (k + 1) * len := by
  have hdm := Nat.div_add_mod iDataLen len
  have hmod := Nat.mod_lt iDataLen hlen
  have hle : iDataLen / len ≤ iDataLen := Nat.div_le_self _ _
  have hmax' : iDataLen ≤ 65000 := hmax
  rw [Nat.mul_comm] at hdm
  by_cases hz : iDataLen % len = 0
  · have hq : iDataLen / len ≠ 0 := by
      intro hq
      rw [hq, hz] at hdm
      omega
    obtain ⟨k, hk⟩ := Nat.exists_eq_succ_of_ne_zero hq
    rw [hk, Nat.succ_mul] at hdm
    refine ⟨k, ?_, by omega, by rw [Nat.succ_mul]; omega⟩
    simp only [needCount, hz, ne_eq, not_true_eq_false, if_false, hk]
    omega
  · refine ⟨iDataLen / len, ?_, by omega, by rw [Nat.succ_mul]; omega⟩
    simp only [needCount, hz, ne_eq, not_false_eq_true, if_true]
    exact Nat.mod_eq_of_lt (lt_of_le_of_lt (Nat.succ_le_succ hle) (by omega))

/-- Taking and filling the cells stores the string in cells that were free. -/
theorem saveScanned_ready {len : Nat} (h : SegReady n s w)
    (hlen0 : 0 < len) (hlen : len ≤ 255) (hpos : 0 < pdata.length)
    (hmax : pdata.length ≤ VMEM_MAX_DATA_LEN)
    (hroom : needCount len pdata.length ≤ w.free.length) :
    ∃ w' c, SegReady n (saveScanned len s pdata).2 w' ∧ w'.live = c :: w.live ∧
      c.first = (saveScanned len s pdata).1 ∧ c.data = pdata ∧
      Packed len (saveScanned len s pdata).2 c ∧ KeepsLive w s (saveScanned len s pdata).2 := by
  obtain ⟨k, hneed, hlo, hhi⟩ := needCount_spec hlen0 hpos hmax
  have hsum := h.inv.used_add_free
  obtain ⟨a, tail, hsplit⟩ : ∃ a tail, w.free = a :: tail :=
    List.exists_cons_of_length_pos (by omega)
  have htail : k ≤ tail.length := by
    rw [hsplit, List.length_cons] at hroom
    omega
  obtain ⟨cs, rest, rfl, rfl⟩ : ∃ cs rest, tail = cs ++ rest ∧ cs.length = k :=
    ⟨tail.take k, tail.drop k, (List.take_append_drop k tail).symm, by simp [htail]⟩
  have hpath := h.inv.free
  rw [hsplit] at hpath
  have hhead : s.wFreeNodeIndex = a := hpath.1
  have hnd : (a :: (cs ++ rest)).Nodup := by
    rw [← hsplit]
    refine List.Sublist.nodup ?_ h.inv.nodup
    rw [SegmentView.cells, List.append_assoc, List.append_assoc]
    exact List.sublist_append_left _ _
  have hmem : ∀ i ∈ a :: (cs ++ rest), i ≠ 0 := by
    intro i hi
    rw [← hsplit] at hi
    exact h.inv.ne_zero (SegInv.mem_cells_free hi)
  have hused : (s.wNodeUsed + (cs.length + 1)) % 2 ^ 16 = s.wNodeUsed + (cs.length + 1) := by
    have hword := h.inv.word
    apply Nat.mod_eq_of_lt
    omega
  let t : VmemSegment :=
    { s with wFreeNodeIndex := s.next a, wNodeUsed := s.wNodeUsed + (cs.length + 1) }
  have hsave : saveScanned len s pdata = (a, saveCells len (cs.length + 1) t a pdata) := by
    simp only [saveScanned, hneed, vmemGetFreeNode, hhead, hused, t]
  obtain ⟨hsaved, hpacked⟩ : Saved n t (saveCells len (cs.length + 1) t a pdata) (a :: cs) rest
        pdata ∧ Packed len (saveCells len (cs.length + 1) t a pdata) ⟨a :: cs, pdata⟩ :=
    saveCells_saved hlen h.inv.count rfl hpath.2 hnd hmem hlo hhi
  rw [hsave]
  have hoff : ∀ j ∈ w.deferred ++ w.held ++ w.liveCells, j ∉ a :: cs := by
    intro j hj hm
    have hnd := h.inv.nodup
    rw [SegmentView.cells, List.append_assoc, List.append_assoc, ← List.append_assoc w.deferred,
      List.nodup_append] at hnd
    refine hnd.2.2 j ?_ j hj rfl
    rw [hsplit]
    rcases List.mem_cons.mp hm with rfl | hm
    · simp
    · simp [hm]
  have hkeep : KeepsLive w s (saveCells len (cs.length + 1) t a pdata) := by
    intro c hc j hj
    apply hsaved.node j
    apply hoff
    have hl : j ∈ w.liveCells := List.mem_flatMap.mpr ⟨c, hc, hj⟩
    simp [hl]
  refine ⟨⟨rest, w.deferred, [], ⟨a :: cs, pdata⟩ :: w.live⟩, ⟨a :: cs, pdata⟩, ⟨?_, rfl⟩, rfl,
    rfl, rfl, hpacked, hkeep⟩
  refine ⟨hsaved.count, hsaved.free, ?_, ?_, ?_, ?_, ?_, h.inv.word⟩
  · intro j hj
    have hj0 := h.inv.ne_zero (SegInv.mem_cells_deferred hj)
    have hn : (saveCells len (cs.length + 1) t a pdata).node j = s.node j :=
      hsaved.node j (hoff j (by simp [show j ∈ w.deferred from hj]))
    rw [VmemSegment.next_congr hj0 hn, VmemSegment.dataLen_congr hj0 hn]
    exact h.inv.deferred j hj
  · intro c hc
    rcases List.mem_cons.mp hc with rfl | hc
    · exact hsaved.stores
    · exact (h.inv.live c hc).congr (hsaved.count.trans h.inv.count.symm) (hkeep c hc)
  · refine List.Perm.trans (List.perm_iff_count.mpr fun x => ?_) h.inv.perm
    simp only [SegmentView.cells, SegmentView.liveCells, hsplit, h.held, List.flatMap_cons,
      List.count_append, List.count_cons, List.count_nil]
    omega
  · have hu := h.inv.used
    rw [hsaved.used]
    simp only [t, SegmentView.liveCells, h.held, List.flatMap_cons, List.length_append,
      List.length_cons, List.length_nil] at hu ⊢
    omega
  · rw [hsaved.scan]
    exact h.inv.scan

theorem saveInSegment_ready {len : Nat} (hn1 : 1 < n) (h : SegReady n s w)
    (hlen0 : 0 < len) (hlen : len ≤ 255) (hpos : 0 < pdata.length)
    (hmax : pdata.length ≤ VMEM_MAX_DATA_LEN)
    (hroom : s.wNodeUsed + needCount len pdata.length ≤ n) :
    ∃ w' c, SegReady n (saveInSegment len s pdata).2 w' ∧ w'.live = c :: w.live ∧
      c.first = (saveInSegment len s pdata).1 ∧ c.data = pdata := by
  obtain ⟨w₁, h₁, hlive, hfree⟩ := scanFreeNode_ready hn1 h
  have hsum := h.inv.used_add_free
  obtain ⟨w₂, c, h₂, hlive₂, hfirst, hdata, -, -⟩ :=
    saveScanned_ready h₁ hlen0 hlen hpos hmax (by omega)
  exact ⟨w₂, c, h₂, hlive₂.trans (by rw [hlive]), hfirst, hdata⟩

theorem getLoop_path {r : List Nat} {fuel : Nat} {pbuf : List UInt8}
    (hp : Path s.next (s.next i) r s.wNodeCount) (hlt : ∀ j ∈ r, j < s.wNodeCount)
    (hb : ∀ j ∈ i :: r, (s.bytes j).length = s.dataLen j)
    (hbuf : (((i :: r).flatMap s.bytes).length : Int) ≤ iBufLen) (hf : r.length < fuel) :
    getLoop s fuel i iBufLen pbuf = some (0, pbuf ++ (i :: r).flatMap s.bytes) := by
  induction r generalizing i fuel iBufLen pbuf with
  | nil =>
    obtain ⟨fuel, rfl⟩ : ∃ k, fuel = k + 1 := ⟨fuel - 1, by simp at hf; omega⟩
    have hend : s.next i = s.wNodeCount := hp
    have hi := hb i (by simp)
    have hroom : ¬ iBufLen < s.dataLen i := by
      simp only [List.flatMap_cons, List.flatMap_nil, List.append_nil, hi] at hbuf
      omega
    simp [getLoop, hroom, hend]
  | cons j r ih =>
    obtain ⟨fuel, rfl⟩ : ∃ k, fuel = k + 1 := ⟨fuel - 1, by omega⟩
    obtain ⟨hj, hp⟩ := hp
    have hi := hb i (by simp)
    have hgo : s.next i < s.wNodeCount := by
      rw [hj]
      exact hlt j (by simp)
    rw [List.flatMap_cons, List.length_append, hi] at hbuf
    have hroom : ¬ iBufLen < s.dataLen i := by omega
    rw [getLoop, if_neg hroom, if_pos hgo, hj,
      ih hp (fun k hk => hlt k (by simp [hk])) (fun k hk => hb k (List.mem_cons_of_mem _ hk))
        (by omega) (by simp at hf; omega)]
    simp

theorem Stores.getLoop {c : Chain} (h : Stores s c) (hlt : ∀ j ∈ c.cells, j < s.wNodeCount)
    (hlen : c.cells.length < walkBound) (hbuf : (c.data.length : Int) ≤ iBufLen) :
    getLoop s walkBound c.first iBufLen [] = some (0, c.data) := by
  obtain ⟨i, r, hcells⟩ := List.exists_cons_of_ne_nil h.ne_nil
  have hpath := h.path
  have hdata := h.data
  have hb := h.bytes_length
  rw [Chain.first, hcells] at hpath
  rw [hcells] at hdata hb hlt hlen
  rw [Chain.first, hcells, ← hdata]
  rw [← hdata] at hbuf
  simp only [List.length_cons] at hlen
  exact getLoop_path hpath.2 (fun j hj => hlt j (by simp [hj])) hb hbuf (by omega)

end XrkMonitor.Vmem
