import XrkMonitor.Vmem.SegmentInvariant

/-!
# What the loops of the allocator do to one segment

The scan and the check reclaim marked cells, and a free gives back or marks
the cells of one string. Each loop keeps the split of the cells, and its effect
on the stored strings is stated in full.
-/

namespace XrkMonitor.Vmem

open Library

variable {s s' : VmemSegment} {w : SegmentView} {n i : Nat}

/-- A segment between two operations. -/
structure SegReady (n : Nat) (s : VmemSegment) (w : SegmentView) : Prop where
  inv : SegInv n s w
  held : w.held = []

/-- The cells of the stored strings keep their content. -/
def KeepsLive (w : SegmentView) (s s' : VmemSegment) : Prop :=
  ∀ c ∈ w.live, ∀ j ∈ c.cells, s'.node j = s.node j

theorem Stores.next_ne_mark {c : Chain} (h : Stores s c) (hlt : ∀ j ∈ c.cells, j < s.wNodeCount)
    (hi : i ∈ c.cells) : s.next i ≠ s.wNodeCount + 1 := by
  rcases h.path.next_mem hi with hm | he
  · have := hlt _ hm
    omega
  · omega

theorem SegReady.mem_deferred_iff (h : SegReady n s w) :
    i ∈ w.deferred ↔ 1 ≤ i ∧ i < n ∧ s.next i = n + 1 := by
  constructor
  · intro hi
    have hb := h.inv.mem_iff.mp (SegInv.mem_cells_deferred hi)
    exact ⟨hb.1, hb.2, (h.inv.deferred i hi).1⟩
  · rintro ⟨h1, hn, hmark⟩
    have hm := h.inv.mem_iff.mpr ⟨h1, hn⟩
    simp only [SegmentView.cells, h.held, List.append_nil, List.mem_append] at hm
    rcases hm with (hf | hd) | hl
    · exfalso
      rcases h.inv.free.next_mem hf with hm | he
      · have := (h.inv.mem_iff.mp (SegInv.mem_cells_free hm)).2
        omega
      · omega
    · exact hd
    · exfalso
      obtain ⟨c, hc, hic⟩ := List.mem_flatMap.mp hl
      have hcount := h.inv.count
      refine (h.inv.live c hc).next_ne_mark ?_ hic (by omega)
      intro j hj
      have := (h.inv.mem_iff.mp (SegInv.mem_cells_live hc hj)).2
      omega

theorem SegInv.length_lt {c : Chain} (h : SegInv n s w) (hc : c ∈ w.live) :
    c.cells.length < walkBound := by
  have hsum := h.length_cells
  have hword := h.word
  have hle : c.cells.length ≤ w.liveCells.length := by
    rw [SegmentView.liveCells, List.flatMap_def]
    exact (List.sublist_flatten_of_mem (List.mem_map_of_mem hc)).length_le
  unfold walkBound
  omega

theorem SegReady.reclaim (h : SegReady n s w) (h1 : 1 ≤ i) (hn : i < n)
    (hmark : s.next i = n + 1) :
    ∃ w', SegReady n (pushFree s i) w' ∧ w'.live = w.live ∧
      w.free.length ≤ w'.free.length ∧ 0 < (pushFree s i).wNodeUsed := by
  obtain ⟨d₁, d₂, hd⟩ := List.append_of_mem (h.mem_deferred_iff.mpr ⟨h1, hn, hmark⟩)
  obtain ⟨hinv, hused⟩ := h.inv.reclaim d₁ d₂ hd
  exact ⟨_, ⟨hinv, h.held⟩, rfl, by simp, hused⟩

theorem SegReady.keepsLive_pushFree (h : SegReady n s w) (hi : i ≠ 0)
    (hmark : s.next i = n + 1) : KeepsLive w s (pushFree s i) := by
  intro c hc j hj
  have hcount := h.inv.count
  apply node_pushFree_of_ne hi
  rintro rfl
  refine (h.inv.live c hc).next_ne_mark ?_ hj (by omega)
  intro k hk
  have := (h.inv.mem_iff.mp (SegInv.mem_cells_live hc hk)).2
  omega

theorem SegInv.setScan (h : SegInv n s w) {k : Nat} (hk : k < n) :
    SegInv n { s with wScanFreeIndex := k } w where
  count := h.count
  free := h.free
  deferred := h.deferred
  live := fun c hc => (h.live c hc).congr rfl fun _ _ => rfl
  perm := h.perm
  used := h.used
  scan := hk
  word := h.word

theorem scanFreeNodeStep_ready (hn1 : 1 < n) (h : SegReady n s w) :
    ∃ w', SegReady n (scanFreeNodeStep s) w' ∧ w'.live = w.live ∧
      w.free.length ≤ w'.free.length := by
  have hcount := h.inv.count
  have hadvance : ∀ {t : VmemSegment} {w' : SegmentView}, SegReady n t w' →
      SegReady n (if t.wScanFreeIndex + 1 < t.wNodeCount
        then { t with wScanFreeIndex := t.wScanFreeIndex + 1 }
        else { t with wScanFreeIndex := 1 }) w' := by
    intro t w' ht
    have hc := ht.inv.count
    split
    · exact ⟨ht.inv.setScan (by omega), ht.held⟩
    · exact ⟨ht.inv.setScan hn1, ht.held⟩
  unfold scanFreeNodeStep
  by_cases hmark : s.next s.wScanFreeIndex = s.wNodeCount + 1
  · have h1 : 1 ≤ s.wScanFreeIndex := by
      by_contra hz
      have hz' : s.wScanFreeIndex = 0 := by omega
      rw [hz', VmemSegment.next, if_pos rfl] at hmark
      omega
    obtain ⟨w', hr, hlive, hlen, -⟩ := h.reclaim h1 h.inv.scan (by omega)
    rw [if_pos hmark]
    exact ⟨w', hadvance hr, hlive, hlen⟩
  · rw [if_neg hmark]
    exact ⟨w, hadvance h, rfl, le_refl _⟩

theorem scanFreeNodeStep_iterate_ready (hn1 : 1 < n) (h : SegReady n s w) (k : Nat) :
    ∃ w', SegReady n (scanFreeNodeStep^[k] s) w' ∧ w'.live = w.live ∧
      w.free.length ≤ w'.free.length := by
  induction k with
  | zero => exact ⟨w, h, rfl, le_refl _⟩
  | succ k ih =>
    obtain ⟨w₁, hr₁, hl₁, hf₁⟩ := ih
    obtain ⟨w₂, hr₂, hl₂, hf₂⟩ := scanFreeNodeStep_ready hn1 hr₁
    rw [Function.iterate_succ_apply']
    exact ⟨w₂, hr₂, hl₂.trans hl₁, hf₁.trans hf₂⟩

theorem scanFreeNode_ready (hn1 : 1 < n) (h : SegReady n s w) :
    ∃ w', SegReady n (scanFreeNode s) w' ∧ w'.live = w.live ∧
      w.free.length ≤ w'.free.length :=
  scanFreeNodeStep_iterate_ready hn1 h 1000

theorem scanFreeNode_unmarked (h : ∀ i < s.wNodeCount, s.next i ≠ s.wNodeCount + 1)
    (hscan : s.wScanFreeIndex < s.wNodeCount) (h1 : 1 < s.wNodeCount) :
    ∃ k, scanFreeNode s = { s with wScanFreeIndex := k } := by
  have hstep : ∀ k < s.wNodeCount, ∃ k' < s.wNodeCount,
      scanFreeNodeStep { s with wScanFreeIndex := k } = { s with wScanFreeIndex := k' } := by
    intro k hk
    have hmark : ¬ ({ s with wScanFreeIndex := k } : VmemSegment).next k = s.wNodeCount + 1 :=
      h k hk
    by_cases hend : k + 1 < s.wNodeCount
    · exact ⟨k + 1, hend, by simp [scanFreeNodeStep, hmark, hend]⟩
    · exact ⟨1, h1, by simp [scanFreeNodeStep, hmark, hend]⟩
  have hiter : ∀ m, ∃ k < s.wNodeCount, scanFreeNodeStep^[m] s = { s with wScanFreeIndex := k } := by
    intro m
    induction m with
    | zero => exact ⟨s.wScanFreeIndex, hscan, rfl⟩
    | succ m ih =>
      obtain ⟨k, hk, hm⟩ := ih
      obtain ⟨k', hk', hs⟩ := hstep k hk
      exact ⟨k', hk', by rw [Function.iterate_succ_apply', hm, hs]⟩
  obtain ⟨k, -, hk⟩ := hiter 1000
  exact ⟨k, hk⟩

theorem checkCells_ready (cas : Nat → Bool) (is : List Nat) (his : ∀ i ∈ is, 1 ≤ i ∧ i < n)
    (h : SegReady n s w) (bug : Bool) (k : Nat) :
    ∃ w', SegReady n (checkCells cas is s bug k).1 w' ∧ w'.live = w.live ∧
      (checkCells cas is s bug k).2.1 = bug := by
  induction is generalizing s w bug k with
  | nil => exact ⟨w, h, rfl, rfl⟩
  | cons i is ih =>
    have hrest : ∀ j ∈ is, 1 ≤ j ∧ j < n := fun j hj => his j (by simp [hj])
    have hcount := h.inv.count
    unfold checkCells
    split
    · rename_i hmark
      split
      · obtain ⟨hi1, hin⟩ := his i (by simp)
        obtain ⟨w₁, hr₁, hl₁, -, hused⟩ := h.reclaim hi1 hin (by rw [hmark.2, hcount])
        obtain ⟨w₂, hr₂, hl₂, hb₂⟩ :=
          ih hrest hr₁ (bug || decide ((pushFree s i).wNodeUsed ≤ 0)) (k + 1)
        refine ⟨w₂, hr₂, hl₂.trans hl₁, hb₂.trans ?_⟩
        have : ¬ (pushFree s i).wNodeUsed ≤ 0 := by omega
        simp [this]
      · exact ⟨w, h, rfl, rfl⟩
    · exact ih hrest h bug k

section Free

theorem SegReady.hold (h : SegReady n s w) (l₁ l₂ : List Chain) {c : Chain}
    (hl : w.live = l₁ ++ c :: l₂) :
    SegInv n s { w with held := c.cells, live := l₁ ++ l₂ } where
  count := h.inv.count
  free := h.inv.free
  deferred := h.inv.deferred
  live := by
    intro d hd
    apply h.inv.live d
    rw [hl]
    exact ((List.sublist_cons_self c l₂).append_left l₁).mem hd
  perm := by
    refine List.Perm.trans (List.perm_iff_count.mpr fun a => ?_) h.inv.perm
    simp only [SegmentView.cells, SegmentView.liveCells, hl, h.held, List.flatMap_append,
      List.flatMap_cons, List.count_append, List.count_nil]
    omega
  used := by
    have hu := h.inv.used
    simp only [SegmentView.liveCells, hl, h.held, List.flatMap_append, List.flatMap_cons,
      List.length_append, List.length_nil] at hu ⊢
    omega
  scan := h.inv.scan
  word := h.inv.word

/-- The segment after one turn of `VMEM_FREE_NODE`. -/
def freeStep (get : Bool) (s : VmemSegment) (i : Nat) : VmemSegment :=
  if get then pushFree (s.setDataLen i 0) i
  else (s.setDataLen i 0).setNext i ((s.setDataLen i 0).wNodeCount + 1)

theorem freeLoop_succ (get bug : Bool) (fuel : Nat) :
    freeLoop get (fuel + 1) s i bug =
      if s.next i < (freeStep get s i).wNodeCount then
        freeLoop get fuel (freeStep get s i) (s.next i)
          (bug || get && decide ((freeStep get s i).wNodeUsed ≤ 0))
      else some (freeStep get s i, bug || get && decide ((freeStep get s i).wNodeUsed ≤ 0)) := by
  cases get <;> simp [freeLoop, freeStep]

theorem freeStep_inv (h : SegInv n s w) (r : List Nat) (hh : w.held = i :: r) (get : Bool) :
    ∃ w', SegInv n (freeStep get s i) w' ∧ w'.held = r ∧ w'.live = w.live ∧
      0 < (freeStep get s i).wNodeUsed ∧ ∀ j ≠ i, (freeStep get s i).node j = s.node j := by
  have hi : i ∈ w.held := by simp [hh]
  have hi0 := h.ne_zero (SegInv.mem_cells_held hi)
  have hzero : SegInv n (s.setDataLen i 0) w := h.setDataLen_held hi
  have hlen : (s.setDataLen i 0).dataLen i = 0 := by
    simp [VmemSegment.dataLen_of_ne_zero hi0, VmemSegment.setDataLen_of_ne_zero hi0]
  have hset : ∀ j ≠ i, (s.setDataLen i 0).node j = s.node j := by
    intro j hj
    simp [VmemSegment.setDataLen_of_ne_zero hi0, hj]
  cases get with
  | true =>
    obtain ⟨hinv, hused⟩ := hzero.release r hh
    refine ⟨_, hinv, rfl, rfl, hused, ?_⟩
    intro j hj
    exact (node_pushFree_of_ne hi0 hj).trans (hset j hj)
  | false =>
    have hinv := hzero.mark r hh hlen
    refine ⟨{ w with deferred := i :: w.deferred, held := r }, ?_, rfl, rfl, ?_, ?_⟩
    · simpa [freeStep, hzero.count] using hinv
    · have := hinv.used_pos
      simpa [freeStep, hzero.count] using this
    · intro j hj
      rw [← hset j hj]
      simp [freeStep, VmemSegment.setNext_of_ne_zero hi0, hj]

theorem SegInv.nodup_held (h : SegInv n s w) : w.held.Nodup := by
  refine List.Sublist.nodup ?_ h.nodup
  rw [SegmentView.cells, List.append_assoc]
  exact (List.sublist_append_left _ _).trans (List.sublist_append_right _ _)

theorem freeStep_path (h : SegInv n s w) {r : List Nat} {j : Nat} (hh : w.held = i :: j :: r)
    (hp : Path s.next (s.next i) (j :: r) n) (get : Bool)
    (hkeep : ∀ k ≠ i, (freeStep get s i).node k = s.node k) :
    Path (freeStep get s i).next ((freeStep get s i).next j) r n := by
  have hnd := h.nodup_held
  rw [hh, List.nodup_cons] at hnd
  have hnext : ∀ k ∈ j :: r, (freeStep get s i).next k = s.next k := by
    intro k hk
    have hmem : k ∈ w.cells := by
      apply SegInv.mem_cells_held
      rw [hh]
      exact List.mem_cons_of_mem _ hk
    apply VmemSegment.next_congr (h.ne_zero hmem)
    apply hkeep
    rintro rfl
    exact hnd.1 hk
  rw [hnext j (by simp)]
  apply (path_congr _).mpr hp.2
  intro k hk
  exact hnext k (by simp [hk])

theorem freeLoop_inv (get : Bool) (r : List Nat) (fuel : Nat) (bug : Bool) (h : SegInv n s w)
    (hh : w.held = i :: r) (hp : Path s.next (s.next i) r n) (hf : r.length < fuel) :
    ∃ s' w', freeLoop get fuel s i bug = some (s', bug) ∧ SegReady n s' w' ∧
      w'.live = w.live := by
  induction r generalizing s w i fuel with
  | nil =>
    obtain ⟨fuel, rfl⟩ : ∃ k, fuel = k + 1 := ⟨fuel - 1, by simp at hf; omega⟩
    obtain ⟨w', hinv, hheld, hlive, hused, -⟩ := freeStep_inv h [] hh get
    have hend : s.next i = n := hp
    have hstop : ¬ s.next i < (freeStep get s i).wNodeCount := by
      rw [hinv.count, hend]
      omega
    have hpos : ¬ (freeStep get s i).wNodeUsed ≤ 0 := by omega
    refine ⟨_, w', ?_, ⟨hinv, hheld⟩, hlive⟩
    rw [freeLoop_succ, if_neg hstop]
    simp [hpos]
  | cons j r ih =>
    obtain ⟨fuel, rfl⟩ : ∃ k, fuel = k + 1 := ⟨fuel - 1, by omega⟩
    obtain ⟨w', hinv, hheld, hlive, hused, hkeep⟩ := freeStep_inv h (j :: r) hh get
    have hp' := freeStep_path h hh hp get hkeep
    have hj : s.next i = j := hp.1
    have hgo : s.next i < (freeStep get s i).wNodeCount := by
      rw [hinv.count, hj]
      exact (h.mem_iff.mp (SegInv.mem_cells_held (by simp [hh]))).2
    have hpos : ¬ (freeStep get s i).wNodeUsed ≤ 0 := by omega
    obtain ⟨s₂, w₂, hrun, hr₂, hl₂⟩ := ih fuel hinv hheld hp' (by simp at hf; omega)
    refine ⟨s₂, w₂, ?_, hr₂, hl₂.trans hlive⟩
    rw [freeLoop_succ, if_pos hgo, hj, ← hrun]
    simp [hpos]

theorem SegReady.free (h : SegReady n s w) (l₁ l₂ : List Chain) {c : Chain}
    (hl : w.live = l₁ ++ c :: l₂) (get bug : Bool) :
    ∃ s' w', freeLoop get walkBound s c.first bug = some (s', bug) ∧ SegReady n s' w' ∧
      w'.live = l₁ ++ l₂ := by
  have hc : Stores s c := h.inv.live c (by simp [hl])
  have hhold := h.hold l₁ l₂ hl
  obtain ⟨i, r, hcells⟩ := List.exists_cons_of_ne_nil hc.ne_nil
  have hpath := hc.path
  rw [Chain.first, hcells, h.inv.count] at hpath
  rw [Chain.first, hcells]
  have hlen : r.length < walkBound := by
    have hlen := hhold.length_cells
    have hword := hhold.word
    simp only [hcells, List.length_cons] at hlen
    unfold walkBound
    omega
  exact freeLoop_inv get r walkBound bug hhold hcells hpath.2 hlen

end Free

end XrkMonitor.Vmem
