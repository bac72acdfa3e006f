import Mathlib.Data.List.Perm.Basic
import Mathlib.Data.List.Range
import XrkMonitor.Library.IndexPath
import XrkMonitor.Vmem.Pool

/-!
# The cells of one segment

A segment's cells, its own record aside, are split between the free list, the
cells marked for a later reclaim, the chains of the stored strings and the
cells that an operation in progress holds. `SegInv` states this split together
with what the links, lengths and counters say about each part.
-/

namespace XrkMonitor.Vmem

open Library

variable {s s' : VmemSegment} {n i v : Nat}

/-- A stored string: its cells in order and its bytes. -/
structure Chain where
  cells : List Nat
  data : List UInt8
deriving DecidableEq

/-- The cell that an index of the string names. -/
def Chain.first (c : Chain) : Nat := c.cells.headD 0

/-- How the cells of a segment are in use. -/
structure SegmentView where
  free : List Nat
  deferred : List Nat
  held : List Nat
  live : List Chain

namespace SegmentView

/-- The cells of all stored strings. -/
def liveCells (w : SegmentView) : List Nat := w.live.flatMap Chain.cells

def cells (w : SegmentView) : List Nat := w.free ++ w.deferred ++ w.held ++ w.liveCells

end SegmentView

/-- The segment stores the string `c`. -/
structure Stores (s : VmemSegment) (c : Chain) : Prop where
  ne_nil : c.cells ≠ []
  pos : ∀ i ∈ c.cells, i ≠ 0
  path : Path s.next c.first c.cells s.wNodeCount
  data : c.cells.flatMap s.bytes = c.data
  bytes_length : ∀ i ∈ c.cells, (s.bytes i).length = s.dataLen i

/-- Every cell of the string holds bytes, all but the last one `len` of them. -/
def Packed (len : Nat) (s : VmemSegment) (c : Chain) : Prop :=
  ∀ i ∈ c.cells, 0 < s.dataLen i ∧ s.dataLen i ≤ len ∧
    (s.next i < s.wNodeCount → s.dataLen i = len)

/-- The cells of a segment of `n` cells are in use as `w` says. -/
structure SegInv (n : Nat) (s : VmemSegment) (w : SegmentView) : Prop where
  count : s.wNodeCount = n
  free : Path s.next s.wFreeNodeIndex w.free n
  deferred : ∀ i ∈ w.deferred, s.next i = n + 1 ∧ s.dataLen i = 0
  live : ∀ c ∈ w.live, Stores s c
  perm : w.cells.Perm (List.range' 1 (n - 1))
  used : s.wNodeUsed = 1 + w.liveCells.length + w.deferred.length + w.held.length
  scan : s.wScanFreeIndex < n
  word : n < 2 ^ 16

section Cells

theorem VmemSegment.next_of_ne_zero (hi : i ≠ 0) : s.next i = (s.node i).wNextNodeIndex :=
  if_neg hi

theorem VmemSegment.dataLen_of_ne_zero (hi : i ≠ 0) : s.dataLen i = (s.node i).bDataLen :=
  if_neg hi

theorem VmemSegment.next_congr (hi : i ≠ 0) (h : s'.node i = s.node i) : s'.next i = s.next i := by
  rw [next_of_ne_zero hi, next_of_ne_zero hi, h]

theorem VmemSegment.dataLen_congr (hi : i ≠ 0) (h : s'.node i = s.node i) :
    s'.dataLen i = s.dataLen i := by
  rw [dataLen_of_ne_zero hi, dataLen_of_ne_zero hi, h]

theorem VmemSegment.bytes_congr (hi : i ≠ 0) (h : s'.node i = s.node i) :
    s'.bytes i = s.bytes i := by
  rw [bytes, bytes, dataLen_congr hi h, h]

theorem VmemSegment.setNext_of_ne_zero (hi : i ≠ 0) :
    s.setNext i v =
      { s with node := Function.update s.node i ({ s.node i with wNextNodeIndex := v }) } :=
  if_neg hi

theorem VmemSegment.setDataLen_of_ne_zero (hi : i ≠ 0) :
    s.setDataLen i v =
      { s with node := Function.update s.node i ({ s.node i with bDataLen := v % 256 }) } :=
  if_neg hi

theorem Packed.congr {len : Nat} {c : Chain} (h : Packed len s c)
    (hcount : s'.wNodeCount = s.wNodeCount) (hpos : ∀ i ∈ c.cells, i ≠ 0)
    (hnode : ∀ i ∈ c.cells, s'.node i = s.node i) : Packed len s' c := by
  intro i hi
  rw [VmemSegment.dataLen_congr (hpos i hi) (hnode i hi),
    VmemSegment.next_congr (hpos i hi) (hnode i hi), hcount]
  exact h i hi

theorem Stores.congr {c : Chain} (h : Stores s c) (hcount : s'.wNodeCount = s.wNodeCount)
    (hnode : ∀ i ∈ c.cells, s'.node i = s.node i) : Stores s' c where
  ne_nil := h.ne_nil
  pos := h.pos
  path := by
    rw [hcount]
    apply (path_congr _).mpr h.path
    intro i hi
    exact VmemSegment.next_congr (h.pos i hi) (hnode i hi)
  data := by
    rw [← h.data]
    apply List.flatMap_congr
    intro i hi
    exact VmemSegment.bytes_congr (h.pos i hi) (hnode i hi)
  bytes_length := by
    intro i hi
    rw [VmemSegment.bytes_congr (h.pos i hi) (hnode i hi),
      VmemSegment.dataLen_congr (h.pos i hi) (hnode i hi)]
    exact h.bytes_length i hi

end Cells

namespace SegInv

variable {w : SegmentView}

theorem mem_iff (h : SegInv n s w) : i ∈ w.cells ↔ 1 ≤ i ∧ i < n := by
  rw [h.perm.mem_iff, List.mem_range'_1]
  omega

theorem nodup (h : SegInv n s w) : w.cells.Nodup := h.perm.nodup_iff.mpr List.nodup_range'

theorem length_cells (h : SegInv n s w) :
    w.free.length + w.deferred.length + w.held.length + w.liveCells.length = n - 1 := by
  have := h.perm.length_eq
  simpa only [SegmentView.cells, List.length_append, List.length_range'] using this

theorem used_add_free (h : SegInv n s w) : s.wNodeUsed + w.free.length = n := by
  have hlen := h.length_cells
  have hused := h.used
  have hscan := h.scan
  omega

theorem used_pos (h : SegInv n s w) : 0 < s.wNodeUsed := by
  rw [h.used]
  omega

theorem ne_zero (h : SegInv n s w) (hi : i ∈ w.cells) : i ≠ 0 := by
  have := (h.mem_iff.mp hi).1
  omega

theorem mem_cells_free (hi : i ∈ w.free) : i ∈ w.cells := by
  simp [SegmentView.cells, hi]

theorem mem_cells_deferred (hi : i ∈ w.deferred) : i ∈ w.cells := by
  simp [SegmentView.cells, hi]

theorem mem_cells_held (hi : i ∈ w.held) : i ∈ w.cells := by
  simp [SegmentView.cells, hi]

theorem mem_cells_live {c : Chain} (hc : c ∈ w.live) (hi : i ∈ c.cells) : i ∈ w.cells := by
  have : i ∈ w.liveCells := List.mem_flatMap.mpr ⟨c, hc, hi⟩
  simp [SegmentView.cells, this]

theorem rewrite {w' : SegmentView} (h : SegInv n s w) (hcount : s'.wNodeCount = n)
    (hscan : s'.wScanFreeIndex < n) (hlive : w'.live = w.live)
    (hkeep : ∀ c ∈ w.live, ∀ j ∈ c.cells, s'.node j = s.node j)
    (hfree : Path s'.next s'.wFreeNodeIndex w'.free n)
    (hdef : ∀ j ∈ w'.deferred, s'.next j = n + 1 ∧ s'.dataLen j = 0)
    (hperm : w'.cells.Perm w.cells)
    (hused : s'.wNodeUsed = 1 + w'.liveCells.length + w'.deferred.length + w'.held.length) :
    SegInv n s' w' where
  count := hcount
  free := hfree
  deferred := hdef
  live := by
    intro c hc
    rw [hlive] at hc
    exact (h.live c hc).congr (hcount.trans h.count.symm) (hkeep c hc)
  perm := hperm.trans h.perm
  used := hused
  scan := hscan
  word := h.word

end SegInv

section Push

variable {w : SegmentView} {w' : SegmentView}

theorem wFreeNodeIndex_pushFree : (pushFree s i).wFreeNodeIndex = i := rfl

theorem wNodeCount_pushFree (hi : i ≠ 0) : (pushFree s i).wNodeCount = s.wNodeCount := by
  simp [pushFree, VmemSegment.setNext_of_ne_zero hi]

theorem wScanFreeIndex_pushFree (hi : i ≠ 0) :
    (pushFree s i).wScanFreeIndex = s.wScanFreeIndex := by
  simp [pushFree, VmemSegment.setNext_of_ne_zero hi]

theorem wNodeUsed_pushFree (hi : i ≠ 0) :
    (pushFree s i).wNodeUsed = wordDec 16 s.wNodeUsed := by
  simp [pushFree, VmemSegment.setNext_of_ne_zero hi]

theorem node_pushFree_of_ne {j : Nat} (hi : i ≠ 0) (hj : j ≠ i) :
    (pushFree s i).node j = s.node j := by
  simp [pushFree, VmemSegment.setNext_of_ne_zero hi, hj]

theorem next_pushFree_self (hi : i ≠ 0) : (pushFree s i).next i = s.wFreeNodeIndex := by
  simp [VmemSegment.next_of_ne_zero hi, pushFree, VmemSegment.setNext_of_ne_zero hi]

theorem wordDec_used (h : SegInv n s w) (hfree : w.free.length < n - 1) :
    wordDec 16 s.wNodeUsed = s.wNodeUsed - 1 ∧ 1 < s.wNodeUsed := by
  have hsum := h.used_add_free
  have hword := h.word
  exact ⟨wordDec_of_pos (by omega) (by omega), by omega⟩

theorem path_pushFree (h : SegInv n s w) (hi : i ∈ w.cells) (hout : i ∉ w.free) :
    Path (pushFree s i).next (pushFree s i).wFreeNodeIndex (i :: w.free) n := by
  have hi0 := h.ne_zero hi
  refine ⟨wFreeNodeIndex_pushFree, ?_⟩
  rw [next_pushFree_self hi0]
  apply (path_congr _).mpr h.free
  intro j hj
  apply VmemSegment.next_congr (h.ne_zero (SegInv.mem_cells_free hj))
  apply node_pushFree_of_ne hi0
  rintro rfl
  exact hout hj

/-- A push keeps the invariant for every regrouping that moves the cell from
the marked or held ones to the free list. -/
theorem SegInv.pushFree (h : SegInv n s w) (hi : i ∈ w.deferred ++ w.held)
    (hfree : w'.free = i :: w.free) (hlive : w'.live = w.live)
    (hdef : ∀ j ∈ w'.deferred, j ∈ w.deferred ∧ j ≠ i)
    (hperm : w'.cells.Perm w.cells) :
    SegInv n (pushFree s i) w' ∧ 0 < (Vmem.pushFree s i).wNodeUsed := by
  have hnd := h.nodup
  have hmem : i ∈ w.cells := by
    rcases List.mem_append.mp hi with hi | hi
    · exact mem_cells_deferred hi
    · exact mem_cells_held hi
  have hi0 := h.ne_zero hmem
  have hout : i ∉ w.free := by
    intro hf
    rw [SegmentView.cells, List.append_assoc, List.append_assoc, ← List.append_assoc w.deferred,
      List.nodup_append] at hnd
    exact hnd.2.2 i hf i (List.mem_append.mpr (Or.inl hi)) rfl
  have hoff : ∀ c ∈ w.live, i ∉ c.cells := by
    intro c hc hic
    have hl : i ∈ w.liveCells := List.mem_flatMap.mpr ⟨c, hc, hic⟩
    rw [SegmentView.cells, List.nodup_append] at hnd
    refine hnd.2.2 i ?_ i hl rfl
    rw [List.append_assoc]
    exact List.mem_append.mpr (Or.inr hi)
  have hlen : w.free.length < n - 1 := by
    have hp := hperm.length_eq
    have hc := h.perm.length_eq
    rw [List.length_range'] at hc
    rw [hc] at hp
    simp only [SegmentView.cells, hfree, List.length_append, List.length_cons] at hp
    omega
  obtain ⟨hdec, hused⟩ := wordDec_used h hlen
  have hcells := hperm.length_eq
  have hused' := wNodeUsed_pushFree (s := s) hi0
  rw [hdec] at hused'
  refine ⟨h.rewrite ?_ ?_ hlive ?_ ?_ ?_ hperm ?_, by omega⟩
  · rw [wNodeCount_pushFree hi0, h.count]
  · rw [wScanFreeIndex_pushFree hi0]
    exact h.scan
  · intro c hc j hj
    apply node_pushFree_of_ne hi0
    rintro rfl
    exact hoff c hc hj
  · rw [hfree]
    exact path_pushFree h hmem hout
  · intro j hj
    obtain ⟨hjd, hji⟩ := hdef j hj
    have hj0 := h.ne_zero (mem_cells_deferred hjd)
    have hn := node_pushFree_of_ne (s := s) hi0 hji
    rw [VmemSegment.next_congr hj0 hn, VmemSegment.dataLen_congr hj0 hn]
    exact h.deferred j hjd
  · have hu := h.used
    simp only [SegmentView.cells, hfree, List.length_append, List.length_cons] at hcells
    omega

theorem SegInv.reclaim (h : SegInv n s w) (d₁ d₂ : List Nat) (hd : w.deferred = d₁ ++ i :: d₂) :
    SegInv n (Vmem.pushFree s i) { w with free := i :: w.free, deferred := d₁ ++ d₂ } ∧
      0 < (Vmem.pushFree s i).wNodeUsed := by
  have hnd : (i :: (d₁ ++ d₂)).Nodup := by
    have hsub : w.deferred.Sublist w.cells := by
      rw [SegmentView.cells, List.append_assoc, List.append_assoc]
      exact (List.sublist_append_left _ _).trans (List.sublist_append_right _ _)
    have := hsub.nodup h.nodup
    rw [hd] at this
    exact List.nodup_middle.mp this
  apply h.pushFree
  · simp [hd]
  · rfl
  · rfl
  · intro j hj
    have hj' : j ∈ d₁ ++ d₂ := hj
    constructor
    · rw [hd]
      exact (List.sublist_cons_self i d₂).append_left d₁ |>.mem hj'
    · rintro rfl
      exact (List.nodup_cons.mp hnd).1 hj'
  · apply List.perm_iff_count.mpr
    intro a
    simp only [SegmentView.cells, SegmentView.liveCells, hd, List.count_append, List.count_cons]
    omega

theorem SegInv.edit_held (h : SegInv n s w) (hi : i ∈ w.held)
    (hcount : s'.wNodeCount = s.wNodeCount) (hused : s'.wNodeUsed = s.wNodeUsed)
    (hhead : s'.wFreeNodeIndex = s.wFreeNodeIndex) (hscan : s'.wScanFreeIndex = s.wScanFreeIndex)
    (hnode : ∀ j ≠ i, s'.node j = s.node j) (hfree : w'.free = w.free) (hlive : w'.live = w.live)
    (hdef : ∀ j ∈ w'.deferred, j ∈ w.deferred ∨
      j = i ∧ s'.next i = n + 1 ∧ s'.dataLen i = 0)
    (hperm : w'.cells.Perm w.cells) : SegInv n s' w' := by
  have hnd := h.nodup
  rw [SegmentView.cells, List.nodup_append, List.nodup_append] at hnd
  obtain ⟨⟨-, -, hfh⟩, -, hoff⟩ := hnd
  have hrest : ∀ j ∈ w.free ++ w.deferred, j ≠ i := fun j hj => hfh j hj i hi
  apply h.rewrite (hcount.trans h.count) (hscan ▸ h.scan) hlive
  · intro c hc j hj
    apply hnode
    rintro rfl
    refine hoff j ?_ j (List.mem_flatMap.mpr ⟨c, hc, hj⟩) rfl
    exact List.mem_append.mpr (Or.inr hi)
  · rw [hfree, hhead]
    apply (path_congr _).mpr h.free
    intro j hj
    exact VmemSegment.next_congr (h.ne_zero (mem_cells_free hj)) (hnode j (hrest j (by simp [hj])))
  · intro j hj
    rcases hdef j hj with hj | ⟨rfl, hmark⟩
    · have hj0 := h.ne_zero (mem_cells_deferred hj)
      have hn := hnode j (hrest j (by simp [hj]))
      rw [VmemSegment.next_congr hj0 hn, VmemSegment.dataLen_congr hj0 hn]
      exact h.deferred j hj
    · exact hmark
  · exact hperm
  · have hu := h.used
    have hl := hperm.length_eq
    simp only [SegmentView.cells, SegmentView.liveCells, hfree, hlive, List.length_append] at hl
    simp only [SegmentView.liveCells, hlive, hused] at hu ⊢
    omega

theorem SegInv.setDataLen_held (h : SegInv n s w) (hi : i ∈ w.held) :
    SegInv n (s.setDataLen i v) w := by
  have hi0 := h.ne_zero (mem_cells_held hi)
  rw [VmemSegment.setDataLen_of_ne_zero hi0]
  refine h.edit_held hi rfl rfl rfl rfl (fun j hj => Function.update_of_ne hj _ _) rfl rfl ?_ ?_
  · intro j hj
    exact Or.inl hj
  · exact List.Perm.refl _

theorem SegInv.release (h : SegInv n s w) (r : List Nat) (hh : w.held = i :: r) :
    SegInv n (Vmem.pushFree s i) { w with free := i :: w.free, held := r } ∧
      0 < (Vmem.pushFree s i).wNodeUsed := by
  have hnd := h.nodup
  rw [SegmentView.cells, List.nodup_append, List.nodup_append] at hnd
  apply h.pushFree
  · simp [hh]
  · rfl
  · rfl
  · intro j hj
    refine ⟨hj, hnd.1.2.2 j (List.mem_append.mpr (Or.inr hj)) i ?_⟩
    simp [hh]
  · apply List.perm_iff_count.mpr
    intro a
    simp only [SegmentView.cells, SegmentView.liveCells, hh, List.count_append, List.count_cons]
    omega

theorem SegInv.mark (h : SegInv n s w) (r : List Nat) (hh : w.held = i :: r)
    (hlen : s.dataLen i = 0) :
    SegInv n (s.setNext i (n + 1)) { w with deferred := i :: w.deferred, held := r } := by
  have hi : i ∈ w.held := by simp [hh]
  have hi0 := h.ne_zero (mem_cells_held hi)
  rw [VmemSegment.dataLen_of_ne_zero hi0] at hlen
  rw [VmemSegment.setNext_of_ne_zero hi0]
  refine h.edit_held hi rfl rfl rfl rfl (fun j hj => Function.update_of_ne hj _ _) rfl rfl ?_ ?_
  · intro j hj
    rcases List.mem_cons.mp hj with rfl | hj
    · right
      simp [VmemSegment.next_of_ne_zero hi0, VmemSegment.dataLen_of_ne_zero hi0, hlen]
    · exact Or.inl hj
  · apply List.perm_iff_count.mpr
    intro a
    simp only [SegmentView.cells, SegmentView.liveCells, hh, List.count_append, List.count_cons]
    omega

end Push

end XrkMonitor.Vmem
