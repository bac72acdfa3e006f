import XrkMonitor.Vmem.Calls

/-!
# The indices a run of the allocator has handed out

The client's and the server's allocator differ in their numbers of segments.
What follows holds of any list of segments without repetition: the indices that
are handed out are those of the stored strings, and taking one string out of a
segment takes its index out of the list.
-/

namespace XrkMonitor.Vmem

open Library

/-- The index and the data of a string stored in a segment. -/
def handedOf (g : SegId) (c : Chain) : Int × List UInt8 := (chainIndex g c, c.data)

/-- The indices and data of the strings stored in the given segments. -/
def handedIn (segs : List SegId) (live : SegId → List Chain) : List (Int × List UInt8) :=
  segs.flatMap fun g => (live g).map (handedOf g)

variable {segs : List SegId} {live : SegId → List Chain} {g : SegId}
  {handed : List (Int × List UInt8)} {s : VmemSegment}

theorem handedIn_perm (live : SegId → List Chain) (hg : g ∈ segs) :
    (handedIn segs live).Perm ((live g).map (handedOf g) ++ handedIn (segs.erase g) live) := by
  have hperm := List.perm_cons_erase hg
  simpa [handedIn] using hperm.flatMap_right fun g' => (live g').map (handedOf g')

theorem handedIn_erase_update (hnodup : segs.Nodup) (l : List Chain) :
    handedIn (segs.erase g) (Function.update live g l) = handedIn (segs.erase g) live := by
  apply List.flatMap_congr
  intro g' hg'
  rw [Function.update_of_ne (hnodup.mem_erase_iff.mp hg').1]

theorem handedIn_update_perm (hnodup : segs.Nodup) (hg : g ∈ segs) (l : List Chain) :
    (handedIn segs (Function.update live g l)).Perm
      (l.map (handedOf g) ++ handedIn (segs.erase g) live) := by
  have hperm := handedIn_perm (Function.update live g l) hg
  rwa [Function.update_self, handedIn_erase_update hnodup] at hperm

theorem mem_handedIn {x : Int × List UInt8} :
    x ∈ handedIn segs live ↔ ∃ g ∈ segs, ∃ c ∈ live g, x = handedOf g c := by
  simp only [handedIn, List.mem_flatMap, List.mem_map, eq_comm]

theorem handedIn_cons (hnodup : segs.Nodup) (hg : g ∈ segs) (c : Chain)
    (h : handed.Perm (handedIn segs live)) :
    (handedOf g c :: handed).Perm (handedIn segs (Function.update live g (c :: live g))) := by
  have hnew : (handedIn segs (Function.update live g (c :: live g))).Perm _ :=
    handedIn_update_perm hnodup hg (c :: live g)
  rw [List.map_cons, List.cons_append] at hnew
  exact ((h.trans (handedIn_perm live hg)).cons _).trans hnew.symm

theorem handedIn_eraseP (hnodup : segs.Nodup) (h : handed.Perm (handedIn segs live)) {index : Int}
    {pdata : List UInt8} (hmem : (index, pdata) ∈ handed) :
    ∃ g ∈ segs, ∃ c l₁ l₂, live g = l₁ ++ c :: l₂ ∧ chainIndex g c = index ∧
      (handed.eraseP fun x => x.1 == index).Perm
        (handedIn segs (Function.update live g (l₁ ++ l₂))) := by
  obtain ⟨x, h₁, h₂, -, hxi, hsplit, herase⟩ :=
    List.exists_of_eraseP (p := fun y : Int × List UInt8 => y.1 == index) hmem (by simp)
  have hx : x ∈ handedIn segs live := by
    rw [← h.mem_iff, hsplit]
    simp
  obtain ⟨g, hg, c, hc, rfl⟩ := mem_handedIn.mp hx
  obtain rfl : chainIndex g c = index := by simpa [handedOf] using hxi
  obtain ⟨l₁, l₂, hl⟩ := List.append_of_mem hc
  refine ⟨g, hg, c, l₁, l₂, hl, rfl, ?_⟩
  rw [herase]
  apply List.Perm.trans _ (handedIn_update_perm hnodup hg (l₁ ++ l₂)).symm
  apply (List.perm_cons (handedOf g c)).mp
  have hall := h.trans (handedIn_perm live hg)
  rw [hsplit, hl] at hall
  simp only [List.map_append, List.map_cons, List.append_assoc, List.cons_append] at hall ⊢
  exact List.perm_middle.symm.trans (hall.trans List.perm_middle)

/-- The cells a walk along the links visits from cell `i` on. -/
def walk (s : VmemSegment) : Nat → Nat → List Nat
  | 0, _ => []
  | fuel + 1, i => if i < s.wNodeCount then i :: walk s fuel (s.next i) else []

/-- The chain of cells of the string whose first cell is `i`. -/
def chainAt (s : VmemSegment) (i : Nat) : List Nat := walk s walkBound i

/-- The first cell that an index names, if it belongs to segment `g`. -/
def cellIn (g : SegId) (index : Int) : Option Nat :=
  let (len, tIdx, nIdx) := vmemParseIdex32 index
  if len = g.1.len ∧ tIdx = g.2 then some nIdx else none

/-- The first cells of the handed-out strings of segment `g`. -/
def firstCellsOf (handed : List (Int × List UInt8)) (g : SegId) : List Nat :=
  handed.filterMap fun h => cellIn g h.1

theorem walk_of_path {l : List Nat} {a fuel : Nat}
    (hp : Path s.next a l s.wNodeCount) (hlt : ∀ i ∈ l, i < s.wNodeCount)
    (hf : l.length < fuel) : walk s fuel a = l := by
  induction l generalizing a fuel with
  | nil =>
    obtain ⟨fuel, rfl⟩ : ∃ k, fuel = k + 1 := ⟨fuel - 1, by simp at hf; omega⟩
    obtain rfl : a = s.wNodeCount := hp
    simp [walk]
  | cons x xs ih =>
    obtain ⟨fuel, rfl⟩ : ∃ k, fuel = k + 1 := ⟨fuel - 1, by omega⟩
    obtain ⟨rfl, hp⟩ := hp
    have ha : a < s.wNodeCount := hlt a (by simp)
    rw [walk, if_pos ha, ih hp (fun i hi => hlt i (by simp [hi])) (by simp at hf; omega)]

theorem SegReady.chainAt {n : Nat} {w : SegmentView} {c : Chain}
    (h : SegReady n s w) (hc : c ∈ w.live) : chainAt s c.first = c.cells := by
  have hcount := h.inv.count
  apply walk_of_path (h.inv.live c hc).path
  · intro i hi
    rw [hcount]
    exact (h.inv.mem_iff.mp (SegInv.mem_cells_live hc hi)).2
  · exact h.inv.length_lt hc

theorem VmemType.len_injective {t t' : VmemType} (h : t.len = t'.len) : t = t' := by
  cases t <;> cases t' <;> first | rfl | cases h

theorem cellIn_of_parse {index : Int} {len tIdx nIdx : Nat}
    (h : vmemParseIdex32 index = (len, tIdx, nIdx)) :
    cellIn g index = if len = g.1.len ∧ tIdx = g.2 then some nIdx else none := by
  rw [cellIn, h]

theorem firstCellsOf_perm (hnodup : segs.Nodup) (hg : g ∈ segs)
    (hparse : ∀ g ∈ segs, ∀ c ∈ live g,
      vmemParseIdex32 (chainIndex g c) = (g.1.len, g.2, c.first))
    (h : handed.Perm (handedIn segs live)) :
    (firstCellsOf handed g).Perm ((live g).map Chain.first) := by
  have hperm := (h.trans (handedIn_perm live hg)).filterMap fun x => cellIn g x.1
  have hother : (handedIn (segs.erase g) live).filterMap (fun x => cellIn g x.1) = [] := by
    rw [List.filterMap_eq_nil_iff]
    intro x hx
    obtain ⟨g', hg', c, hc, rfl⟩ := mem_handedIn.mp hx
    obtain ⟨hne, hg'⟩ := hnodup.mem_erase_iff.mp hg'
    rw [handedOf, cellIn_of_parse (hparse g' hg' c hc)]
    apply if_neg
    rintro ⟨hlen, hj⟩
    exact hne (Prod.ext (VmemType.len_injective hlen) hj)
  have hown : ((live g).map (handedOf g)).filterMap (fun x => cellIn g x.1) =
      (live g).map Chain.first := by
    rw [List.filterMap_map, ← List.filterMap_eq_map]
    apply List.filterMap_congr
    intro c hc
    rw [Function.comp_apply, handedOf, cellIn_of_parse (hparse g hg c hc)]
    exact if_pos ⟨rfl, rfl⟩
  rw [List.filterMap_append, hother, hown, List.append_nil] at hperm
  exact hperm

/-- How the cells of a segment are shared out after a run: `free` is the free
list, `deferred` the marked cells and `chains` the handed-out chains. -/
structure Partition (n : Nat) (s : VmemSegment) (free deferred : List Nat)
    (chains : List (List Nat)) : Prop where
  count : s.wNodeCount = n
  path_free : Path s.next s.wFreeNodeIndex free n
  path_chains : ∀ c ∈ chains, c ≠ [] ∧ Path s.next (c.headD 0) c n
  mem_deferred : ∀ i, i ∈ deferred ↔ 1 ≤ i ∧ i < n ∧ s.next i = n + 1
  disjoint : (free ++ deferred ++ chains.flatten).Nodup
  cover : ∀ i, i ∈ free ++ deferred ++ chains.flatten ↔ 1 ≤ i ∧ i < n
  used : s.wNodeUsed = 1 + chains.flatten.length + deferred.length

section Cells

variable {n : Nat} {s : VmemSegment} {w : SegmentView} {firsts : List Nat}

theorem SegReady.chains_perm (h : SegReady n s w) (hfirsts : firsts.Perm (w.live.map Chain.first)) :
    (firsts.map (Vmem.chainAt s)).Perm (w.live.map Chain.cells) := by
  have hmap := hfirsts.map (Vmem.chainAt s)
  rw [List.map_map] at hmap
  have hcells : w.live.map (Vmem.chainAt s ∘ Chain.first) = w.live.map Chain.cells :=
    List.map_congr_left fun c hc => h.chainAt hc
  rwa [hcells] at hmap

theorem SegReady.partition (h : SegReady n s w) (hfirsts : firsts.Perm (w.live.map Chain.first)) :
    Partition n s w.free w.deferred (firsts.map (Vmem.chainAt s)) := by
  have hchains := h.chains_perm hfirsts
  have hflat : (firsts.map (Vmem.chainAt s)).flatten.Perm w.liveCells := by
    rw [SegmentView.liveCells, List.flatMap_def]
    exact hchains.flatten
  have hcells : w.cells.Perm (w.free ++ w.deferred ++ (firsts.map (Vmem.chainAt s)).flatten) := by
    rw [SegmentView.cells, h.held, List.append_nil]
    exact hflat.symm.append_left _
  refine ⟨h.inv.count, h.inv.free, ?_, ?_, ?_, ?_, ?_⟩
  · intro c hc
    obtain ⟨d, hd, rfl⟩ := List.mem_map.mp (hchains.mem_iff.mp hc)
    have hst := h.inv.live d hd
    exact ⟨hst.ne_nil, h.inv.count ▸ hst.path⟩
  · intro i
    exact h.mem_deferred_iff
  · exact hcells.nodup_iff.mp h.inv.nodup
  · intro i
    rw [← hcells.mem_iff]
    exact h.inv.mem_iff
  · rw [h.inv.used, h.held, hflat.length_eq]
    rfl

end Cells

end XrkMonitor.Vmem
