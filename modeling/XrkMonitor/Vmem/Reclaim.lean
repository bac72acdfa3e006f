import XrkMonitor.Library.Attempts
import XrkMonitor.Vmem.IndexCheck

/-!
# Saves after deferred frees

Cells that are freed while the segment is busy count as used until a scan puts
them back. A save tests the room of a segment before it scans it. With all
flags free a save succeeds exactly if a segment has the room already, and a save
that fails leaves all room as it was, so making it again does not help.
-/

namespace XrkMonitor.Vmem

open Library

/-- No process holds a segment. -/
def LocksFree (env : VmemEnv) : Prop := ∀ type i c, env.cas type i c = true

/-- The test of a save on one segment. -/
def RoomIn (pdata : List UInt8) (p : VmemPools) (g : SegId) : Prop :=
  (p.shm g.1 g.2).wNodeUsed + needCount g.1.len pdata.length ≤ (p.shm g.1 g.2).wNodeCount

instance RoomIn.decidable (pdata : List UInt8) (p : VmemPools) (g : SegId) :
    Decidable (RoomIn pdata p g) :=
  inferInstanceAs (Decidable (_ ≤ _))

/-- A segment has as many free cells as the data needs. -/
def HasRoom (p : VmemPools) (pdata : List UInt8) : Prop := ∃ g ∈ allSegments, RoomIn pdata p g

instance HasRoom.decidable (p : VmemPools) (pdata : List UInt8) : Decidable (HasRoom p pdata) :=
  List.decidableBEx _ _

/-- The cells of a segment that are in none of the chains. -/
def spareCells (s : VmemSegment) (chains : List (List Nat)) : Nat :=
  ((List.range' 1 (s.wNodeCount - 1)).filter fun i => i ∉ chains.flatten).length

/-- A segment has as many cells outside the live chains as the data needs. -/
def EnoughSpare (r : VmemRun) (pdata : List UInt8) : Prop :=
  ∃ g ∈ allSegments, needCount g.1.len pdata.length ≤
    spareCells (r.pools.shm g.1 g.2) ((r.firstCells g).map (chainAt (r.pools.shm g.1 g.2)))

/-- Where enough cells are outside the live chains, one of the saves made one behind the other with
all flags free succeeds. -/
def Reclaims (r : VmemRun) (pdata : List UInt8) : Prop :=
  EnoughSpare r pdata → ∀ env : Nat → VmemEnv, (∀ k, LocksFree (env k)) →
    Succeeds (fun k p => saveToVmem (env k) p pdata) r.pools

section Search

variable {p : VmemPools} {pdata : List UInt8} {env : VmemEnv} {room : SegId → Prop} {st : SaveState}

/-- The pools are initialised and have room in the segments of `room`. -/
def SameRoom (pdata : List UInt8) (room : SegId → Prop) (p : VmemPools) : Prop :=
  p.cIsInit = true ∧ ∀ g, RoomIn pdata p g ↔ room g

theorem SameRoom.setTime (h : SameRoom pdata room p) (type : VmemType) (i k : Nat) :
    SameRoom pdata room (p.setShm type i { p.shm type i with dwUseFlagStartTime := k }) := by
  refine ⟨h.1, ?_⟩
  intro g
  rw [← h.2 g, RoomIn, RoomIn]
  by_cases hg : g = (type, i)
  · subst hg
    rw [shm_setShm_self]
  · rw [shm_setShm_of_ne hg]

theorem saveDataLoop_search (hfree : LocksFree env) (type : VmemType) (is : List Nat)
    (h : SameRoom pdata room p) :
    SearchOutcome room (fun g => g.1 = type ∧ g.2 ∈ is) (SameRoom pdata room)
      (saveDataLoop env type pdata is p) := by
  induction is generalizing p with
  | nil =>
    refine Or.inr ⟨(by decide : (-101 : Int) < 0), h, ?_⟩
    exact fun g hg => absurd hg.2 List.not_mem_nil
  | cons i is ih =>
    have hcas : ¬ (!env.cas type i 0 && !flagIsTimeout (p.shm type i) (env.clock type i 0)) := by
      rw [hfree type i 0]
      exact Bool.false_ne_true
    have hroom := h.2 (type, i)
    rw [saveDataLoop, if_neg hcas]
    dsimp only
    split
    · rename_i hfull
      have hnone : ¬ room (type, i) := fun hr => absurd (hroom.mpr hr) (Nat.not_le.mpr hfull)
      have hskip : SearchOutcome room (fun g => g = (type, i)) (SameRoom pdata room)
          ((-101 : Int), p) :=
        Or.inr ⟨(by decide : (-101 : Int) < 0), h, fun g hg => hg ▸ hnone⟩
      have hrest := ih (h.setTime type i (env.clock type i 1 % 2 ^ 32))
      refine (hskip.after (by decide : (-101 : Int) < 0) hrest).congr ?_
      intro g
      rw [List.mem_cons, Prod.ext_iff]
      tauto
    · rename_i hfits
      refine Or.inl ⟨Int.natCast_nonneg _, (type, i), ⟨rfl, List.mem_cons_self⟩, ?_⟩
      exact hroom.mp (Nat.not_lt.mp hfits)

/-- The sizes tried are those of `iCheckFlag`. -/
def Searched (pdata : List UInt8) (room : SegId → Prop) (st : SaveState) : Prop :=
  SearchOutcome room (fun g => g.1 ∈ st.iCheckFlag ∧ g.2 < VMEM_SHM_COUNT) (SameRoom pdata room)
    (st.iRet, st.pools)

theorem Searched.save (h : Searched pdata room st) (hfree : LocksFree env)
    (hneg : st.iRet < 0) (type : VmemType) :
    Searched pdata room ⟨(saveDataToVmem env st.pools type pdata).1, type :: st.iCheckFlag,
      (saveDataToVmem env st.pools type pdata).2⟩ := by
  have hnew := saveDataLoop_search hfree type (List.range VMEM_SHM_COUNT) (h.same_of_neg hneg)
  refine (h.after hneg hnew).congr ?_
  intro g
  rw [List.mem_cons, List.mem_range]
  tauto

theorem Searched.tryBest (h : Searched pdata room st) (hfree : LocksFree env)
    (type : VmemType) : Searched pdata room (tryBest env pdata st type) := by
  unfold Vmem.tryBest
  split
  · rename_i htry
    exact h.save hfree htry.1 type
  · exact h

theorem Searched.tryRest (h : Searched pdata room st) (hfree : LocksFree env)
    (type : VmemType) : Searched pdata room (tryRest env pdata st type) := by
  unfold Vmem.tryRest
  split
  · rename_i htry
    exact h.save hfree htry.1 type
  · exact h

theorem Searched.foldl {f : SaveState → VmemType → SaveState}
    (hf : ∀ st type, Searched pdata room st → Searched pdata room (f st type))
    (types : List VmemType) (h : Searched pdata room st) :
    Searched pdata room (types.foldl f st) := by
  induction types generalizing st with
  | nil => exact h
  | cons type types ih => exact ih (hf st type h)

theorem foldl_tryRest_tried (types tried : List VmemType)
    (h : 0 ≤ st.iRet ∨ ∀ type ∈ tried, type ∈ st.iCheckFlag) :
    0 ≤ (types.foldl (tryRest env pdata) st).iRet ∨
      ∀ type ∈ tried ++ types, type ∈ (types.foldl (tryRest env pdata) st).iCheckFlag := by
  induction types generalizing st tried with
  | nil =>
    rw [List.append_nil]
    exact h
  | cons type types ih =>
    rw [List.append_cons, List.foldl_cons]
    apply ih
    unfold tryRest
    split
    · rename_i htry
      refine Or.inr ?_
      intro t ht
      rcases List.mem_append.mp ht with ht | ht
      · exact List.mem_cons_of_mem _ ((h.resolve_left (Int.not_le.mpr htry.1)) t ht)
      · exact List.mem_singleton.mp ht ▸ List.mem_cons_self
    · rename_i htry
      by_cases hneg : st.iRet < 0
      · refine Or.inr ?_
        intro t ht
        rcases List.mem_append.mp ht with ht | ht
        · exact (h.resolve_left (Int.not_le.mpr hneg)) t ht
        · rw [List.mem_singleton.mp ht]
          by_contra hmem
          exact htry ⟨hneg, hmem⟩
      · exact Or.inl (Int.not_lt.mp hneg)

theorem saveToVmem_search (hpos : 0 < pdata.length) (hmax : pdata.length ≤ VMEM_MAX_DATA_LEN)
    (hfree : LocksFree env) (h : SameRoom pdata room p) :
    SearchOutcome room (fun g => g ∈ allSegments) (SameRoom pdata room)
      (saveToVmem env p pdata) := by
  have hlen : ¬ (pdata.length ≤ 0 ∨ VMEM_MAX_DATA_LEN < pdata.length) := by omega
  have hstart : Searched pdata room ⟨-1, [], p⟩ :=
    Or.inr ⟨(by decide : (-1 : Int) < 0), h, fun g hg => absurd hg.1 List.not_mem_nil⟩
  let best := [VmemType.v255, .v128, .v64, .v32, .v16].foldl (tryBest env pdata) ⟨-1, [], p⟩
  let st := [VmemType.v16, .v32, .v64, .v128, .v255].foldl (tryRest env pdata) best
  have hbest : Searched pdata room best :=
    hstart.foldl (fun st type hst => hst.tryBest hfree type) _
  have hst : Searched pdata room st :=
    hbest.foldl (fun st type hst => hst.tryRest hfree type) _
  have htried : 0 ≤ st.iRet ∨ ∀ type ∈ [] ++ [VmemType.v16, .v32, .v64, .v128, .v255],
      type ∈ st.iCheckFlag :=
    foldl_tryRest_tried _ [] (Or.inr fun t ht => absurd ht List.not_mem_nil)
  have hsave : saveToVmem env p pdata = (st.iRet, st.pools) := by
    unfold saveToVmem
    rw [h.1, if_neg hlen]
    rfl
  rw [hsave]
  rcases htried with hsaved | htried
  · exact hst.mono hsaved fun g hg => mem_allSegments.mpr hg.2
  · refine hst.congr ?_
    intro g
    rw [mem_allSegments]
    refine and_iff_right (htried g.1 ?_)
    cases g.1 <;> decide

end Search

theorem succeeds_iff_hasRoom {p : VmemPools} {pdata : List UInt8} (hpos : 0 < pdata.length)
    (hmax : pdata.length ≤ VMEM_MAX_DATA_LEN) (hinit : p.cIsInit = true) {env : Nat → VmemEnv}
    (hfree : ∀ k, LocksFree (env k)) :
    Succeeds (fun k p => saveToVmem (env k) p pdata) p ↔ HasRoom p pdata := by
  have hsame : SameRoom pdata (RoomIn pdata p) p := ⟨hinit, fun _ => Iff.rfl⟩
  exact succeeds_iff (fun k q hq => saveToVmem_search hpos hmax (hfree k) hq) hsame

section Full

variable {r r' : VmemRun} {live : SegId → List Chain}

theorem Reached.step (hr : Reached r) {call : VmemCall} {o : Int} (hok : CallOk r call)
    (hstep : vmemStep r call = some (o, r')) : Reached r' := by
  obtain ⟨calls, os, hcalls, hrun⟩ := hr
  refine ⟨calls ++ [call], os ++ [o], hcalls.append hrun ⟨hok, fun _ _ _ => trivial⟩, ?_⟩
  rw [runSteps_append hrun]
  simp [runSteps, hstep]

/-- The state after `k` saves of one byte. -/
def filled : Nat → VmemRun
  | 0 => vmemStart
  | k + 1 =>
    let x := saveToVmem uncontended (filled k).pools [1]
    ⟨x.2, if 0 < x.1 then (x.1, [1]) :: (filled k).handed else (filled k).handed⟩

theorem reached_filled (k : Nat) : Reached (filled k) := by
  induction k with
  | zero => exact ⟨[], [], trivial, rfl⟩
  | succ k ih =>
    have hok : CallOk (filled k) (.save uncontended [1]) := trivial
    exact ih.step hok rfl

theorem locksFree_uncontended : LocksFree uncontended := fun _ _ _ => rfl

theorem length_handed_filled {k : Nat} (h : ∀ j < k, HasRoom (filled j).pools [1]) :
    (filled k).handed.length = k := by
  induction k with
  | zero => rfl
  | succ k ih =>
    have hlen := ih fun j hj => h j (Nat.lt_succ_of_lt hj)
    obtain ⟨live, hinv⟩ := (reached_filled k).inv
    have hsame : SameRoom [1] (RoomIn [1] (filled k).pools) (filled k).pools :=
      ⟨hinv.pools.init, fun _ => Iff.rfl⟩
    have hsaved : 0 ≤ (saveToVmem uncontended (filled k).pools [1]).1 :=
      (saveToVmem_search (by decide) (by decide) locksFree_uncontended hsame).nonneg_iff.mpr
        (h k (Nat.lt_succ_self k))
    have hpos : 0 < (saveToVmem uncontended (filled k).pools [1]).1 := by
      rcases saveToVmem_outcome uncontended [1] hinv.pools with
        ⟨hneg, -⟩ | ⟨g, c, -, -, hret, -⟩
      · omega
      · rw [hret]
        exact chainIndex_pos g c
    rw [filled]
    simp only [if_pos hpos, List.length_cons, hlen]

theorem length_le_flatMap {α β : Type*} {f : α → List β} {l : List α}
    (hne : ∀ a ∈ l, f a ≠ []) : l.length ≤ (l.flatMap f).length := by
  induction l with
  | nil => exact Nat.zero_le _
  | cons a l ih =>
    have hone := List.length_pos_of_ne_nil (hne a List.mem_cons_self)
    have hrest := ih fun b hb => hne b (List.mem_cons_of_mem _ hb)
    rw [List.flatMap_cons, List.length_append, List.length_cons]
    omega

theorem SegReady.length_live_le {n : Nat} {s : VmemSegment} {w : SegmentView} (h : SegReady n s w) :
    w.live.length ≤ n := by
  have hcells := h.inv.length_cells
  have hle : w.live.length ≤ w.liveCells.length :=
    length_le_flatMap fun c hc => (h.inv.live c hc).ne_nil
  omega

theorem RunInv.length_handed_le (h : RunInv r live) :
    r.handed.length ≤ (allSegments.map fun g => g.1.nodeCount).sum := by
  have hseg : ∀ gs : List SegId, (∀ g ∈ gs, g.2 < VMEM_SHM_COUNT) →
      (handedIn gs live).length ≤ (gs.map fun g => g.1.nodeCount).sum := by
    intro gs
    induction gs with
    | nil => exact fun _ => le_rfl
    | cons g gs ih =>
      intro hgs
      obtain ⟨w, hw, hl⟩ := h.pools.seg g (hgs g List.mem_cons_self)
      have hle := hw.length_live_le
      have hrest := ih fun g' hg' => hgs g' (List.mem_cons_of_mem _ hg')
      rw [handedIn, List.flatMap_cons, List.length_append, List.length_map, ← hl, List.map_cons,
        List.sum_cons]
      exact Nat.add_le_add hle hrest
  rw [h.handed.length_eq]
  exact hseg allSegments fun g hg => mem_allSegments.mp hg

theorem exists_full : ∃ k, ¬ HasRoom (filled k).pools [1] ∧ 0 < (filled k).handed.length := by
  have hfull : ∃ k, ¬ HasRoom (filled k).pools [1] := by
    by_contra hnone
    let n := (allSegments.map fun g => g.1.nodeCount).sum
    obtain ⟨live, hinv⟩ := (reached_filled (n + 1)).inv
    have hle : (filled (n + 1)).handed.length ≤ n := hinv.length_handed_le
    rw [length_handed_filled fun j _ => not_not.mp fun hj => hnone ⟨j, hj⟩] at hle
    exact absurd hle (Nat.not_succ_le_self n)
  have hstart : HasRoom (filled 0).pools [1] := ⟨(.v16, 0), by decide, by decide⟩
  refine ⟨Nat.find hfull, Nat.find_spec hfull, ?_⟩
  rw [length_handed_filled fun j hj => not_not.mp (Nat.find_min hfull hj)]
  refine Nat.pos_of_ne_zero fun hzero => ?_
  have hspec := Nat.find_spec hfull
  rw [hzero] at hspec
  exact hspec hstart

theorem freeLoop_false_counts {n fuel i : Nat} {s s' : VmemSegment} {bug bug' : Bool}
    (h : NoLinkToRecord n s) (hi : 0 < i) (hlt : i < n)
    (hrun : freeLoop false fuel s i bug = some (s', bug')) :
    s'.wNodeUsed = s.wNodeUsed ∧ s'.wNodeCount = s.wNodeCount := by
  induction fuel generalizing s i bug with
  | zero => cases hrun
  | succ fuel ih =>
    have hstep := h.freeStep false hi hlt
    have hcounts : (freeStep false s i).wNodeUsed = s.wNodeUsed ∧
        (freeStep false s i).wNodeCount = s.wNodeCount := by
      simp [freeStep, VmemSegment.setDataLen_of_ne_zero hi.ne',
        VmemSegment.setNext_of_ne_zero hi.ne']
    rw [freeLoop_succ] at hrun
    split at hrun
    · rename_i hnext
      rw [hstep.count] at hnext
      obtain ⟨hused, hcount⟩ := ih hstep (h.next i hi hlt) hnext hrun
      exact ⟨hused.trans hcounts.1, hcount.trans hcounts.2⟩
    · obtain ⟨rfl, -⟩ := Prod.mk.inj (Option.some.inj hrun)
      exact hcounts

theorem roomIn_freeVmem {p q : VmemPools} {g : SegId} {c : Chain} {o : Int} (h : PoolsInv p live)
    (hg : g.2 < VMEM_SHM_COUNT) (hc : c ∈ live g)
    (hrun : freeVmem contended p (chainIndex g c) = some (o, q)) (pdata : List UInt8) (g' : SegId) :
    RoomIn pdata q g' ↔ RoomIn pdata p g' := by
  obtain ⟨hcount, hfirst, hparse⟩ := h.first_lt hg hc
  obtain ⟨w, hw, hl⟩ := h.seg g hg
  have hfirst0 : 0 < c.first := by
    have hst := hw.inv.live c (hl ▸ hc)
    obtain ⟨i, l, hcells⟩ := List.exists_cons_of_ne_nil hst.ne_nil
    have hmem : i ∈ w.cells := SegInv.mem_cells_live (hl ▸ hc) (hcells ▸ List.mem_cons_self)
    rw [Chain.first, hcells, List.headD_cons]
    exact (hw.inv.mem_iff.mp hmem).1
  have hlink := hw.noLinkToRecord (Nat.lt_of_succ_lt g.1.one_lt_nodeCount)
  rw [freeVmem_eq h.init hparse, if_neg (by omega), if_neg (by omega)] at hrun
  obtain ⟨⟨s', bug⟩, hloop, hout⟩ := Option.map_eq_some_iff.mp hrun
  obtain ⟨-, rfl⟩ := Prod.mk.inj hout
  have hcounts := freeLoop_false_counts hlink hfirst0 hfirst hloop
  rw [RoomIn, RoomIn]
  by_cases hgg : g' = g
  · subst hgg
    change ((p.setShm g'.1 g'.2 s').shm g'.1 g'.2).wNodeUsed + _ ≤
      ((p.setShm g'.1 g'.2 s').shm g'.1 g'.2).wNodeCount ↔ _
    rw [shm_setShm_self, hcounts.1, hcounts.2]
  · change ((p.setShm g.1 g.2 s').shm g'.1 g'.2).wNodeUsed + _ ≤
      ((p.setShm g.1 g.2 s').shm g'.1 g'.2).wNodeCount ↔ _
    rw [shm_setShm_of_ne hgg]

/-- After a full run a string is freed without the flag: a cell is outside the live chains, but no
segment has room. -/
theorem exists_deferred : ∃ r, Reached r ∧ EnoughSpare r [1] ∧ ¬ HasRoom r.pools [1] := by
  obtain ⟨k, hfull, hpos⟩ := exists_full
  obtain ⟨x, hx⟩ := List.exists_mem_of_length_pos hpos
  obtain ⟨live, hinv⟩ := (reached_filled k).inv
  obtain ⟨g, hg, c, l₁, l₂, hl, hindex, herase⟩ :=
    handedIn_eraseP nodup_allSegments hinv.handed (show (x.1, x.2) ∈ _ from hx)
  have hseg := mem_allSegments.mp hg
  have hc : c ∈ live g := by simp [hl]
  obtain ⟨q, hq, hpools⟩ := freeVmem_stored contended hinv.pools hseg l₁ l₂ hl
  let r : VmemRun := ⟨q, (filled k).handed.eraseP fun y => y.1 == x.1⟩
  have hrinv : RunInv r (Function.update live g (l₁ ++ l₂)) := ⟨hpools, herase⟩
  have hstep : vmemStep (filled k) (.free contended x.1) = some (0, r) := by
    rw [hindex] at hq
    simp [vmemStep, hq, r]
  have hok : CallOk (filled k) (.free contended x.1) := ⟨x.2, hx⟩
  refine ⟨r, (reached_filled k).step hok hstep, ⟨g, hg, ?_⟩, ?_⟩
  · obtain ⟨w, hw, hwl⟩ := hinv.pools.seg g hseg
    obtain ⟨w', hw', hwl'⟩ := hpools.seg g hseg
    have hfirsts := hrinv.firstCells hseg
    rw [← hwl'] at hfirsts
    have hchains : ((r.firstCells g).map (chainAt (r.pools.shm g.1 g.2))).flatten.Perm
        (l₁ ++ l₂ |>.flatMap Chain.cells) := by
      have hperm := (hw'.chains_perm hfirsts).flatten
      rwa [hwl', Function.update_self, ← List.flatMap_def] at hperm
    have hcw : c ∈ w.live := hwl ▸ hc
    have hst := hw.inv.live c hcw
    have hfirst : c.first ∈ c.cells := by
      obtain ⟨i, l, hcells⟩ := List.exists_cons_of_ne_nil hst.ne_nil
      rw [Chain.first, hcells, List.headD_cons]
      exact List.mem_cons_self
    have hbound := hw.inv.mem_iff.mp (SegInv.mem_cells_live hcw hfirst)
    have hout : c.first ∉ (l₁ ++ l₂).flatMap Chain.cells := by
      have hnodup : w.liveCells.Nodup :=
        (List.sublist_append_right _ _).nodup hw.inv.nodup
      rw [SegmentView.liveCells, hwl, hl, List.flatMap_append, List.flatMap_cons] at hnodup
      rw [List.flatMap_append, List.mem_append]
      have hparts := (List.perm_append_comm_assoc _ _ _).nodup_iff.mp hnodup
      intro hmem
      exact (List.nodup_append.mp hparts).2.2 c.first hfirst c.first (List.mem_append.mpr hmem) rfl
    have hspare : c.first ∈ (List.range' 1 ((r.pools.shm g.1 g.2).wNodeCount - 1)).filter fun i =>
        i ∉ ((r.firstCells g).map (chainAt (r.pools.shm g.1 g.2))).flatten := by
      rw [List.mem_filter, List.mem_range'_1, hw'.inv.count]
      exact ⟨by omega, by simpa using fun hmem => hout (hchains.mem_iff.mp hmem)⟩
    have hone : needCount g.1.len 1 = 1 := by cases g.1 <;> decide
    change needCount g.1.len 1 ≤ _
    rw [hone]
    exact List.length_pos_of_mem hspare
  · rintro ⟨g', hg', hroom⟩
    exact hfull ⟨g', hg', (roomIn_freeVmem hinv.pools hseg hc hq [1] g').mp hroom⟩

end Full

end XrkMonitor.Vmem
