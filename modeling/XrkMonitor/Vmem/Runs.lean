import XrkMonitor.Library.Run
import XrkMonitor.Vmem.Handed

/-!
# Runs of the allocator

A run is any sequence of `MtReport_SaveToVmem`, `MtReport_FreeVmem` on indices
that are handed out, and `MtReport_CheckVmem`, with an arbitrary outcome of
every compare-and-swap and arbitrary clock readings. `handed` records the
indices a run has received and not yet freed, with the bytes stored for them.
-/

namespace XrkMonitor.Vmem

open Library

/-- The pools and the indices handed out, with the data saved for each. -/
structure VmemRun where
  pools : VmemPools
  handed : List (Int × List UInt8)

/-- One call with the compare-and-swap outcomes and clock readings it meets. -/
inductive VmemCall where
  | save (env : VmemEnv) (pdata : List UInt8)
  | free (env : VmemEnv) (index : Int)
  | check (env : VmemEnv)

/-- The return code of a call and the state after it. -/
def vmemStep (r : VmemRun) : VmemCall → Option (Int × VmemRun)
  | .save env pdata =>
    let x := saveToVmem env r.pools pdata
    some (x.1, ⟨x.2, if 0 < x.1 then (x.1, pdata) :: r.handed else r.handed⟩)
  | .free env index =>
    (freeVmem env r.pools index).map fun x =>
      (x.1, ⟨x.2, r.handed.eraseP fun h => h.1 == index⟩)
  | .check env =>
    let x := checkVmem env r.pools
    some (x.1, ⟨x.2, r.handed⟩)

/-- Only indices that are handed out are freed. -/
def CallOk (r : VmemRun) : VmemCall → Prop
  | .free _ index => ∃ pdata, (index, pdata) ∈ r.handed
  | _ => True

/-- The initialised pools, with nothing handed out. -/
def vmemStart : VmemRun := ⟨initVmem, []⟩

/-- The indices and data of all stored strings. -/
def allHanded (live : SegId → List Chain) : List (Int × List UInt8) :=
  allSegments.flatMap fun g => (live g).map (handedOf g)

/-- The pools are in order and exactly the stored strings are handed out. -/
structure RunInv (r : VmemRun) (live : SegId → List Chain) : Prop where
  pools : PoolsInv r.pools live
  handed : r.handed.Perm (allHanded live)

variable {r : VmemRun} {live : SegId → List Chain} {g : SegId} {x : Int × List UInt8}
  {pdata : List UInt8}

theorem mem_allSegments : g ∈ allSegments ↔ g.2 < VMEM_SHM_COUNT := by
  obtain ⟨type, j⟩ := g
  cases type <;> simp [allSegments]

theorem nodup_allSegments : allSegments.Nodup := by decide

theorem RunInv.stored (h : RunInv r live) (hx : x ∈ r.handed) :
    ∃ g c, g.2 < VMEM_SHM_COUNT ∧ c ∈ live g ∧ x = handedOf g c := by
  obtain ⟨g, hg, c, hc, hxc⟩ := mem_handedIn.mp (h.handed.mem_iff.mp hx)
  exact ⟨g, c, mem_allSegments.mp hg, hc, hxc⟩

theorem RunInv.save (env : VmemEnv) (pdata : List UInt8) (h : RunInv r live) :
    ∃ o r' live', vmemStep r (.save env pdata) = some (o, r') ∧ RunInv r' live' := by
  rcases saveToVmem_outcome env pdata h.pools with ⟨hneg, hp⟩ | ⟨g, c, hg, rfl, hr, hp⟩
  · refine ⟨_, _, live, rfl, hp, ?_⟩
    rw [if_neg (by omega)]
    exact h.handed
  · refine ⟨_, _, _, rfl, hp, ?_⟩
    have hpos := chainIndex_pos g c
    rw [if_pos (by omega), hr]
    exact handedIn_cons nodup_allSegments (mem_allSegments.mpr hg) c h.handed

theorem RunInv.free (env : VmemEnv) {index : Int} (h : RunInv r live)
    (hlive : (index, pdata) ∈ r.handed) :
    ∃ o r' live', vmemStep r (.free env index) = some (o, r') ∧ RunInv r' live' := by
  obtain ⟨g, hg, c, l₁, l₂, hl, rfl, herase⟩ := handedIn_eraseP nodup_allSegments h.handed hlive
  have hc : c ∈ live g := by simp [hl]
  obtain ⟨q, hq, hinv⟩ := freeVmem_stored env h.pools (mem_allSegments.mp hg) l₁ l₂ hl
  refine ⟨0, ⟨q, r.handed.eraseP fun y => y.1 == chainIndex g c⟩, _, ?_, hinv, herase⟩
  simp [vmemStep, hq]

theorem RunInv.check (env : VmemEnv) (h : RunInv r live) :
    ∃ o r' live', vmemStep r (.check env) = some (o, r') ∧ RunInv r' live' :=
  ⟨_, _, live, rfl, checkVmem_inv env h.pools, h.handed⟩

theorem RunInv.step (r : VmemRun) (call : VmemCall) (h : ∃ live, RunInv r live)
    (hok : CallOk r call) :
    ∃ o r', vmemStep r call = some (o, r') ∧ True ∧ ∃ live', RunInv r' live' := by
  obtain ⟨live, h⟩ := h
  have hcall : ∃ o r' live', vmemStep r call = some (o, r') ∧ RunInv r' live' := by
    cases call with
    | save env pdata => exact h.save env pdata
    | free env index =>
      obtain ⟨pdata, hlive⟩ := hok
      exact h.free env hlive
    | check env => exact h.check env
  obtain ⟨o, r', live', hstep, h'⟩ := hcall
  exact ⟨o, r', hstep, trivial, live', h'⟩

theorem runInv_start : RunInv vmemStart fun _ => [] where
  pools := initVmem_inv
  handed := by simp [vmemStart, allHanded]

/-- The first cells of the handed-out strings of segment `g`. -/
def VmemRun.firstCells (r : VmemRun) (g : SegId) : List Nat :=
  r.handed.filterMap fun h => cellIn g h.1

theorem RunInv.firstCells (h : RunInv r live) (hg : g.2 < VMEM_SHM_COUNT) :
    (r.firstCells g).Perm ((live g).map Chain.first) := by
  apply firstCellsOf_perm nodup_allSegments (mem_allSegments.mpr hg) _ h.handed
  intro g' hg' c hc
  exact (h.pools.first_lt (mem_allSegments.mp hg') hc).2.2

theorem RunInv.nodup_firsts (h : RunInv r live) (hg : g.2 < VMEM_SHM_COUNT) :
    ((live g).map Chain.first).Nodup := by
  obtain ⟨w, hw, hl⟩ := h.pools.seg g hg
  have hnodup : w.liveCells.Nodup := (List.sublist_append_right _ _).nodup hw.inv.nodup
  have hfirst : ∀ c ∈ w.live, c.first ∈ c.cells := by
    intro c hc
    obtain ⟨i, l, hcells⟩ := List.exists_cons_of_ne_nil (hw.inv.live c hc).ne_nil
    rw [Chain.first, hcells, List.headD_cons]
    exact List.mem_cons_self
  rw [← hl]
  refine List.pairwise_map.mpr ((List.nodup_flatMap.mp hnodup).2.imp_of_mem ?_)
  intro c c' hc hc' hdisjoint heq
  exact hdisjoint (hfirst c hc) (heq ▸ hfirst c' hc')

theorem RunInv.nodup_handed (h : RunInv r live) : (r.handed.map Prod.fst).Nodup := by
  have hparse : ∀ g ∈ allSegments, ∀ c ∈ live g,
      vmemParseIdex32 (chainIndex g c) = (g.1.len, g.2, c.first) :=
    fun g hg c hc => (h.pools.first_lt (mem_allSegments.mp hg) hc).2.2
  rw [(h.handed.map Prod.fst).nodup_iff, allHanded, List.map_flatMap, List.nodup_flatMap]
  constructor
  · intro g hg
    have hfirsts : (((live g).map (handedOf g)).map Prod.fst).map
        (fun index => (vmemParseIdex32 index).2.2) = (live g).map Chain.first := by
      rw [List.map_map, List.map_map]
      refine List.map_congr_left fun c hc => ?_
      exact congrArg (fun x => x.2.2) (hparse g hg c hc)
    refine List.Nodup.of_map (fun index => (vmemParseIdex32 index).2.2) ?_
    rw [hfirsts]
    exact h.nodup_firsts (mem_allSegments.mp hg)
  · refine nodup_allSegments.imp_of_mem fun {g g'} hg hg' hne => ?_
    intro index hidx hidx'
    simp only [List.map_map, List.mem_map, Function.comp_apply, handedOf] at hidx hidx'
    obtain ⟨c, hc, rfl⟩ := hidx
    obtain ⟨c', hc', heq⟩ := hidx'
    have hboth := hparse g' hg' c' hc'
    rw [heq, hparse g hg c hc] at hboth
    obtain ⟨hlen, hrest⟩ := Prod.mk.inj hboth
    exact hne (Prod.ext (VmemType.len_injective hlen) (Prod.mk.inj hrest).1)

theorem RunInv.partition (h : RunInv r live) (hg : g.2 < VMEM_SHM_COUNT) :
    ∃ free deferred, Partition g.1.nodeCount (r.pools.shm g.1 g.2) free deferred
      ((r.firstCells g).map (chainAt (r.pools.shm g.1 g.2))) := by
  obtain ⟨w, hw, hl⟩ := h.pools.seg g hg
  have hfirsts := h.firstCells hg
  rw [← hl] at hfirsts
  exact ⟨w.free, w.deferred, hw.partition hfirsts⟩

/-- After every run, in every segment the free list, the marked cells and the
chains handed out share out all cells, `wNodeUsed` counts the last two, and
`COMM_LIB_BUG` was never reached. -/
theorem vmem_partition (calls : List VmemCall)
    (hcalls : Admissible vmemStep CallOk vmemStart calls) :
    ∃ os r, runSteps vmemStep vmemStart calls = some (os, r) ∧ r.pools.commLibBug = false ∧
      ∀ type i, i < VMEM_SHM_COUNT →
        ∃ free deferred, Partition type.nodeCount (r.pools.shm type i) free deferred
          ((r.firstCells (type, i)).map (chainAt (r.pools.shm type i))) := by
  obtain ⟨os, r, hrun, -, live, hinv⟩ :=
    run_invariant (O := fun _ _ => True) RunInv.step calls vmemStart ⟨_, runInv_start⟩ hcalls
  refine ⟨os, r, hrun, hinv.pools.bug, ?_⟩
  intro type i hi
  exact hinv.partition (g := (type, i)) hi

/-- Every compare-and-swap succeeds and the clock stands at zero. -/
def uncontended : VmemEnv := ⟨fun _ _ _ => true, fun _ _ _ => 0⟩

/-- Store three bytes, free them, and check. -/
def saveFreeCheck : List VmemCall :=
  [.save uncontended [1, 2, 3], .free uncontended 1048577, .check uncontended]

theorem save_first (hpos : 0 < pdata.length) (hshort : pdata.length < 16) :
    (saveToVmem uncontended initVmem pdata).1 = 1048577 := by
  have hunmarked : ∀ i < (vmemCreateInitShm 20000).wNodeCount,
      (vmemCreateInitShm 20000).next i ≠ (vmemCreateInitShm 20000).wNodeCount + 1 := by
    intro i hi
    have hi' : i < 20000 := hi
    simp only [VmemSegment.next, vmemCreateInitShm]
    split <;> omega
  obtain ⟨k, hk⟩ := scanFreeNode_unmarked hunmarked (by decide) (by decide)
  have hfirst : (saveInSegment 16 (vmemCreateInitShm 20000) pdata).1 = 1 := by
    rw [saveInSegment, hk]
    rfl
  have hroom : ¬ (initVmem.shm .v16 0).wNodeCount <
      (initVmem.shm .v16 0).wNodeUsed + needCount VmemType.v16.len pdata.length := by
    change ¬ 20000 < 1 + needCount 16 pdata.length
    unfold needCount
    split <;> omega
  generalize hseg : saveInSegment 16 (vmemCreateInitShm 20000) pdata = r at hfirst
  have hloop : saveDataToVmem uncontended initVmem .v16 pdata =
      (1048577, initVmem.setShm .v16 0 r.2) := by
    rw [saveDataToVmem_first rfl hroom]
    change (Int.ofNat (vmemMakeIdex32 16 0 (saveInSegment 16 (vmemCreateInitShm 20000) pdata).1),
      initVmem.setShm .v16 0 (saveInSegment 16 (vmemCreateInitShm 20000) pdata).2) = _
    rw [hseg, hfirst]
    rfl
  generalize initVmem.setShm .v16 0 r.2 = q at hloop
  have hmax : ¬ VMEM_MAX_DATA_LEN < pdata.length := by
    change ¬ 65000 < pdata.length
    omega
  have hlen : ∀ type : VmemType, ¬ type.len ≤ pdata.length := by
    intro type
    cases type <;> simp only [VmemType.len] <;> omega
  simp [saveToVmem, initVmem_inv.init, hmax, Nat.ne_of_gt hpos, tryBest, tryRest, hlen, hloop]

theorem save_first_index : (saveToVmem uncontended initVmem [1, 2, 3]).1 = 1048577 :=
  save_first (by decide) (by decide)

theorem vmem_partition_saveFreeCheck :
    ∃ os r, runSteps vmemStep vmemStart saveFreeCheck = some (os, r) ∧
      r.pools.commLibBug = false ∧
      ∃ free deferred, Partition 20000 (r.pools.shm .v16 0) free deferred
        ((r.firstCells (.v16, 0)).map (chainAt (r.pools.shm .v16 0))) := by
  have hcalls : Admissible vmemStep CallOk vmemStart saveFreeCheck := by
    refine ⟨trivial, ?_⟩
    intro o r hstep
    have hr : r.handed = [(1048577, [1, 2, 3])] := by
      simp only [vmemStep, vmemStart, save_first_index, Option.some.injEq, Prod.mk.injEq] at hstep
      rw [← hstep.2]
      rfl
    refine ⟨⟨[1, 2, 3], by simp [hr]⟩, ?_⟩
    intro _ _ _
    exact ⟨trivial, fun _ _ _ => trivial⟩
  obtain ⟨os, r, hrun, hbug, hpart⟩ := vmem_partition saveFreeCheck hcalls
  exact ⟨os, r, hrun, hbug, hpart .v16 0 (by decide)⟩

/-- States that some run from the initialised pools ends in. -/
def Reached (r : VmemRun) : Prop :=
  ∃ calls os, Admissible vmemStep CallOk vmemStart calls ∧
    runSteps vmemStep vmemStart calls = some (os, r)

/-- The call frees `index`. -/
def Frees (index : Int) : VmemCall → Prop
  | .free _ i => i = index
  | _ => False

theorem Reached.inv (hr : Reached r) : ∃ live, RunInv r live := by
  obtain ⟨calls, os, hcalls, hrun⟩ := hr
  obtain ⟨os', r', hrun', -, hinv⟩ :=
    run_invariant (O := fun _ _ => True) RunInv.step calls vmemStart ⟨_, runInv_start⟩ hcalls
  rw [hrun] at hrun'
  obtain ⟨-, rfl⟩ := Prod.mk.inj (Option.some.inj hrun')
  exact hinv

theorem handed_of_step {call : VmemCall} {o : Int} {r' : VmemRun}
    (hx : x ∈ r.handed) (hcall : ¬ Frees x.1 call) (hstep : vmemStep r call = some (o, r')) :
    x ∈ r'.handed := by
  cases call with
  | save env pdata =>
    simp only [vmemStep, Option.some.injEq, Prod.mk.injEq] at hstep
    rw [← hstep.2]
    split
    · exact List.mem_cons_of_mem _ hx
    · exact hx
  | free env index =>
    obtain ⟨q, -, hq⟩ := Option.map_eq_some_iff.mp hstep
    rw [← (Prod.mk.inj hq).2]
    apply (List.mem_eraseP_of_neg _).mpr hx
    intro he
    exact hcall (beq_iff_eq.mp he).symm
  | check env =>
    simp only [vmemStep, Option.some.injEq, Prod.mk.injEq] at hstep
    rw [← hstep.2]
    exact hx

theorem RunInv.read (h : RunInv r live) (hx : x ∈ r.handed)
    {iBufLen : Int} (hbuf : (x.2.length : Int) ≤ iBufLen) :
    getFromVmem r.pools x.1 iBufLen = some (0, x.2) := by
  obtain ⟨g, c, hg, hc, rfl⟩ := h.stored hx
  exact getFromVmem_stored h.pools hg hc hbuf

/-- What a save stores is read back after every later run that does not free
its index, and a failed save leaves every handed-out string as it was. -/
theorem vmem_round_trip (hr : Reached r) (env : VmemEnv) (pdata : List UInt8) :
    (0 < (saveToVmem env r.pools pdata).1 →
      ∀ after : List VmemCall,
        Admissible vmemStep CallOk ⟨(saveToVmem env r.pools pdata).2,
          ((saveToVmem env r.pools pdata).1, pdata) :: r.handed⟩ after →
        (∀ call ∈ after, ¬ Frees (saveToVmem env r.pools pdata).1 call) →
        ∃ os r', runSteps vmemStep ⟨(saveToVmem env r.pools pdata).2,
            ((saveToVmem env r.pools pdata).1, pdata) :: r.handed⟩ after = some (os, r') ∧
          ∀ iBufLen : Int, pdata.length ≤ iBufLen →
            getFromVmem r'.pools (saveToVmem env r.pools pdata).1 iBufLen = some (0, pdata)) ∧
      (¬ 0 < (saveToVmem env r.pools pdata).1 →
        ∀ x ∈ r.handed, ∀ iBufLen : Int, x.2.length ≤ iBufLen →
          getFromVmem r.pools x.1 iBufLen = some (0, x.2) ∧
          getFromVmem (saveToVmem env r.pools pdata).2 x.1 iBufLen = some (0, x.2)) := by
  obtain ⟨live, hinv⟩ := hr.inv
  obtain ⟨o, r₁, live₁, hstep, hinv₁⟩ := hinv.save env pdata
  simp only [vmemStep, Option.some.injEq, Prod.mk.injEq] at hstep
  obtain ⟨-, rfl⟩ := hstep
  constructor
  · intro hpos after hafter hfree
    rw [if_pos hpos] at hinv₁
    let x : Int × List UInt8 := ((saveToVmem env r.pools pdata).1, pdata)
    have hmem : ∀ s call, ((∃ live, RunInv s live) ∧ x ∈ s.handed) →
        CallOk s call ∧ ¬ Frees x.1 call →
        ∃ o s', vmemStep s call = some (o, s') ∧ True ∧ (∃ live, RunInv s' live) ∧
          x ∈ s'.handed := by
      intro s call hs hok
      obtain ⟨o, s', hs', -, hl⟩ := RunInv.step s call hs.1 hok.1
      exact ⟨o, s', hs', trivial, hl, handed_of_step hs.2 hok.2 hs'⟩
    obtain ⟨os, r', hrun, -, ⟨live', hinv'⟩, hx⟩ :=
      run_invariant (O := fun _ _ => True) hmem after _ ⟨⟨_, hinv₁⟩, List.mem_cons_self⟩
        (hafter.and_forall hfree)
    exact ⟨os, r', hrun, fun iBufLen hbuf => hinv'.read hx hbuf⟩
  · intro hneg x hx iBufLen hbuf
    rw [if_neg hneg] at hinv₁
    exact ⟨hinv.read hx hbuf, hinv₁.read (r := ⟨_, r.handed⟩) hx hbuf⟩

theorem vmem_round_trip_uncontended :
    Reached vmemStart ∧ 0 < (saveToVmem uncontended initVmem [1, 2, 3]).1 ∧
      ∃ os r', runSteps vmemStep ⟨(saveToVmem uncontended initVmem [1, 2, 3]).2,
          [((saveToVmem uncontended initVmem [1, 2, 3]).1, [1, 2, 3])]⟩
          [.check uncontended, .save uncontended [4]] = some (os, r') ∧
        getFromVmem r'.pools (saveToVmem uncontended initVmem [1, 2, 3]).1 3 =
          some (0, [1, 2, 3]) := by
  have hreached : Reached vmemStart := ⟨[], [], trivial, rfl⟩
  have hpos : 0 < (saveToVmem uncontended initVmem [1, 2, 3]).1 := by
    rw [save_first_index]
    decide
  have hafter := (vmem_round_trip hreached uncontended [1, 2, 3]).1 hpos
    [.check uncontended, .save uncontended [4]]
    ⟨trivial, fun _ _ _ => ⟨trivial, fun _ _ _ => trivial⟩⟩ (by simp [Frees])
  obtain ⟨os, r', hrun, hread⟩ := hafter
  exact ⟨hreached, hpos, os, r', hrun, hread 3 (by decide)⟩

end XrkMonitor.Vmem
