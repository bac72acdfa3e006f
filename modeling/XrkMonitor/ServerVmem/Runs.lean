import XrkMonitor.Library.Run
import XrkMonitor.ServerVmem.Calls
import XrkMonitor.Vmem.Handed

/-!
# Runs of the server's allocator

A run is any sequence of `MtReport_SaveToVmem` and of `MtReport_FreeVmem` on
indices that are handed out. In every state a run reaches, exactly the strings
that are handed out are stored.
-/

namespace XrkMonitor.ServerVmem

open Library Vmem

/-- The segments and the indices handed out, with the data saved for each. -/
structure BufRun where
  buf : VmemBuf
  handed : List (Int × List UInt8)

/-- One call with the compare-and-swap outcomes and clock readings it meets; a save has those of
each of its attempts. -/
inductive BufCall where
  | save (env : Nat → VmemEnv) (pdata : List UInt8)
  | free (env : VmemEnv) (index : Int)

/-- The return code of a call and the state after it. -/
def bufStep (r : BufRun) : BufCall → Option (Int × BufRun)
  | .save env pdata =>
    let x := saveToVmem env r.buf pdata
    some (x.1, ⟨x.2, if 0 < x.1 then (x.1, pdata) :: r.handed else r.handed⟩)
  | .free env index =>
    (freeVmem env r.buf index).map fun x =>
      (x.1, ⟨x.2, r.handed.eraseP fun h => h.1 == index⟩)

/-- Only indices that are handed out are freed. -/
def CallOk (r : BufRun) : BufCall → Prop
  | .free _ index => ∃ pdata, (index, pdata) ∈ r.handed
  | .save _ _ => True

/-- The initialised segments, with nothing handed out. -/
def bufStart : BufRun := ⟨initVmem, []⟩

/-- States that some run from the initialised segments ends in. -/
def Reached (r : BufRun) : Prop :=
  ∃ calls os, Admissible bufStep CallOk bufStart calls ∧
    runSteps bufStep bufStart calls = some (os, r)

/-- The ten segments of every size. -/
def allSegments : List SegId :=
  [.v16, .v32, .v64, .v128, .v255].flatMap fun type =>
    (List.range VMEM_SHM_COUNT).map fun j => (type, j)

/-- The segments are in order and exactly the stored strings are handed out. -/
structure RunInv (r : BufRun) (live : SegId → List Chain) : Prop where
  buf : BufInv r.buf live
  handed : r.handed.Perm (handedIn allSegments live)

variable {r : BufRun} {live : SegId → List Chain} {g : SegId}

theorem mem_allSegments : g ∈ allSegments ↔ g.2 < VMEM_SHM_COUNT := by
  obtain ⟨type, j⟩ := g
  cases type <;> simp [allSegments]

theorem nodup_allSegments : allSegments.Nodup := by decide

theorem RunInv.stored (h : RunInv r live) {x : Int × List UInt8} (hx : x ∈ r.handed) :
    ∃ g c, g.2 < VMEM_SHM_COUNT ∧ c ∈ live g ∧ x = handedOf g c := by
  obtain ⟨g, hg, c, hc, hxc⟩ := mem_handedIn.mp (h.handed.mem_iff.mp hx)
  exact ⟨g, c, mem_allSegments.mp hg, hc, hxc⟩

theorem RunInv.save (env : Nat → VmemEnv) (pdata : List UInt8) (h : RunInv r live) :
    ∃ o r' live', bufStep r (.save env pdata) = some (o, r') ∧ RunInv r' live' := by
  rcases saveToVmem_outcome env pdata h.buf with ⟨hneg, hb⟩ | ⟨g, c, hg, rfl, hret, hb⟩
  · refine ⟨_, _, live, rfl, hb, ?_⟩
    rw [if_neg (by omega)]
    exact h.handed
  · refine ⟨_, _, _, rfl, hb, ?_⟩
    have hpos := chainIndex_pos g c
    rw [if_pos (by omega), hret]
    exact handedIn_cons nodup_allSegments (mem_allSegments.mpr hg) c h.handed

theorem RunInv.free (env : VmemEnv) {index : Int} {pdata : List UInt8} (h : RunInv r live)
    (hlive : (index, pdata) ∈ r.handed) :
    ∃ o r' live', bufStep r (.free env index) = some (o, r') ∧ RunInv r' live' := by
  obtain ⟨g, hg, c, l₁, l₂, hl, rfl, herase⟩ := handedIn_eraseP nodup_allSegments h.handed hlive
  obtain ⟨b, hb, hinv⟩ := freeVmem_stored env h.buf (mem_allSegments.mp hg) l₁ l₂ hl
  refine ⟨0, ⟨b, r.handed.eraseP fun y => y.1 == chainIndex g c⟩, _, ?_, hinv, herase⟩
  simp [bufStep, hb]

theorem RunInv.step (r : BufRun) (call : BufCall) (h : ∃ live, RunInv r live)
    (hok : CallOk r call) :
    ∃ o r', bufStep r call = some (o, r') ∧ True ∧ ∃ live', RunInv r' live' := by
  obtain ⟨live, h⟩ := h
  have hcall : ∃ o r' live', bufStep r call = some (o, r') ∧ RunInv r' live' := by
    cases call with
    | save env pdata => exact h.save env pdata
    | free env index =>
      obtain ⟨pdata, hlive⟩ := hok
      exact h.free env hlive
  obtain ⟨o, r', live', hstep, h'⟩ := hcall
  exact ⟨o, r', hstep, trivial, live', h'⟩

theorem runInv_start : RunInv bufStart fun _ => [] where
  buf := initVmem_bufInv
  handed := by simp [bufStart, handedIn]

theorem Reached.inv (hr : Reached r) : ∃ live, RunInv r live := by
  obtain ⟨calls, os, hcalls, hrun⟩ := hr
  obtain ⟨os', r', hrun', -, hinv⟩ :=
    run_invariant (O := fun _ _ => True) RunInv.step calls bufStart ⟨_, runInv_start⟩ hcalls
  rw [hrun] at hrun'
  obtain ⟨-, rfl⟩ := Prod.mk.inj (Option.some.inj hrun')
  exact hinv

theorem Reached.step {r' : BufRun} (hr : Reached r) {call : BufCall} {o : Int} (hok : CallOk r call)
    (hstep : bufStep r call = some (o, r')) : Reached r' := by
  obtain ⟨calls, os, hcalls, hrun⟩ := hr
  refine ⟨calls ++ [call], os ++ [o], hcalls.append hrun ⟨hok, fun _ _ _ => trivial⟩, ?_⟩
  rw [runSteps_append hrun]
  simp [runSteps, hstep]

end XrkMonitor.ServerVmem
