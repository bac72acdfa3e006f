import XrkMonitor.Config.Apps
import XrkMonitor.Library.Run

/-!
# The table of views

`ReadTableViewInfo` brings the rows of `mt_view` into shared memory. The table counts
its views in `dwViewConfigCount`, and the list in `MtSystemConfig` counts them again in
`wViewCount`. A view that is deleted lowers only the first count, while the insert
takes the second one as the test for an empty list; `view_list_ok` is the result about
the runs without such a row.
-/

namespace XrkMonitor.Config

open Library

def MAX_VIEW_INFO_COUNT : Nat := 200

/-- The fields of `TViewInfo` besides its id and links; the machines that are bound fill the
first `bBindMachineCount` places of their array. -/
structure TViewInfo where
  iViewNameVmemIdx : Int
  bViewFlag : Nat
  dwLastModTime : Nat
  bBindMachineCount : Nat
  aryBindMachines : Nat → Int
  bBindAttrCount : Nat

/-- The views of `SLogConfig` with their list in `MtSystemConfig`. -/
structure ViewTable where
  list : SlotList
  dwViewConfigCount : Nat
  stViewInfo : Nat → TViewInfo

/-- A row of `mt_view`. -/
structure ViewRow where
  xrk_id : Int
  xrk_status : Int
  mod_time : Nat
  xrk_name : Option String
  view_flag : Nat
  xrk_id_ne : xrk_id ≠ 0

/-- What `ReadTableViewInfo` takes from the string memory. -/
structure ViewEnv where
  saveToVmem : String → Int
  getFromVmem : Int → Option String

/-- Zeroed memory. -/
def emptyViews : ViewTable where
  list := SlotList.empty
  dwViewConfigCount := 0
  stViewInfo := fun _ =>
    { iViewNameVmemIdx := 0
      bViewFlag := 0
      dwLastModTime := 0
      bBindMachineCount := 0
      aryBindMachines := fun _ => 0
      bBindAttrCount := 0 }

def getViewInfoIndex (t : ViewTable) (iViewId : Int) (bFirstFree : Bool) :
    Option Nat × Option Nat :=
  getSlot MAX_VIEW_INFO_COUNT t.list.id t.dwViewConfigCount bFirstFree iViewId

/-- The slot of a new view; the places of the arrays keep what they held. -/
def newView (env : ViewEnv) (row : ViewRow) (stored : TViewInfo) : TViewInfo :=
  { stored with
    iViewNameVmemIdx := saveName env.saveToVmem row.xrk_name
    bViewFlag := row.view_flag
    bBindMachineCount := 0
    bBindAttrCount := 0
    dwLastModTime := row.mod_time }

/-- The slot of a view whose row has changed. -/
def updateView (env : ViewEnv) (row : ViewRow) (stored : TViewInfo) : TViewInfo :=
  { stored with
    iViewNameVmemIdx :=
      updateName env.saveToVmem env.getFromVmem stored.iViewNameVmemIdx row.xrk_name
    bViewFlag := row.view_flag
    dwLastModTime := row.mod_time }

/-- A new view goes into a free slot. -/
def addView (env : ViewEnv) (row : ViewRow) (t : ViewTable) (iFreeIdx : Nat) : Option ViewTable := do
  let list ← (t.list.setId iFreeIdx row.xrk_id).addFirst MAX_VIEW_INFO_COUNT
    (t.list.wCount == 0) iFreeIdx
  some
    { list := list
      dwViewConfigCount := wordInc 32 t.dwViewConfigCount
      stViewInfo := Function.update t.stViewInfo iFreeIdx (newView env row (t.stViewInfo iFreeIdx)) }

/-- A view leaves its slot and the list, and `SubViewInfoCount` counts it out. -/
def removeView (t : ViewTable) (iMatch : Nat) : Option ViewTable := do
  let links ← ilinkUnlink MAX_VIEW_INFO_COUNT t.list.links iMatch
  let info := t.stViewInfo iMatch
  some
    { list :=
        { t.list with
          id := Function.update t.list.id iMatch 0
          links := links }
      dwViewConfigCount := wordDec 32 t.dwViewConfigCount
      stViewInfo := Function.update t.stViewInfo iMatch
        { info with
          iViewNameVmemIdx := if 0 < info.iViewNameVmemIdx then -1 else info.iViewNameVmemIdx } }

/-- One row of `ReadTableViewInfo`. -/
def readViewRow (env : ViewEnv) (t : ViewTable) (row : ViewRow) : Option ViewTable :=
  let found := getViewInfoIndex t row.xrk_id true
  if row.xrk_status = RECORD_STATUS_USE then
    match found.1 with
    | none =>
      match found.2 with
      | none => some t
      | some iFreeIdx => addView env row t iFreeIdx
    | some iMatch =>
      if row.mod_time ≠ (t.stViewInfo iMatch).dwLastModTime then
        some
          { t with
            stViewInfo :=
              Function.update t.stViewInfo iMatch (updateView env row (t.stViewInfo iMatch)) }
      else some t
  else
    match found.1 with
    | none => some t
    | some iMatch => removeView t iMatch

def viewStep (t : ViewTable) (a : ViewEnv × ViewRow) : Option (Unit × ViewTable) :=
  (readViewRow a.1 t a.2).map fun t' => ((), t')

/-- A row that is not in use names no view of the table. -/
def NoDelete (t : ViewTable) (a : ViewEnv × ViewRow) : Prop :=
  a.2.xrk_status ≠ RECORD_STATUS_USE →
    slotWith MAX_VIEW_INFO_COUNT t.list.id a.2.xrk_id = none

/-- The list is about the slots in use, and both counts are their number. -/
structure ViewTable.Ok (t : ViewTable) (l : List Nat) : Prop where
  list : t.list.Ok MAX_VIEW_INFO_COUNT l
  count : t.dwViewConfigCount = l.length

section Rows

variable {t : ViewTable} {l : List Nat} {c : Nat}

theorem emptyViews_ok : emptyViews.Ok [] := ⟨SlotList.empty_ok _, rfl⟩

theorem ViewTable.Ok.add (h : t.Ok l) (env : ViewEnv) (row : ViewRow)
    (hlt : c < MAX_VIEW_INFO_COUNT) (hfree : t.list.id c = 0) :
    ∃ t', addView env row t c = some t' ∧ t'.Ok (c :: l) := by
  have hfirst : (t.list.wCount == 0) = true ↔ l = [] := by
    rw [beq_iff_eq, h.list.len, List.length_eq_zero_iff]
  obtain ⟨list, hadd, -, hok⟩ := h.list.add (by decide) hlt hfree hfirst row.xrk_id_ne
  refine ⟨_, by rw [addView, hadd]; rfl, hok, ?_⟩
  have hle : l.length ≤ 200 := h.list.length_le
  change wordInc 32 t.dwViewConfigCount = _
  rw [h.count, wordInc_of_lt (by omega)]
  rfl

theorem ViewTable.Ok.viewStep (t : ViewTable) (a : ViewEnv × ViewRow) (h : ∃ l, t.Ok l)
    (hok : NoDelete t a) : ∃ o t', viewStep t a = some (o, t') ∧ True ∧ ∃ l, t'.Ok l := by
  obtain ⟨l, h⟩ := h
  obtain ⟨env, row⟩ := a
  have hcount : (t.dwViewConfigCount : Int) = l.length := by rw [h.count]
  have hfst : (getViewInfoIndex t row.xrk_id true).1 = _ :=
    h.list.getSlot_fst hcount row.xrk_id_ne
  suffices hrow : ∃ t' l', readViewRow env t row = some t' ∧ t'.Ok l' by
    obtain ⟨t', l', hread, ht'⟩ := hrow
    exact ⟨(), t', by rw [Config.viewStep, hread]; rfl, trivial, l', ht'⟩
  unfold readViewRow
  simp only [hfst]
  by_cases hstatus : row.xrk_status = RECORD_STATUS_USE
  · simp only [hstatus, if_true]
    cases hfind : slotWith MAX_VIEW_INFO_COUNT t.list.id row.xrk_id with
    | some c =>
      by_cases htime : row.mod_time ≠ (t.stViewInfo c).dwLastModTime
      · exact ⟨_, l, if_pos htime, h.list, h.count⟩
      · exact ⟨t, l, if_neg htime, h⟩
    | none =>
      have hsnd : (getViewInfoIndex t row.xrk_id true).2 = _ := SlotList.getSlot_snd hfind
      rw [hsnd]
      cases hfree : slotWith MAX_VIEW_INFO_COUNT t.list.id 0 with
      | none => exact ⟨t, l, rfl, h⟩
      | some f =>
        obtain ⟨hlt, hzero⟩ := slotWith_some hfree
        obtain ⟨t', hadd, ht'⟩ := h.add env row hlt hzero
        exact ⟨t', f :: l, hadd, ht'⟩
  · simp only [hstatus, if_false]
    have hmiss : slotWith MAX_VIEW_INFO_COUNT t.list.id row.xrk_id = none := hok hstatus
    rw [hmiss]
    exact ⟨t, l, rfl, h⟩

end Rows

/-- In every run of rows from zeroed memory that deletes no view of the table, no row leaves the
array, `wViewCount` is the number of views, and once there is a view the list walks over
exactly the views in both directions and ends at `-1`. -/
theorem view_list_ok (rows : List (ViewEnv × ViewRow))
    (hrows : Admissible viewStep NoDelete emptyViews rows) :
    ∃ os t, runSteps viewStep emptyViews rows = some (os, t) ∧
      (∃ l, t.list.Ok MAX_VIEW_INFO_COUNT l) ∧
      (t.list.wCount ≠ 0 → t.list.AlwaysLinked MAX_VIEW_INFO_COUNT) := by
  obtain ⟨os, t, hrun, -, l, hl⟩ :=
    run_invariant ViewTable.Ok.viewStep rows emptyViews ⟨[], emptyViews_ok⟩ hrows
  exact ⟨os, t, hrun, ⟨l, hl.list⟩, hl.list.alwaysLinked⟩

/-- A row of a view without a name. -/
def viewRow (id : Int) (hid : id ≠ 0) (xrk_status : Int) : ViewEnv × ViewRow :=
  ({ saveToVmem := fun _ => -1
     getFromVmem := fun _ => none },
   { xrk_id := id
     xrk_status := xrk_status
     mod_time := 7
     xrk_name := none
     view_flag := 0
     xrk_id_ne := hid })

instance (t : ViewTable) (a : ViewEnv × ViewRow) : Decidable (NoDelete t a) :=
  inferInstanceAs (Decidable (_ → _))

theorem view_list_ok_twoViews :
    ∃ os t, runSteps viewStep emptyViews [viewRow 1 (by decide) 0, viewRow 2 (by decide) 0] =
        some (os, t) ∧
      (∃ l, t.list.Ok MAX_VIEW_INFO_COUNT l) ∧
      (t.list.wCount ≠ 0 → t.list.AlwaysLinked MAX_VIEW_INFO_COUNT) :=
  view_list_ok [viewRow 1 (by decide) 0, viewRow 2 (by decide) 0] (by decide +kernel)

/-- After the only view is deleted its count is still 1, and adding another view uses the slot
of index `-1`. -/
theorem view_list_leaves_array :
    ((runSteps viewStep emptyViews [viewRow 1 (by decide) 0, viewRow 1 (by decide) 1]).map
        fun r => (r.2.list.wCount, r.2.list.id 0, r.2.list.links.iIndexStart)) = some (1, 0, -1) ∧
      runSteps viewStep emptyViews
        [viewRow 1 (by decide) 0, viewRow 1 (by decide) 1, viewRow 2 (by decide) 0] = none := by
  refine ⟨by decide +kernel, ?_⟩
  rw [← Option.isNone_iff_eq_none]
  decide +kernel

end XrkMonitor.Config
