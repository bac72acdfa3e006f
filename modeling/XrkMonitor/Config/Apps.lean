import XrkMonitor.Config.SlotList

/-!
# The table of applications

`ReadTableAppInfo` brings the rows of `mt_app_info` into shared memory. A row in
use is added to the first free slot or updates its slot, any other row frees its
slot. A call for one row handles that row; a call for the whole table also sweeps
the slots and removes the applications that had no row in use.

## Implementation notes

A row carries the fact that its id, an auto-increment key, is not `0`. What the
function takes from other parts of the program is in `AppEnv`: the log server of
an application, the string memory, the random sequence number, and whether the
physical delete of a deleted row is due and fails. `none` stands
for the use of a slot index outside the array.
-/

namespace XrkMonitor.Config

open Library

def RECORD_STATUS_USE : Int := 0

def MAX_SLOG_APP_COUNT : Nat := 200

/-- The fields of `SLogServer` that the application table copies. -/
structure SLogServer where
  dwServiceId : Nat
  dwIp : Nat
  wPort : Nat
  dwCfgSeq : Nat

/-- The fields of `AppInfo` that `ReadTableAppInfo` sets, besides its id and links. -/
structure AppInfo where
  dwLastModTime : Nat
  iLogSrvIndex : Int
  dwAppSrvMaster : Nat
  wLogSrvPort : Nat
  dwAppSrvSeq : Nat
  iNameVmemIdx : Int
  dwSeq : Nat

/-- `SLogAppInfo` with the application list of `MtSystemConfig`. -/
structure AppTable where
  list : SlotList
  iAppCount : Int
  stInfo : Nat → AppInfo

/-- A row of `mt_app_info`. -/
structure AppRow where
  app_id : Int
  xrk_status : Int
  update_time : Nat
  app_name : Option String
  app_id_ne : app_id ≠ 0

/-- What `ReadTableAppInfo` takes from other parts of the program. -/
structure AppEnv where
  getAppMasterSrv : Int → Option SLogServer
  getServerIndex : Nat → Int
  getServerInfo : Int → Option SLogServer
  saveToVmem : String → Int
  getFromVmem : Int → Option String
  rand : Nat
  deleteFails : Bool

/-- No log server, no string memory. -/
def noServer : AppEnv where
  getAppMasterSrv := fun _ => none
  getServerIndex := fun _ => -1
  getServerInfo := fun _ => none
  saveToVmem := fun _ => -1
  getFromVmem := fun _ => none
  rand := 0
  deleteFails := false

def zeroAppInfo : AppInfo where
  dwLastModTime := 0
  iLogSrvIndex := 0
  dwAppSrvMaster := 0
  wLogSrvPort := 0
  dwAppSrvSeq := 0
  iNameVmemIdx := 0
  dwSeq := 0

/-- Zeroed memory. -/
def emptyApps : AppTable where
  list := SlotList.empty
  iAppCount := 0
  stInfo := fun _ => zeroAppInfo

def getAppInfo (t : AppTable) (iAppId : Int) (bFirstFree : Bool) : Option Nat × Option Nat :=
  getSlot MAX_SLOG_APP_COUNT t.list.id t.iAppCount bFirstFree iAppId

/-- The log server of an application goes into its slot. -/
def setAppServer (env : AppEnv) (iAppId : Int) (info : AppInfo) : AppInfo :=
  match env.getAppMasterSrv iAppId with
  | none =>
    { info with
      iLogSrvIndex := -1 }
  | some pSrvInfo =>
    { info with
      iLogSrvIndex := env.getServerIndex pSrvInfo.dwServiceId
      dwAppSrvMaster := pSrvInfo.dwIp
      wLogSrvPort := pSrvInfo.wPort
      dwAppSrvSeq := pSrvInfo.dwCfgSeq }

/-- A name that is not empty is saved, any other one has index `-1`. -/
def saveName (saveToVmem : String → Int) : Option String → Int
  | none => -1
  | some ptmp => if ptmp = "" then -1 else saveToVmem ptmp

/-- The slot of a new application. -/
def newAppInfo (env : AppEnv) (row : AppRow) : AppInfo :=
  { setAppServer env row.app_id
      { zeroAppInfo with
        dwLastModTime := row.update_time } with
    iNameVmemIdx := saveName env.saveToVmem row.app_name
    dwSeq := env.rand }

/-- The server of an application is looked up again when its entry is gone or has changed. -/
def serverChanged (env : AppEnv) (info : AppInfo) : Bool :=
  match env.getServerInfo info.iLogSrvIndex with
  | none => true
  | some pSrvInfo => pSrvInfo.dwServiceId == 0 || pSrvInfo.dwCfgSeq != info.dwAppSrvSeq

/-- A name that differs from the stored one is saved in its place. -/
def updateName (saveToVmem : String → Int) (getFromVmem : Int → Option String) (iNameVmemIdx : Int) :
    Option String → Int
  | none => iNameVmemIdx
  | some ptmp =>
    let pvname := if 0 < iNameVmemIdx then getFromVmem iNameVmemIdx else none
    if pvname = some ptmp then iNameVmemIdx else saveToVmem ptmp

/-- The slot of an application whose row has changed. -/
def updateAppInfo (env : AppEnv) (row : AppRow) (info : AppInfo) : AppInfo :=
  let timed := { info with dwLastModTime := row.update_time }
  let served :=
    if serverChanged env timed then
      let found := setAppServer env row.app_id timed
      { found with dwSeq := wordInc 32 found.dwSeq }
    else timed
  { served with
    iNameVmemIdx := updateName env.saveToVmem env.getFromVmem served.iNameVmemIdx row.app_name }

/-- A new application goes into a free slot. -/
def addApp (env : AppEnv) (row : AppRow) (t : AppTable) (iFirstFree : Nat) : Option AppTable := do
  let list ← (t.list.setId iFirstFree row.app_id).addFirst MAX_SLOG_APP_COUNT
    (t.list.wCount == 0) iFirstFree
  some
    { list := list
      iAppCount := t.iAppCount + 1
      stInfo := Function.update t.stInfo iFirstFree (newAppInfo env row) }

/-- A slot is freed, as the row loop and `RemoveAppInfo` do it. -/
def removeAppInfo (t : AppTable) (idx : Nat) : Option AppTable := do
  let list ← t.list.removeSlot MAX_SLOG_APP_COUNT idx
  some
    { t with
      list := list
      iAppCount := t.iAppCount - 1 }

/-- One row of `ReadTableAppInfo`. -/
def readAppRow (env : AppEnv) (t : AppTable) (row : AppRow) : Option AppTable :=
  let found := getAppInfo t row.app_id true
  if row.xrk_status = RECORD_STATUS_USE then
    match found.1 with
    | none =>
      match found.2 with
      | none => some t
      | some iFirstFree => addApp env row t iFirstFree
    | some iMatch =>
      if row.update_time ≠ (t.stInfo iMatch).dwLastModTime then
        some
          { t with
            stInfo := Function.update t.stInfo iMatch (updateAppInfo env row (t.stInfo iMatch)) }
      else some t
  else
    match found.1 with
    | none => some t
    | some iMatch => removeAppInfo t iMatch

/-- What the rows keep: the list is about the slots in use, both counts are their number, and
no two of them have the same id. -/
structure AppTable.Ok (t : AppTable) (l : List Nat) : Prop where
  list : t.list.Ok MAX_SLOG_APP_COUNT l
  count : t.iAppCount = l.length
  distinct : ∀ c ∈ l, ∀ d ∈ l, t.list.id c = t.list.id d → c = d

section Rows

variable {t : AppTable} {l : List Nat} {c : Nat}

theorem emptyApps_ok : emptyApps.Ok [] := ⟨SlotList.empty_ok _, rfl, by simp⟩

theorem AppTable.Ok.wCount_eq_zero (h : t.Ok l) : (t.list.wCount == 0) = true ↔ l = [] := by
  rw [beq_iff_eq, h.list.len, List.length_eq_zero_iff]

theorem AppTable.Ok.add (h : t.Ok l) (env : AppEnv) (row : AppRow)
    (hlt : c < MAX_SLOG_APP_COUNT) (hfree : t.list.id c = 0) (habsent : ∀ d ∈ l, t.list.id d ≠ row.app_id) :
    ∃ t', addApp env row t c = some t' ∧
      t'.list.id = Function.update t.list.id c row.app_id ∧ t'.Ok (c :: l) := by
  obtain ⟨list, hadd, hid, hok⟩ := h.list.add (by decide) hlt hfree h.wCount_eq_zero row.app_id_ne
  refine ⟨_, by rw [addApp, hadd]; rfl, hid, hok, ?_, ?_⟩
  · change t.iAppCount + 1 = _
    rw [h.count]
    simp
  · have hkeep : ∀ d ∈ l, Function.update t.list.id c row.app_id d = t.list.id d := by
      intro d hd
      have hne : d ≠ c := fun heq => ((h.list.mem d).mp hd).2 (heq ▸ hfree)
      exact Function.update_of_ne hne _ _
    simp only [hid]
    intro d hd e he heq
    obtain hdc | hdl := List.mem_cons.mp hd
    · obtain hec | hel := List.mem_cons.mp he
      · rw [hdc, hec]
      · rw [hdc, Function.update_self, hkeep e hel] at heq
        exact absurd heq.symm (habsent e hel)
    · obtain hec | hel := List.mem_cons.mp he
      · rw [hec, Function.update_self, hkeep d hdl] at heq
        exact absurd heq (habsent d hdl)
      · rw [hkeep d hdl, hkeep e hel] at heq
        exact h.distinct d hdl e hel heq

theorem AppTable.Ok.remove (h : t.Ok l) (hc : c ∈ l) :
    ∃ t', removeAppInfo t c = some t' ∧ t'.list.id = Function.update t.list.id c 0 ∧
      t'.Ok (l.erase c) := by
  obtain ⟨list, hremove, hid, hok⟩ := h.list.remove (by decide) hc
  refine ⟨_, by rw [removeAppInfo, hremove]; rfl, hid, hok, ?_, ?_⟩
  · have hpos : 0 < l.length := List.length_pos_of_mem hc
    change t.iAppCount - 1 = _
    rw [h.count, List.length_erase_of_mem hc]
    omega
  · have hkeep : ∀ d ∈ l.erase c, d ∈ l ∧ Function.update t.list.id c 0 d = t.list.id d := by
      intro d hd
      obtain ⟨hne, hd⟩ := h.list.nodup.mem_erase_iff.mp hd
      exact ⟨hd, Function.update_of_ne hne _ _⟩
    simp only [hid]
    intro d hd e he heq
    rw [(hkeep d hd).2, (hkeep e he).2] at heq
    exact h.distinct d (hkeep d hd).1 e (hkeep e he).1 heq

/-- What one row can do to the slots. -/
inductive AppEffect (row : AppRow) (t t' : AppTable) : Prop
  | add (f : Nat) (hstatus : row.xrk_status = RECORD_STATUS_USE)
      (hmiss : slotWith MAX_SLOG_APP_COUNT t.list.id row.app_id = none)
      (hfree : slotWith MAX_SLOG_APP_COUNT t.list.id 0 = some f)
      (hid : t'.list.id = Function.update t.list.id f row.app_id)
  | keep (c : Nat) (hstatus : row.xrk_status = RECORD_STATUS_USE)
      (hfind : slotWith MAX_SLOG_APP_COUNT t.list.id row.app_id = some c)
      (hid : t'.list.id = t.list.id)
  | full (hstatus : row.xrk_status = RECORD_STATUS_USE)
      (hmiss : slotWith MAX_SLOG_APP_COUNT t.list.id row.app_id = none)
      (hfree : slotWith MAX_SLOG_APP_COUNT t.list.id 0 = none) (hid : t'.list.id = t.list.id)
  | remove (c : Nat) (hstatus : row.xrk_status ≠ RECORD_STATUS_USE)
      (hfind : slotWith MAX_SLOG_APP_COUNT t.list.id row.app_id = some c)
      (hid : t'.list.id = Function.update t.list.id c 0)
  | skip (hstatus : row.xrk_status ≠ RECORD_STATUS_USE)
      (hmiss : slotWith MAX_SLOG_APP_COUNT t.list.id row.app_id = none)
      (hid : t'.list.id = t.list.id)

theorem AppTable.Ok.readAppRow (h : t.Ok l) (env : AppEnv) (row : AppRow) :
    ∃ t' l', readAppRow env t row = some t' ∧ t'.Ok l' ∧ AppEffect row t t' := by
  have hfst : (getAppInfo t row.app_id true).1 = _ := h.list.getSlot_fst h.count row.app_id_ne
  unfold Config.readAppRow
  simp only [hfst]
  by_cases hstatus : row.xrk_status = RECORD_STATUS_USE
  · simp only [hstatus, if_true]
    cases hfind : slotWith MAX_SLOG_APP_COUNT t.list.id row.app_id with
    | some c =>
      by_cases htime : row.update_time ≠ (t.stInfo c).dwLastModTime
      · exact ⟨_, l, if_pos htime, ⟨h.list, h.count, h.distinct⟩, .keep c hstatus hfind rfl⟩
      · exact ⟨t, l, if_neg htime, h, .keep c hstatus hfind rfl⟩
    | none =>
      have hsnd : (getAppInfo t row.app_id true).2 = _ :=
        SlotList.getSlot_snd hfind
      rw [hsnd]
      cases hfree : slotWith MAX_SLOG_APP_COUNT t.list.id 0 with
      | none => exact ⟨t, l, rfl, h, .full hstatus hfind hfree rfl⟩
      | some f =>
        obtain ⟨hlt, hzero⟩ := slotWith_some hfree
        obtain ⟨t', hadd, hid, hok⟩ := h.add env row hlt hzero
          fun d hd => slotWith_none hfind d (h.list.lt d hd)
        exact ⟨t', f :: l, hadd, hok, .add f hstatus hfind hfree hid⟩
  · simp only [hstatus, if_false]
    cases hfind : slotWith MAX_SLOG_APP_COUNT t.list.id row.app_id with
    | none => exact ⟨t, l, rfl, h, .skip hstatus hfind rfl⟩
    | some c =>
      obtain ⟨t', hremove, hid, hok⟩ := h.remove (h.list.mem_of_slotWith row.app_id_ne hfind)
      exact ⟨t', l.erase c, hremove, hok, .remove c hstatus hfind hid⟩

end Rows

end XrkMonitor.Config
