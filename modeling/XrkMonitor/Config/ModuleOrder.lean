import XrkMonitor.Config.AppSeq
import XrkMonitor.Config.Reload
import XrkMonitor.Library.Run

/-!
# Modules that come before their application

A row of `mt_module_info` whose application is not in shared memory yet is put on a delay
list, and `CheckAllData` reads the modules of the list again. The second read returns `0`
whether it has found the application or not, so the check drops every module of the list;
and each read of another module row begins with an empty list. A module comes into shared
memory when neither happens between its own row, the row of its application and the next
check.

## Implementation notes

A row of `mt_module_info` is stored before it is read, and a deleted application marks the
rows of its modules as deleted. Rows that are deleted physically keep their mark here, and
queries do not fail. The messages about missing space are kept. A check is one that the timer
of `CheckAllData` lets through. A run also keeps when the row of a module was last read, and the
modules whose application came after the delay of their row.
-/

namespace XrkMonitor.Config

open Library

def DELAY_RECORD_CHECK_TIMEOUT : Nat := 60

/-- A row of `mt_module_info` with its application. -/
structure DbModule extends ModuleRow where
  app_id : Int
  app_id_ne : app_id ≠ 0

/-- The applications with their modules, the delay list, and the rows of `mt_module_info`. -/
structure ModuleServer where
  apps : AppTable
  arrModuleList : Nat → Nat → TModuleInfo
  wModuleCount : Nat → Nat
  stModuleDelay : List Int
  dwModuleDelaySetTime : Nat
  mt_module_info : List DbModule
  needMoreSpace : List Int

section Functions

def ModuleServer.slot (s : ModuleServer) (c : Nat) : AppSlot :=
  ⟨s.apps.stInfo c, s.arrModuleList c, s.wModuleCount c⟩

def ModuleServer.setSlot (s : ModuleServer) (c : Nat) (a : AppSlot) : ModuleServer :=
  { s with
    apps := { s.apps with stInfo := Function.update s.apps.stInfo c a.info }
    arrModuleList := Function.update s.arrModuleList c a.arrModuleList
    wModuleCount := Function.update s.wModuleCount c a.wModuleCount }

/-- There is no place for a row of a module that is new. -/
def lacksSpace (a : AppSlot) (m : DbModule) : Bool :=
  m.xrk_status == RECORD_STATUS_USE && (getAppModuleInfo a m.module_id).1.isNone &&
    (getAppModuleInfo a m.module_id).2.isNone

/-- A round of the loop of `ReadTableModuleInfo`; `bCust` tells whether it reads for the check. -/
def readModule (env : AppEnv) (bCust : Bool) (s : ModuleServer) (m : DbModule) : ModuleServer :=
  match (getAppInfo s.apps m.app_id false).1 with
  | none =>
    if m.xrk_status = RECORD_STATUS_USE ∧ bCust = false then
      { s with stModuleDelay := s.stModuleDelay ++ [m.module_id] }
    else s
  | some iMatch =>
    let needMoreSpace :=
      if lacksSpace (s.slot iMatch) m then s.needMoreSpace ++ [m.module_id] else s.needMoreSpace
    { s with needMoreSpace := needMoreSpace }.setSlot iMatch
      (readModuleRow env (s.slot iMatch) m.toModuleRow)

/-- `select * from mt_module_info`. -/
def selectModules (s : ModuleServer) (pCustModuleId : Option Int) (uid : Int) : List DbModule :=
  match pCustModuleId with
  | some id => s.mt_module_info.filter fun m => m.module_id == id
  | none =>
    if uid ≠ 0 then s.mt_module_info.filter fun m => m.module_id == uid else s.mt_module_info

/-- `ReadTableModuleInfo`. -/
def readTableModuleInfo (env : AppEnv) (now : Nat) (s : ModuleServer) (pCustModuleId : Option Int)
    (uid : Int) : Int × ModuleServer :=
  let s :=
    if pCustModuleId.isNone then
      { s with
        stModuleDelay := []
        dwModuleDelaySetTime := now % 2 ^ 32 }
    else s
  let rows := selectModules s pCustModuleId uid
  let missing := rows.getLast?.any fun m =>
    m.xrk_status == RECORD_STATUS_USE && (getAppInfo s.apps m.app_id false).1.isNone
  (if missing && pCustModuleId.isNone then 1 else 0,
    rows.foldl (readModule env pCustModuleId.isSome) s)

/-- The loop of `CheckAllData` over the delay list: the list, `iRemainCount`, and shared memory. -/
def retryLoop (env : AppEnv) (now : Nat) : List Int → ModuleServer → List Int × Nat × ModuleServer
  | [], s => ([], 0, s)
  | iModuleId :: ids, s =>
    if iModuleId ≠ 0 then
      let (iRet, s) := readTableModuleInfo env now s (some iModuleId) 0
      let (ids, iRemainCount, s) := retryLoop env now ids s
      if iRet = 0 then (0 :: ids, iRemainCount, s) else (iModuleId :: ids, iRemainCount + 1, s)
    else
      let (ids, iRemainCount, s) := retryLoop env now ids s
      (iModuleId :: ids, iRemainCount, s)

/-- When the delay list is given up. -/
def delayEnd (iCheckDataPerTime : Nat) (s : ModuleServer) : Nat :=
  (s.dwModuleDelaySetTime + iCheckDataPerTime + DELAY_RECORD_CHECK_TIMEOUT) % 2 ^ 32

/-- The check of the delay list in `CheckAllData`. -/
def checkModuleDelay (env : AppEnv) (iCheckDataPerTime now : Nat) (s : ModuleServer) : ModuleServer :=
  if s.stModuleDelay.length = 0 then s
  else if delayEnd iCheckDataPerTime s ≤ now then { s with stModuleDelay := [] }
  else
    let (ids, iRemainCount, s) := retryLoop env now s.stModuleDelay s
    { s with stModuleDelay := if iRemainCount = 0 then [] else ids }

/-- The slot that a row of `mt_app_info` adds its application to. -/
def addedAppSlot (t : AppTable) (row : AppRow) : Option Nat :=
  if row.xrk_status = RECORD_STATUS_USE ∧ (getAppInfo t row.app_id true).1 = none then
    (getAppInfo t row.app_id true).2
  else none

/-- The rows of the modules of a deleted application. -/
def deleteModules (app_id : Int) (m : DbModule) : DbModule :=
  if m.app_id = app_id ∧ m.xrk_status = RECORD_STATUS_USE then
    { m with xrk_status := RECORD_STATUS_DELETE }
  else m

/-- What `ReadTableAppInfo` for one row does besides the table of applications: the list of a new
application is zeroed, and the modules of a deleted one are marked. -/
def withApps (s : ModuleServer) (row : AppRow) (apps : AppTable) : ModuleServer :=
  let zeroed (c : Nat) : Bool := addedAppSlot s.apps row == some c
  { s with
    apps := apps
    arrModuleList := fun c => if zeroed c then fun _ => ⟨0, 0⟩ else s.arrModuleList c
    wModuleCount := fun c => if zeroed c then 0 else s.wModuleCount c
    mt_module_info :=
      if row.xrk_status = RECORD_STATUS_DELETE then
        s.mt_module_info.map (deleteModules row.app_id)
      else s.mt_module_info }

/-- `ReadTableAppInfo` for one row. -/
def readAppInfo (env : AppEnv) (s : ModuleServer) (row : AppRow) : Option ModuleServer :=
  (readAppRow env s.apps row).map (withApps s row)

end Functions

section Runs

/-- A row is in use. -/
def DbModule.InUse (m : DbModule) : Prop := m.xrk_status = RECORD_STATUS_USE

instance (m : DbModule) : Decidable m.InUse := inferInstanceAs (Decidable (_ = _))

/-- The slot of an application. -/
def ModuleServer.appSlot (s : ModuleServer) (app_id : Int) : Option Nat :=
  slotWith MAX_SLOG_APP_COUNT s.apps.list.id app_id

/-- A module is in the `arrModuleList` of a slot. -/
def ModuleServer.Listed (s : ModuleServer) (c : Nat) (module_id : Int) : Prop :=
  ∃ j < SLOG_MODULE_COUNT_MAX_PER_APP, (s.arrModuleList c j).iModuleId = module_id

/-- The application of a delayed module has come. -/
def ModuleServer.Arrived (s : ModuleServer) (module_id : Int) : Prop :=
  ∃ m ∈ s.mt_module_info, m.module_id = module_id ∧ m.InUse ∧ (s.appSlot m.app_id).isSome = true

instance (s : ModuleServer) (module_id : Int) : Decidable (s.Arrived module_id) :=
  inferInstanceAs (Decidable (∃ m ∈ s.mt_module_info, _ ∧ _ ∧ _))

/-- A server, the times at which module rows were read, the modules whose application was late, and
whether a check has just run. -/
structure OrderRun where
  server : ModuleServer
  readAt : Int → Nat
  late : List Int
  checked : Bool

inductive OrderEvent
  | moduleRow (env : AppEnv) (row : DbModule) (now : Nat)
  | appRow (env : AppEnv) (row : AppRow) (now : Nat)
  | check (env : AppEnv) (now : Nat)

/-- The delay timeout of a module has not passed. -/
def OrderRun.InTime (iCheckDataPerTime : Nat) (r : OrderRun) (module_id : Int) (now : Nat) : Prop :=
  now < r.readAt module_id + iCheckDataPerTime + DELAY_RECORD_CHECK_TIMEOUT

instance (iCheckDataPerTime : Nat) (r : OrderRun) (module_id : Int) (now : Nat) :
    Decidable (r.InTime iCheckDataPerTime module_id now) := inferInstanceAs (Decidable (_ < _))

/-- The modules of an application whose delay timeout has passed when it comes. -/
def lateModules (iCheckDataPerTime : Nat) (r : OrderRun) (row : AppRow) (now : Nat) : List Int :=
  (r.server.mt_module_info.filter fun m =>
    m.app_id == row.app_id && !decide (r.InTime iCheckDataPerTime m.module_id now)).map
      (·.module_id)

def orderStep (iCheckDataPerTime : Nat) (r : OrderRun) : OrderEvent → Option (Unit × OrderRun)
  | .moduleRow env row now =>
    let stored := { r.server with
      mt_module_info :=
        row :: r.server.mt_module_info.filter fun m => m.module_id ≠ row.module_id }
    some ((),
      { server := (readTableModuleInfo env now stored none row.module_id).2
        readAt := Function.update r.readAt row.module_id now
        late := r.late.filter fun id => id ≠ row.module_id
        checked := false })
  | .appRow env row now => do
      let server ← readAppInfo env r.server row
      some ((),
        { r with
          server := server
          late :=
            if (addedAppSlot r.server.apps row).isSome then
              r.late ++ lateModules iCheckDataPerTime r row now
            else r.late
          checked := false })
  | .check env now =>
    some ((),
      { r with
        server := checkModuleDelay env iCheckDataPerTime now r.server
        checked := true })

/-- Zeroed memory and no rows. -/
def orderStart : OrderRun where
  server := ⟨emptyApps, fun _ _ => ⟨0, 0⟩, fun _ => 0, [], 0, [], []⟩
  readAt := fun _ => 0
  late := []
  checked := false

/-- After a check every module in use whose application is there is in its list, unless the
application came after the delay timeout or the list had no room. -/
def OrderRight (r : OrderRun) : Prop :=
  r.checked = true → ∀ m ∈ r.server.mt_module_info, m.InUse →
    ∀ c, r.server.appSlot m.app_id = some c →
      m.module_id ∉ r.late → m.module_id ∉ r.server.needMoreSpace → r.server.Listed c m.module_id

/-- The condition on a step. A new application finds its modules on the delay list, unless their
timeout has passed; a module row comes when no other module on the list waits for the check; and a
check with such a module comes before the list is given up. -/
def OrderOk (iCheckDataPerTime : Nat) (r : OrderRun) : OrderEvent → Prop
  | .moduleRow _ row _ =>
    ∀ id ∈ r.server.stModuleDelay, r.server.Arrived id → id = row.module_id
  | .appRow _ row now =>
    (addedAppSlot r.server.apps row).isSome = true →
      ∀ m ∈ r.server.mt_module_info, m.app_id = row.app_id → m.InUse →
        r.InTime iCheckDataPerTime m.module_id now → m.module_id ∈ r.server.stModuleDelay
  | .check _ now =>
    ∀ id ∈ r.server.stModuleDelay, r.server.Arrived id → now < delayEnd iCheckDataPerTime r.server

instance (iCheckDataPerTime : Nat) (r : OrderRun) : ∀ e, Decidable (OrderOk iCheckDataPerTime r e)
  | .moduleRow _ _ _ =>
    inferInstanceAs (Decidable (∀ id ∈ r.server.stModuleDelay, r.server.Arrived id → _))
  | .appRow _ _ _ =>
    inferInstanceAs (Decidable (_ → ∀ m ∈ r.server.mt_module_info, _ → _ → _ → _))
  | .check _ _ =>
    inferInstanceAs (Decidable (∀ id ∈ r.server.stModuleDelay, r.server.Arrived id → _))

end Runs

section Slot

variable {a : AppSlot} {row : ModuleRow} {id : Int} {j : Nat}

theorem readModuleRow_other (h : SlotOk a) (env : AppEnv) (hzero : id ≠ 0)
    (hother : id ≠ row.module_id) (hj : (a.arrModuleList j).iModuleId = id) :
    ((readModuleRow env a row).arrModuleList j).iModuleId = id := by
  have hfound := h.found row.module_id_ne
  have hne : ∀ {c : Nat} {key : Int}, (a.arrModuleList c).iModuleId = key → id ≠ key → j ≠ c := by
    rintro c key hc hkey rfl
    exact hkey (hj.symm.trans hc)
  unfold readModuleRow
  dsimp only
  split
  · split
    · rename_i c hc
      have hjc : j ≠ c := hne (slotWith_some (hfound.symm.trans hc)).2 hother
      simp only [renameModule, Function.update_of_ne hjc, hj]
    · rename_i c hmiss hc
      have hsnd := @SlotList.getSlot_snd _ a.wModuleCount _ _ (hfound.symm.trans hmiss)
      have hjc : j ≠ c := hne (slotWith_some (hsnd.symm.trans hc)).2 hzero
      simp only [addModule, Function.update_of_ne hjc, hj]
    · exact hj
  · split
    · rename_i c hc
      have hjc : j ≠ c := hne (slotWith_some (hfound.symm.trans hc)).2 hother
      simp only [deleteModule, Function.update_of_ne hjc, hj]
    · exact hj

theorem readModuleRow_own (h : SlotOk a) (env : AppEnv) (m : DbModule) (huse : m.InUse)
    (hroom : lacksSpace a m = false) :
    ∃ j < SLOG_MODULE_COUNT_MAX_PER_APP,
      ((readModuleRow env a m.toModuleRow).arrModuleList j).iModuleId = m.module_id := by
  have hfound := h.found m.module_id_ne
  have hstatus : m.xrk_status = RECORD_STATUS_USE := huse
  simp only [lacksSpace, hstatus, beq_self_eq_true, Bool.true_and, Bool.and_eq_false_iff,
    Option.isNone_eq_false_iff] at hroom
  unfold readModuleRow
  simp only [hstatus, if_true]
  cases hc : (getAppModuleInfo a m.module_id).1 with
  | some c =>
    obtain ⟨hlt, hid⟩ := slotWith_some (hfound.symm.trans hc)
    refine ⟨c, hlt, ?_⟩
    simp only [renameModule, Function.update_self, hid]
  | none =>
    have hsnd := @SlotList.getSlot_snd _ a.wModuleCount _ _ (hfound.symm.trans hc)
    cases hf : (getAppModuleInfo a m.module_id).2 with
    | none =>
      rw [hc, hf] at hroom
      simp at hroom
    | some f =>
      obtain ⟨hlt, -⟩ := slotWith_some (hsnd.symm.trans hf)
      refine ⟨f, hlt, ?_⟩
      simp only [addModule, Function.update_self]

end Slot

section Server

/-- The tables are in order, and a module has one row. -/
structure ModuleServer.Ok (s : ModuleServer) : Prop where
  apps : ∃ l, s.apps.Ok l
  slots : ∀ c, SlotOk (s.slot c)
  unique : (s.mt_module_info.map (·.module_id)).Nodup

variable {s s' : ModuleServer} {m m' : DbModule} {c : Nat} {id : Int} {bCust : Bool}

theorem ModuleServer.Ok.getAppInfo_fst (h : s.Ok) {app_id : Int} (hne : app_id ≠ 0)
    (bFirstFree : Bool) : (getAppInfo s.apps app_id bFirstFree).1 = s.appSlot app_id := by
  obtain ⟨l, hl⟩ := h.apps
  exact hl.list.getSlot_fst hl.count hne

@[simp] theorem slot_setSlot_self (s : ModuleServer) (c : Nat) (a : AppSlot) :
    (s.setSlot c a).slot c = a := by
  simp [ModuleServer.slot, ModuleServer.setSlot]

theorem slot_setSlot_of_ne (s : ModuleServer) {c d : Nat} (hd : d ≠ c) (a : AppSlot) :
    (s.setSlot c a).slot d = s.slot d := by
  simp [ModuleServer.slot, ModuleServer.setSlot, hd]

/-- What a row of a module changes. -/
structure ReadKeeps (m : DbModule) (s s' : ModuleServer) : Prop where
  list : s'.apps.list = s.apps.list
  count : s'.apps.iAppCount = s.apps.iAppCount
  rows : s'.mt_module_info = s.mt_module_info
  time : s'.dwModuleDelaySetTime = s.dwModuleDelaySetTime
  slots : ∀ c, SlotOk (s'.slot c)
  space : ∀ id ∈ s.needMoreSpace, id ∈ s'.needMoreSpace
  listed : ∀ c id, id ≠ 0 → id ≠ m.module_id → s.Listed c id → s'.Listed c id

theorem ReadKeeps.ok (h : s.Ok) (hk : ReadKeeps m s s') : s'.Ok := by
  obtain ⟨l, hl⟩ := h.apps
  refine ⟨⟨l, ?_, ?_, ?_⟩, hk.slots, ?_⟩
  · rw [hk.list]
    exact hl.list
  · rw [hk.count]
    exact hl.count
  · rw [hk.list]
    exact hl.distinct
  · rw [hk.rows]
    exact h.unique

theorem ReadKeeps.appSlot (hk : ReadKeeps m s s') (app_id : Int) :
    s'.appSlot app_id = s.appSlot app_id := by
  rw [ModuleServer.appSlot, hk.list]
  rfl

/-- A module is in the list of its application, or the list had no room for it. -/
def ModuleServer.Settled (s : ModuleServer) (m : DbModule) : Prop :=
  ∀ c, s.appSlot m.app_id = some c →
    m.module_id ∈ s.needMoreSpace ∨ s.Listed c m.module_id

/-- A row of a module: the rest stays, and a module in use is settled, or delayed where its
application is missing. -/
theorem readModule_spec (h : s.Ok) (env : AppEnv) (bCust : Bool) (m : DbModule) :
    ReadKeeps m s (readModule env bCust s m) ∧
      (m.InUse → (readModule env bCust s m).Settled m) ∧
      (bCust = true → (readModule env bCust s m).stModuleDelay = s.stModuleDelay) ∧
      (s.appSlot m.app_id = none → m.InUse → bCust = false →
        m.module_id ∈ (readModule env bCust s m).stModuleDelay) := by
  have hfst := h.getAppInfo_fst m.app_id_ne false
  unfold readModule
  rw [hfst]
  cases hc : s.appSlot m.app_id with
  | none =>
    dsimp only
    split
    · rename_i hdelay
      refine ⟨⟨rfl, rfl, rfl, rfl, h.slots, fun _ hid => hid, fun _ _ _ _ hl => hl⟩, ?_, ?_, ?_⟩
      · intro _ d hd
        exact absurd (hc.symm.trans hd) (by simp)
      · intro htrue
        simp [htrue] at hdelay
      · simp
    · rename_i hnot
      refine ⟨⟨rfl, rfl, rfl, rfl, h.slots, fun _ hid => hid, fun _ _ _ _ hl => hl⟩, ?_, ?_, ?_⟩
      · intro _ d hd
        exact absurd (hc.symm.trans hd) (by simp)
      · simp
      · intro _ huse hfalse
        exact absurd ⟨huse, hfalse⟩ hnot
  | some c =>
    dsimp only
    generalize hspace : (if lacksSpace (s.slot c) m then s.needMoreSpace ++ [m.module_id]
      else s.needMoreSpace) = space
    have hgrow : ∀ id ∈ s.needMoreSpace, id ∈ space := by
      intro id hid
      rw [← hspace]
      split
      · exact List.mem_append_left _ hid
      · exact hid
    let s₁ : ModuleServer := { s with needMoreSpace := space }
    have hslot₁ : ∀ d, s₁.slot d = s.slot d := fun _ => rfl
    refine ⟨⟨rfl, rfl, rfl, rfl, ?_, hgrow, ?_⟩, ?_, by simp [ModuleServer.setSlot], by simp⟩
    · intro d
      by_cases hd : d = c
      · subst hd
        rw [slot_setSlot_self]
        exact ((h.slots d).readModuleRow env m.toModuleRow).1
      · rw [slot_setSlot_of_ne _ hd]
        exact h.slots d
    · rintro d id hzero hother ⟨j, hj, hid⟩
      refine ⟨j, hj, ?_⟩
      by_cases hd : d = c
      · subst hd
        have hkeep := readModuleRow_other (h.slots d) env hzero hother hid
        simpa [ModuleServer.setSlot] using hkeep
      · simpa [ModuleServer.setSlot, hd] using hid
    · intro huse d hd
      obtain rfl : c = d := Option.some.inj (hc.symm.trans hd)
      cases hlacks : lacksSpace (s.slot c) m with
      | true =>
        left
        change m.module_id ∈ space
        rw [← hspace, hlacks]
        simp
      | false =>
        right
        obtain ⟨j, hj, hown⟩ := readModuleRow_own (h.slots c) env m huse hlacks
        refine ⟨j, hj, ?_⟩
        simpa [ModuleServer.setSlot] using hown

theorem Settled.readModule (h : s.Ok) (env : AppEnv) (bCust : Bool) (hsettled : s.Settled m)
    (huse : m.InUse) (hrow : m'.module_id = m.module_id → m' = m) :
    (readModule env bCust s m').Settled m := by
  obtain ⟨hk, hown, -⟩ := readModule_spec h env bCust m'
  by_cases hid : m'.module_id = m.module_id
  · obtain rfl := hrow hid
    exact hown huse
  · intro c hc
    rw [hk.appSlot] at hc
    rcases hsettled c hc with hspace | hlisted
    · exact Or.inl (hk.space _ hspace)
    · exact Or.inr (hk.listed c _ m.module_id_ne (Ne.symm hid) hlisted)

theorem ModuleServer.Ok.row_unique (h : s.Ok) (hm : m ∈ s.mt_module_info)
    (hm' : m' ∈ s.mt_module_info) (hid : m'.module_id = m.module_id) : m' = m :=
  List.inj_on_of_nodup_map h.unique hm' hm hid

/-- Some rows of the table are read: the rest stays, and the modules in use among them are settled. -/
structure ReadRows (read : List DbModule) (s s' : ModuleServer) : Prop where
  ok : s'.Ok
  rows : s'.mt_module_info = s.mt_module_info
  time : s'.dwModuleDelaySetTime = s.dwModuleDelaySetTime
  appSlot : ∀ app_id, s'.appSlot app_id = s.appSlot app_id
  settled : ∀ m ∈ s.mt_module_info, m.InUse → m ∈ read ∨ s.Settled m → s'.Settled m

theorem readModules_spec (h : s.Ok) (env : AppEnv) (bCust : Bool) (rows : List DbModule)
    (hrows : ∀ m ∈ rows, m ∈ s.mt_module_info) :
    ReadRows rows s (rows.foldl (readModule env bCust) s) := by
  induction rows generalizing s with
  | nil => exact ⟨h, rfl, rfl, fun _ => rfl, fun m _ _ hm => hm.resolve_left (by simp)⟩
  | cons row rows ih =>
    obtain ⟨hk, hown, -⟩ := readModule_spec h env bCust row
    have hok := hk.ok h
    have hrest := ih hok (by
      intro m hm
      rw [hk.rows]
      exact hrows m (by simp [hm]))
    refine ⟨hrest.ok, hrest.rows.trans hk.rows, hrest.time.trans hk.time, ?_, ?_⟩
    · intro app_id
      exact (hrest.appSlot app_id).trans (hk.appSlot app_id)
    · intro m hm huse hcase
      apply hrest.settled m (hk.rows.symm ▸ hm) huse
      have hsame : row.module_id = m.module_id → row = m :=
        h.row_unique hm (hrows row (by simp))
      rcases hcase with hmem | hsettled
      · rcases List.mem_cons.mp hmem with rfl | hmem
        · exact Or.inr (hown huse)
        · exact Or.inl hmem
      · exact Or.inr (Settled.readModule h env bCust hsettled huse hsame)

theorem ReadRows.trans {read read' : List DbModule} {s'' : ModuleServer} (h : ReadRows read s s')
    (h' : ReadRows read' s' s'') : ReadRows (read ++ read') s s'' where
  ok := h'.ok
  rows := h'.rows.trans h.rows
  time := h'.time.trans h.time
  appSlot app_id := (h'.appSlot app_id).trans (h.appSlot app_id)
  settled := by
    intro m hm huse hcase
    have hm' : m ∈ s'.mt_module_info := h.rows.symm ▸ hm
    rw [List.mem_append] at hcase
    rcases hcase with (hmem | hmem) | hsettled
    · exact h'.settled m hm' huse (Or.inr (h.settled m hm huse (Or.inl hmem)))
    · exact h'.settled m hm' huse (Or.inl hmem)
    · exact h'.settled m hm' huse (Or.inr (h.settled m hm huse (Or.inr hsettled)))

theorem retryLoop_spec (h : s.Ok) (env : AppEnv) (now : Nat) (ids : List Int) :
    (retryLoop env now ids s).2.1 = 0 ∧
      ∃ read, ReadRows read s (retryLoop env now ids s).2.2 ∧
        ∀ m ∈ s.mt_module_info, m.module_id ∈ ids → m ∈ read := by
  induction ids generalizing s with
  | nil =>
    refine ⟨rfl, [], ?_, by simp⟩
    exact ⟨h, rfl, rfl, fun _ => rfl, fun m _ _ hm => hm.resolve_left (by simp)⟩
  | cons id ids ih =>
    by_cases hid : id = 0
    · obtain ⟨hcount, read, hread, hmem⟩ := ih h
      simp only [retryLoop, hid, ne_eq, not_true_eq_false, if_false]
      refine ⟨hcount, read, hread, ?_⟩
      intro m hm hids
      rcases List.mem_cons.mp hids with hzero | hids
      · exact absurd hzero m.module_id_ne
      · exact hmem m hm hids
    · have hfirst := readModules_spec h env true (s.mt_module_info.filter fun m => m.module_id == id)
        fun m hm => List.mem_of_mem_filter hm
      obtain ⟨hcount, read, hread, hmem⟩ := ih hfirst.ok
      simp only [retryLoop, readTableModuleInfo, selectModules, hid, ne_eq, not_false_eq_true,
        if_true, Option.isNone_some, Option.isSome_some, Bool.and_false, Bool.false_eq_true,
        if_false]
      refine ⟨hcount, _, hfirst.trans hread, ?_⟩
      intro m hm hids
      rw [List.mem_append]
      rcases List.mem_cons.mp hids with hfst | hids
      · left
        exact List.mem_filter.mpr ⟨hm, by simp [hfst]⟩
      · right
        exact hmem m (hfirst.rows.symm ▸ hm) hids

theorem ReadRows.setDelay {read : List DbModule} (h : ReadRows read s s') (ids : List Int) :
    ReadRows read s { s' with stModuleDelay := ids } :=
  ⟨⟨h.ok.apps, h.ok.slots, h.ok.unique⟩, h.rows, h.time, h.appSlot, h.settled⟩

theorem ReadRows.refl (h : s.Ok) : ReadRows [] s s :=
  ⟨h, rfl, rfl, fun _ => rfl, fun m _ _ hm => hm.resolve_left (by simp)⟩

theorem checkModuleDelay_spec (h : s.Ok) (env : AppEnv) (iCheckDataPerTime now : Nat) :
    (checkModuleDelay env iCheckDataPerTime now s).stModuleDelay = [] ∧
      ∃ read, ReadRows read s (checkModuleDelay env iCheckDataPerTime now s) ∧
        (now < delayEnd iCheckDataPerTime s →
          ∀ m ∈ s.mt_module_info, m.module_id ∈ s.stModuleDelay → m ∈ read) := by
  unfold checkModuleDelay
  split
  · rename_i hempty
    have hnil : s.stModuleDelay = [] := List.eq_nil_of_length_eq_zero hempty
    exact ⟨hnil, [], ReadRows.refl h, by simp [hnil]⟩
  · split
    · rename_i hend
      exact ⟨rfl, [], (ReadRows.refl h).setDelay [], fun hnow => absurd hend (Nat.not_le_of_lt hnow)⟩
    · obtain ⟨hcount, read, hread, hmem⟩ := retryLoop_spec h env now s.stModuleDelay
      refine ⟨?_, read, hread.setDelay _, fun _ => hmem⟩
      simp [hcount]

theorem readTableModuleInfo_spec (h : s.Ok) (env : AppEnv) (now : Nat) (hm : m ∈ s.mt_module_info) :
    ∃ read, ReadRows read { s with dwModuleDelaySetTime := now % 2 ^ 32 }
        (readTableModuleInfo env now s none m.module_id).2 ∧ m ∈ read := by
  let s₁ : ModuleServer :=
    { s with
      stModuleDelay := []
      dwModuleDelaySetTime := now % 2 ^ 32 }
  have hok : s₁.Ok := ⟨h.apps, h.slots, h.unique⟩
  have hread := readModules_spec hok env false
    (s.mt_module_info.filter fun m' => m'.module_id == m.module_id)
    fun m' hm' => List.mem_of_mem_filter hm'
  refine ⟨s.mt_module_info.filter fun m' => m'.module_id == m.module_id, ?_,
    List.mem_filter.mpr ⟨hm, by simp⟩⟩
  simp only [readTableModuleInfo, selectModules, Option.isNone_none, if_true, ne_eq, m.module_id_ne,
    not_false_eq_true, Option.isSome_none]
  exact ⟨hread.ok, hread.rows, hread.time, hread.appSlot, hread.settled⟩

end Server

section Apps

variable {s s' : ModuleServer} {row : AppRow} {m : DbModule} {c : Nat} {env : AppEnv}

theorem ModuleServer.Ok.appSlot_of_id (h : s.Ok) {app_id : Int} (hne : app_id ≠ 0)
    (hc : c < MAX_SLOG_APP_COUNT) (hid : s.apps.list.id c = app_id) : s.appSlot app_id = some c := by
  obtain ⟨l, hl⟩ := h.apps
  cases hfind : s.appSlot app_id with
  | none => exact absurd hid (slotWith_none hfind c hc)
  | some d =>
    obtain ⟨hd, hidd⟩ := slotWith_some hfind
    have hcl : c ∈ l := (hl.list.mem c).mpr ⟨hc, hid ▸ hne⟩
    have hdl : d ∈ l := (hl.list.mem d).mpr ⟨hd, hidd ▸ hne⟩
    rw [hl.distinct d hdl c hcl (hidd.trans hid.symm)]

/-- What a row of an application does to the slots: those of other applications stay, and the slot
of a new one is zeroed. -/
structure AppKeeps (row : AppRow) (s s' : ModuleServer) : Prop where
  ok : s'.Ok
  delay : s'.stModuleDelay = s.stModuleDelay
  rows : ∀ m ∈ s'.mt_module_info, m.InUse → m ∈ s.mt_module_info
  space : s'.needMoreSpace = s.needMoreSpace
  slots : ∀ app_id ≠ 0, ∀ c, s'.appSlot app_id = some c →
    (app_id = row.app_id ∧ (addedAppSlot s.apps row).isSome = true) ∨
      s.appSlot app_id = some c ∧ s'.arrModuleList c = s.arrModuleList c

theorem mem_of_deleteModules {app_id : Int} {rows : List DbModule}
    (hm : m ∈ rows.map (deleteModules app_id)) (huse : m.InUse) : m ∈ rows := by
  obtain ⟨m', hm', rfl⟩ := List.mem_map.mp hm
  unfold deleteModules at huse ⊢
  split
  · rename_i hdeleted
    rw [if_pos hdeleted] at huse
    have hdelete : RECORD_STATUS_DELETE = RECORD_STATUS_USE := huse
    exact absurd hdelete (by decide)
  · exact hm'

theorem deleteModules_module_id (app_id : Int) (m : DbModule) :
    (deleteModules app_id m).module_id = m.module_id := by
  unfold deleteModules
  split
  · rfl
  · rfl

theorem withApps_slotOk (h : s.Ok) (row : AppRow) (apps : AppTable) (c : Nat) :
    SlotOk ((withApps s row apps).slot c) := by
  have hslot := h.slots c
  by_cases hadded : addedAppSlot s.apps row = some c
  · simp [SlotOk, ModuleServer.slot, withApps, hadded]
  · simpa [SlotOk, ModuleServer.slot, withApps, hadded] using hslot

theorem readAppInfo_spec (h : s.Ok) (env : AppEnv) (row : AppRow) :
    ∃ s', readAppInfo env s row = some s' ∧ AppKeeps row s s' := by
  obtain ⟨l, hl⟩ := h.apps
  obtain ⟨t', l', hread, hok, heffect⟩ := hl.readAppRow env row
  have hfst : (getAppInfo s.apps row.app_id true).1 = s.appSlot row.app_id :=
    h.getAppInfo_fst row.app_id_ne true
  refine ⟨withApps s row t', by rw [readAppInfo, hread]; rfl,
    ⟨⟨⟨l', hok⟩, ?_, ?_⟩, rfl, ?_, rfl, ?_⟩⟩
  · intro c
    exact withApps_slotOk h row t' c
  · dsimp only [withApps]
    split
    · have hids : (fun m : DbModule => (deleteModules row.app_id m).module_id) =
          fun m => m.module_id := funext fun m => deleteModules_module_id row.app_id m
      rw [List.map_map]
      change (s.mt_module_info.map fun m => (deleteModules row.app_id m).module_id).Nodup
      rw [hids]
      exact h.unique
    · exact h.unique
  · intro m hm huse
    dsimp only [withApps] at hm
    split at hm
    · exact mem_of_deleteModules hm huse
    · exact hm
  · intro app_id hne c hc
    obtain ⟨hlt, hid⟩ := slotWith_some hc
    change t'.list.id c = app_id at hid
    have hold : s.apps.list.id c = app_id → addedAppSlot s.apps row ≠ some c →
        s.appSlot app_id = some c ∧
          (if (addedAppSlot s.apps row == some c) = true then fun _ => ⟨0, 0⟩
            else s.arrModuleList c) = s.arrModuleList c := by
      intro hsame hother
      refine ⟨h.appSlot_of_id hne hlt hsame, ?_⟩
      simp [hother]
    cases heffect with
    | add f hstatus hmiss hfree hadd =>
      have hadded : addedAppSlot s.apps row = some f := by
        have hnone : s.appSlot row.app_id = none := hmiss
        have hsnd : (getAppInfo s.apps row.app_id true).2 = some f :=
          (SlotList.getSlot_snd hmiss).trans hfree
        rw [addedAppSlot, hfst, hnone, hsnd, if_pos ⟨hstatus, rfl⟩]
      rw [hadd] at hid
      by_cases hcf : c = f
      · left
        rw [hcf, Function.update_self] at hid
        exact ⟨hid.symm, by simp [hadded]⟩
      · right
        rw [Function.update_of_ne hcf] at hid
        exact hold hid (by rw [hadded]; simpa using Ne.symm hcf)
    | keep d hstatus hfind hkeep =>
      right
      refine hold (hkeep ▸ hid) ?_
      have hsome : s.appSlot row.app_id = some d := hfind
      simp [addedAppSlot, hfst, hsome]
    | full hstatus hmiss hfree hkeep =>
      right
      refine hold (hkeep ▸ hid) ?_
      have hsnd : (getAppInfo s.apps row.app_id true).2 = none :=
        (SlotList.getSlot_snd hmiss).trans hfree
      simp [addedAppSlot, hsnd]
    | remove d hstatus hfind hremove =>
      right
      rw [hremove] at hid
      have hcd : c ≠ d := by
        rintro rfl
        rw [Function.update_self] at hid
        exact hne hid.symm
      rw [Function.update_of_ne hcd] at hid
      exact hold hid (by simp [addedAppSlot, hstatus])
    | skip hstatus hmiss hkeep =>
      right
      exact hold (hkeep ▸ hid) (by simp [addedAppSlot, hstatus])

end Apps

section Invariant

/-- Every module in use whose application was in time is delayed or settled, and after a check none
is delayed. -/
structure OrderInv (r : OrderRun) : Prop where
  ok : r.server.Ok
  kept : ∀ m ∈ r.server.mt_module_info, m.InUse → m.module_id ∉ r.late →
    m.module_id ∈ r.server.stModuleDelay ∨ r.server.Settled m
  checked : r.checked = true → r.server.stModuleDelay = []

variable {r : OrderRun} {period : Nat}

theorem OrderInv.right (h : OrderInv r) : OrderRight r := by
  intro hchecked m hm huse c hc hlate hspace
  have hkept := h.kept m hm huse hlate
  rw [h.checked hchecked] at hkept
  have hsettled : r.server.Settled m := hkept.resolve_left (by simp)
  exact (hsettled c hc).resolve_left hspace

theorem arrived_of_not_settled {s : ModuleServer} {m : DbModule} (hm : m ∈ s.mt_module_info)
    (huse : m.InUse) (hnot : ¬ s.Settled m) : s.Arrived m.module_id := by
  refine ⟨m, hm, rfl, huse, ?_⟩
  by_contra hnone
  apply hnot
  intro c hc
  rw [hc] at hnone
  simp at hnone

theorem OrderInv.moduleRow (h : OrderInv r) (env : AppEnv) (row : DbModule) (now : Nat)
    (hok : OrderOk period r (.moduleRow env row now)) :
    ∃ r', orderStep period r (.moduleRow env row now) = some ((), r') ∧ OrderInv r' := by
  refine ⟨_, rfl, ?_⟩
  let stored : ModuleServer :=
    { r.server with
      mt_module_info := row :: r.server.mt_module_info.filter fun m => m.module_id ≠ row.module_id }
  have hstored : stored.Ok := by
    refine ⟨h.ok.apps, h.ok.slots, ?_⟩
    rw [List.map_cons, List.nodup_cons]
    constructor
    · intro hmem
      obtain ⟨m, hm, hid⟩ := List.mem_map.mp hmem
      simp [hid] at hm
    · exact (h.ok.unique).sublist (List.filter_sublist.map _)
  obtain ⟨read, hread, hmem⟩ := readTableModuleInfo_spec hstored env now
    (show row ∈ stored.mt_module_info from List.mem_cons_self)
  refine ⟨hread.ok, ?_, by simp⟩
  intro m hm huse hlate
  right
  have hm' : m ∈ stored.mt_module_info := hread.rows ▸ hm
  refine hread.settled m hm' huse ?_
  rcases List.mem_cons.mp hm' with rfl | hold
  · exact Or.inl hmem
  · right
    obtain ⟨hin, hne⟩ := List.mem_filter.mp hold
    have hid : m.module_id ≠ row.module_id := by simpa using hne
    have hnotlate : m.module_id ∉ r.late := by
      intro hmemlate
      exact hlate (List.mem_filter.mpr ⟨hmemlate, by simpa using hid⟩)
    by_contra hnot
    have hdelay := (h.kept m hin huse hnotlate).resolve_right hnot
    exact hid (hok _ hdelay (arrived_of_not_settled hin huse hnot))

theorem OrderInv.appRow (h : OrderInv r) (env : AppEnv) (row : AppRow) (now : Nat)
    (hok : OrderOk period r (.appRow env row now)) :
    ∃ r', orderStep period r (.appRow env row now) = some ((), r') ∧ OrderInv r' := by
  obtain ⟨s', hread, hk⟩ := readAppInfo_spec h.ok env row
  refine ⟨_, by rw [orderStep, hread]; rfl, hk.ok, ?_, by simp⟩
  intro m hm huse hlate
  have hin := hk.rows m hm huse
  by_cases hnew : m.app_id = row.app_id ∧ (addedAppSlot r.server.apps row).isSome = true
  · left
    obtain ⟨happ, hadded⟩ := hnew
    dsimp only at hlate ⊢
    rw [if_pos hadded, List.mem_append, not_or] at hlate
    rw [hk.delay]
    apply hok hadded m hin happ huse
    by_contra hlater
    apply hlate.2
    exact List.mem_map.mpr ⟨m, List.mem_filter.mpr ⟨hin, by simp [happ, hlater]⟩, rfl⟩
  · have hnotlate : m.module_id ∉ r.late := by
      intro hmemlate
      apply hlate
      dsimp only
      split
      · exact List.mem_append_left _ hmemlate
      · exact hmemlate
    rcases h.kept m hin huse hnotlate with hdelay | hsettled
    · left
      rw [hk.delay]
      exact hdelay
    · right
      intro c hc
      obtain ⟨hslot, hlist⟩ := (hk.slots m.app_id m.app_id_ne c hc).resolve_left hnew
      rw [hk.space]
      refine (hsettled c hslot).imp_right ?_
      rintro ⟨j, hj, hid⟩
      exact ⟨j, hj, by rw [hlist]; exact hid⟩

theorem OrderInv.check (h : OrderInv r) (env : AppEnv) (now : Nat)
    (hok : OrderOk period r (.check env now)) :
    ∃ r', orderStep period r (.check env now) = some ((), r') ∧ OrderInv r' := by
  obtain ⟨hempty, read, hread, hmem⟩ := checkModuleDelay_spec h.ok env period now
  refine ⟨_, rfl, hread.ok, ?_, fun _ => hempty⟩
  intro m hm huse hlate
  right
  have hin : m ∈ r.server.mt_module_info := hread.rows ▸ hm
  refine hread.settled m hin huse ?_
  by_cases hsettled : r.server.Settled m
  · exact Or.inr hsettled
  · left
    have hdelay := (h.kept m hin huse hlate).resolve_right hsettled
    exact hmem (hok _ hdelay (arrived_of_not_settled hin huse hsettled)) m hin hdelay

theorem orderStart_inv : OrderInv orderStart where
  ok := ⟨⟨[], emptyApps_ok⟩, fun _ => by simp [SlotOk, ModuleServer.slot, orderStart], by
    simp [orderStart]⟩
  kept := by simp [orderStart]
  checked := by simp [orderStart]

/-- For every interleaving of rows of modules and applications and of checks whose steps meet the
condition: the run goes through, and the lists are right after every check. -/
theorem module_order_right (iCheckDataPerTime : Nat) (events : List OrderEvent)
    (hok : Admissible (orderStep iCheckDataPerTime) (OrderOk iCheckDataPerTime) orderStart events)
    (n : Nat) :
    ∃ os r, runSteps (orderStep iCheckDataPerTime) orderStart (events.take n) = some (os, r) ∧
      OrderRight r := by
  have hstep : ∀ r a, OrderInv r → OrderOk iCheckDataPerTime r a →
      ∃ o r', orderStep iCheckDataPerTime r a = some (o, r') ∧ True ∧ OrderInv r' := by
    intro r a h hstepOk
    cases a with
    | moduleRow env row now =>
      obtain ⟨r', hr', hinv⟩ := h.moduleRow env row now hstepOk
      exact ⟨(), r', hr', trivial, hinv⟩
    | appRow env row now =>
      obtain ⟨r', hr', hinv⟩ := h.appRow env row now hstepOk
      exact ⟨(), r', hr', trivial, hinv⟩
    | check env now =>
      obtain ⟨r', hr', hinv⟩ := h.check env now hstepOk
      exact ⟨(), r', hr', trivial, hinv⟩
  obtain ⟨os, r, hrun, -, hinv⟩ := run_invariant (O := fun _ _ => True) hstep (events.take n)
    orderStart orderStart_inv (hok.take n)
  exact ⟨os, r, hrun, hinv.right⟩

end Invariant

theorem delayedModule_ne_zero : (21 : Int) ≠ 0 := Int.ofNat_ne_zero.mpr (Nat.succ_ne_zero 20)

/-- A row of module 21 of application 7. -/
def moduleOfSeven (now : Nat) : OrderEvent :=
  .moduleRow noServer ⟨⟨21, 0, some "m", delayedModule_ne_zero⟩, 7, firstApp_ne_zero⟩ now

/-- A row of application 7. -/
def appSeven (now : Nat) : OrderEvent := .appRow noServer ⟨7, 0, now, some "a", firstApp_ne_zero⟩ now

/-- The application comes behind its module, and then a check. -/
def appAfterModule : List OrderEvent := [moduleOfSeven 100, appSeven 110, .check noServer 120]

theorem module_order_right_appAfterModule :
    ∃ os r, runSteps (orderStep 30) orderStart (appAfterModule.take 3) = some (os, r) ∧
      OrderRight r :=
  module_order_right 30 appAfterModule (by decide +kernel) 3

/-- The same with a check between the two rows. -/
def checkBetween : List OrderEvent :=
  [moduleOfSeven 100, .check noServer 105, appSeven 110, .check noServer 120]

/-- A check between the two rows drops the module, and the check behind them does not find it. -/
theorem module_dropped :
    ¬ ∃ os r, runSteps (orderStep 30) orderStart checkBetween = some (os, r) ∧ OrderRight r := by
  rintro ⟨os, r, hrun, hright⟩
  have hflags : (runSteps (orderStep 30) orderStart checkBetween).map (fun x =>
      (x.2.checked, x.2.late, x.2.server.needMoreSpace)) = some (true, [], []) := by decide +kernel
  have hslot : (runSteps (orderStep 30) orderStart checkBetween).map
      (fun x => x.2.server.appSlot 7) = some (some 0) := by decide +kernel
  have hrows : (runSteps (orderStep 30) orderStart checkBetween).map (fun x =>
      x.2.server.mt_module_info.map fun m => (m.module_id, m.app_id, m.xrk_status)) =
      some [(21, 7, 0)] := by decide +kernel
  have hfree : (runSteps (orderStep 30) orderStart checkBetween).map (fun x =>
      (List.range SLOG_MODULE_COUNT_MAX_PER_APP).all fun j =>
        (x.2.server.arrModuleList 0 j).iModuleId == 0) = some true := by decide +kernel
  rw [hrun, Option.map_some, Option.some_inj] at hflags hslot hrows hfree
  simp only [Prod.mk.injEq] at hflags
  obtain ⟨hchecked, hlate, hspace⟩ := hflags
  have hmem : ((21 : Int), (7 : Int), (0 : Int)) ∈
      r.server.mt_module_info.map fun m => (m.module_id, m.app_id, m.xrk_status) := by
    rw [hrows]
    simp
  obtain ⟨m, hm, hid⟩ := List.mem_map.mp hmem
  simp only [Prod.mk.injEq] at hid
  obtain ⟨hmodule, happ, hstatus⟩ := hid
  obtain ⟨j, hj, hlisted⟩ := hright hchecked m hm hstatus 0 (by rw [happ]; exact hslot)
    (by rw [hlate]; simp) (by rw [hspace]; simp)
  have hzero := List.all_eq_true.mp hfree j (List.mem_range.mpr hj)
  rw [hlisted, hmodule] at hzero
  exact absurd hzero (by decide)

end XrkMonitor.Config
