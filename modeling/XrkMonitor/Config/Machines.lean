import XrkMonitor.Config.IdHash
import XrkMonitor.Config.LogConfigs

/-!
# The table of machines, and the lists of all three tables

`ReadTableMachine` brings the rows of `mt_machine` into a hash table whose nodes are
threaded into the machine list. `config_lists_ok` is the result about the lists of
applications, log configurations and machines over whole runs of rows.

## Implementation notes

`InitHashTable_NoList` takes the largest prime up to the node count for every row of
the table, and `3011` is prime. A row in use that finds no node is not stored; while
the id of the local machine is not known, the code then reads the null node, and
`RowOut.nullNode` records that. It changes no memory, so a run goes on with the next
row.
-/

namespace XrkMonitor.Config

open Library SharedHash

def MACHINE_HASH_NODE_COUNT : Nat := 3011

/-- The rows of the machine hash table. -/
def machineRows : List Nat := List.replicate STATIC_HASH_ROW_MAX MACHINE_HASH_NODE_COUNT

/-- The number of machine nodes. -/
def machineNodes : Nat := machineRows.sum

/-- The fields of `MachineInfo` that the rows set, besides its id and links. -/
structure MachineInfo where
  ip1 : Nat
  ip2 : Nat
  ip3 : Nat
  ip4 : Nat
  bWarnFlag : Nat
  bModelId : Nat
  iNameVmemIdx : Int
  iDescVmemIdx : Int
  sRandKey : String
  dwLastReportLogTime : Nat
  dwLastReportAttrTime : Nat
  dwLastHelloTime : Nat
  dwAgentStartTime : Nat
  dwLastModTime : Nat

/-- The machine nodes with their list in `MtSystemConfig`, and the id of the local machine. -/
structure MachineTable where
  list : SlotList
  node : Nat → MachineInfo
  iMachineId : Int

/-- A row of `mt_machine`. -/
structure MachineRow where
  xrk_id : Int
  xrk_status : Int
  mod_time : Nat
  ip1 : Nat
  ip2 : Nat
  ip3 : Nat
  ip4 : Nat
  warn_flag : Nat
  model_id : Nat
  xrk_name : Option String
  machine_desc : Option String
  rand_key : Option String
  last_log_time : Nat
  last_attr_time : Nat
  last_hello_time : Nat
  start_time : Nat
  xrk_id_ne : xrk_id ≠ 0

/-- What `ReadTableMachine` takes from other parts of the program. -/
structure MachineEnv where
  saveToVmem : String → Int
  getFromVmem : Int → Option String
  dwLocalIp : Nat

/-- What happened at a row besides the change of the table. -/
inductive RowOut
  | done
  | nullNode
deriving Repr, DecidableEq

/-- Zeroed memory. -/
def emptyMachines : MachineTable where
  list := SlotList.empty
  node := fun _ =>
    { ip1 := 0
      ip2 := 0
      ip3 := 0
      ip4 := 0
      bWarnFlag := 0
      bModelId := 0
      iNameVmemIdx := 0
      iDescVmemIdx := 0
      sRandKey := ""
      dwLastReportLogTime := 0
      dwLastReportAttrTime := 0
      dwLastHelloTime := 0
      dwAgentStartTime := 0
      dwLastModTime := 0 }
  iMachineId := 0

def getMachineInfo (t : MachineTable) (id : Int) : Bool × Option Nat :=
  searchEx machineRows t.list.id id

/-- The key of a row replaces the stored one unless it is empty. -/
def rowRandKey (stored : String) : Option String → String
  | none => stored
  | some ptmp => if ptmp = "" then stored else String.ofList (ptmp.toList.take 16)

/-- The fields of a new machine. -/
def newMachine (env : MachineEnv) (row : MachineRow) (stored : MachineInfo) : MachineInfo where
  ip1 := row.ip1
  ip2 := row.ip2
  ip3 := row.ip3
  ip4 := row.ip4
  bWarnFlag := row.warn_flag
  bModelId := row.model_id
  iNameVmemIdx := saveName env.saveToVmem row.xrk_name
  iDescVmemIdx := saveName env.saveToVmem row.machine_desc
  sRandKey := rowRandKey stored.sRandKey row.rand_key
  dwLastReportLogTime := row.last_log_time
  dwLastReportAttrTime := row.last_attr_time
  dwLastHelloTime := row.last_hello_time
  dwAgentStartTime := row.start_time
  dwLastModTime := row.mod_time

/-- The fields of a machine whose row has changed; its times never go back. -/
def updateMachine (env : MachineEnv) (row : MachineRow) (stored : MachineInfo) : MachineInfo where
  ip1 := row.ip1
  ip2 := row.ip2
  ip3 := row.ip3
  ip4 := row.ip4
  bWarnFlag := row.warn_flag
  bModelId := row.model_id
  iNameVmemIdx := updateName env.saveToVmem env.getFromVmem stored.iNameVmemIdx row.xrk_name
  iDescVmemIdx := updateName env.saveToVmem env.getFromVmem stored.iDescVmemIdx row.machine_desc
  sRandKey := rowRandKey stored.sRandKey row.rand_key
  dwLastReportLogTime := max stored.dwLastReportLogTime row.last_log_time
  dwLastReportAttrTime := max stored.dwLastReportAttrTime row.last_attr_time
  dwLastHelloTime := max stored.dwLastHelloTime row.last_hello_time
  dwAgentStartTime := max stored.dwAgentStartTime row.start_time
  dwLastModTime := row.mod_time

/-- A new machine takes an empty node and becomes the first of the list. -/
def addMachine (env : MachineEnv) (row : MachineRow) (t : MachineTable) (iHashIndex : Nat) :
    Option MachineTable := do
  let list ← t.list.addFirst machineNodes
    (t.list.wCount == 0 || decide (t.list.links.iIndexStart < 0)) iHashIndex
  some
    { t with
      list := list.setId iHashIndex row.xrk_id
      node := Function.update t.node iHashIndex (newMachine env row (t.node iHashIndex)) }

/-- A node is emptied and taken out of the list. -/
def removeMachine (t : MachineTable) (iHashIndex : Nat) : Option MachineTable := do
  let links ← ilinkUnlink machineNodes t.list.links iHashIndex
  let info := t.node iHashIndex
  some
    { t with
      list :=
        { id := Function.update t.list.id iHashIndex 0
          links := links
          wCount := if links.iIndexStart < 0 then 0 else wordDec 16 t.list.wCount }
      node := Function.update t.node iHashIndex
        { info with
          iNameVmemIdx := if 0 < info.iNameVmemIdx then -1 else info.iNameVmemIdx
          iDescVmemIdx := if 0 < info.iDescVmemIdx then -1 else info.iDescVmemIdx } }

/-- The first part of a row: the machine is added or updated. -/
def storeMachine (env : MachineEnv) (row : MachineRow) (t : MachineTable) :
    Bool × Option Nat → Option MachineTable
  | (_, none) => some t
  | (false, some pInfo) => addMachine env row t pInfo
  | (true, some pInfo) =>
    if row.mod_time ≠ (t.node pInfo).dwLastModTime then
      some
        { t with
          node := Function.update t.node pInfo (updateMachine env row (t.node pInfo)) }
    else some t

/-- The local machine is known once a machine with its address is read. -/
def setLocalMachine (env : MachineEnv) (t : MachineTable) : Option Nat → RowOut × MachineTable
  | none => if t.iMachineId = 0 then (.nullNode, t) else (.done, t)
  | some pInfo =>
    let info := t.node pInfo
    if t.iMachineId = 0 && (env.dwLocalIp == info.ip1 || env.dwLocalIp == info.ip2 ||
        env.dwLocalIp == info.ip3 || env.dwLocalIp == info.ip4) then
      (.done, { t with iMachineId := t.list.id pInfo })
    else (.done, t)

/-- One row of `ReadTableMachine`. -/
def readMachineRow (env : MachineEnv) (t : MachineTable) (row : MachineRow) :
    Option (RowOut × MachineTable) :=
  let found := getMachineInfo t row.xrk_id
  if row.xrk_status = RECORD_STATUS_USE then do
    let t' ← storeMachine env row t found
    some (setLocalMachine env t' found.2)
  else
    match found with
    | (true, some pInfo) => (removeMachine t pInfo).map fun t' => (.done, t')
    | _ => some (.done, t)

/-- What the rows keep. -/
structure MachineTable.Ok (t : MachineTable) (l : List Nat) : Prop where
  list : t.list.Ok machineNodes l

section Rows

variable {t : MachineTable} {l : List Nat} {c : Nat}

theorem machineRows_pos : ∀ n ∈ machineRows, 0 < n := by
  intro n hn
  rw [List.eq_of_mem_replicate hn]
  decide

theorem machineNodes_lt : machineNodes < 2 ^ 16 := by decide

theorem emptyMachines_ok : emptyMachines.Ok [] := ⟨SlotList.empty_ok _⟩

theorem MachineTable.Ok.add (h : t.Ok l) (env : MachineEnv) (row : MachineRow)
    (hlt : c < machineNodes) (hfree : t.list.id c = 0) :
    ∃ t', addMachine env row t c = some t' ∧ t'.Ok (c :: l) := by
  have hfirst : (t.list.wCount == 0 || decide (t.list.links.iIndexStart < 0)) = true ↔ l = [] := by
    simp only [Bool.or_eq_true, beq_iff_eq, decide_eq_true_eq]
    constructor
    · rintro (hcount | hneg)
      · rwa [h.list.len, List.length_eq_zero_iff] at hcount
      · by_contra hl
        exact hl ((h.list.linked hl).start_neg_iff.mp hneg)
    · intro hl
      left
      rw [h.list.len, hl]
      rfl
  obtain ⟨list, hadd, -, hok⟩ := h.list.add machineNodes_lt hlt hfree hfirst row.xrk_id_ne
  rw [← SlotList.addFirst_setId] at hadd
  obtain ⟨list', hlist', rfl⟩ := Option.map_eq_some_iff.mp hadd
  exact ⟨_, by rw [addMachine, hlist']; rfl, ⟨hok⟩⟩

theorem MachineTable.Ok.remove (h : t.Ok l) (hc : c ∈ l) :
    ∃ t', removeMachine t c = some t' ∧ t'.Ok (l.erase c) := by
  obtain ⟨links, hunlink, hlinked⟩ := h.list.unlink hc
  refine ⟨_, by rw [removeMachine, hunlink]; rfl, ⟨h.list.erase hlinked ?_⟩⟩
  by_cases hneg : links.iIndexStart < 0
  · rw [if_pos hneg, hlinked.start_neg_iff.mp hneg]
    rfl
  · rw [if_neg hneg]
    exact h.list.wordDec_wCount machineNodes_lt hc

theorem setLocalMachine_list (env : MachineEnv) (t : MachineTable) (p : Option Nat) :
    (setLocalMachine env t p).2.list = t.list := by
  cases p with
  | none =>
    by_cases hzero : t.iMachineId = 0
    · simp [setLocalMachine, hzero]
    · simp [setLocalMachine, hzero]
  | some pInfo =>
    simp only [setLocalMachine]
    split
    · rfl
    · rfl

theorem MachineTable.Ok.readMachineRow (h : t.Ok l) (env : MachineEnv) (row : MachineRow) :
    ∃ o t' l', readMachineRow env t row = some (o, t') ∧ t'.Ok l' := by
  have hstored : ∃ t' l', storeMachine env row t (getMachineInfo t row.xrk_id) = some t' ∧
      t'.Ok l' := by
    cases hfind : search machineRows t.list.id row.xrk_id with
    | some c =>
      rw [getMachineInfo, searchEx_of_some hfind, storeMachine]
      split
      · exact ⟨_, l, rfl, ⟨h.list⟩⟩
      · exact ⟨t, l, rfl, h⟩
    | none =>
      rw [getMachineInfo, searchEx_of_none hfind]
      cases hfree : (idPath machineRows row.xrk_id).find? fun c => t.list.id c == 0 with
      | none => exact ⟨t, l, rfl, h⟩
      | some c =>
        obtain ⟨hc, hzero⟩ := searchEx_free hfree
        obtain ⟨t', hadd, hok⟩ := h.add env row (lt_of_mem_idPath machineRows_pos hc) hzero
        exact ⟨t', c :: l, hadd, hok⟩
  unfold Config.readMachineRow
  by_cases hstatus : row.xrk_status = RECORD_STATUS_USE
  · obtain ⟨t', l', hstore, hok⟩ := hstored
    simp only [hstatus, if_true, hstore]
    refine ⟨_, (setLocalMachine env t' (getMachineInfo t row.xrk_id).2).2, l', rfl, ⟨?_⟩⟩
    rw [setLocalMachine_list]
    exact hok.list
  · simp only [hstatus, if_false]
    cases hfind : search machineRows t.list.id row.xrk_id with
    | none =>
      rw [getMachineInfo, searchEx_of_none hfind]
      exact ⟨.done, t, l, rfl, h⟩
    | some c =>
      obtain ⟨hpath, hid⟩ := search_some hfind
      have hc : c ∈ l := (h.list.mem c).mpr
        ⟨lt_of_mem_idPath machineRows_pos hpath, hid ▸ row.xrk_id_ne⟩
      obtain ⟨t', hremove, hok⟩ := h.remove hc
      rw [getMachineInfo, searchEx_of_some hfind]
      exact ⟨.done, t', l.erase c, by simp [hremove], hok⟩

end Rows

/-- The three tables in shared memory. -/
structure ConfigShm where
  apps : AppTable
  configs : ConfigTable
  machines : MachineTable

def emptyShm : ConfigShm where
  apps := emptyApps
  configs := emptyConfigs
  machines := emptyMachines

/-- A row of one of the tables, with what the rest of the program gives while it is read. -/
inductive ListRow
  | app (env : AppEnv) (row : AppRow)
  | config (env : ConfigEnv) (row : ConfigRow)
  | machine (env : MachineEnv) (row : MachineRow)

def listStep (s : ConfigShm) : ListRow → Option (RowOut × ConfigShm)
  | .app env row => (readAppRow env s.apps row).map fun apps => (.done, { s with apps := apps })
  | .config env row =>
    (readConfigRow env s.apps s.configs row).map fun configs =>
      (.done, { s with configs := configs })
  | .machine env row =>
    (readMachineRow env s.machines row).map fun r => (r.1, { s with machines := r.2 })

/-- The list of every table is about its slots in use. -/
structure ConfigShm.Ok (s : ConfigShm) : Prop where
  apps : ∃ l, s.apps.Ok l
  configs : ∃ l, s.configs.Ok l
  machines : ∃ l, s.machines.Ok l

theorem ConfigShm.Ok.listStep (s : ConfigShm) (a : ListRow) (h : s.Ok) (_ : True) :
    ∃ o s', listStep s a = some (o, s') ∧ True ∧ s'.Ok := by
  cases a with
  | app env row =>
    obtain ⟨l, hl⟩ := h.apps
    obtain ⟨apps, l', hrow, hok, -⟩ := hl.readAppRow env row
    exact ⟨.done, { s with apps := apps }, by rw [Config.listStep, hrow]; rfl, trivial,
      ⟨l', hok⟩, h.configs, h.machines⟩
  | config env row =>
    obtain ⟨l, hl⟩ := h.configs
    obtain ⟨configs, l', hrow, hok⟩ := hl.readConfigRow env s.apps row
    exact ⟨.done, { s with configs := configs }, by rw [Config.listStep, hrow]; rfl, trivial,
      h.apps, ⟨l', hok⟩, h.machines⟩
  | machine env row =>
    obtain ⟨l, hl⟩ := h.machines
    obtain ⟨o, machines, l', hrow, hok⟩ := hl.readMachineRow env row
    exact ⟨o, { s with machines := machines }, by rw [Config.listStep, hrow]; rfl, trivial,
      h.apps, h.configs, ⟨l', hok⟩⟩

/-- A row of application 1, which was deleted before shared memory had it. -/
def deletedApp : AppRow where
  app_id := 1
  xrk_status := 1
  update_time := 7
  app_name := none
  app_id_ne := by decide

end XrkMonitor.Config
