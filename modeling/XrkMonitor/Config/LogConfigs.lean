import XrkMonitor.Config.Apps

/-!
# The table of log configurations

`ReadTableConfigInfo` brings the rows of `mt_log_config` into shared memory. A row
in use needs the slot of its application and of its module; it is added to the
first free slot or updates its own slot.

## Implementation notes

The modules of an application are read from another table, so the look-up
`GetAppModuleInfo` is an input of a row, given for an application that has a slot.
-/

namespace XrkMonitor.Config

open Library

def MAX_SLOG_CONFIG_COUNT : Nat := 2000

/-- The fields of `SLogClientConfig` besides its id, test keys and links. -/
structure SLogClientConfig where
  dwConfigSeq : Nat
  iAppId : Int
  iModuleId : Int
  iLogType : Int
  dwSpeedFreq : Nat
  wTestKeyCount : Nat

/-- The log configurations of `SLogConfig` with their list in `MtSystemConfig`. -/
structure ConfigTable where
  list : SlotList
  dwSLogConfigCount : Nat
  stConfig : Nat → SLogClientConfig

/-- A row of `mt_log_config`. -/
structure ConfigRow where
  config_id : Int
  app_id : Int
  module_id : Int
  log_types : Int
  write_speed : Nat
  xrk_status : Int
  config_id_ne : config_id ≠ 0

/-- What `ReadTableConfigInfo` takes from other parts of the program. -/
structure ConfigEnv where
  getAppModuleInfo : Nat → Int → Option Nat
  rand : Nat

/-- Zeroed memory. -/
def emptyConfigs : ConfigTable where
  list := SlotList.empty
  dwSLogConfigCount := 0
  stConfig := fun _ =>
    { dwConfigSeq := 0
      iAppId := 0
      iModuleId := 0
      iLogType := 0
      dwSpeedFreq := 0
      wTestKeyCount := 0 }

def getSlogConfig (t : ConfigTable) (iConfigId : Int) (bFirstFree : Bool) :
    Option Nat × Option Nat :=
  getSlot MAX_SLOG_CONFIG_COUNT t.list.id t.dwSLogConfigCount bFirstFree iConfigId

/-- `stLogConfig`, the configuration of a row. -/
def rowConfig (env : ConfigEnv) (row : ConfigRow) : SLogClientConfig where
  dwConfigSeq := env.rand
  iAppId := row.app_id
  iModuleId := row.module_id
  iLogType := row.log_types
  dwSpeedFreq := row.write_speed
  wTestKeyCount := 0

/-- The fields of a row go into its slot, and a change moves the sequence number on. -/
def updateConfig (row : ConfigRow) (info : SLogClientConfig) : SLogClientConfig :=
  let bChanged := info.iAppId != row.app_id || info.iModuleId != row.module_id ||
    info.dwSpeedFreq != row.write_speed || info.iLogType != row.log_types
  { info with
    iAppId := row.app_id
    iModuleId := row.module_id
    dwSpeedFreq := row.write_speed
    iLogType := row.log_types
    dwConfigSeq := if bChanged then wordInc 32 info.dwConfigSeq else info.dwConfigSeq }

/-- A new configuration goes into a free slot. -/
def addConfig (env : ConfigEnv) (row : ConfigRow) (t : ConfigTable) (iFirstFree : Nat) :
    Option ConfigTable := do
  let list ← (t.list.setId iFirstFree row.config_id).addFirst MAX_SLOG_CONFIG_COUNT
    (t.list.wCount == 0) iFirstFree
  some
    { list := list
      dwSLogConfigCount := wordInc 32 t.dwSLogConfigCount
      stConfig := Function.update t.stConfig iFirstFree (rowConfig env row) }

def removeConfig (t : ConfigTable) (iMatch : Nat) : Option ConfigTable := do
  let list ← t.list.removeSlot MAX_SLOG_CONFIG_COUNT iMatch
  some
    { t with
      list := list
      dwSLogConfigCount := wordDec 32 t.dwSLogConfigCount }

/-- One row of `ReadTableConfigInfo`. -/
def readConfigRow (env : ConfigEnv) (apps : AppTable) (t : ConfigTable) (row : ConfigRow) :
    Option ConfigTable :=
  let iMatchApp := (getAppInfo apps row.app_id false).1
  let iMatchModule := iMatchApp.bind fun iAppIndex => env.getAppModuleInfo iAppIndex row.module_id
  let found := getSlogConfig t row.config_id true
  if row.xrk_status = RECORD_STATUS_USE then
    if iMatchApp.isSome && iMatchModule.isSome then
      match found.1 with
      | none =>
        match found.2 with
        | none => some t
        | some iFirstFreeConfig => addConfig env row t iFirstFreeConfig
      | some iMatch =>
        some
          { t with
            stConfig := Function.update t.stConfig iMatch (updateConfig row (t.stConfig iMatch)) }
    else some t
  else
    match found.1 with
    | none => some t
    | some iMatch => removeConfig t iMatch

/-- What the rows keep. -/
structure ConfigTable.Ok (t : ConfigTable) (l : List Nat) : Prop where
  list : t.list.Ok MAX_SLOG_CONFIG_COUNT l
  count : t.dwSLogConfigCount = l.length

section Rows

variable {t : ConfigTable} {l : List Nat} {c : Nat}

theorem emptyConfigs_ok : emptyConfigs.Ok [] := ⟨SlotList.empty_ok _, rfl⟩

theorem ConfigTable.Ok.add (h : t.Ok l) (env : ConfigEnv) (row : ConfigRow)
    (hlt : c < MAX_SLOG_CONFIG_COUNT) (hfree : t.list.id c = 0) :
    ∃ t', addConfig env row t c = some t' ∧ t'.Ok (c :: l) := by
  have hfirst : (t.list.wCount == 0) = true ↔ l = [] := by
    rw [beq_iff_eq, h.list.len, List.length_eq_zero_iff]
  obtain ⟨list, hadd, -, hok⟩ := h.list.add (by decide) hlt hfree hfirst row.config_id_ne
  refine ⟨_, by rw [addConfig, hadd]; rfl, hok, ?_⟩
  have hle : l.length ≤ 2000 := h.list.length_le
  change wordInc 32 t.dwSLogConfigCount = _
  rw [h.count, wordInc_of_lt (by omega)]
  rfl

theorem ConfigTable.Ok.remove (h : t.Ok l) (hc : c ∈ l) :
    ∃ t', removeConfig t c = some t' ∧ t'.Ok (l.erase c) := by
  obtain ⟨list, hremove, -, hok⟩ := h.list.remove (by decide) hc
  refine ⟨_, by rw [removeConfig, hremove]; rfl, hok, ?_⟩
  have hpos : 0 < l.length := List.length_pos_of_mem hc
  have hle : l.length ≤ 2000 := h.list.length_le
  change wordDec 32 t.dwSLogConfigCount = _
  rw [h.count, wordDec_of_pos hpos (by omega), List.length_erase_of_mem hc]

theorem ConfigTable.Ok.readConfigRow (h : t.Ok l) (env : ConfigEnv) (apps : AppTable)
    (row : ConfigRow) : ∃ t' l', readConfigRow env apps t row = some t' ∧ t'.Ok l' := by
  have hcount : (t.dwSLogConfigCount : Int) = l.length := by rw [h.count]
  have hfst : (getSlogConfig t row.config_id true).1 = _ :=
    h.list.getSlot_fst hcount row.config_id_ne
  unfold Config.readConfigRow
  simp only [hfst]
  cases hfind : slotWith MAX_SLOG_CONFIG_COUNT t.list.id row.config_id with
  | some c =>
    have hc := h.list.mem_of_slotWith row.config_id_ne hfind
    split
    · split
      · exact ⟨_, l, rfl, h.list, h.count⟩
      · exact ⟨t, l, rfl, h⟩
    · obtain ⟨t', hremove, hok⟩ := h.remove hc
      exact ⟨t', l.erase c, hremove, hok⟩
  | none =>
    have hsnd : (getSlogConfig t row.config_id true).2 = _ := SlotList.getSlot_snd hfind
    rw [hsnd]
    split
    · split
      · cases hfree : slotWith MAX_SLOG_CONFIG_COUNT t.list.id 0 with
        | none => exact ⟨t, l, rfl, h⟩
        | some f =>
          obtain ⟨hlt, hzero⟩ := slotWith_some hfree
          obtain ⟨t', hadd, hok⟩ := h.add env row hlt hzero
          exact ⟨t', f :: l, hadd, hok⟩
      · exact ⟨t, l, rfl, h⟩
    · exact ⟨t, l, rfl, h⟩

end Rows

end XrkMonitor.Config
