import Mathlib.Logic.Function.Basic
import XrkMonitor.Library.Run
import XrkMonitor.Sync.LogConfig

/-!
# The cached log configuration of a process

A process looks its log configuration up once and keeps a pointer to the row
(`pCurConfigInfo`). The agent goes on to sort new rows in and to move rows up over deleted ones,
and the pointer stays where it is. It names the process's configuration as long as only rows
behind it come and go.

## Implementation notes

A change of a response is one step; the process reads each field in a step of its own. A row
beyond the count keeps what it had, as after `memmove`. A special log has the ids that its slot
has from an earlier log, and `0` is an id that the agent has still to find. `versions` is history:
the ids that the process's configuration had since the call began.
-/

namespace XrkMonitor.CachedConfig

open Library Sync

inductive LogPc
  | off
  | init
  | idle
  | find
  | check
  | freq
  | slot
  | appId
  | moduleId
  | cfgId
  | special
deriving DecidableEq

/-- `stLogInfo.pCurConfigInfo` and the local variables of `MtReport_Init_ByKey` and `MtReport_Log`;
`pCfg` is the pointer of the call. -/
structure Writer where
  pc : LogPc
  pCurConfigInfo : Option Nat
  i : Nat
  pCfg : Nat
  iLogType : Int32
  cIsTest : Bool
  iAppId : Int32
  iModuleId : Int32
deriving DecidableEq

/-- The ids of a log record, and the ids that the configuration had during the call. -/
structure Record where
  iAppId : Int32
  iModuleId : Int32
  dwLogConfigId : UInt32
  special : Bool
  versions : List (Int32 × Int32)
deriving DecidableEq

structure State where
  stLogConfig : Nat → SLogConfig
  wLogConfigCount : Nat
  writer : Writer
  versions : List (Int32 × Int32)
  records : List Record

/-- What a step of the process takes from outside: the time, the flag of the frequency window,
whether a slot of the ring is free, and the ids that a special slot has. -/
structure WriteEnv where
  qwTimeMs : UInt64
  freqFlag : Bool
  slotFree : Bool
  iAppId : Int32
  iModuleId : Int32

inductive Event
  | change (ch : Change Nat MtSLogConfig)
  | start
  | call (iLogType : Int32) (cIsTest : Bool)
  | write (env : WriteEnv)

/-- The rows of the table. -/
def State.rows (s : State) : List SLogConfig := (List.range s.wLogConfigCount).map s.stLogConfig

/-- The app and the module of a row. -/
def idsOf (r : SLogConfig) : Int32 × Int32 := (r.iAppId, r.iModuleId)

/-- The ids of the process's configuration in a table. -/
def ownIds (dwLogCfgId : UInt32) (rows : List SLogConfig) : List (Int32 × Int32) :=
  (rows.filter fun r => r.dwCfgId = dwLogCfgId).map idsOf

/-- No process runs, and the agent has no rows. -/
def startState : State where
  stLogConfig := fun _ => SLogConfig.zero
  wLogConfigCount := 0
  writer := ⟨.off, none, 0, 0, 0, false, 0, 0⟩
  versions := []
  records := []

section Steps

variable (dwLogCfgId : UInt32)

/-- Rows are written over the array. -/
def setRows (s : State) (rows : List SLogConfig) : State :=
  { s with
    stLogConfig := fun k => (rows[k]?).getD (s.stLogConfig k)
    wLogConfigCount := rows.length
    versions := s.versions ++ ownIds dwLogCfgId rows }

/-- The rows after one change of `DealRespCheckLogConfig`. -/
def changeRows (rows : List SLogConfig) (ch : Change Nat MtSLogConfig) : Option (List SLogConfig) :=
  applyChanges cmpSLogConfig configRows MAX_LOG_CONFIG_COUNT (fun _ => false) (fun _ => false) 0
    [ch] none rows

/-- A row with the counters of the frequency window; `none` if the log is refused. -/
def countLog (env : WriteEnv) (r : SLogConfig) : SLogConfig × Bool :=
  let r :=
    if r.dwSpeedFreq ≠ 0 ∧ r.qwLastFreqTime + 60000 ≤ env.qwTimeMs ∧ env.freqFlag then
      { r with qwLastFreqTime := env.qwTimeMs, iWriteLogCount := 0 }
    else r
  if r.dwSpeedFreq ≠ 0 ∧ r.iWriteLogCount > r.dwSpeedFreq.toInt32 then (r, false)
  else ({ r with iWriteLogCount := r.iWriteLogCount + 1 }, true)

/-- One step of `MtReport_Init_ByKey` or `MtReport_Log`. -/
def writeStep (env : WriteEnv) (s : State) : State :=
  let w := s.writer
  let row := s.stLogConfig w.pCfg
  match w.pc with
  | .off | .idle => s
  | .init =>
    if w.i < s.wLogConfigCount then
      if (s.stLogConfig w.i).dwCfgId = dwLogCfgId then
        { s with writer := { w with pc := .idle, pCurConfigInfo := some w.i } }
      else { s with writer := { w with i := w.i + 1 } }
    else { s with writer := { w with pc := .idle } }
  | .find =>
    if w.i < s.wLogConfigCount then
      if (s.stLogConfig w.i).dwCfgId = dwLogCfgId then
        { s with writer := { w with pc := .check, pCurConfigInfo := some w.i, pCfg := w.i } }
      else { s with writer := { w with i := w.i + 1 } }
    else { s with writer := { w with pc := .special } }
  | .check =>
    if ¬ w.cIsTest ∧ row.iLogType &&& w.iLogType = 0 then
      { s with writer := { w with pc := .idle } }
    else { s with writer := { w with pc := .freq } }
  | .freq =>
    let counted := countLog env row
    { s with
      stLogConfig := Function.update s.stLogConfig w.pCfg counted.1
      writer := { w with pc := if counted.2 then .slot else .idle } }
  | .slot => { s with writer := { w with pc := if env.slotFree then .appId else .special } }
  | .appId => { s with writer := { w with pc := .moduleId, iAppId := row.iAppId } }
  | .moduleId => { s with writer := { w with pc := .cfgId, iModuleId := row.iModuleId } }
  | .cfgId =>
    { s with
      writer := { w with pc := .idle }
      records := s.records ++ [⟨w.iAppId, w.iModuleId, row.dwCfgId, false, s.versions⟩] }
  | .special =>
    { s with
      writer := { w with pc := .idle }
      records := s.records ++ [⟨env.iAppId, env.iModuleId, dwLogCfgId, true, s.versions⟩] }

def step (s : State) : Event → State
  | .change ch =>
    match changeRows s.rows ch with
    | some rows => setRows dwLogCfgId s rows
    | none => s
  | .start => if s.writer.pc = .off then { s with writer := { s.writer with pc := .init } } else s
  | .call iLogType cIsTest =>
    if s.writer.pc = .idle ∧ dwLogCfgId ≠ 0 then
      { s with
        writer :=
          match s.writer.pCurConfigInfo with
          | some p =>
            { s.writer with pc := .check, pCfg := p, iLogType := iLogType, cIsTest := cIsTest }
          | none => { s.writer with pc := .find, i := 0, iLogType := iLogType, cIsTest := cIsTest }
        versions := ownIds dwLogCfgId s.rows }
    else s
  | .write env => writeStep dwLogCfgId env s

def run (es : List Event) : State := es.foldl (step dwLogCfgId) startState

/-- A record names the process's configuration, with ids that the configuration had during the
call, or ids that are still to be found. -/
def RecordRight (r : Record) : Prop :=
  r.dwLogConfigId = dwLogCfgId ∧
    ((r.iAppId, r.iModuleId) ∈ r.versions ∨ (r.special = true ∧ r.iAppId = 0))

/-- The change leaves the row of the process where it is. -/
def LeavesRow (rows : List SLogConfig) : Change Nat MtSLogConfig → Prop
  | .add v => dwLogCfgId < v.dwCfgId ∨ MAX_LOG_CONFIG_COUNT ≤ rows.length
  | .mod _ => True
  | .del k => dwLogCfgId.toNat < k ∨ k ∉ rows.map configRows.key

/-- A modification between the reads of the two ids changes one of them at most. -/
def KeepsIds (s : State) : Change Nat MtSLogConfig → Prop
  | .mod v => v.dwCfgId = dwLogCfgId → s.writer.pc = .moduleId →
      v.iAppId = s.writer.iAppId ∨ v.iModuleId = (s.stLogConfig s.writer.pCfg).iModuleId
  | _ => True

/-- With a cached row, rows come and go behind it only; and a special log takes a slot that has no
ids. -/
def StepOk (s : State) : Event → Prop
  | .change ch =>
    (s.writer.pCurConfigInfo ≠ none → LeavesRow dwLogCfgId s.rows ch) ∧ KeepsIds dwLogCfgId s ch
  | .write env => s.writer.pc = .special → env.iAppId = 0
  | _ => True

instance (rows : List SLogConfig) : ∀ ch, Decidable (LeavesRow dwLogCfgId rows ch)
  | .add _ => inferInstanceAs (Decidable (_ ∨ _))
  | .mod _ => inferInstanceAs (Decidable True)
  | .del _ => inferInstanceAs (Decidable (_ ∨ _))

instance (s : State) : ∀ ch, Decidable (KeepsIds dwLogCfgId s ch)
  | .mod _ => inferInstanceAs (Decidable (_ → _))
  | .add _ | .del _ => inferInstanceAs (Decidable True)

instance StepOk.decidable (s : State) : ∀ e, Decidable (StepOk dwLogCfgId s e)
  | .change _ => inferInstanceAs (Decidable (_ ∧ _))
  | .write _ => inferInstanceAs (Decidable (_ → _))
  | .start | .call _ _ => inferInstanceAs (Decidable True)

end Steps

section Rows

variable {dwLogCfgId : UInt32} {s : State} {rows rows' : List SLogConfig} {r : SLogConfig} {p : Nat}

theorem rows_getElem? (hp : p < s.wLogConfigCount) : s.rows[p]? = some (s.stLogConfig p) := by
  rw [State.rows, List.getElem?_map, List.getElem?_range hp]
  rfl

theorem lt_count (h : s.rows[p]? = some r) : p < s.wLogConfigCount ∧ s.stLogConfig p = r := by
  obtain ⟨hp, hr⟩ := List.getElem?_eq_some_iff.mp h
  have hlt : p < s.wLogConfigCount := by
    rw [State.rows, List.length_map, List.length_range] at hp
    exact hp
  rw [rows_getElem? hlt] at h
  exact ⟨hlt, Option.some.inj h⟩

@[simp]
theorem rows_setRows (dwLogCfgId : UInt32) (s : State) (rows : List SLogConfig) :
    (setRows dwLogCfgId s rows).rows = rows := by
  apply List.ext_getElem?
  intro k
  by_cases hk : k < rows.length
  · rw [rows_getElem? hk]
    simp only [setRows, List.getElem?_eq_getElem hk, Option.getD_some]
  · rw [List.getElem?_eq_none (not_lt.mp hk), List.getElem?_eq_none]
    rw [State.rows, List.length_map, List.length_range]
    exact not_lt.mp hk

theorem mem_ownIds (hr : r ∈ rows) (hid : r.dwCfgId = dwLogCfgId) : idsOf r ∈ ownIds dwLogCfgId rows :=
  List.mem_map_of_mem (List.mem_filter.mpr ⟨hr, decide_eq_true hid⟩)

theorem configRows_compares : ComparesOn cmpSLogConfig Set.univ := cmpSLogConfig_comparesOn _

/-- What a change does to the rows: they stay in order, and a row of the process that is left where
it is keeps its ids or takes those of a modification. -/
structure RowsChanged (dwLogCfgId : UInt32) (rows rows' : List SLogConfig)
    (ch : Change Nat MtSLogConfig) : Prop where
  sorted : rows'.Pairwise fun a b => configRows.key a ≤ configRows.key b
  row : ∀ (p : Nat) (r : SLogConfig), rows[p]? = some r → r.dwCfgId = dwLogCfgId → LeavesRow dwLogCfgId rows ch →
    ∃ r', rows'[p]? = some r' ∧ r'.dwCfgId = dwLogCfgId ∧
      (r' = r ∨ ∃ v, ch = .mod v ∧ v.dwCfgId = dwLogCfgId ∧ r' = netLogConfigToLocal r v)

theorem RowsChanged.refl (dwLogCfgId : UInt32) {ch : Change Nat MtSLogConfig}
    (hsort : rows.Pairwise fun a b => configRows.key a ≤ configRows.key b) :
    RowsChanged dwLogCfgId rows rows ch :=
  ⟨hsort, fun _ r hr hid _ => ⟨r, hr, hid, Or.inl rfl⟩⟩

theorem rowsChanged_add (dwLogCfgId : UInt32) (v : MtSLogConfig)
    (hsort : rows.Pairwise fun a b => configRows.key a ≤ configRows.key b)
    (hroom : ¬ MAX_LOG_CONFIG_COUNT ≤ rows.length) :
    RowsChanged dwLogCfgId rows (qsort cmpSLogConfig configRows.key (rows ++ [configRows.fresh v]))
      (.add v) := by
  refine ⟨pairwise_le_qsort configRows_compares fun _ _ => trivial, ?_⟩
  intro p r hr hid hleaves
  have hlt : configRows.key r < configRows.key (configRows.fresh v) := by
    rw [configRows.key_fresh]
    have hkey : configRows.key r = dwLogCfgId.toNat := congrArg UInt32.toNat hid
    rw [hkey]
    exact UInt32.lt_iff_toNat_lt.mp (hleaves.resolve_right hroom)
  exact ⟨r, getElem?_qsort_concat configRows_compares (fun _ _ => trivial) hsort hr hlt, hid,
    Or.inl rfl⟩

theorem rowsChanged_mod {v : MtSLogConfig} {j : Nat}
    (hsort : rows.Pairwise fun a b => configRows.key a ≤ configRows.key b)
    (hj : searchKey cmpSLogConfig configRows.key (configRows.id v) rows = some j) :
    RowsChanged dwLogCfgId rows (rows.modify j fun r => configRows.assign r v) (.mod v) := by
  obtain ⟨l₁, r₀, l₂, rfl, rfl, hkey⟩ :=
    searchKey_some configRows_compares (fun _ _ => trivial) trivial hj
  have hsplit : (l₁ ++ r₀ :: l₂).modify l₁.length (fun r => configRows.assign r v) =
      l₁ ++ configRows.assign r₀ v :: l₂ := by
    rw [List.modify_eq_take_cons_drop (by simp)]
    simp
  refine ⟨?_, ?_⟩
  · rw [hsplit]
    rw [List.pairwise_append, List.pairwise_cons] at hsort ⊢
    refine ⟨hsort.1, ⟨?_, hsort.2.1.2⟩, ?_⟩
    · intro b hb
      rw [configRows.key_assign, ← hkey]
      exact hsort.2.1.1 b hb
    · intro a ha b hb
      rcases List.mem_cons.mp hb with rfl | hb
      · rw [configRows.key_assign, ← hkey]
        exact hsort.2.2 a ha r₀ List.mem_cons_self
      · exact hsort.2.2 a ha b (List.mem_cons_of_mem _ hb)
  · intro p r hr hid _
    rw [List.getElem?_modify, hr]
    by_cases hp : l₁.length = p
    · have hr₀ : r₀ = r := by
        rw [← hp, List.getElem?_append_right le_rfl, Nat.sub_self] at hr
        exact Option.some.inj hr
      have hv : v.dwCfgId = dwLogCfgId := by
        rw [← hid, ← hr₀]
        exact UInt32.toNat_inj.mp hkey.symm
      exact ⟨netLogConfigToLocal r v, by simp [hp, configRows], hv, Or.inr ⟨v, rfl, hv, rfl⟩⟩
    · exact ⟨r, by simp [hp], hid, Or.inl rfl⟩

theorem rowsChanged_del {k j : Nat}
    (hsort : rows.Pairwise fun a b => configRows.key a ≤ configRows.key b)
    (hj : searchKey cmpSLogConfig configRows.key k rows = some j) :
    RowsChanged dwLogCfgId rows (rows.eraseIdx j) (.del k) := by
  obtain ⟨l₁, r₀, l₂, rfl, rfl, hkey⟩ :=
    searchKey_some configRows_compares (fun _ _ => trivial) trivial hj
  refine ⟨hsort.sublist (List.eraseIdx_sublist _ _), ?_⟩
  intro p r hr hid hleaves
  have hpast : dwLogCfgId.toNat < k := by
    refine hleaves.resolve_right fun hnot => hnot ?_
    rw [← hkey]
    exact List.mem_map_of_mem (List.mem_append_right _ List.mem_cons_self)
  have hp : p < l₁.length := by
    by_contra hnot
    have hmem : r ∈ r₀ :: l₂ := by
      rw [List.getElem?_append_right (not_lt.mp hnot)] at hr
      exact List.mem_of_getElem? hr
    have hle : configRows.key r₀ ≤ configRows.key r := by
      rcases List.mem_cons.mp hmem with rfl | hmem
      · exact le_rfl
      · rw [List.pairwise_append, List.pairwise_cons] at hsort
        exact hsort.2.1.1 r hmem
    have hr' : configRows.key r = dwLogCfgId.toNat := congrArg UInt32.toNat hid
    omega
  refine ⟨r, ?_, hid, Or.inl rfl⟩
  rw [List.getElem?_eraseIdx_of_lt hp]
  exact hr

theorem changeRows_spec (dwLogCfgId : UInt32) (ch : Change Nat MtSLogConfig)
    (hsort : rows.Pairwise fun a b => configRows.key a ≤ configRows.key b) :
    ∃ rows', changeRows rows ch = some rows' ∧ RowsChanged dwLogCfgId rows rows' ch := by
  cases ch with
  | add v =>
    by_cases hroom : MAX_LOG_CONFIG_COUNT ≤ rows.length
    · exact ⟨rows, by simp [changeRows, applyChanges, hroom], RowsChanged.refl _ hsort⟩
    · exact ⟨_, by simp [changeRows, applyChanges, hroom],
        rowsChanged_add dwLogCfgId v hsort hroom⟩
  | mod v =>
    cases hj : searchKey cmpSLogConfig configRows.key (configRows.id v) rows with
    | none => exact ⟨rows, by simp [changeRows, applyChanges, hj], RowsChanged.refl _ hsort⟩
    | some j =>
      exact ⟨_, by simp [changeRows, applyChanges, hj], rowsChanged_mod hsort hj⟩
  | del k =>
    cases hj : searchKey cmpSLogConfig configRows.key k rows with
    | none => exact ⟨rows, by simp [changeRows, applyChanges, hj], RowsChanged.refl _ hsort⟩
    | some j =>
      exact ⟨_, by simp [changeRows, applyChanges, hj], rowsChanged_del hsort hj⟩

end Rows

section Invariant

variable {dwLogCfgId : UInt32} {s : State}

/-- The call has a row. -/
def WithRow : LogPc → Prop
  | .check | .freq | .slot | .appId | .moduleId | .cfgId => True
  | _ => False

/-- What holds after every step: the cached row is one of the process's configuration, and the ids
that a call has read are ids that the configuration had. -/
structure Inv (dwLogCfgId : UInt32) (s : State) : Prop where
  sorted : s.rows.Pairwise fun a b => configRows.key a ≤ configRows.key b
  cached : ∀ p, s.writer.pCurConfigInfo = some p →
    ∃ r, s.rows[p]? = some r ∧ r.dwCfgId = dwLogCfgId
  withRow : WithRow s.writer.pc → s.writer.pCurConfigInfo = some s.writer.pCfg
  versions : ∀ ids ∈ ownIds dwLogCfgId s.rows, ids ∈ s.versions
  moduleId : s.writer.pc = .moduleId →
    (s.writer.iAppId, (s.stLogConfig s.writer.pCfg).iModuleId) ∈ s.versions
  cfgId : s.writer.pc = .cfgId → (s.writer.iAppId, s.writer.iModuleId) ∈ s.versions
  records : ∀ r ∈ s.records, RecordRight dwLogCfgId r

theorem inv_startState (dwLogCfgId : UInt32) : Inv dwLogCfgId startState where
  sorted := List.Pairwise.nil
  cached := fun _ h => by cases h
  withRow := fun h => h.elim
  versions := fun _ h => by cases h
  moduleId := fun h => by cases h
  cfgId := fun h => by cases h
  records := fun _ h => by cases h

theorem Inv.row (h : Inv dwLogCfgId s) (hrow : WithRow s.writer.pc) :
    s.rows[s.writer.pCfg]? = some (s.stLogConfig s.writer.pCfg) ∧
      (s.stLogConfig s.writer.pCfg).dwCfgId = dwLogCfgId ∧
      idsOf (s.stLogConfig s.writer.pCfg) ∈ s.versions := by
  obtain ⟨r, hr, hid⟩ := h.cached _ (h.withRow hrow)
  obtain ⟨hlt, rfl⟩ := lt_count hr
  exact ⟨hr, hid, h.versions _ (mem_ownIds (List.mem_of_getElem? hr) hid)⟩

/-- A change keeps the invariant. -/
theorem Inv.change (h : Inv dwLogCfgId s) {ch : Change Nat MtSLogConfig}
    (hok : StepOk dwLogCfgId s (.change ch)) : Inv dwLogCfgId (step dwLogCfgId s (.change ch)) := by
  obtain ⟨rows', hrows', hch⟩ := changeRows_spec dwLogCfgId ch h.sorted
  rw [step, hrows']
  refine ⟨?_, ?_, h.withRow, ?_, ?_, ?_, h.records⟩
  · rw [rows_setRows]
    exact hch.sorted
  · intro p hp
    obtain ⟨r, hr, hid⟩ := h.cached p hp
    have hleaves : LeavesRow dwLogCfgId s.rows ch := by
      refine hok.1 ?_
      intro hnone
      have hp' : s.writer.pCurConfigInfo = some p := hp
      rw [hnone] at hp'
      cases hp'
    obtain ⟨r', hr', hid', _⟩ := hch.row p r hr hid hleaves
    rw [rows_setRows]
    exact ⟨r', hr', hid'⟩
  · intro ids hids
    rw [rows_setRows] at hids
    exact List.mem_append_right _ hids
  · intro hpc
    have hpc' : s.writer.pc = .moduleId := hpc
    have hrow : WithRow s.writer.pc := by rw [hpc']; trivial
    obtain ⟨hr, hid, _⟩ := h.row hrow
    have hleaves : LeavesRow dwLogCfgId s.rows ch := by
      refine hok.1 ?_
      rw [h.withRow hrow]
      exact Option.some_ne_none _
    obtain ⟨r', hr', hid', hcase⟩ := hch.row _ _ hr hid hleaves
    have hcell : (setRows dwLogCfgId s rows').stLogConfig s.writer.pCfg = r' := by
      simp only [setRows, hr', Option.getD_some]
    show (s.writer.iAppId, ((setRows dwLogCfgId s rows').stLogConfig s.writer.pCfg).iModuleId) ∈
      s.versions ++ ownIds dwLogCfgId rows'
    rw [hcell]
    rcases hcase with rfl | ⟨v, rfl, hv, rfl⟩
    · exact List.mem_append_left _ (h.moduleId hpc')
    · rcases hok.2 hv hpc' with happ | hmod
      · have hids := mem_ownIds (List.mem_of_getElem? hr') hid'
        rw [← happ]
        exact List.mem_append_right _ hids
      · refine List.mem_append_left _ ?_
        have hkeep : (netLogConfigToLocal (s.stLogConfig s.writer.pCfg) v).iModuleId =
            (s.stLogConfig s.writer.pCfg).iModuleId := hmod
        rw [hkeep]
        exact h.moduleId hpc'
  · intro hpc
    exact List.mem_append_left _ (h.cfgId hpc)

theorem Inv.moved (h : Inv dwLogCfgId s) {w : Writer}
    (hcached : ∀ p, w.pCurConfigInfo = some p → ∃ r, s.rows[p]? = some r ∧ r.dwCfgId = dwLogCfgId)
    (hrow : WithRow w.pc → w.pCurConfigInfo = some w.pCfg)
    (hmodule : w.pc = .moduleId → (w.iAppId, (s.stLogConfig w.pCfg).iModuleId) ∈ s.versions)
    (hcfg : w.pc = .cfgId → (w.iAppId, w.iModuleId) ∈ s.versions) :
    Inv dwLogCfgId { s with writer := w } :=
  ⟨h.sorted, hcached, hrow, h.versions, hmodule, hcfg, h.records⟩

theorem Inv.recorded (h : Inv dwLogCfgId s) {r : Record} (hr : RecordRight dwLogCfgId r) :
    Inv dwLogCfgId
      { s with writer := { s.writer with pc := .idle }, records := s.records ++ [r] } := by
  refine ⟨h.sorted, h.cached, fun hrow => hrow.elim, h.versions, ?_, ?_, ?_⟩
  · intro hpc
    cases hpc
  · intro hpc
    cases hpc
  · intro r' hr'
    rcases List.mem_append.mp hr' with hr' | hr'
    · exact h.records r' hr'
    · rw [List.mem_singleton.mp hr']
      exact hr

/-- What the invariant sees of a row. -/
def rowView (r : SLogConfig) : UInt32 × (Int32 × Int32) := (r.dwCfgId, idsOf r)

theorem ownIds_eq (dwLogCfgId : UInt32) (rows : List SLogConfig) :
    ownIds dwLogCfgId rows =
      ((rows.map rowView).filter fun v => v.1 = dwLogCfgId).map Prod.snd := by
  rw [ownIds, List.filter_map, List.map_map]
  rfl

theorem rowView_countLog (env : WriteEnv) (r : SLogConfig) :
    rowView (countLog env r).1 = rowView r := by
  simp only [countLog]
  split_ifs <;> rfl

theorem Inv.sameView (h : Inv dwLogCfgId s) {c : Nat → SLogConfig}
    (hview : ∀ j, rowView (c j) = rowView (s.stLogConfig j)) :
    Inv dwLogCfgId { s with stLogConfig := c } := by
  have hmap : ({ s with stLogConfig := c } : State).rows.map rowView = s.rows.map rowView := by
    rw [State.rows, State.rows, List.map_map, List.map_map]
    exact List.map_congr_left fun j _ => hview j
  refine ⟨?_, ?_, h.withRow, ?_, ?_, h.cfgId, h.records⟩
  · have hsort : (s.rows.map rowView).Pairwise fun a b => a.1.toNat ≤ b.1.toNat :=
      List.pairwise_map.mpr h.sorted
    rw [← hmap] at hsort
    exact List.pairwise_map (f := rowView) (R := fun a b => a.1.toNat ≤ b.1.toNat) |>.mp hsort
  · intro p hp
    obtain ⟨r, hr, hid⟩ := h.cached p hp
    obtain ⟨hlt, rfl⟩ := lt_count hr
    exact ⟨c p, rows_getElem? (s := { s with stLogConfig := c }) hlt,
      (congrArg Prod.fst (hview p)).trans hid⟩
  · intro ids hids
    refine h.versions ids ?_
    rw [ownIds_eq] at hids ⊢
    rwa [hmap] at hids
  · intro hpc
    have hmodule : (c s.writer.pCfg).iModuleId = (s.stLogConfig s.writer.pCfg).iModuleId :=
      congrArg (fun v => v.2.2) (hview s.writer.pCfg)
    have hkept := h.moduleId hpc
    rw [← hmodule] at hkept
    exact hkept

/-- A step of the process keeps the invariant. -/
theorem Inv.write (h : Inv dwLogCfgId s) {env : WriteEnv}
    (hok : StepOk dwLogCfgId s (.write env)) : Inv dwLogCfgId (writeStep dwLogCfgId env s) := by
  have hfound : ∀ i, i < s.wLogConfigCount → (s.stLogConfig i).dwCfgId = dwLogCfgId →
      ∀ p, some i = some p → ∃ r, s.rows[p]? = some r ∧ r.dwCfgId = dwLogCfgId := by
    rintro i hi hid p hp
    cases hp
    exact ⟨_, rows_getElem? hi, hid⟩
  cases hpc : s.writer.pc with
  | off =>
    simp only [writeStep, hpc]
    exact h
  | idle =>
    simp only [writeStep, hpc]
    exact h
  | init =>
    simp only [writeStep, hpc]
    split_ifs with hi hid
    · exact h.moved (hfound _ hi hid) (fun hrow => hrow.elim) (fun hne => by cases hne)
        (fun hne => by cases hne)
    · exact h.moved h.cached (fun hrow => hrow.elim) (fun hne => by cases hne)
        (fun hne => by cases hne)
    · exact h.moved h.cached (fun hrow => hrow.elim) (fun hne => by cases hne)
        (fun hne => by cases hne)
  | find =>
    simp only [writeStep, hpc]
    split_ifs with hi hid
    · exact h.moved (hfound _ hi hid) (fun _ => rfl) (fun hne => by cases hne)
        (fun hne => by cases hne)
    · exact h.moved h.cached (fun hrow => hrow.elim) (fun hne => by cases hne)
        (fun hne => by cases hne)
    · exact h.moved h.cached (fun hrow => hrow.elim) (fun hne => by cases hne)
        (fun hne => by cases hne)
  | check =>
    have hrow : WithRow s.writer.pc := by
      rw [hpc]
      trivial
    simp only [writeStep, hpc]
    split_ifs with htype
    · exact h.moved h.cached (fun hrow => hrow.elim) (fun hne => by cases hne)
        (fun hne => by cases hne)
    · exact h.moved h.cached (fun _ => h.withRow hrow) (fun hne => by cases hne)
        (fun hne => by cases hne)
  | freq =>
    have hrow : WithRow s.writer.pc := by
      rw [hpc]
      trivial
    have hview : ∀ j, rowView (Function.update s.stLogConfig s.writer.pCfg
        (countLog env (s.stLogConfig s.writer.pCfg)).1 j) = rowView (s.stLogConfig j) := by
      intro j
      by_cases hj : j = s.writer.pCfg
      · rw [hj, Function.update_self]
        exact rowView_countLog env _
      · rw [Function.update_of_ne hj]
    simp only [writeStep, hpc]
    have hcount := h.sameView hview
    refine hcount.moved hcount.cached (fun _ => h.withRow hrow) ?_ ?_
    · intro hne
      simp only at hne
      split_ifs at hne
    · intro hne
      simp only at hne
      split_ifs at hne
  | slot =>
    have hrow : WithRow s.writer.pc := by
      rw [hpc]
      trivial
    simp only [writeStep, hpc]
    refine h.moved h.cached (fun _ => h.withRow hrow) ?_ ?_
    · intro hne
      simp only at hne
      split_ifs at hne
    · intro hne
      simp only at hne
      split_ifs at hne
  | appId =>
    have hrow : WithRow s.writer.pc := by
      rw [hpc]
      trivial
    simp only [writeStep, hpc]
    exact h.moved h.cached (fun _ => h.withRow hrow) (fun _ => (h.row hrow).2.2)
      (fun hne => by cases hne)
  | moduleId =>
    have hrow : WithRow s.writer.pc := by
      rw [hpc]
      trivial
    simp only [writeStep, hpc]
    exact h.moved h.cached (fun _ => h.withRow hrow) (fun hne => by cases hne)
      (fun _ => h.moduleId hpc)
  | cfgId =>
    have hrow : WithRow s.writer.pc := by
      rw [hpc]
      trivial
    simp only [writeStep, hpc]
    exact h.recorded ⟨(h.row hrow).2.1, Or.inl (h.cfgId hpc)⟩
  | special =>
    simp only [writeStep, hpc]
    exact h.recorded ⟨rfl, Or.inr ⟨rfl, hok hpc⟩⟩

theorem Inv.step (h : Inv dwLogCfgId s) {e : Event} (hok : StepOk dwLogCfgId s e) :
    Inv dwLogCfgId (step dwLogCfgId s e) := by
  cases e with
  | change ch => exact h.change hok
  | write env => exact h.write hok
  | start =>
    simp only [CachedConfig.step]
    split_ifs with hoff
    · exact h.moved h.cached (fun hrow => hrow.elim) (fun hne => by cases hne)
        (fun hne => by cases hne)
    · exact h
  | call iLogType cIsTest =>
    simp only [CachedConfig.step]
    split_ifs with hidle
    · have hbegun : Inv dwLogCfgId { s with versions := ownIds dwLogCfgId s.rows } := by
        refine ⟨h.sorted, h.cached, h.withRow, fun ids hids => hids, ?_, ?_, h.records⟩
        · intro hne
          cases hidle.1.symm.trans hne
        · intro hne
          cases hidle.1.symm.trans hne
      cases hp : s.writer.pCurConfigInfo with
      | none =>
        refine hbegun.moved ?_ (fun hrow => hrow.elim) (fun hne => by cases hne)
          (fun hne => by cases hne)
        intro q hq
        cases hq
      | some p =>
        refine hbegun.moved ?_ (fun _ => rfl) (fun hne => by cases hne) (fun hne => by cases hne)
        intro q hq
        exact h.cached q (hp.trans hq)
    · exact h

end Invariant

section Runs

theorem step_add (dwLogCfgId : UInt32) (s : State) (v : MtSLogConfig)
    (hroom : s.rows.length < MAX_LOG_CONFIG_COUNT) :
    step dwLogCfgId s (.change (.add v)) =
      setRows dwLogCfgId s (qsort cmpSLogConfig configRows.key (s.rows ++ [configRows.fresh v])) := by
  simp [step, changeRows, applyChanges, not_le.mpr hroom]

/-- A configuration of a response: id, app and module. -/
def cfg (dwCfgId : UInt32) (iAppId iModuleId : Int32) : MtSLogConfig :=
  ⟨1, dwCfgId, iAppId, iModuleId, 1, 0, 0, []⟩

def quietEnv : WriteEnv := ⟨0, false, true, 0, 0⟩

/-- The process has cached the row of its configuration, and no other is there. -/
def cachedState : State :=
  writeStep 5 quietEnv (step 5 (setRows 5 startState [configRows.fresh (cfg 5 50 51)]) .start)

/-- A process caches its row, another configuration comes in, and the process writes a log. -/
def logRun (v : MtSLogConfig) (more : List (Change Nat MtSLogConfig)) : List Event :=
  [.change (.add (cfg 5 50 51)), .start, .write quietEnv, .change (.add v)] ++
    (more.map .change ++ [.call 1 false] ++ List.replicate 6 (.write quietEnv))

theorem step_first :
    step 5 startState (.change (.add (cfg 5 50 51))) =
      setRows 5 startState [configRows.fresh (cfg 5 50 51)] := by
  rw [step_add _ _ _ (by decide)]
  simp [State.rows, startState, qsort]

theorem step_second (v : MtSLogConfig) :
    step 5 cachedState (.change (.add v)) =
      setRows 5 cachedState
        (if cmpSLogConfig 5 v.dwCfgId.toNat ≤ 0 then
          [configRows.fresh (cfg 5 50 51), configRows.fresh v]
        else [configRows.fresh v, configRows.fresh (cfg 5 50 51)]) := by
  have hrows : cachedState.rows = [configRows.fresh (cfg 5 50 51)] := by decide +kernel
  rw [step_add _ _ _ (by rw [hrows]; decide), hrows]
  have hsort : ∀ a b : SLogConfig, qsort cmpSLogConfig configRows.key [a, b] =
      if cmpSLogConfig (configRows.key a) (configRows.key b) ≤ 0 then [a, b] else [b, a] := by
    intro a b
    simp [qsort, List.mergeSort, List.merge, List.MergeSort.Internal.splitInTwo]
  rw [List.singleton_append, hsort]
  rfl

end Runs

end XrkMonitor.CachedConfig
