import XrkMonitor.Config.LogConfigs
import XrkMonitor.Library.Run

/-!
# The frequency limit of logs

`IsLogFreqOver` counts the logs of a configuration in windows of a minute and refuses those beyond
`dwSpeedFreq`. The counters are in the slot of the configuration; the slot is looked up once and
then taken from a static map, while `ReadTableConfigInfo` frees and reuses slots. The test compares
the count after the log with the limit, so the last log that the limit allows is refused.

## Implementation notes

The counters of the slots stand beside the table of configurations; a configuration that is
added brings counters of zero. Ids, times and speeds are numbers, a sum of times is cut to 32 bits.
For the statement a run keeps for each id the requests and the admitted ones of the current
window, and of each request that used counters its id and the id of the slot. Rows that change
the speed of a configuration in use are not part of the runs.
-/

namespace XrkMonitor.Config

open Library

/-- The counters of a slot of `SLogClientConfig`. -/
structure LogFreq where
  dwLogFreqStartTime : Nat
  iLogWriteCount : Int
deriving DecidableEq

/-- Shared memory, and the static variables of `IsLogFreqOver` as slot indices. -/
structure FreqServer where
  table : ConfigTable
  freq : Nat → LogFreq
  st_mapLogConfig : Int → Option Nat
  s_pLogConfig : Option Nat

section Operations

/-- `(int)` of a `uint32_t`. -/
def toInt (x : Nat) : Int :=
  if x % 2 ^ 32 < 2 ^ 31 then (x % 2 ^ 32 : Nat) else (x % 2 ^ 32 : Nat) - 2 ^ 32

/-- The first part of `IsLogFreqOver`: `s_pLogConfig` is brought to the slot of the id. -/
def findLogConfig (s : FreqServer) (dwLogConfigId : Int) : FreqServer :=
  if s.s_pLogConfig.any fun p => s.table.list.id p == dwLogConfigId then s
  else
    match s.st_mapLogConfig dwLogConfigId with
    | some p => { s with s_pLogConfig := some p }
    | none =>
      match (getSlogConfig s.table dwLogConfigId false).1 with
      | none => { s with s_pLogConfig := none }
      | some p =>
        { s with
          s_pLogConfig := some p
          st_mapLogConfig := Function.update s.st_mapLogConfig dwLogConfigId (some p) }

/-- The second part of `IsLogFreqOver` for a slot with a limit. -/
def chargeFreq (dwSpeedFreq dwCurrentTime : Nat) (f : LogFreq) : Bool × LogFreq :=
  if f.dwLogFreqStartTime = 0 ∨ (f.dwLogFreqStartTime + 60) % 2 ^ 32 ≤ dwCurrentTime then
    (false, ⟨dwCurrentTime, 1⟩)
  else if toInt dwSpeedFreq ≤ f.iLogWriteCount + 1 then (true, f)
  else (false, ⟨f.dwLogFreqStartTime, f.iLogWriteCount + 1⟩)

def isLogFreqOver (s : FreqServer) (dwLogConfigId : Int) (dwCurrentTime : Nat) : Bool × FreqServer :=
  let s := findLogConfig s dwLogConfigId
  match s.s_pLogConfig with
  | none => (false, s)
  | some p =>
    if (s.table.stConfig p).dwSpeedFreq ≠ 0 then
      let (refused, f) := chargeFreq (s.table.stConfig p).dwSpeedFreq dwCurrentTime (s.freq p)
      (refused, { s with freq := Function.update s.freq p f })
    else (false, s)

/-- The slot that a row adds a configuration to. -/
def addedSlot (env : ConfigEnv) (apps : AppTable) (t : ConfigTable) (row : ConfigRow) : Option Nat :=
  let iMatchApp := (getAppInfo apps row.app_id false).1
  let iMatchModule := iMatchApp.bind fun iAppIndex => env.getAppModuleInfo iAppIndex row.module_id
  let found := getSlogConfig t row.config_id true
  if row.xrk_status = RECORD_STATUS_USE ∧ iMatchApp.isSome ∧ iMatchModule.isSome ∧ found.1 = none then
    found.2
  else none

/-- A row of `ReadTableConfigInfo`, with the counters of its `memcpy`. -/
def readFreqRow (env : ConfigEnv) (apps : AppTable) (s : FreqServer) (row : ConfigRow) :
    Option FreqServer := do
  let table ← readConfigRow env apps s.table row
  some
    { s with
      table := table
      freq :=
        match addedSlot env apps s.table row with
        | some c => Function.update s.freq c ⟨0, 0⟩
        | none => s.freq }

end Operations

/-- The current window of an id: its start, the requests in it and those that were admitted. -/
structure FreqWindow where
  dwStart : Nat
  requests : Nat
  admitted : Nat
deriving DecidableEq

def FreqWindow.count (w : FreqWindow) (dwCurrentTime : Nat) (refused : Bool) : FreqWindow :=
  if w.requests = 0 ∨ w.dwStart + 60 ≤ dwCurrentTime then
    ⟨dwCurrentTime, 1, if refused then 0 else 1⟩
  else ⟨w.dwStart, w.requests + 1, w.admitted + if refused then 0 else 1⟩

/-- A server with the windows of the ids, and the ids of requests and of the slots they used. -/
structure FreqRun where
  server : FreqServer
  windows : Int → FreqWindow
  charged : List (Int × Int)

inductive FreqEvent
  | row (env : ConfigEnv) (apps : AppTable) (row : ConfigRow)
  | request (dwLogConfigId : Int) (dwCurrentTime : Nat)

/-- The slot of a configuration. -/
def configSlot (t : ConfigTable) (id : Int) : Option Nat :=
  slotWith MAX_SLOG_CONFIG_COUNT t.list.id id

/-- The slot whose counters a request uses. -/
def chargedSlot (s : FreqServer) (dwLogConfigId : Int) : Option Nat :=
  (findLogConfig s dwLogConfigId).s_pLogConfig.filter fun p =>
    (s.table.stConfig p).dwSpeedFreq != 0

def FreqRun.request (r : FreqRun) (dwLogConfigId : Int) (dwCurrentTime : Nat) : FreqRun :=
  let res := isLogFreqOver r.server dwLogConfigId dwCurrentTime
  { server := res.2
    windows := Function.update r.windows dwLogConfigId
      ((r.windows dwLogConfigId).count dwCurrentTime res.1)
    charged :=
      match chargedSlot r.server dwLogConfigId with
      | some p => r.charged ++ [(dwLogConfigId, r.server.table.list.id p)]
      | none => r.charged }

/-- A configuration that comes or goes has no window. -/
def FreqRun.readRow (env : ConfigEnv) (apps : AppTable) (r : FreqRun) (row : ConfigRow) :
    Option FreqRun := do
  let server ← readFreqRow env apps r.server row
  some
    { r with
      server := server
      windows :=
        if (configSlot r.server.table row.config_id).isSome =
            (configSlot server.table row.config_id).isSome then r.windows
        else Function.update r.windows row.config_id ⟨0, 0, 0⟩ }

def freqStep (r : FreqRun) : FreqEvent → Option (Unit × FreqRun)
  | .row env apps row => (r.readRow env apps row).map fun r' => ((), r')
  | .request dwLogConfigId dwCurrentTime => some ((), r.request dwLogConfigId dwCurrentTime)

/-- Zeroed memory and no request yet. -/
def freqStart : FreqRun where
  server := ⟨emptyConfigs, fun _ => ⟨0, 0⟩, fun _ => none, none⟩
  windows := fun _ => ⟨0, 0, 0⟩
  charged := []

/-- Every configuration with a limit has had the least of the requests and the limit admitted in its
window, one without a limit all of them, and only counters of the configuration were used. -/
structure FreqRight (r : FreqRun) : Prop where
  limited : ∀ c < MAX_SLOG_CONFIG_COUNT, r.server.table.list.id c ≠ 0 →
    (r.server.table.stConfig c).dwSpeedFreq ≠ 0 →
    (r.windows (r.server.table.list.id c)).admitted =
      min (r.windows (r.server.table.list.id c)).requests (r.server.table.stConfig c).dwSpeedFreq
  unlimited : ∀ c < MAX_SLOG_CONFIG_COUNT, r.server.table.list.id c ≠ 0 →
    (r.server.table.stConfig c).dwSpeedFreq = 0 →
    (r.windows (r.server.table.list.id c)).admitted =
      (r.windows (r.server.table.list.id c)).requests
  charged : ∀ x ∈ r.charged, x.1 ≠ 0 ∧ x.2 = x.1

/-- The domain of the runs: a row does not change the speed of a configuration in use. -/
def KeepsSpeed (t : ConfigTable) (row : ConfigRow) : Prop :=
  row.xrk_status = RECORD_STATUS_USE →
    ∀ c ∈ configSlot t row.config_id, row.write_speed = (t.stConfig c).dwSpeedFreq

/-- The request is of a configuration whose cached slot is still its own; with a limit, the clock and
a minute fit 32 bits, and the request is the first one of a window, or one before the
last that the limit allows, or the limit is one. -/
def RequestOk (s : FreqServer) (dwLogConfigId : Int) (dwCurrentTime : Nat) : Prop :=
  dwLogConfigId ≠ 0 ∧
    ((∃ p ∈ s.s_pLogConfig, s.table.list.id p = dwLogConfigId) ∨
      ∀ p ∈ s.st_mapLogConfig dwLogConfigId, s.table.list.id p = dwLogConfigId) ∧
    ∀ c ∈ configSlot s.table dwLogConfigId, (s.table.stConfig c).dwSpeedFreq ≠ 0 →
      0 < dwCurrentTime ∧ dwCurrentTime + 60 < 2 ^ 32 ∧
        ((s.freq c).dwLogFreqStartTime = 0 ∨ (s.freq c).dwLogFreqStartTime + 60 ≤ dwCurrentTime ∨
          (s.freq c).iLogWriteCount + 1 < toInt (s.table.stConfig c).dwSpeedFreq ∨
          (s.table.stConfig c).dwSpeedFreq = 1)

instance (t : ConfigTable) (row : ConfigRow) : Decidable (KeepsSpeed t row) :=
  inferInstanceAs (Decidable (_ → ∀ c ∈ configSlot t row.config_id, _))

instance (s : FreqServer) (dwLogConfigId : Int) (dwCurrentTime : Nat) :
    Decidable (RequestOk s dwLogConfigId dwCurrentTime) :=
  inferInstanceAs (Decidable (_ ∧ (_ ∨ _) ∧ ∀ c ∈ configSlot s.table dwLogConfigId, _))

/-- The condition on a step. -/
def FreqOk (r : FreqRun) : FreqEvent → Prop
  | .row _ _ row => KeepsSpeed r.server.table row
  | .request dwLogConfigId dwCurrentTime => RequestOk r.server dwLogConfigId dwCurrentTime

instance (r : FreqRun) : ∀ e, Decidable (FreqOk r e)
  | .row _ _ row => inferInstanceAs (Decidable (KeepsSpeed r.server.table row))
  | .request dwLogConfigId dwCurrentTime =>
    inferInstanceAs (Decidable (RequestOk r.server dwLogConfigId dwCurrentTime))

section Rows

variable {t t' : ConfigTable} {l : List Nat} {row : ConfigRow} {c : Nat}

/-- What a row does to ids and speeds: it keeps them, adds a configuration to a free slot, or frees the
slot of its configuration. -/
inductive RowEffect (t : ConfigTable) (row : ConfigRow) : Option Nat → ConfigTable → Prop
  | keep {t' : ConfigTable} (hid : t'.list.id = t.list.id)
      (hspeed : ∀ c, (t'.stConfig c).dwSpeedFreq = (t.stConfig c).dwSpeedFreq) :
      RowEffect t row none t'
  | add {t' : ConfigTable} {f : Nat} (hmiss : configSlot t row.config_id = none)
      (hlt : f < MAX_SLOG_CONFIG_COUNT) (hfree : t.list.id f = 0)
      (hid : t'.list.id = Function.update t.list.id f row.config_id)
      (hspeed : ∀ c ≠ f, t'.stConfig c = t.stConfig c) : RowEffect t row (some f) t'
  | remove {t' : ConfigTable} {c : Nat} (hfind : configSlot t row.config_id = some c)
      (hid : t'.list.id = Function.update t.list.id c 0)
      (hspeed : t'.stConfig = t.stConfig) : RowEffect t row none t'

theorem addConfig_effect (h : t.Ok l) (env : ConfigEnv)
    (hmiss : configSlot t row.config_id = none) (hlt : c < MAX_SLOG_CONFIG_COUNT)
    (hfree : t.list.id c = 0) :
    ∃ t', addConfig env row t c = some t' ∧ t'.Ok (c :: l) ∧ RowEffect t row (some c) t' := by
  obtain ⟨t', hadd, hok⟩ := h.add env row hlt hfree
  refine ⟨t', hadd, hok, ?_⟩
  obtain ⟨list, hlist, hsome⟩ := Option.bind_eq_some_iff.mp hadd
  obtain rfl := Option.some.inj hsome
  refine RowEffect.add hmiss hlt hfree (SlotList.id_of_addFirst hlist) ?_
  intro d hd
  exact Function.update_of_ne hd _ _

theorem removeConfig_effect (h : t.Ok l) (hfind : configSlot t row.config_id = some c) :
    ∃ t', removeConfig t c = some t' ∧ t'.Ok (l.erase c) ∧ RowEffect t row none t' := by
  have hc := h.list.mem_of_slotWith row.config_id_ne hfind
  obtain ⟨list, hremove, hid, -⟩ := h.list.remove (by decide) hc
  obtain ⟨t', hconfig, hok⟩ := h.remove hc
  refine ⟨t', hconfig, hok, ?_⟩
  rw [removeConfig, hremove] at hconfig
  obtain rfl := Option.some.inj hconfig
  exact RowEffect.remove hfind hid rfl

/-- A row, with the slot it adds to. -/
theorem readConfigRow_effect (h : t.Ok l) (hspeed : KeepsSpeed t row) (env : ConfigEnv)
    (apps : AppTable) :
    ∃ t' l', readConfigRow env apps t row = some t' ∧ t'.Ok l' ∧
      RowEffect t row (addedSlot env apps t row) t' := by
  have hcount : (t.dwSLogConfigCount : Int) = l.length := by rw [h.count]
  have hfst : (getSlogConfig t row.config_id true).1 = configSlot t row.config_id :=
    h.list.getSlot_fst hcount row.config_id_ne
  have hkeep : RowEffect t row none t := RowEffect.keep rfl fun _ => rfl
  rw [readConfigRow, addedSlot]
  simp only [hfst]
  cases hfind : configSlot t row.config_id with
  | some c =>
    simp only [reduceCtorEq, and_false, if_false]
    by_cases huse : row.xrk_status = RECORD_STATUS_USE
    · rw [if_pos huse]
      split
      · refine ⟨_, l, rfl, ⟨h.list, h.count⟩, RowEffect.keep rfl ?_⟩
        intro d
        by_cases hd : d = c
        · subst hd
          exact (congrArg SLogClientConfig.dwSpeedFreq (Function.update_self _ _ _)).trans
            (hspeed huse _ hfind)
        · exact congrArg SLogClientConfig.dwSpeedFreq (Function.update_of_ne hd _ _)
      · exact ⟨t, l, rfl, h, hkeep⟩
    · rw [if_neg huse]
      obtain ⟨t', hremove, hok, heffect⟩ := removeConfig_effect h hfind
      exact ⟨t', l.erase c, hremove, hok, heffect⟩
  | none =>
    have hsnd : (getSlogConfig t row.config_id true).2 = _ := SlotList.getSlot_snd hfind
    rw [hsnd]
    by_cases huse : row.xrk_status = RECORD_STATUS_USE
    · simp only [huse, if_true, true_and, and_true, Bool.and_eq_true]
      split
      · cases hfree : slotWith MAX_SLOG_CONFIG_COUNT t.list.id 0 with
        | none => exact ⟨t, l, rfl, h, hkeep⟩
        | some f =>
          obtain ⟨hlt, hzero⟩ := slotWith_some hfree
          obtain ⟨t', hadd, hok, heffect⟩ := addConfig_effect h env hfind hlt hzero
          exact ⟨t', f :: l, hadd, hok, heffect⟩
      · exact ⟨t, l, rfl, h, hkeep⟩
    · simp only [huse, if_false, false_and]
      exact ⟨t, l, rfl, h, hkeep⟩

end Rows

section Windows

variable {dwSpeedFreq dwCurrentTime : Nat} {f : LogFreq} {w : FreqWindow}

/-- The counters of a slot are those of the window. -/
structure InWindow (dwSpeedFreq : Nat) (f : LogFreq) (w : FreqWindow) : Prop where
  start_pos : 0 < w.dwStart
  start_lt : w.dwStart + 60 < 2 ^ 32
  start : f.dwLogFreqStartTime = w.dwStart
  count : f.iLogWriteCount = w.admitted
  requests : 0 < w.requests
  admitted : w.admitted = min w.requests dwSpeedFreq

/-- No window has begun, or the counters are those of the window. -/
def WindowOk (dwSpeedFreq : Nat) (f : LogFreq) (w : FreqWindow) : Prop :=
  (w.requests = 0 ∧ w.admitted = 0 ∧ f.dwLogFreqStartTime = 0) ∨ InWindow dwSpeedFreq f w

theorem WindowOk.admitted (h : WindowOk dwSpeedFreq f w) :
    w.admitted = min w.requests dwSpeedFreq := by
  obtain ⟨hrequests, hadmitted, -⟩ | h := h
  · rw [hrequests, hadmitted, Nat.zero_min]
  · exact h.admitted

theorem toInt_le (x : Nat) : toInt x ≤ x := by
  have hle := Nat.mod_le x (2 ^ 32)
  rw [toInt]
  split <;> omega

theorem WindowOk.charge (h : WindowOk dwSpeedFreq f w) (hspeed : dwSpeedFreq ≠ 0)
    (hpos : 0 < dwCurrentTime) (hlt : dwCurrentTime + 60 < 2 ^ 32)
    (hallow : f.dwLogFreqStartTime = 0 ∨ f.dwLogFreqStartTime + 60 ≤ dwCurrentTime ∨
      f.iLogWriteCount + 1 < toInt dwSpeedFreq ∨ dwSpeedFreq = 1) :
    WindowOk dwSpeedFreq (chargeFreq dwSpeedFreq dwCurrentTime f).2
      (w.count dwCurrentTime (chargeFreq dwSpeedFreq dwCurrentTime f).1) := by
  have hnew : WindowOk dwSpeedFreq ⟨dwCurrentTime, 1⟩ ⟨dwCurrentTime, 1, 1⟩ :=
    Or.inr ⟨hpos, hlt, rfl, rfl, Nat.one_pos,
      (Nat.min_eq_left (Nat.pos_of_ne_zero hspeed)).symm⟩
  have hle := toInt_le dwSpeedFreq
  obtain ⟨hrequests, -, hstart⟩ | h := h
  · rw [chargeFreq, if_pos (Or.inl hstart), FreqWindow.count, if_pos (Or.inl hrequests)]
    exact hnew
  · have hstart := h.start
    have hcount := h.count
    have hlast := h.start_lt
    have hfirst := h.start_pos
    have hrequests := h.requests
    have hadmitted := h.admitted
    have hmod : (f.dwLogFreqStartTime + 60) % 2 ^ 32 = w.dwStart + 60 := by
      rw [hstart]
      exact Nat.mod_eq_of_lt hlast
    rw [chargeFreq, FreqWindow.count, hmod]
    by_cases hover : w.dwStart + 60 ≤ dwCurrentTime
    · rw [if_pos (Or.inr hover), if_pos (Or.inr hover)]
      exact hnew
    · rw [if_neg (not_or.mpr ⟨by omega, hover⟩), if_neg (not_or.mpr ⟨by omega, hover⟩)]
      by_cases hfull : toInt dwSpeedFreq ≤ f.iLogWriteCount + 1
      · have hone : dwSpeedFreq = 1 := by omega
        rw [if_pos hfull]
        refine Or.inr ⟨hfirst, hlast, hstart, hcount, Nat.succ_pos _, ?_⟩
        change w.admitted + 0 = min (w.requests + 1) dwSpeedFreq
        omega
      · rw [if_neg hfull]
        refine Or.inr ⟨hfirst, hlast, hstart, ?_, Nat.succ_pos _, ?_⟩
        · change f.iLogWriteCount + 1 = ((w.admitted + 1 : Nat) : Int)
          omega
        · change w.admitted + 1 = min (w.requests + 1) dwSpeedFreq
          omega

end Windows

section Lookup

variable {s : FreqServer} {l : List Nat} {id : Int}

/-- The slots of the configurations and what points to them. -/
structure ServerOk (s : FreqServer) (l : List Nat) : Prop where
  table : s.table.Ok l
  unique : ∀ c < MAX_SLOG_CONFIG_COUNT, ∀ d < MAX_SLOG_CONFIG_COUNT, s.table.list.id c ≠ 0 →
    s.table.list.id d = s.table.list.id c → d = c
  mapped : ∀ id, ∀ p ∈ s.st_mapLogConfig id, p < MAX_SLOG_CONFIG_COUNT
  cached : ∀ p ∈ s.s_pLogConfig, p < MAX_SLOG_CONFIG_COUNT

theorem ServerOk.configSlot_eq (h : ServerOk s l) (hid : id ≠ 0) {p : Nat}
    (hp : p < MAX_SLOG_CONFIG_COUNT) (heq : s.table.list.id p = id) :
    configSlot s.table id = some p := by
  cases hfind : configSlot s.table id with
  | none => exact absurd heq (slotWith_none hfind p hp)
  | some c =>
    obtain ⟨hc, hidc⟩ := slotWith_some hfind
    rw [h.unique p hp c hc (heq ▸ hid) (hidc.trans heq.symm)]

theorem ServerOk.findLogConfig (h : ServerOk s l) (hid : id ≠ 0)
    (hcache : (∃ p ∈ s.s_pLogConfig, s.table.list.id p = id) ∨
      ∀ p ∈ s.st_mapLogConfig id, s.table.list.id p = id) :
    ∃ m, Config.findLogConfig s id =
        { s with
          st_mapLogConfig := m
          s_pLogConfig := configSlot s.table id } ∧
      ∀ id, ∀ p ∈ m id, p < MAX_SLOG_CONFIG_COUNT := by
  rw [Config.findLogConfig]
  by_cases hany : s.s_pLogConfig.any fun p => s.table.list.id p == id
  · rw [if_pos hany]
    obtain ⟨p, hp, hidp⟩ := (Option.any_eq_true _ _).mp hany
    have hslot := h.configSlot_eq hid (h.cached p hp) (beq_iff_eq.mp hidp)
    refine ⟨s.st_mapLogConfig, ?_, h.mapped⟩
    rw [hslot, ← hp]
  · rw [if_neg hany]
    have hmap := hcache.resolve_left (by
      rintro ⟨p, hp, hidp⟩
      exact hany ((Option.any_eq_true _ _).mpr ⟨p, hp, beq_iff_eq.mpr hidp⟩))
    cases hfind : s.st_mapLogConfig id with
    | some p =>
      rw [h.configSlot_eq hid (h.mapped id p hfind) (hmap p hfind)]
      exact ⟨s.st_mapLogConfig, rfl, h.mapped⟩
    | none =>
      have hcount : (s.table.dwSLogConfigCount : Int) = l.length := by rw [h.table.count]
      have hfst : (getSlogConfig s.table id false).1 = configSlot s.table id :=
        h.table.list.getSlot_fst hcount hid
      simp only [hfst]
      cases hslot : configSlot s.table id with
      | none => exact ⟨s.st_mapLogConfig, rfl, h.mapped⟩
      | some p =>
        refine ⟨_, rfl, ?_⟩
        intro id' q hq
        by_cases heq : id' = id
        · subst heq
          rw [Function.update_self] at hq
          rw [← Option.some.inj hq]
          exact (slotWith_some hslot).1
        · rw [Function.update_of_ne heq] at hq
          exact h.mapped id' q hq

end Lookup

section Runs

variable {r : FreqRun} {row : ConfigRow} {t' : ConfigTable} {id : Int} {dwCurrentTime : Nat}
  {s : FreqServer} {l' : List Nat}

/-- The invariant of a run. -/
structure FreqInv (r : FreqRun) : Prop where
  server : ∃ l, ServerOk r.server l
  windows : ∀ c < MAX_SLOG_CONFIG_COUNT, r.server.table.list.id c ≠ 0 →
    (r.server.table.stConfig c).dwSpeedFreq ≠ 0 →
    WindowOk (r.server.table.stConfig c).dwSpeedFreq (r.server.freq c)
      (r.windows (r.server.table.list.id c))
  unlimited : ∀ c < MAX_SLOG_CONFIG_COUNT, r.server.table.list.id c ≠ 0 →
    (r.server.table.stConfig c).dwSpeedFreq = 0 →
    (r.windows (r.server.table.list.id c)).admitted =
      (r.windows (r.server.table.list.id c)).requests
  charged : ∀ x ∈ r.charged, x.1 ≠ 0 ∧ x.2 = x.1

theorem FreqInv.right (h : FreqInv r) : FreqRight r where
  limited := fun c hc hid hspeed => (h.windows c hc hid hspeed).admitted
  unlimited := h.unlimited
  charged := h.charged

theorem isLogFreqOver_eq {l : List Nat} (h : ServerOk s l)
    (hok : RequestOk s id dwCurrentTime) :
    ∃ m, (∀ id, ∀ p ∈ m id, p < MAX_SLOG_CONFIG_COUNT) ∧
      chargedSlot s id = (configSlot s.table id).filter
        (fun p => (s.table.stConfig p).dwSpeedFreq != 0) ∧
      isLogFreqOver s id dwCurrentTime =
        match chargedSlot s id with
        | none => (false, { s with
            st_mapLogConfig := m
            s_pLogConfig := configSlot s.table id })
        | some c =>
          let res := chargeFreq (s.table.stConfig c).dwSpeedFreq dwCurrentTime (s.freq c)
          (res.1, { s with
            st_mapLogConfig := m
            s_pLogConfig := configSlot s.table id
            freq := Function.update s.freq c res.2 }) := by
  obtain ⟨m, hfind, hm⟩ := h.findLogConfig hok.1 hok.2.1
  have hcharged : chargedSlot s id = (configSlot s.table id).filter
      fun p => (s.table.stConfig p).dwSpeedFreq != 0 := by
    rw [chargedSlot, hfind]
  refine ⟨m, hm, hcharged, ?_⟩
  rw [isLogFreqOver, hfind, hcharged]
  cases hslot : configSlot s.table id with
  | none => rfl
  | some c =>
    by_cases hspeed : (s.table.stConfig c).dwSpeedFreq = 0
    · simp [hspeed, Option.filter_some]
    · simp [hspeed, Option.filter_some]

theorem FreqWindow.count_false {w : FreqWindow} (h : w.admitted = w.requests)
    (dwCurrentTime : Nat) :
    (w.count dwCurrentTime false).admitted = (w.count dwCurrentTime false).requests := by
  rw [FreqWindow.count]
  split
  · rfl
  · exact congrArg (· + 1) h

theorem configSlot_lt {t : ConfigTable} : ∀ p ∈ configSlot t id, p < MAX_SLOG_CONFIG_COUNT := by
  intro p hp
  rw [Option.mem_def] at hp
  exact (slotWith_some hp).1

theorem ServerOk.withStatics {l : List Nat} (h : ServerOk s l)
    {m : Int → Option Nat} {slot : Option Nat} (hm : ∀ id, ∀ p ∈ m id, p < MAX_SLOG_CONFIG_COUNT)
    (hslot : ∀ p ∈ slot, p < MAX_SLOG_CONFIG_COUNT) (freq : Nat → LogFreq) :
    ServerOk ⟨s.table, freq, m, slot⟩ l where
  table := h.table
  unique := h.unique
  mapped := hm
  cached := hslot

/-- A request that the condition allows keeps the invariant. -/
theorem FreqInv.request (h : FreqInv r)
    (hok : RequestOk r.server id dwCurrentTime) : FreqInv (r.request id dwCurrentTime) := by
  obtain ⟨l, hserver⟩ := h.server
  obtain ⟨m, hm, hcharged, heq⟩ := isLogFreqOver_eq hserver hok
  have hslot : ∀ c < MAX_SLOG_CONFIG_COUNT, r.server.table.list.id c = id →
      configSlot r.server.table id = some c :=
    fun c hc hid => hserver.configSlot_eq hok.1 hc hid
  cases hcase : chargedSlot r.server id with
  | none =>
    rw [hcase] at heq hcharged
    have hfree : ∀ c < MAX_SLOG_CONFIG_COUNT, r.server.table.list.id c = id →
        (r.server.table.stConfig c).dwSpeedFreq = 0 := by
      intro c hc hid
      have hfilter := hcharged.symm
      rw [hslot c hc hid, Option.filter_eq_none_iff] at hfilter
      by_contra hspeed
      exact hfilter c rfl (bne_iff_ne.mpr hspeed)
    rw [FreqRun.request, heq, hcase]
    refine ⟨⟨l, hserver.withStatics hm configSlot_lt _⟩, ?_, ?_, h.charged⟩
    · intro c hc hidc hspeed
      have hne : r.server.table.list.id c ≠ id := fun hid => hspeed (hfree c hc hid)
      change WindowOk _ _ (Function.update r.windows id _ (r.server.table.list.id c))
      rw [Function.update_of_ne hne]
      exact h.windows c hc hidc hspeed
    · intro c hc hidc hspeed
      have hwindow := h.unlimited c hc hidc hspeed
      change (Function.update r.windows id _ (r.server.table.list.id c)).admitted =
        (Function.update r.windows id _ (r.server.table.list.id c)).requests
      by_cases hid : r.server.table.list.id c = id
      · rw [hid] at hwindow ⊢
        rw [Function.update_self]
        exact FreqWindow.count_false hwindow dwCurrentTime
      · rw [Function.update_of_ne hid]
        exact hwindow
  | some p =>
    rw [hcase] at heq hcharged
    obtain ⟨hconfig, hlimit⟩ := Option.filter_eq_some_iff.mp hcharged.symm
    obtain ⟨hp, hidp⟩ := slotWith_some hconfig
    have hspeed := bne_iff_ne.mp hlimit
    obtain ⟨hpos, hlt, hallow⟩ := hok.2.2 p hconfig hspeed
    have hother : ∀ c < MAX_SLOG_CONFIG_COUNT, c ≠ p → r.server.table.list.id c ≠ id := by
      intro c hc hcp hid
      exact hcp (Option.some.inj ((hslot c hc hid).symm.trans hconfig))
    rw [FreqRun.request, heq, hcase]
    refine ⟨⟨l, hserver.withStatics hm configSlot_lt _⟩, ?_, ?_, ?_⟩
    · intro c hc hidc hspeedc
      change WindowOk (r.server.table.stConfig c).dwSpeedFreq (Function.update r.server.freq p _ c)
        (Function.update r.windows id _ (r.server.table.list.id c))
      by_cases hcp : c = p
      · subst hcp
        have hwindow := h.windows c hc hidc hspeedc
        rw [hidp] at hwindow
        rw [hidp, Function.update_self, Function.update_self]
        exact hwindow.charge hspeed hpos hlt hallow
      · rw [Function.update_of_ne hcp, Function.update_of_ne (hother c hc hcp)]
        exact h.windows c hc hidc hspeedc
    · intro c hc hidc hspeedc
      have hcp : c ≠ p := by
        rintro rfl
        exact hspeed hspeedc
      change (Function.update r.windows id _ (r.server.table.list.id c)).admitted =
        (Function.update r.windows id _ (r.server.table.list.id c)).requests
      rw [Function.update_of_ne (hother c hc hcp)]
      exact h.unlimited c hc hidc hspeedc
    · refine List.forall_mem_append.mpr ⟨h.charged, List.forall_mem_singleton.mpr ⟨hok.1, ?_⟩⟩
      exact hidp

/-- The windows after a row. -/
def rowWindows (r : FreqRun) (row : ConfigRow) (t' : ConfigTable) : Int → FreqWindow :=
  if (configSlot r.server.table row.config_id).isSome = (configSlot t' row.config_id).isSome then
    r.windows
  else Function.update r.windows row.config_id ⟨0, 0, 0⟩

theorem rowWindows_of_ne (h : id ≠ row.config_id) :
    rowWindows r row t' id = r.windows id := by
  rw [rowWindows]
  split
  · rfl
  · exact Function.update_of_ne h _ _

theorem FreqInv.of_sub (h : FreqInv r)
    (hok : t'.Ok l')
    (hid : ∀ c < MAX_SLOG_CONFIG_COUNT, t'.list.id c ≠ 0 →
      t'.list.id c = r.server.table.list.id c ∧
      (t'.stConfig c).dwSpeedFreq = (r.server.table.stConfig c).dwSpeedFreq ∧
      rowWindows r row t' (t'.list.id c) = r.windows (t'.list.id c)) :
    FreqInv
      { server := { r.server with table := t' }
        windows := rowWindows r row t'
        charged := r.charged } := by
  obtain ⟨l, hserver⟩ := h.server
  refine ⟨⟨l', ?_⟩, ?_, ?_, h.charged⟩
  · refine ⟨hok, ?_, hserver.mapped, hserver.cached⟩
    intro c hc d hd hidc heq
    obtain ⟨hc', -⟩ := hid c hc hidc
    obtain ⟨hd', -⟩ := hid d hd (heq ▸ hidc)
    exact hserver.unique c hc d hd (hc' ▸ hidc) (hd'.symm.trans (heq.trans hc'))
  · intro c hc hidc hspeed
    obtain ⟨hc', hspeedc, hwindow⟩ := hid c hc hidc
    dsimp only
    rw [hwindow, hc', hspeedc]
    exact h.windows c hc (hc' ▸ hidc) (hspeedc ▸ hspeed)
  · intro c hc hidc hspeed
    obtain ⟨hc', hspeedc, hwindow⟩ := hid c hc hidc
    change (rowWindows r row t' (t'.list.id c)).admitted = (rowWindows r row t' (t'.list.id c)).requests
    rw [hwindow, hc']
    exact h.unlimited c hc (hc' ▸ hidc) (hspeedc ▸ hspeed)

/-- A row that adds a configuration keeps the invariant. -/
theorem FreqInv.of_add (h : FreqInv r) {f : Nat}
    (hok : t'.Ok l') (hmiss : configSlot r.server.table row.config_id = none)
    (hlt : f < MAX_SLOG_CONFIG_COUNT)
    (hid : t'.list.id = Function.update r.server.table.list.id f row.config_id)
    (hspeed : ∀ c ≠ f, t'.stConfig c = r.server.table.stConfig c) :
    FreqInv
      { server := { r.server with
          table := t'
          freq := Function.update r.server.freq f ⟨0, 0⟩ }
        windows := rowWindows r row t'
        charged := r.charged } := by
  obtain ⟨l, hserver⟩ := h.server
  have hself : t'.list.id f = row.config_id := by rw [hid, Function.update_self]
  have hother : ∀ c ≠ f, t'.list.id c = r.server.table.list.id c := by
    intro c hc
    rw [hid, Function.update_of_ne hc]
  have hfresh : ∀ c < MAX_SLOG_CONFIG_COUNT, r.server.table.list.id c ≠ row.config_id :=
    slotWith_none hmiss
  have hwindow : rowWindows r row t' row.config_id = ⟨0, 0, 0⟩ := by
    cases hfind : configSlot t' row.config_id with
    | none => exact absurd hself (slotWith_none hfind f hlt)
    | some c =>
      have hne : ¬ (none : Option Nat).isSome = (some c).isSome := Bool.false_ne_true
      rw [rowWindows, hmiss, hfind, if_neg hne, Function.update_self]
  refine ⟨⟨l', hok, ?_, hserver.mapped, hserver.cached⟩, ?_, ?_, h.charged⟩
  · intro c hc d hd hidc heq
    by_cases hcf : c = f
    · by_cases hdf : d = f
      · rw [hdf, hcf]
      · rw [hcf, hself] at heq
        exact absurd ((hother d hdf).symm.trans heq) (hfresh d hd)
    · by_cases hdf : d = f
      · rw [hdf, hself] at heq
        exact absurd ((hother c hcf).symm.trans heq.symm) (hfresh c hc)
      · exact hserver.unique c hc d hd (hother c hcf ▸ hidc)
          ((hother d hdf).symm.trans (heq.trans (hother c hcf)))
  · intro c hc hidc hspeedc
    dsimp only
    by_cases hcf : c = f
    · rw [hcf, hself, hwindow, Function.update_self]
      exact Or.inl ⟨rfl, rfl, rfl⟩
    · rw [hother c hcf, rowWindows_of_ne (hfresh c hc), hspeed c hcf, Function.update_of_ne hcf]
      exact h.windows c hc (hother c hcf ▸ hidc) (hspeed c hcf ▸ hspeedc)
  · intro c hc hidc hspeedc
    change (rowWindows r row t' (t'.list.id c)).admitted = (rowWindows r row t' (t'.list.id c)).requests
    by_cases hcf : c = f
    · rw [hcf, hself, hwindow]
    · rw [hother c hcf, rowWindows_of_ne (hfresh c hc)]
      exact h.unlimited c hc (hother c hcf ▸ hidc) (hspeed c hcf ▸ hspeedc)

theorem FreqInv.readRow (h : FreqInv r) (hspeed : KeepsSpeed r.server.table row)
    (env : ConfigEnv) (apps : AppTable) :
    ∃ r', r.readRow env apps row = some r' ∧ FreqInv r' := by
  obtain ⟨l, hserver⟩ := h.server
  obtain ⟨t', l', hrow, hok, heffect⟩ := readConfigRow_effect hserver.table hspeed env apps
  have hread : r.readRow env apps row = some
      { server := { r.server with
          table := t'
          freq :=
            match addedSlot env apps r.server.table row with
            | some c => Function.update r.server.freq c ⟨0, 0⟩
            | none => r.server.freq }
        windows := rowWindows r row t'
        charged := r.charged } := by
    rw [FreqRun.readRow, readFreqRow, hrow]
    rfl
  refine ⟨_, hread, ?_⟩
  generalize addedSlot env apps r.server.table row = added at heffect
  cases heffect with
  | keep hid hkeep =>
    refine h.of_sub hok ?_
    intro c _ _
    have hslot : configSlot t' row.config_id = configSlot r.server.table row.config_id := by
      rw [configSlot, hid, configSlot]
    refine ⟨congrFun hid c, hkeep c, ?_⟩
    rw [rowWindows, hslot, if_pos rfl]
  | add hmiss hlt _ hid hkeep => exact h.of_add hok hmiss hlt hid hkeep
  | @remove _ d hfind hid hkeep =>
    obtain ⟨hd, hidd⟩ := slotWith_some hfind
    refine h.of_sub hok ?_
    intro c hc hidc
    have hcd : c ≠ d := by
      rintro rfl
      rw [hid, Function.update_self] at hidc
      exact hidc rfl
    have hsame : t'.list.id c = r.server.table.list.id c := by
      rw [hid, Function.update_of_ne hcd]
    refine ⟨hsame, by rw [hkeep], rowWindows_of_ne ?_⟩
    intro heq
    have hidd0 : r.server.table.list.id d ≠ 0 := hidd ▸ row.config_id_ne
    exact hcd (hserver.unique d hd c hc hidd0 (hsame.symm.trans (heq.trans hidd.symm)))

theorem freqStart_inv : FreqInv freqStart where
  server := ⟨[], emptyConfigs_ok, fun _ _ _ _ h => absurd rfl h, fun _ _ h => by simp [freqStart] at h,
    fun _ h => by simp [freqStart] at h⟩
  windows := fun _ _ h => absurd rfl h
  unlimited := fun _ _ h => absurd rfl h
  charged := List.forall_mem_nil _

/-- For every sequence of rows and requests whose steps meet the condition: the run goes through, and
the limit is right in every state of it. -/
theorem log_freq_right (events : List FreqEvent) (hok : Admissible freqStep FreqOk freqStart events)
    (n : Nat) :
    ∃ os r, runSteps freqStep freqStart (events.take n) = some (os, r) ∧ FreqRight r := by
  have hstep : ∀ r a, FreqInv r → FreqOk r a →
      ∃ o r', freqStep r a = some (o, r') ∧ True ∧ FreqInv r' := by
    intro r a h hstepOk
    cases a with
    | row env apps row =>
      obtain ⟨r', hread, hinv⟩ := h.readRow hstepOk env apps
      exact ⟨(), r', by rw [freqStep, hread]; rfl, trivial, hinv⟩
    | request id dwCurrentTime => exact ⟨(), _, rfl, trivial, h.request hstepOk⟩
  obtain ⟨os, r, hrun, -, hinv⟩ := run_invariant (O := fun _ _ => True) hstep (events.take n)
    freqStart freqStart_inv (hok.take n)
  exact ⟨os, r, hrun, hinv.right⟩

end Runs

/-- Application 3 in the first slot. -/
def oneApp : AppTable :=
  { emptyApps with
    list := { SlotList.empty with
      id := fun j => if j = 0 then 3 else 0
      wCount := 1 }
    iAppCount := 1 }

/-- A row of a configuration of application 3. -/
def limitRow (config_id : Int) (write_speed : Nat) (xrk_status : Int) (h : config_id ≠ 0) :
    FreqEvent :=
  .row ⟨fun _ _ => some 0, 1⟩ oneApp ⟨config_id, 3, 0, 0, write_speed, xrk_status, h⟩

/-- Limits of 3, 1 and none; the window of the first begins again, and 9 takes the slot of 7. -/
def limitedLogs : List FreqEvent :=
  [limitRow 7 3 0 (by decide), limitRow 8 1 0 (by decide), .request 7 100, .request 7 101,
    .request 8 101, .request 8 102, .request 7 160, limitRow 7 3 1 (by decide),
    limitRow 9 0 0 (by decide), .request 9 161, .request 9 161]

theorem log_freq_right_limitedLogs :
    ∃ os r, runSteps freqStep freqStart (limitedLogs.take 11) = some (os, r) ∧ FreqRight r :=
  log_freq_right limitedLogs (by decide +kernel) 11

/-- A limit of 2 admits one of two logs; and after 9 has taken the slot of the deleted 7, a log of 7
is counted for 9. -/
theorem second_log_refused :
    (¬ ∃ os r, runSteps freqStep freqStart
        [limitRow 7 2 0 (by decide), .request 7 100, .request 7 101] = some (os, r) ∧
        FreqRight r) ∧
      ¬ ∃ os r, runSteps freqStep freqStart
        [limitRow 7 3 0 (by decide), .request 7 100, limitRow 7 3 1 (by decide),
          limitRow 9 3 0 (by decide), .request 7 101] = some (os, r) ∧ FreqRight r := by
  constructor
  · rintro ⟨os, r, hrun, hright⟩
    have hstate : (runSteps freqStep freqStart
        [limitRow 7 2 0 (by decide), .request 7 100, .request 7 101]).map (fun x =>
          (x.2.server.table.list.id 0, (x.2.server.table.stConfig 0).dwSpeedFreq, x.2.windows 7)) =
        some (7, 2, ⟨100, 2, 1⟩) := by decide +kernel
    rw [hrun, Option.map_some, Option.some_inj] at hstate
    simp only [Prod.mk.injEq] at hstate
    obtain ⟨hid, hspeed, hwindow⟩ := hstate
    have hlimited := hright.limited 0 (by decide) (by rw [hid]; decide) (by rw [hspeed]; decide)
    rw [hid, hspeed, hwindow] at hlimited
    exact absurd hlimited (by decide)
  · rintro ⟨os, r, hrun, hright⟩
    have hstate : (runSteps freqStep freqStart
        [limitRow 7 3 0 (by decide), .request 7 100, limitRow 7 3 1 (by decide),
          limitRow 9 3 0 (by decide), .request 7 101]).map (fun x => x.2.charged) =
        some [(7, 7), (7, 9)] := by decide +kernel
    rw [hrun, Option.map_some, Option.some_inj] at hstate
    have hcharged := hright.charged (7, 9) (by rw [hstate]; decide)
    exact absurd hcharged.2 (by decide)

end XrkMonitor.Config
