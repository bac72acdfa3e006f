import Mathlib.Algebra.Ring.Nat
import Mathlib.Data.List.Basic

/-!
# The frequency limit of the log interface

`MtReport_Log` counts the logs of a configuration in windows of a minute. It compares the number
that it has let through with the limit before it counts the next one, and refuses only beyond the
limit; so a window takes one log more than `dwSpeedFreq`. A limit of `2^31` or more is negative as
an `int`, and nothing is let through.

## Implementation notes

The part of `MtReport_Log` behind the look-up of the configuration is modelled, up to where a log is
let through. Calls come one after another. A request is a call that the type of its log does not
stop. The window of a run counts its requests and those that were let through.
-/

namespace XrkMonitor.MtLog

section Limit

/-- The fields of `SLogConfig` that decide whether a log is taken. -/
structure SLogConfig where
  iLogType : Int32
  dwSpeedFreq : UInt32
  bLogFreqUseFlag : Bool
  iWriteLogCount : Int32
  qwLastFreqTime : UInt64
deriving DecidableEq

/-- A call of `MtReport_Log`: the type of the log, the mark of a test, and the clock. -/
structure LogCall where
  iLogType : Int32
  cIsTest : Bool
  tv_sec : Int64
  tv_usec : Int64
deriving DecidableEq

/-- The clock of a call in milliseconds. -/
def LogCall.qwTimeMs (call : LogCall) : UInt64 := (call.tv_sec * 1000 + call.tv_usec / 1000).toUInt64

/-- The type of the log stops the call. -/
def typeLimited (iLogType : Int32) (call : LogCall) : Bool :=
  !call.cIsTest && iLogType &&& call.iLogType == 0

/-- A minute has passed since the window began. -/
def windowOver (qwLastFreqTime : UInt64) (call : LogCall) : Bool :=
  decide (qwLastFreqTime + 60000 ≤ call.qwTimeMs)

/-- The window begins anew, if `VARMEM_CAS_GET` gets the flag; then the flag is free again. -/
def restartWindow (cfg : SLogConfig) (qwTimeMs : UInt64) : SLogConfig :=
  if cfg.bLogFreqUseFlag then cfg
  else { cfg with qwLastFreqTime := qwTimeMs, iWriteLogCount := 0, bLogFreqUseFlag := false }

/-- The comparison with the limit, made in `int`, and the count of the log. -/
def chargeLog (cfg : SLogConfig) : Int × SLogConfig :=
  if cfg.dwSpeedFreq.toInt32 < cfg.iWriteLogCount then (-3, cfg)
  else (0, { cfg with iWriteLogCount := cfg.iWriteLogCount + 1 })

/-- `MtReport_Log` up to where the log is let through, with `0`. -/
def mtReportLog (cfg : SLogConfig) (call : LogCall) : Int × SLogConfig :=
  if typeLimited cfg.iLogType call then (-2, cfg)
  else if cfg.dwSpeedFreq ≠ 0 then
    chargeLog
      (if windowOver cfg.qwLastFreqTime call then restartWindow cfg call.qwTimeMs else cfg)
  else (0, { cfg with iWriteLogCount := cfg.iWriteLogCount + 1 })

end Limit

section Windows

/-- A window of a run: its requests and the logs that were let through. -/
structure Window where
  requests : Nat
  admitted : Nat
deriving DecidableEq

/-- A request with its result. -/
def Window.count (w : Window) (ret : Int) : Window :=
  ⟨w.requests + 1, w.admitted + if ret = 0 then 1 else 0⟩

/-- The windows of a run, beginning in `w`. -/
def logWindows (cfg : SLogConfig) (w : Window) : List LogCall → List Window
  | [] => [w]
  | call :: calls =>
    let r := mtReportLog cfg call
    if typeLimited cfg.iLogType call then logWindows r.2 w calls
    else if windowOver cfg.qwLastFreqTime call then
      w :: logWindows r.2 (Window.count ⟨0, 0⟩ r.1) calls
    else logWindows r.2 (w.count r.1) calls

/-- The numbers of requests in the windows that the clock cuts a run into. -/
def windowRequests (iLogType : Int32) (qwLastFreqTime : UInt64) (n : Nat) : List LogCall → List Nat
  | [] => [n]
  | call :: calls =>
    if typeLimited iLogType call then windowRequests iLogType qwLastFreqTime n calls
    else if windowOver qwLastFreqTime call then
      n :: windowRequests iLogType call.qwTimeMs 1 calls
    else windowRequests iLogType qwLastFreqTime (n + 1) calls

/-- A window takes its requests up to the limit. -/
structure LimitKept (dwSpeedFreq : UInt32) (w : Window) : Prop where
  at_most : w.admitted ≤ dwSpeedFreq.toNat
  exactly : w.admitted = min w.requests dwSpeedFreq.toNat

/-- What the limit lets through of `n` requests. -/
def admittedOf (dwSpeedFreq : UInt32) (n : Nat) : Nat :=
  if dwSpeedFreq.toNat < 2 ^ 31 - 1 then min n (dwSpeedFreq.toNat + 1)
  else if dwSpeedFreq.toNat = 2 ^ 31 - 1 then n
  else 0

/-- The counter of the window, which wraps where everything is let through. -/
structure Counted (cfg : SLogConfig) (w : Window) : Prop where
  free : cfg.bLogFreqUseFlag = false
  count : cfg.iWriteLogCount = Int32.ofNat w.admitted
  admitted : w.admitted = admittedOf cfg.dwSpeedFreq w.requests

end Windows

section Steps

variable {cfg : SLogConfig} {w : Window} {call : LogCall} {calls : List LogCall}

theorem refused_iff (dwSpeedFreq : UInt32) (n : Nat) :
    dwSpeedFreq.toInt32 < Int32.ofNat (admittedOf dwSpeedFreq n) ↔
      admittedOf dwSpeedFreq (n + 1) = admittedOf dwSpeedFreq n := by
  have hlt := dwSpeedFreq.toNat_lt
  have hlimit : dwSpeedFreq.toInt32.toInt = (dwSpeedFreq.toNat : Int).bmod (2 ^ 32) := by
    rw [← Int32.toInt_toBitVec, UInt32.toBitVec_toInt32, BitVec.toInt_eq_toNat_bmod]
    rfl
  have hcount : (Int32.ofNat (admittedOf dwSpeedFreq n)).toInt =
      (admittedOf dwSpeedFreq n : Int).bmod (2 ^ 32) := Int32.toInt_ofNat'
  rw [Int32.lt_iff_toInt_lt, hlimit, hcount]
  unfold admittedOf Int.bmod
  dsimp only
  split_ifs <;> omega

theorem admittedOf_succ (dwSpeedFreq : UInt32) (n : Nat)
    (h : admittedOf dwSpeedFreq (n + 1) ≠ admittedOf dwSpeedFreq n) :
    admittedOf dwSpeedFreq (n + 1) = admittedOf dwSpeedFreq n + 1 := by
  unfold admittedOf at h ⊢
  split_ifs at h ⊢ <;> omega

theorem Counted.charge (h : Counted cfg w) :
    Counted (chargeLog cfg).2 (w.count (chargeLog cfg).1) := by
  have hrefused := refused_iff cfg.dwSpeedFreq w.requests
  rw [← h.admitted, ← h.count] at hrefused
  by_cases hover : cfg.dwSpeedFreq.toInt32 < cfg.iWriteLogCount
  · have hsame := hrefused.mp hover
    rw [chargeLog, if_pos hover]
    exact ⟨h.free, h.count, hsame.symm⟩
  · have hnext := admittedOf_succ cfg.dwSpeedFreq w.requests (by
      rw [← h.admitted]
      exact fun hsame => hover (hrefused.mpr hsame))
    rw [chargeLog, if_neg hover]
    refine ⟨h.free, ?_, ?_⟩
    · change cfg.iWriteLogCount + 1 = Int32.ofNat (w.admitted + 1)
      rw [h.count, Int32.ofNat_add]
      rfl
    · change w.admitted + 1 = admittedOf cfg.dwSpeedFreq (w.requests + 1)
      rw [hnext, ← h.admitted]

theorem admittedOf_zero (dwSpeedFreq : UInt32) : admittedOf dwSpeedFreq 0 = 0 := by
  unfold admittedOf
  split_ifs <;> omega

theorem Counted.restart (h : Counted cfg w) (qwTimeMs : UInt64) :
    Counted (restartWindow cfg qwTimeMs) ⟨0, 0⟩ := by
  rw [restartWindow, h.free]
  exact ⟨rfl, rfl, (admittedOf_zero cfg.dwSpeedFreq).symm⟩

theorem chargeLog_frame (cfg : SLogConfig) :
    (chargeLog cfg).2.iLogType = cfg.iLogType ∧ (chargeLog cfg).2.dwSpeedFreq = cfg.dwSpeedFreq ∧
      (chargeLog cfg).2.qwLastFreqTime = cfg.qwLastFreqTime := by
  unfold chargeLog
  split_ifs
  · exact ⟨rfl, rfl, rfl⟩
  · exact ⟨rfl, rfl, rfl⟩

theorem restart_frame (hfree : cfg.bLogFreqUseFlag = false) (qwTimeMs : UInt64) :
    (chargeLog (restartWindow cfg qwTimeMs)).2.iLogType = cfg.iLogType ∧
      (chargeLog (restartWindow cfg qwTimeMs)).2.dwSpeedFreq = cfg.dwSpeedFreq ∧
      (chargeLog (restartWindow cfg qwTimeMs)).2.qwLastFreqTime = qwTimeMs := by
  obtain ⟨hlog, hfreq, hlast⟩ := chargeLog_frame (restartWindow cfg qwTimeMs)
  rw [hlog, hfreq, hlast, restartWindow, hfree]
  exact ⟨rfl, rfl, rfl⟩

theorem mtReportLog_goes_on (hspeed : cfg.dwSpeedFreq ≠ 0)
    (htype : typeLimited cfg.iLogType call = false)
    (hover : windowOver cfg.qwLastFreqTime call = false) : mtReportLog cfg call = chargeLog cfg := by
  rw [mtReportLog, htype, if_neg Bool.false_ne_true, if_pos hspeed, hover,
    if_neg Bool.false_ne_true]

theorem mtReportLog_restarts (hspeed : cfg.dwSpeedFreq ≠ 0)
    (htype : typeLimited cfg.iLogType call = false)
    (hover : windowOver cfg.qwLastFreqTime call = true) :
    mtReportLog cfg call = chargeLog (restartWindow cfg call.qwTimeMs) := by
  rw [mtReportLog, htype, if_neg Bool.false_ne_true, if_pos hspeed, hover, if_pos rfl]

/-- The windows of a run have the requests that the clock gives them, and each lets through what
its counter allows. -/
theorem Counted.windows (h : Counted cfg w) (hspeed : cfg.dwSpeedFreq ≠ 0)
    (calls : List LogCall) :
    (logWindows cfg w calls).map Window.requests =
        windowRequests cfg.iLogType cfg.qwLastFreqTime w.requests calls ∧
      ∀ v ∈ logWindows cfg w calls, v.admitted = admittedOf cfg.dwSpeedFreq v.requests := by
  induction calls generalizing cfg w with
  | nil =>
    refine ⟨rfl, ?_⟩
    intro v hv
    rw [List.mem_singleton.mp hv]
    exact h.admitted
  | cons call calls ih =>
    cases htype : typeLimited cfg.iLogType call with
    | true =>
      have hrun : mtReportLog cfg call = (-2, cfg) := by rw [mtReportLog, htype, if_pos rfl]
      rw [logWindows, windowRequests, htype, if_pos rfl, if_pos rfl, hrun]
      exact ih h hspeed
    | false =>
      cases hover : windowOver cfg.qwLastFreqTime call with
      | true =>
        have hrun := mtReportLog_restarts hspeed htype hover
        obtain ⟨hlog, hfreq, hlast⟩ := restart_frame h.free call.qwTimeMs
        obtain ⟨hmap, hall⟩ := ih (h.restart call.qwTimeMs).charge (by
          rw [hfreq]
          exact hspeed)
        rw [hlog, hlast] at hmap
        rw [hfreq] at hall
        rw [logWindows, windowRequests, htype, if_neg Bool.false_ne_true,
          if_neg Bool.false_ne_true, hover, if_pos rfl, if_pos rfl, hrun, List.map_cons, hmap]
        refine ⟨rfl, ?_⟩
        intro v hv
        rcases List.mem_cons.mp hv with rfl | hv
        · exact h.admitted
        · exact hall v hv
      | false =>
        have hrun := mtReportLog_goes_on hspeed htype hover
        obtain ⟨hlog, hfreq, hlast⟩ := chargeLog_frame cfg
        obtain ⟨hmap, hall⟩ := ih h.charge (by
          rw [hfreq]
          exact hspeed)
        rw [hlog, hlast] at hmap
        rw [hfreq] at hall
        rw [logWindows, windowRequests, htype, if_neg Bool.false_ne_true,
          if_neg Bool.false_ne_true, hover, if_neg Bool.false_ne_true,
          if_neg Bool.false_ne_true, hrun, hmap]
        exact ⟨rfl, hall⟩

theorem limitKept_iff {dwSpeedFreq : UInt32} (hspeed : dwSpeedFreq ≠ 0)
    (h : w.admitted = admittedOf dwSpeedFreq w.requests) :
    LimitKept dwSpeedFreq w ↔ w.requests ≤ dwSpeedFreq.toNat ∧
      (dwSpeedFreq.toNat < 2 ^ 31 ∨ w.requests = 0) := by
  have hpos : 0 < dwSpeedFreq.toNat := by
    refine Nat.pos_of_ne_zero ?_
    intro hzero
    exact hspeed (UInt32.toNat_inj.mp hzero)
  have hlt := dwSpeedFreq.toNat_lt
  constructor
  · rintro ⟨-, hexact⟩
    rw [h] at hexact
    unfold admittedOf at hexact
    split_ifs at hexact <;> omega
  · intro hcond
    have hexact : w.admitted = min w.requests dwSpeedFreq.toNat := by
      rw [h]
      unfold admittedOf
      split_ifs <;> omega
    exact ⟨by omega, hexact⟩

/-- For every run from a window without requests, with its flag free: each window lets through what
the limit says exactly when no window has more requests than the limit and the limit is below
`2^31`. -/
theorem freq_limit_iff (cfg : SLogConfig) (hspeed : cfg.dwSpeedFreq ≠ 0)
    (hfree : cfg.bLogFreqUseFlag = false) (hcount : cfg.iWriteLogCount = 0)
    (calls : List LogCall) :
    (∀ w ∈ logWindows cfg ⟨0, 0⟩ calls, LimitKept cfg.dwSpeedFreq w) ↔
      ∀ n ∈ windowRequests cfg.iLogType cfg.qwLastFreqTime 0 calls,
        n ≤ cfg.dwSpeedFreq.toNat ∧ (cfg.dwSpeedFreq.toNat < 2 ^ 31 ∨ n = 0) := by
  have hcounted : Counted cfg ⟨0, 0⟩ := ⟨hfree, hcount, (admittedOf_zero cfg.dwSpeedFreq).symm⟩
  obtain ⟨hmap, hall⟩ := hcounted.windows hspeed calls
  rw [← hmap]
  constructor
  · intro hkept n hn
    obtain ⟨w, hw, rfl⟩ := List.mem_map.mp hn
    exact (limitKept_iff hspeed (hall w hw)).mp (hkept w hw)
  · intro hcond w hw
    exact (limitKept_iff hspeed (hall w hw)).mpr (hcond w.requests (List.mem_map.mpr ⟨w, hw, rfl⟩))

/-- A configuration for the log types of the mask 3, with a limit of one log. -/
def oneLog : SLogConfig := ⟨3, 1, false, 0, 0⟩

/-- A log of type 2 at a second. -/
def logAt (tv_sec : Int64) : LogCall := ⟨2, false, tv_sec, 0⟩

theorem freq_limit_oneLog :
    logWindows oneLog ⟨0, 0⟩ [logAt 100, logAt 160] = [⟨0, 0⟩, ⟨1, 1⟩, ⟨1, 1⟩] ∧
      ∀ w ∈ logWindows oneLog ⟨0, 0⟩ [logAt 100, logAt 160], LimitKept oneLog.dwSpeedFreq w := by
  have hrun : logWindows oneLog ⟨0, 0⟩ [logAt 100, logAt 160] = [⟨0, 0⟩, ⟨1, 1⟩, ⟨1, 1⟩] := by
    decide +kernel
  refine ⟨hrun, (freq_limit_iff oneLog (by decide) rfl rfl [logAt 100, logAt 160]).mpr ?_⟩
  have hsizes : windowRequests oneLog.iLogType oneLog.qwLastFreqTime 0 [logAt 100, logAt 160] =
      [0, 1, 1] := by decide +kernel
  rw [hsizes]
  decide

/-- Two logs in one minute pass a limit of one. -/
theorem freq_limit_two_pass :
    ¬ ∀ (cfg : SLogConfig), cfg.dwSpeedFreq ≠ 0 → cfg.bLogFreqUseFlag = false →
      cfg.iWriteLogCount = 0 → ∀ calls : List LogCall,
        calls.Pairwise (fun x y => x.qwTimeMs ≤ y.qwTimeMs) →
          ∀ w ∈ logWindows cfg ⟨0, 0⟩ calls, LimitKept cfg.dwSpeedFreq w := by
  intro hall
  have hrun : logWindows oneLog ⟨0, 0⟩ [logAt 100, logAt 101] = [⟨0, 0⟩, ⟨2, 2⟩] := by
    decide +kernel
  have hclock : [logAt 100, logAt 101].Pairwise fun x y => x.qwTimeMs ≤ y.qwTimeMs := by
    decide +kernel
  have hkept := hall oneLog (by decide) rfl rfl [logAt 100, logAt 101] hclock ⟨2, 2⟩ (by
    rw [hrun]
    decide)
  exact absurd hkept.at_most (by decide)

end Steps

end XrkMonitor.MtLog
