import XrkMonitor.Timer.Runs

/-!
# Expiries on time

`AddTimer` and `UpdateTimer` set an expiry of the timeout in microseconds from now, unless
`TIME_MS_TO_US` wraps in its 32 bits. A timeout of 4294968 ms expires at once. `InternalAddTimer`
takes an expiry `2^31` ticks ahead of the wheels for one that is over; wheels without a timer do not
move, so after that many ticks every new timer comes into the current slot, and `RunTimerList` stops
the agent at its check against an early expiry.

## Implementation notes

A run is one of `Runs`, with its conditions for ticks of 32 bits.
-/

namespace XrkMonitor.Timer

open Library

/-- The conversion of the timeout of a call stays within 32 bits. -/
def Op.TimeOutFits : Op → Prop
  | .add call _ _ => max call.uiTimeOut 1000 * 1000 < 2 ^ 32
  | .update _ uiTimeOut _ _ _ => max uiTimeOut 1000 * 1000 < 2 ^ 32
  | _ => True

/-- What a step has to meet so that no timer fires early. -/
def StepTimely (w : World) (op : Op) : Prop := StepFits w op ∧ op.TimeOutFits

/-- The node expires when the timeout from `now` on is over, and in the tick of that time. -/
structure SetFor (t : MtReportTimer) (cell uiTimeOut now : Nat) : Prop where
  expire : (t.stHash cell).qwExpireTime = now + 1000 * max uiTimeOut 1000
  tick : (t.stHash cell).uiExpire =
    (now + 1000 * max uiTimeOut 1000 - t.qwBaseTime) / MT_TIMER_CHECK_INTVALUS

/-- A timer that is armed is set for its timeout, and a callback comes at most one interval before
its expiry. -/
def OnTime (op : Op) (reply : TimerReply) (w' : World) : Prop :=
  match op with
  | .add call now _ => ∀ cell, reply.pNode = some cell → SetFor w'.timer cell call.uiTimeOut now
  | .update cell uiTimeOut _ now _ => reply.iRet = 0 → SetFor w'.timer cell uiTimeOut now
  | _ => ∀ cell onExpire data uiCurTime iCheckNodeCount,
      op.RunsLoop → w'.phase = .callback cell onExpire data uiCurTime iCheckNodeCount →
        (w'.timer.stHash cell).qwExpireTime ≤ w'.timer.qwCurTime + MT_TIMER_CHECK_INTVALUS

section Steps

variable {w : World} {t : MtReportTimer}

theorem timeMsToUs_eq_iff (ms : Nat) : timeMsToUs ms = 1000 * ms ↔ ms * 1000 < 2 ^ 32 := by
  unfold timeMsToUs
  omega

theorem expireTick_eq {uiTimeOut now : Nat} (hbase : t.qwBaseTime ≤ now)
    (harm : ArmOk t uiTimeOut now) (hfits : max uiTimeOut 1000 * 1000 < 2 ^ 32) :
    expireTick (setCurTime t now) (max uiTimeOut 1000) =
      (now + 1000 * max uiTimeOut 1000 - t.qwBaseTime) / MT_TIMER_CHECK_INTVALUS := by
  have hlt := harm.2.trans_le (Nat.min_le_left _ _)
  have hsum : now + 1000 * max uiTimeOut 1000 - t.qwBaseTime =
      now - t.qwBaseTime + 1000 * max uiTimeOut 1000 := by omega
  rw [(timeMsToUs_eq_iff _).mpr hfits] at hlt
  rw [hsum, expireTick, (timeMsToUs_eq_iff _).mpr hfits]
  exact Nat.mod_eq_of_lt (hlt.trans (by decide))

theorem Outcome.onTime {pending : List Arming} {uiCurTime iCheckNodeCount : Nat} {ph : Phase}
    {t' : MtReportTimer} (h : Outcome t pending uiCurTime iCheckNodeCount ph t') {cell : Nat}
    {onExpire : Option Nat} {data : Nat × List UInt8} {uiTick count : Nat}
    (hph : ph = .callback cell onExpire data uiTick count) :
    (t'.stHash cell).qwExpireTime ≤ t'.qwCurTime + MT_TIMER_CHECK_INTVALUS := by
  cases h with
  | idle => cases hph
  | expire r _ _ _ _ _ _ _ hkept hupdate hexpire =>
    obtain rfl : r.cell = cell := (Phase.callback.inj hph).1
    rw [hupdate, Function.update_self, hkept.cur]
    exact hexpire

theorem WorldInv.loop_onTime (h : WorldInv w) {op : Op} (hloop : op.RunsLoop)
    (hok : StepFits w op) :
    ∃ reply w', Timer.step w op = some (reply, w') ∧ WorldInv w' ∧
      ∀ cell onExpire data uiCurTime iCheckNodeCount,
        w'.phase = .callback cell onExpire data uiCurTime iCheckNodeCount →
          (w'.timer.stHash cell).qwExpireTime ≤ w'.timer.qwCurTime + MT_TIMER_CHECK_INTVALUS := by
  obtain ⟨reply, ph, t, t₁, hstep, hinv, -, -, hout⟩ := h.loop hloop hok
  refine ⟨reply, _, hstep, hinv, fun cell onExpire data uiCurTime iCheckNodeCount hphase => ?_⟩
  rw [(settle_phase w ph t).1] at hphase
  rw [(settle_phase w ph t).2]
  rcases hout with ⟨_, hout⟩ | ⟨hidle, -⟩
  · exact hout.onTime hphase
  · rw [hidle] at hphase
    cases hphase

/-- Every step that meets its condition is on time. -/
theorem WorldInv.onTime (h : WorldInv w) {op : Op} (hok : StepTimely w op) :
    ∃ reply w', Timer.step w op = some (reply, w') ∧ OnTime op reply w' ∧ WorldInv w' := by
  obtain ⟨hfits, htime⟩ := hok
  obtain ⟨reply, w', hstep, -, hinv⟩ := WorldInv.step w op h hfits
  obtain ⟨K, ht, -⟩ := h.timer
  cases op with
  | setCurTime now => exact ⟨reply, w', hstep, fun _ _ _ _ _ hloop => hloop.elim, hinv⟩
  | get uiKey => exact ⟨reply, w', hstep, fun _ _ _ _ _ hloop => hloop.elim, hinv⟩
  | release c => exact ⟨reply, w', hstep, fun _ _ _ _ _ hloop => hloop.elim, hinv⟩
  | add call now isMalloc =>
    obtain ⟨hkey, harm, hf⟩ := hfits
    refine ⟨reply, w', hstep, ?_, hinv⟩
    intro cell hcell
    generalize hadd : addTimer w.timer call now isMalloc = result at hstep
    obtain ⟨iRet, pNode, t⟩ := result
    simp only [Timer.step, hadd] at hstep
    cases pNode with
    | none =>
      obtain ⟨rfl, -⟩ := by simpa using hstep
      cases hcell
    | some c =>
      obtain ⟨rfl, rfl⟩ := by simpa using hstep
      obtain rfl : c = cell := Option.some.inj hcell
      obtain ⟨-, -, hbase, hhash⟩ := ht.nodes.addTimer_linked hf hadd
      refine ⟨?_, ?_⟩
      · show (t.stHash c).qwExpireTime = _
        rw [hhash, Function.update_self, Nat.add_comm now, ← (timeMsToUs_eq_iff _).mpr htime]
        rfl
      · show (t.stHash c).uiExpire = (_ - t.qwBaseTime) / _
        rw [hhash, Function.update_self, hbase,
          ← expireTick_eq (ht.nodes.base.trans harm.1) harm htime]
        rfl
  | update c uiTimeOut sData now isMalloc =>
    obtain ⟨-, -, harm⟩ := hfits
    refine ⟨reply, w', hstep, ?_, hinv⟩
    intro hzero
    obtain ⟨-, hbase, hset⟩ :=
      updateTimer_hash (setTimeOut w.timer c uiTimeOut) c sData now isMalloc
    have htimeout : ((setTimeOut w.timer c uiTimeOut).stHash c).uiTimeOut = uiTimeOut := by
      simp [setTimeOut, Timer.setNode]
    generalize hupdate : updateTimer (setTimeOut w.timer c uiTimeOut) c sData now isMalloc =
      result at hbase hset
    obtain ⟨iRet, t⟩ := result
    simp only [Timer.step, hupdate] at hstep
    split at hstep
    case isFalse hne =>
      obtain ⟨rfl, -⟩ := by simpa using hstep
      exact absurd hzero hne
    case isTrue hret =>
      obtain ⟨-, rfl⟩ := by simpa using hstep
      obtain ⟨-, -, hexpire, htick⟩ := hset hret
      rw [htimeout] at hexpire htick
      refine ⟨?_, ?_⟩
      · show (t.stHash c).qwExpireTime = _
        rw [hexpire, (timeMsToUs_eq_iff _).mpr htime, Nat.add_comm]
      · show (t.stHash c).uiExpire = (_ - t.qwBaseTime) / _
        rw [htick, show t.qwBaseTime = w.timer.qwBaseTime from hbase]
        exact expireTick_eq (ht.nodes.base.trans harm.1) harm htime
  | check =>
    obtain ⟨reply, w', hstep, hinv, htimely⟩ :=
      h.loop_onTime (show Op.check.RunsLoop from trivial) hfits
    exact ⟨reply, w', hstep, fun _ _ _ _ _ _ hphase => htimely _ _ _ _ _ hphase, hinv⟩
  | resume iRet =>
    obtain ⟨reply, w', hstep, hinv, htimely⟩ :=
      h.loop_onTime (show (Op.resume iRet).RunsLoop from trivial) hfits
    exact ⟨reply, w', hstep, fun _ _ _ _ _ _ hphase => htimely _ _ _ _ _ hphase, hinv⟩

end Steps

section Run

/-- In every run whose steps meet their conditions no expiry is early: each timer is set for its
timeout, each callback is on time, and the check of `RunTimerList` does not stop the agent. -/
theorem timer_on_time (now dwProcessId : Nat) (ops : List Op)
    (hops : Admissible step StepTimely (initWorld now dwProcessId) ops) :
    ∃ replies w, runSteps step (initWorld now dwProcessId) ops = some (replies, w) ∧
      w.timer.cIsAgentRun = 1 ∧
      ∀ op, StepTimely w op → ∃ reply w', step w op = some (reply, w') ∧ OnTime op reply w' ∧
        w'.timer.cIsAgentRun = 1 := by
  obtain ⟨replies, w, hrun, -, hinv⟩ := run_invariant (O := fun _ _ => True)
    (fun w op h hok => by
      obtain ⟨reply, w', hstep, -, hinv⟩ := WorldInv.onTime h hok
      exact ⟨reply, w', hstep, trivial, hinv⟩)
    ops (initWorld now dwProcessId) (initWorld_inv now dwProcessId) hops
  refine ⟨replies, w, hrun, hinv.run, fun op hok => ?_⟩
  obtain ⟨reply, w', hstep, htime, hnext⟩ := hinv.onTime hok
  exact ⟨reply, w', hstep, htime, hnext.run⟩

/-- After a timer of a second has started. -/
theorem timer_on_time_one_timer :
    ∃ replies w,
      runSteps step (initWorld 0 7) [.add (timerCall 1 1000) 0 true] = some (replies, w) ∧
      w.timer.cIsAgentRun = 1 ∧
      ∀ op, StepTimely w op → ∃ reply w', step w op = some (reply, w') ∧ OnTime op reply w' ∧
        w'.timer.cIsAgentRun = 1 := by
  apply timer_on_time 0 7
  refine ⟨⟨⟨by decide, ⟨by decide, by decide⟩, fun c hc => absurd rfl hc⟩, ?_⟩,
    fun _ _ _ => trivial⟩
  exact (by decide : max 1000 1000 * 1000 < 2 ^ 32)

/-- The wheels stand still for `2^31` ticks, and then a timer of a second starts. -/
def idleRun : List Op :=
  [.setCurTime 214748364800000, .add (timerCall 1 1000) 214748364800000 true, .check]

/-- A timeout of 4294968 ms expires after 704 us; and after `2^31` ticks without a timer the check
against an early expiry stops the agent. -/
theorem timer_early :
    ¬ SetFor (addTimer (initTimer 0 7) (timerCall 1 4294968) 0 true).2.2 1 4294968 0 ∧
      ∃ replies w, runSteps step (initWorld 0 7) idleRun = some (replies, w) ∧
        w.timer.cIsAgentRun = 2 := by
  constructor
  · intro h
    have hexpire := h.expire
    revert hexpire
    decide +kernel
  · have hrun : ((runSteps step (initWorld 0 7) idleRun).any
        fun r => decide (r.2.timer.cIsAgentRun = 2)) = true := by
      decide +kernel
    obtain ⟨⟨replies, w⟩, hw, hstop⟩ := (Option.any_eq_true _ _).mp hrun
    exact ⟨replies, w, hw, of_decide_eq_true hstop⟩

end Run

end XrkMonitor.Timer
