import XrkMonitor.Library.Run
import XrkMonitor.Timer.Expiry

/-!
# Runs of the timer

A run is a sequence of timer calls, with the callbacks of `CheckTimer` among
them. The history beside the timer keeps which armings are pending, which have
expired and in which tick, and which were taken out by `GetTimer`.
`timer_conservation` is about the runs that re-enter no tick whose slots were
cascaded before; `timer_dropped` is a run that does.
-/

namespace XrkMonitor.Timer

open Library

/-- The timer, the point `RunTimerList` stands at, and the history of armings. -/
structure World where
  timer : MtReportTimer
  phase : Phase
  armed : Nat
  pending : List Arming
  fired : List (Arming × Nat)
  removed : List Arming

def initWorld (now dwProcessId : Nat) : World := ⟨initTimer now dwProcessId, .idle, 0, [], [], []⟩

inductive Op
  | setCurTime (now : Nat)
  | add (call : TimerCall) (now : Nat) (isMalloc : Bool)
  | get (uiKey : Nat)
  | release (cell : Nat)
  | update (cell uiTimeOut : Nat) (sData : List UInt8) (now : Nat) (isMalloc : Bool)
  | check
  | resume (iRet : Int)
deriving Repr, DecidableEq

/-- The armings of one node. -/
def takeCell (c : Nat) (pending : List Arming) : List Arming := pending.filter (·.cell = c)

/-- Node `c` has been linked. -/
def World.arm (w : World) (t : MtReportTimer) (c : Nat) : World :=
  { w with
    timer := t
    armed := w.armed + 1
    pending := w.pending ++ [⟨w.armed, c, max (t.stHash c).uiExpire w.timer.uiCheckTime⟩] }

/-- Node `c` has been taken out by `GetTimer`. -/
def World.remove (w : World) (t : MtReportTimer) (c : Nat) : World :=
  { w with
    timer := t
    pending := dropCell c w.pending
    removed := w.removed ++ takeCell c w.pending }

/-- `RunTimerList` has come to a phase; at a callback its node has expired. -/
def World.settle (w : World) (ph : Phase) (t : MtReportTimer) : World :=
  match ph with
  | .idle => { w with timer := t, phase := .idle }
  | .callback c onExpire data uiCurTime iCheckNodeCount =>
    { w with
      timer := t
      phase := .callback c onExpire data uiCurTime iCheckNodeCount
      pending := dropCell c w.pending
      fired := w.fired ++ (takeCell c w.pending).map (·, t.uiCheckTime) }

theorem settle_phase (w : World) (ph : Phase) (t : MtReportTimer) :
    (w.settle ph t).phase = ph ∧ (w.settle ph t).timer = t := by
  cases ph with
  | idle => exact ⟨rfl, rfl⟩
  | callback => exact ⟨rfl, rfl⟩

/-- One call, or the return of a callback. -/
def step (w : World) : Op → Option (TimerReply × World)
  | .setCurTime now => some (⟨0, none, 0, []⟩, { w with timer := setCurTime w.timer now })
  | .add call now isMalloc =>
    match addTimer w.timer call now isMalloc with
    | (iRet, none, t) => some (⟨iRet, none, 0, []⟩, { w with timer := t })
    | (iRet, some c, t) => some (⟨iRet, some c, 0, []⟩, w.arm t c)
  | .get uiKey =>
    match getTimer w.timer uiKey with
    | (reply, t) =>
      match reply.pNode with
      | none => some (reply, { w with timer := t })
      | some c => some (reply, w.remove t c)
  | .release c => some (⟨0, none, 0, []⟩, { w with timer := releaseTimer w.timer c })
  | .update c uiTimeOut sData now isMalloc =>
    match updateTimer (setTimeOut w.timer c uiTimeOut) c sData now isMalloc with
    | (iRet, t) =>
      if iRet = 0 then some (⟨iRet, some c, 0, []⟩, w.arm t c)
      else some (⟨iRet, none, 0, []⟩, { w with timer := t })
  | .check =>
    match w.phase with
    | .idle => (checkTimer w.timer).map fun r =>
      (⟨MT_TIMER_CHECK_INTVALUS, none, 0, []⟩, w.settle r.1 r.2)
    | .callback .. => none
  | .resume iRet =>
    match w.phase with
    | .idle => none
    | .callback c onExpire _ uiCurTime iCheckNodeCount =>
      (resumeTimerList w.timer c onExpire uiCurTime iCheckNodeCount iRet).map fun r =>
        (⟨MT_TIMER_CHECK_INTVALUS, none, 0, []⟩, w.settle r.1 r.2)

/-- The slots of tick `uiCheckTime` have not been cascaded yet, if it is the start of a slot. -/
def TickUncascaded (t : MtReportTimer) : Prop :=
  t.index 0 = 0 → t.index 1 = t.uiCheckTime / 256 % 64

/-- The callback that is under way. -/
def World.running (w : World) (c : Nat) : Prop :=
  ∃ onExpire data uiCurTime iCheckNodeCount,
    w.phase = .callback c onExpire data uiCurTime iCheckNodeCount

/-- What a step has to meet: the clock goes on, keys are not zero, no node in use
is abandoned, a node is handed back or updated only while its holder has it, and
`CheckTimer` does not come back to a tick whose slots it has cascaded. -/
def StepOk (w : World) : Op → Prop
  | .setCurTime now => ClockOk w.timer now
  | .add call now _ => call.uiKey ≠ 0 ∧ ClockOk w.timer now ∧ Fresh w.timer
  | .get uiKey => Fresh w.timer ∧
      ∀ c, (w.timer.stHash c).uiKey = uiKey → c ∈ cellsOf w.pending
  | .release c => c ∉ cellsOf w.pending ∧ ¬ w.running c
  | .update c _ _ now _ => c ∉ cellsOf w.pending ∧ (w.timer.stHash c).uiKey ≠ 0 ∧
      ClockOk w.timer now
  | .check => w.phase = .idle ∧ Fresh w.timer ∧ w.timer.uiCount ≤ 10000 ∧
      (w.timer.uiCheckTime ≤ curTick w.timer → TickUncascaded w.timer)
  | .resume iRet => Fresh w.timer ∧ w.timer.uiCount ≤ 10000 ∧
      ∃ c onExpire data uiCurTime iCheckNodeCount,
        w.phase = .callback c onExpire data uiCurTime iCheckNodeCount ∧
        ((if onExpire.isSome then iRet else 0) = 1 ↔ c ∈ cellsOf w.pending)

/-- What a step has to meet if the ticks may take 32 bits: as `StepOk`, but only a timeout that
starts has to expire less than half their range ahead of the wheels. -/
def StepFits (w : World) : Op → Prop
  | .setCurTime now => w.timer.qwCurTime ≤ now ∧ clockTick (setCurTime w.timer now) < 2 ^ 32 - 1
  | .add call now _ => call.uiKey ≠ 0 ∧ ArmOk w.timer call.uiTimeOut now ∧ Fresh w.timer
  | .update c uiTimeOut _ now _ => c ∉ cellsOf w.pending ∧ (w.timer.stHash c).uiKey ≠ 0 ∧
      ArmOk w.timer uiTimeOut now
  | op => StepOk w op

theorem StepOk.fits {w : World} {op : Op} (h : StepOk w op) : StepFits w op := by
  cases op with
  | setCurTime now =>
    obtain ⟨hnow, htick⟩ := h
    refine ⟨hnow, ?_⟩
    simp only [clockTick, setCurTime, MT_TIMER_CHECK_INTVALUS]
    omega
  | add call now isMalloc => exact ⟨h.1, h.2.1.armOk call.uiTimeOut, h.2.2⟩
  | update c uiTimeOut sData now isMalloc => exact ⟨h.1, h.2.1, h.2.2.armOk uiTimeOut⟩
  | get uiKey => exact h
  | release c => exact h
  | check => exact h
  | resume iRet => exact h

section Invariant

/-- What holds at each point of `RunTimerList`. -/
def PhaseOk (t : MtReportTimer) (K : Nat → Nat) : Phase → Prop
  | .idle => Undone K t.uiCheckTime ∨ Done K t.uiCheckTime
  | .callback c _ _ uiCurTime _ => Done K t.uiCheckTime ∧ (t.stHash c).uiKey ≠ 0 ∧
      t.uiCheckTime ≤ uiCurTime ∧ ClockAt t uiCurTime

/-- Every arming is pending, expired or removed, and it expired in its tick. -/
structure HistoryOk (w : World) : Prop where
  fate : ((w.pending ++ w.fired.map Prod.fst ++ w.removed).map Arming.id).Perm
    (List.range w.armed)
  due : ∀ p ∈ w.fired, p.2 = p.1.due

structure WorldInv (w : World) : Prop where
  timer : ∃ K, TimerInv w.timer K w.pending ∧ PhaseOk w.timer K w.phase
  clock : clockTick w.timer < 2 ^ 32 - 1
  run : w.timer.cIsAgentRun = 1
  history : HistoryOk w

variable {w : World} {t t' : MtReportTimer} {K : Nat → Nat} {ph : Phase} {r : Arming}
  {uiCurTime iCheckNodeCount : Nat} {pending : List Arming} {t₁ : MtReportTimer}

theorem PhaseOk.frame (h : PhaseOk t K ph) (hf : Frame t t') : PhaseOk t' K ph := by
  cases ph with
  | idle =>
    simp only [PhaseOk, hf.check]
    exact h
  | callback c onExpire data uiCurTime iCheckNodeCount =>
    obtain ⟨hdone, hkey, hle, hclock⟩ := h
    simp only [PhaseOk, hf.check]
    refine ⟨hdone, hf.key c hkey, hle, ?_⟩
    have hcur := hf.cur
    have hbase := hf.base
    refine ⟨?_, hclock.2⟩
    rw [hbase]
    exact hclock.1.trans hcur

theorem takeCell_eq
    (hnd : (pending.map Arming.cell).Nodup) (hr : r ∈ pending) :
    takeCell r.cell pending = [r] := by
  have hperm := (perm_dropCell hnd hr).filter (·.cell = r.cell)
  have hdrop : (dropCell r.cell pending).filter (·.cell = r.cell) = [] := by
    apply List.filter_eq_nil_iff.mpr
    intro x hx
    simpa [dropCell] using (List.mem_filter.mp hx).2
  rw [List.filter_cons_of_pos (by simp), hdrop] at hperm
  exact List.perm_singleton.mp hperm

theorem perm_retire {pending rest fired removed : List Arming}
    (h : pending.Perm (r :: rest)) :
    (rest ++ (fired ++ [r]) ++ removed).Perm (pending ++ fired ++ removed) ∧
      (rest ++ fired ++ (removed ++ [r])).Perm (pending ++ fired ++ removed) := by
  constructor
  · apply List.perm_iff_count.mpr
    intro a
    have hcount := h.count_eq a
    simp only [List.count_append, List.count_cons, List.count_nil] at hcount ⊢
    omega
  · apply List.perm_iff_count.mpr
    intro a
    have hcount := h.count_eq a
    simp only [List.count_append, List.count_cons, List.count_nil] at hcount ⊢
    omega

theorem HistoryOk.arm (h : HistoryOk w) (t : MtReportTimer) (c : Nat) : HistoryOk (w.arm t c) where
  fate := by
    apply List.perm_iff_count.mpr
    intro a
    have hcount := h.fate.count_eq a
    simp only [World.arm, List.range_succ, List.map_append, List.count_append, List.map_cons,
      List.map_nil] at hcount ⊢
    omega
  due := h.due

theorem HistoryOk.remove (h : HistoryOk w) (hnd : (w.pending.map Arming.cell).Nodup)
    (hr : r ∈ w.pending) (t : MtReportTimer) : HistoryOk (w.remove t r.cell) where
  fate := by
    apply List.Perm.trans _ h.fate
    simp only [World.remove, takeCell_eq hnd hr]
    exact (perm_retire (perm_dropCell hnd hr)).2.map _
  due := h.due

theorem HistoryOk.expire (h : HistoryOk w) (hnd : (w.pending.map Arming.cell).Nodup)
    (hr : r ∈ w.pending) {t : MtReportTimer} (hdue : r.due = t.uiCheckTime)
    (onExpire : Option Nat) (data : Nat × List UInt8) (uiCurTime iCheckNodeCount : Nat) :
    HistoryOk (w.settle (.callback r.cell onExpire data uiCurTime iCheckNodeCount) t) where
  fate := by
    apply List.Perm.trans _ h.fate
    have hfired : (w.fired ++ (takeCell r.cell w.pending).map (·, t.uiCheckTime)).map Prod.fst =
        w.fired.map Prod.fst ++ [r] := by
      rw [takeCell_eq hnd hr]
      simp
    simp only [World.settle, hfired]
    exact (perm_retire (perm_dropCell hnd hr)).1.map _
  due := by
    intro p hp
    simp only [World.settle, takeCell_eq hnd hr, List.map_cons, List.map_nil, List.mem_append,
      List.mem_singleton] at hp
    rcases hp with hp | rfl
    · exact h.due p hp
    · exact hdue.symm

theorem Kept.clockTick (h : Kept t t') : clockTick t' = clockTick t := by
  rw [Timer.clockTick, h.cur, h.base, Timer.clockTick]

theorem WorldInv.settle (h : WorldInv w) {K : Nat → Nat} (ht : TimerInv w.timer K w.pending)
    (hclock : ClockAt w.timer uiCurTime)
    (hstart : Kept w.timer t₁)
    (hout : Outcome t₁ w.pending uiCurTime iCheckNodeCount ph t) :
    WorldInv (w.settle ph t) := by
  cases hout with
  | idle hinv hK _ hkept _ =>
    have hkept := hstart.trans hkept
    refine ⟨⟨_, hinv, hK⟩, ?_, ?_, h.history.fate, h.history.due⟩
    · show clockTick t < 2 ^ 32 - 1
      rw [hkept.clockTick]
      exact h.clock
    · exact hkept.run.trans h.run
  | expire r onExpire hr hdue hle hinv hdone hkey hkept _ _ =>
    have hkept := hstart.trans hkept
    refine ⟨⟨_, hinv, hdone, hkey, hle, ?_, hclock.2⟩, ?_, hkept.run.trans h.run,
      h.history.expire ht.nodup hr hdue onExpire _ uiCurTime (iCheckNodeCount + 1)⟩
    · show t.qwBaseTime + uiCurTime * MT_TIMER_CHECK_INTVALUS ≤ t.qwCurTime
      rw [hkept.cur, hkept.base]
      exact hclock.1
    · show clockTick t < 2 ^ 32 - 1
      rw [hkept.clockTick]
      exact h.clock

theorem WorldInv.armed (h : WorldInv w) {pNode : Option Nat} (hph : PhaseOk w.timer K w.phase)
    (harm : Armed w.timer K w.pending pNode t)
    (hclock : clockTick t < 2 ^ 32 - 1) :
    match pNode with
    | none => WorldInv { w with timer := t }
    | some c => WorldInv (w.arm t c) := by
  cases harm with
  | refused hinv hf _ =>
    exact ⟨⟨K, hinv, hph.frame hf⟩, hclock, hf.run.trans h.run, h.history.fate, h.history.due⟩
  | linked c hinv hf =>
    exact ⟨⟨K, hinv w.armed, hph.frame hf⟩, hclock, hf.run.trans h.run, h.history.arm t c⟩

theorem TimerInv.undone (h : TimerInv t K pending)
    (hK : Undone K t.uiCheckTime ∨ Done K t.uiCheckTime) (hun : TickUncascaded t)
    (h0 : t.index 0 = 0) : Undone K t.uiCheckTime := by
  rcases hK with hK | hK
  · exact hK
  · obtain ⟨L, slotOf, w⟩ := h.wheel
    have hindex := w.index 1 le_rfl (by decide)
    have hzero := w.index0
    have hlow : t.uiCheckTime < K 1 * 256 := hK 1 le_rfl (by decide)
    have hhigh : K 1 * 256 ≤ t.uiCheckTime + 256 := (w.ahead 1 le_rfl (by decide)).2
    have hslot := hun h0
    omega

theorem WorldInv.check (h : WorldInv w) (hok : StepOk w .check) :
    ∃ ph t, checkTimer w.timer = some (ph, t) ∧ WorldInv (w.settle ph t) ∧
      Outcome w.timer w.pending (curTick w.timer) 0 ph t := by
  obtain ⟨hidle, hf, hcount, hun⟩ := hok
  obtain ⟨K, hinv, hph⟩ := h.timer
  rw [hidle] at hph
  have hclock : ClockAt w.timer (curTick w.timer) :=
    clockAt_curTick hinv.nodes.base h.clock
  obtain ⟨ph, t, hres, hout⟩ := hinv.checkTimer (by rw [← hinv.count]; exact hcount) hph
    (fun hle h0 => hinv.undone hph (hun hle) h0) hf hclock
  exact ⟨ph, t, hres, h.settle hinv hclock (Kept.refl _) hout, hout⟩

theorem WorldInv.resume (h : WorldInv w) {iRet : Int} (hok : StepOk w (.resume iRet)) :
    ∃ c onExpire data uiCurTime iCheckNodeCount ph t,
      w.phase = .callback c onExpire data uiCurTime iCheckNodeCount ∧
      resumeTimerList w.timer c onExpire uiCurTime iCheckNodeCount iRet = some (ph, t) ∧
      WorldInv (w.settle ph t) ∧
      (Outcome (endCallback w.timer c (if onExpire.isSome then iRet else 0)) w.pending uiCurTime
          iCheckNodeCount ph t ∨
        MAX_TIMER_NODE_PER_TRY ≤ iCheckNodeCount ∧ ph = .idle ∧
          t = endCallback w.timer c (if onExpire.isSome then iRet else 0)) := by
  obtain ⟨hf, hcount, c, onExpire, data, uiCurTime, iCheckNodeCount, hphase, hret⟩ := hok
  obtain ⟨K, hinv, hph⟩ := h.timer
  rw [hphase] at hph
  obtain ⟨hdone, hkey, hle, hclock⟩ := hph
  obtain ⟨hkept, hcheck⟩ := kept_endCallback w.timer c (if onExpire.isSome then iRet else 0)
  have hclock' : ClockAt (endCallback w.timer c (if onExpire.isSome then iRet else 0))
      uiCurTime := by
    rw [ClockAt, hkept.base, hkept.cur]
    exact hclock
  have hend := hinv.endCallback hret
  obtain ⟨ph, t, hres, hout⟩ := hend.repeatOrStop (by rw [← hinv.count]; exact hcount)
    (by rw [hcheck]; exact hdone) (hf.endCallback c _) hclock' (by rw [hcheck]; exact hle)
    iCheckNodeCount
  refine ⟨c, onExpire, data, uiCurTime, iCheckNodeCount, ph, t, hphase, hres, ?_, hout⟩
  · rcases hout with hout | ⟨_, rfl, rfl⟩
    · exact h.settle hinv hclock hkept hout
    · refine ⟨⟨K, hend, Or.inr ?_⟩, ?_, hkept.run.trans h.run, h.history.fate, h.history.due⟩
      · show Done K (endCallback _ _ _).uiCheckTime
        rw [hcheck]
        exact hdone
      · show clockTick (endCallback _ _ _) < 2 ^ 32 - 1
        rw [hkept.clockTick]
        exact h.clock

/-- The tick up to which `RunTimerList` goes. -/
def World.loopTick (w : World) : Nat :=
  match w.phase with
  | .idle => curTick w.timer
  | .callback _ _ _ uiCurTime _ => uiCurTime

/-- The callback that is under way is the last of its `CheckTimer`. -/
def World.AtLimit (w : World) : Prop :=
  match w.phase with
  | .idle => False
  | .callback _ _ _ _ iCheckNodeCount => MAX_TIMER_NODE_PER_TRY ≤ iCheckNodeCount

/-- The steps that run the loop of `RunTimerList`. -/
def Op.RunsLoop : Op → Prop
  | .check => True
  | .resume _ => True
  | _ => False

/-- A `CheckTimer` that returned has left no arming behind up to its tick, unless it
stopped at the limit of callbacks. -/
def CaughtUp (w w' : World) : Prop :=
  w'.phase = .idle → w.AtLimit ∨ ∀ r ∈ w'.pending, w.loopTick < r.due

theorem Outcome.caughtUp
    (h : Outcome t₁ w.pending uiCurTime iCheckNodeCount ph t)
    (htick : w.loopTick = uiCurTime) : CaughtUp w (w.settle ph t) := by
  intro hidle
  rw [htick]
  cases h with
  | idle _ _ hdue _ _ => exact Or.inr hdue
  | expire => cases hidle

theorem endCallback_other {c d : Nat} {iRet : Int} (h : iRet ≠ 1 → d ≠ c) :
    (endCallback t c iRet).stHash d = t.stHash d := by
  unfold endCallback
  by_cases hone : iRet ≠ 1
  · rw [if_pos hone]
    exact Function.update_of_ne (h hone) _ _
  · rw [if_neg hone]

theorem WorldInv.loop (h : WorldInv w) {op : Op} (hloop : op.RunsLoop) (hok : StepFits w op) :
    ∃ reply ph t t₁, Timer.step w op = some (reply, w.settle ph t) ∧ WorldInv (w.settle ph t) ∧
      CaughtUp w (w.settle ph t) ∧ (∀ c ∈ cellsOf w.pending, t₁.stHash c = w.timer.stHash c) ∧
      ((∃ iCheckNodeCount, Outcome t₁ w.pending w.loopTick iCheckNodeCount ph t) ∨
        ph = .idle ∧ t = t₁) := by
  cases op with
  | check =>
    have hidle := hok.1
    obtain ⟨ph, t, hres, hinv, hout⟩ := h.check hok
    have htick : w.loopTick = curTick w.timer := by simp only [World.loopTick, hidle]
    refine ⟨⟨MT_TIMER_CHECK_INTVALUS, none, 0, []⟩, ph, t, w.timer, ?_, hinv,
      hout.caughtUp htick, fun _ _ => rfl, Or.inl ⟨0, htick ▸ hout⟩⟩
    simp only [Timer.step, hidle, hres]
    rfl
  | resume iRet =>
    obtain ⟨c, onExpire, data, uiCurTime, iCheckNodeCount, ph, t, hphase, hres, hinv, hout⟩ :=
      h.resume hok
    have htick : w.loopTick = uiCurTime := by simp only [World.loopTick, hphase]
    have hsame : ∀ d ∈ cellsOf w.pending,
        (endCallback w.timer c (if onExpire.isSome then iRet else 0)).stHash d =
          w.timer.stHash d := by
      obtain ⟨-, -, c', onExpire', data', uiTick', count', hphase', hret⟩ := hok
      rw [hphase] at hphase'
      obtain ⟨rfl, rfl, -⟩ := Phase.callback.inj hphase'
      intro d hd
      apply endCallback_other
      rintro hne rfl
      exact hne (hret.mpr hd)
    refine ⟨⟨MT_TIMER_CHECK_INTVALUS, none, 0, []⟩, ph, t, _, ?_, hinv, ?_, hsame, ?_⟩
    · simp only [Timer.step, hphase, hres]
      rfl
    · rcases hout with hout | ⟨hmax, -⟩
      · exact hout.caughtUp htick
      · intro _
        left
        simp only [World.AtLimit, hphase]
        exact hmax
    · rw [htick]
      exact hout.imp (fun hout => ⟨iCheckNodeCount, hout⟩) fun ⟨_, hidle, ht⟩ => ⟨hidle, ht⟩
  | _ => exact hloop.elim

/-- Every step that meets its condition has a result and keeps the invariant. -/
theorem WorldInv.step (w : World) (op : Op) (h : WorldInv w) (hok : StepFits w op) :
    ∃ reply w', step w op = some (reply, w') ∧ (op.RunsLoop → CaughtUp w w') ∧ WorldInv w' := by
  obtain ⟨K, hinv, hph⟩ := h.timer
  have hclock := h.clock
  cases op with
  | setCurTime now =>
    refine ⟨_, _, rfl, fun hrun => hrun.elim, ⟨⟨K, hinv.setCurTime hok.1, ?_⟩, hok.2, h.run,
      h.history.fate, h.history.due⟩⟩
    exact hph.frame ⟨rfl, rfl, hok.1, rfl, fun _ hc => hc⟩
  | add call now isMalloc =>
    obtain ⟨hkey, hnow, hf⟩ := hok
    obtain ⟨iRet, pNode, t, hres, harm, -, hcur⟩ := hinv.addTimer hf hkey hnow isMalloc
    have hclock' : clockTick t < 2 ^ 32 - 1 := by
      cases harm with
      | refused _ hframe hsame =>
        rw [clockTick, hsame, hframe.base]
        exact hclock
      | linked c _ hframe =>
        rw [clockTick, hcur rfl, hframe.base]
        exact hnow.clock_lt
    have hnext := h.armed hph harm hclock'
    cases pNode with
    | none => exact ⟨_, _, by simp only [Timer.step, hres]; rfl, fun hrun => hrun.elim, hnext⟩
    | some c => exact ⟨_, _, by simp only [Timer.step, hres]; rfl, fun hrun => hrun.elim, hnext⟩
  | get uiKey =>
    obtain ⟨hf, hlinked⟩ := hok
    rcases hinv.getTimer hf hlinked with hnone | ⟨c, reply, t, hres, hnode, hc, hinv', hframe, hcur⟩
    · exact ⟨_, _, by simp only [Timer.step, hnone]; rfl, fun hrun => hrun.elim, h⟩
    · obtain ⟨r, hr, rfl⟩ := mem_cellsOf.mp hc
      refine ⟨reply, w.remove t r.cell, by simp only [Timer.step, hres, hnode],
        fun hrun => hrun.elim, ⟨⟨K, hinv', hph.frame hframe⟩, ?_, hframe.run.trans h.run,
          h.history.remove hinv.nodup hr t⟩⟩
      show clockTick t < 2 ^ 32 - 1
      rw [clockTick, hcur, hframe.base]
      exact hclock
  | release c =>
    obtain ⟨hc, hrun⟩ := hok
    refine ⟨_, _, rfl, fun hrun => hrun.elim, ⟨⟨K, ?_, ?_⟩, hclock, h.run, h.history.fate,
      h.history.due⟩⟩
    · exact hinv.setNode _ (Or.inl rfl) fun hm => absurd hm hc
    · cases hphase : w.phase with
      | idle =>
        rw [hphase] at hph
        exact hph
      | callback d onExpire data uiCurTime iCheckNodeCount =>
        rw [hphase] at hph
        obtain ⟨hdone, hkey, hle, hat⟩ := hph
        have hdc : d ≠ c := by
          rintro rfl
          exact hrun ⟨_, _, _, _, hphase⟩
        refine ⟨hdone, ?_, hle, hat⟩
        simpa [releaseTimer, Timer.setNode, hdc] using hkey
  | update c uiTimeOut sData now isMalloc =>
    obtain ⟨hc, hkey, hnow⟩ := hok
    have hset : TimerInv (setTimeOut w.timer c uiTimeOut) K w.pending :=
      hinv.setNode _ (Or.inr ⟨rfl, rfl, rfl⟩) fun hm => absurd hm hc
    have hframe : Frame w.timer (setTimeOut w.timer c uiTimeOut) :=
      frame_setNode _ fun hne => hne
    have htimeout : ((setTimeOut w.timer c uiTimeOut).stHash c).uiTimeOut = uiTimeOut := by
      simp [setTimeOut, Timer.setNode]
    obtain ⟨iRet, t, hres, harm, hcur⟩ :=
      hset.updateTimer hc (hframe.key c hkey) (by rw [htimeout]; exact hnow) sData isMalloc
    have harm := harm.of_frame hframe rfl
    have hclock' : clockTick t < 2 ^ 32 - 1 := by
      by_cases hzero : iRet = 0
      · rw [clockTick, hcur hzero, harm.frame.base]
        exact hnow.clock_lt
      · rw [if_neg hzero] at harm
        cases harm with
        | refused _ hframe' hsame =>
          rw [clockTick, hsame, hframe'.base]
          exact hclock
    have hnext := h.armed hph harm hclock'
    by_cases hzero : iRet = 0
    · rw [if_pos hzero] at hnext
      refine ⟨⟨iRet, some c, 0, []⟩, w.arm t c, ?_, fun hrun => hrun.elim, hnext⟩
      simp only [Timer.step, hres, if_pos hzero]
    · rw [if_neg hzero] at hnext
      refine ⟨⟨iRet, none, 0, []⟩, { w with timer := t }, ?_, fun hrun => hrun.elim, hnext⟩
      simp only [Timer.step, hres, if_neg hzero]
  | check =>
    obtain ⟨reply, ph, t, -, hstep, hinv', hcaught, -⟩ :=
      h.loop (show Op.check.RunsLoop from trivial) hok
    exact ⟨reply, _, hstep, fun _ => hcaught, hinv'⟩
  | resume iRet =>
    obtain ⟨reply, ph, t, -, hstep, hinv', hcaught, -⟩ :=
      h.loop (show (Op.resume iRet).RunsLoop from trivial) hok
    exact ⟨reply, _, hstep, fun _ => hcaught, hinv'⟩

end Invariant

section Conservation

/-- The slot heads of the five wheels. -/
def allSlots : List Ptr :=
  (List.range 256).map (.head 0) ++ [1, 2, 3, 4].flatMap fun n => (List.range 64).map (.head n)

theorem mem_allSlots {n i : Nat} :
    Ptr.head n i ∈ allSlots ↔ n = 0 ∧ i < 256 ∨ 1 ≤ n ∧ n ≤ 4 ∧ i < 64 := by
  simp only [allSlots, List.mem_append, List.mem_map, List.mem_range, List.mem_flatMap,
    List.mem_cons, List.not_mem_nil, or_false, Ptr.head.injEq]
  constructor
  · rintro (⟨a, ha, rfl, rfl⟩ | ⟨m, hm, a, ha, rfl, rfl⟩)
    · exact Or.inl ⟨rfl, ha⟩
    · exact Or.inr ⟨by omega, by omega, ha⟩
  · rintro (⟨rfl, hi⟩ | ⟨h₁, h₄, hi⟩)
    · exact Or.inl ⟨i, hi, rfl, rfl⟩
    · exact Or.inr ⟨n, by omega, i, hi, rfl, rfl⟩

theorem nodup_slots (n k : Nat) : ((List.range k).map (Ptr.head n)).Nodup := by
  apply List.Nodup.map _ List.nodup_range
  intro a b h
  exact (Ptr.head.inj h).2

theorem allSlots_nodup : allSlots.Nodup := by
  apply List.nodup_append.mpr
  refine ⟨nodup_slots 0 256, ?_, ?_⟩
  · apply List.nodup_flatMap.mpr
    refine ⟨fun n _ => nodup_slots n 64, ?_⟩
    have hne : [1, 2, 3, 4].Pairwise (· ≠ ·) := by decide
    apply hne.imp
    intro n m hnm p hp hp'
    obtain ⟨i, -, rfl⟩ := List.mem_map.mp hp
    obtain ⟨j, -, hj⟩ := List.mem_map.mp hp'
    exact hnm (Ptr.head.inj hj).1.symm
  · intro p hp q hq hpq
    obtain ⟨i, -, rfl⟩ := List.mem_map.mp hp
    obtain ⟨n, hn, hq⟩ := List.mem_flatMap.mp hq
    obtain ⟨j, -, rfl⟩ := List.mem_map.mp hq
    have : 0 = n := (Ptr.head.inj hpq).1
    subst this
    simp at hn

theorem SlotOk.mem_allSlots {K : Nat → Nat} {u e : Nat} {p : Ptr} (h : SlotOk K u e p) :
    p ∈ allSlots := by
  cases h with
  | near => exact Timer.mem_allSlots.mpr (Or.inl ⟨rfl, Nat.mod_lt _ (by decide)⟩)
  | late => exact Timer.mem_allSlots.mpr (Or.inl ⟨rfl, Nat.mod_lt _ (by decide)⟩)
  | far n hn hn4 =>
    exact Timer.mem_allSlots.mpr (Or.inr ⟨hn, hn4, Nat.mod_lt _ (by decide)⟩)

/-- No timer is lost: the slots hold exactly the pending nodes, each once, and
`uiCount` counts them; every arming is pending, has expired or was removed; none
is pending past its tick, and it expired in its tick. -/
structure Conserved (w : World) : Prop where
  linked : ∃ L : Ptr → List Nat,
    (∀ p ∈ allSlots, Ring w.timer.list p ((L p).map .node)) ∧
    (allSlots.flatMap L).Nodup ∧
    (allSlots.flatMap L).Perm (w.pending.map Arming.cell) ∧
    w.timer.uiCount = (allSlots.flatMap L).length
  fate : ((w.pending ++ w.fired.map Prod.fst ++ w.removed).map Arming.id).Perm
    (List.range w.armed)
  pending : ∀ r ∈ w.pending, w.timer.uiCheckTime ≤ r.due
  fired : ∀ p ∈ w.fired, p.2 = p.1.due

theorem WorldInv.conserved {w : World} (h : WorldInv w) : Conserved w := by
  obtain ⟨K, hinv, -⟩ := h.timer
  obtain ⟨L, slotOf, wheel⟩ := hinv.wheel
  have hring : ∀ p ∈ allSlots, Ring w.timer.list p ((L p).map .node) := by
    intro p hp
    rcases p with _ | ⟨n, i⟩ | c
    · simp [allSlots] at hp
    · exact wheel.links.ring n i (by simp)
    · simp [allSlots] at hp
  have hnd : (allSlots.flatMap L).Nodup := by
    apply List.nodup_flatMap.mpr
    constructor
    · intro p hp
      exact (List.nodup_cons.mp (hring p hp).nodup).2.of_map _
    · apply allSlots_nodup.imp
      intro p q hpq c hc hc'
      have h₁ := ((wheel.links.mem p c).mp hc).2
      have h₂ := ((wheel.links.mem q c).mp hc').2
      exact hpq (h₁.symm.trans h₂)
  have hperm : (allSlots.flatMap L).Perm (w.pending.map Arming.cell) := by
    apply (List.perm_ext_iff_of_nodup hnd hinv.nodup).mpr
    intro c
    rw [List.mem_flatMap]
    constructor
    · rintro ⟨p, -, hc⟩
      exact ((wheel.links.mem p c).mp hc).1
    · intro hc
      exact ⟨slotOf c, (wheel.slot c hc).mem_allSlots, (wheel.links.mem _ c).mpr ⟨hc, rfl⟩⟩
  refine ⟨⟨L, hring, hnd, hperm, ?_⟩, h.history.fate, hinv.le_due, h.history.due⟩
  rw [hperm.length_eq, List.length_map]
  exact hinv.count

theorem initWorld_inv (now dwProcessId : Nat) : WorldInv (initWorld now dwProcessId) := by
  have hcells : cellsOf (initWorld now dwProcessId).pending = ∅ := by
    ext c
    simp [cellsOf, initWorld]
  have hzero : ∀ c, ((initWorld now dwProcessId).timer.stHash c).uiKey = 0 := fun _ => rfl
  refine ⟨⟨fun _ => 0, ⟨⟨fun _ => [], fun _ => .null, ?_⟩, ?_, by simp [initWorld], rfl,
    by simp [initWorld], Nat.zero_le _⟩, Or.inl ?_⟩, ?_, rfl, ?_, by simp [initWorld]⟩
  · rw [hcells]
    exact wheel_init now dwProcessId
  · rw [hcells]
    exact ⟨by simp, fun c hc => absurd (hzero c) hc, fun c _ hc => absurd (hzero c) hc,
      fun c hc => absurd (hzero c) hc, le_rfl, by simp⟩
  · intro n _ _
    have := span_pos n
    simp [initWorld, initTimer, this]
  · simp [initWorld, initTimer, clockTick]
  · simp [initWorld]

/-- In every run whose steps meet their conditions no timer is lost, and from every
state reached a `CheckTimer` returns with no arming left up to its tick, or at
the limit of callbacks. -/
theorem timer_conservation (now dwProcessId : Nat) (ops : List Op)
    (hops : Admissible step StepOk (initWorld now dwProcessId) ops) :
    ∃ replies w, runSteps step (initWorld now dwProcessId) ops = some (replies, w) ∧
      Conserved w ∧
      ∀ op, op.RunsLoop → StepOk w op →
        ∃ reply w', step w op = some (reply, w') ∧ CaughtUp w w' := by
  obtain ⟨replies, w, hrun, -, hinv⟩ := run_invariant (O := fun _ _ => True)
    (fun w op h hok => by
      obtain ⟨reply, w', hstep, -, hinv⟩ := WorldInv.step w op h hok.fits
      exact ⟨reply, w', hstep, trivial, hinv⟩)
    ops (initWorld now dwProcessId) (initWorld_inv now dwProcessId) hops
  refine ⟨replies, w, hrun, hinv.conserved, ?_⟩
  intro op hloop hok
  obtain ⟨reply, w', hstep, hcaught, -⟩ := WorldInv.step w op hinv hok.fits
  exact ⟨reply, w', hstep, hcaught hloop⟩

/-- A call with a callback and without data. -/
def timerCall (uiKey uiTimeOut : Nat) : TimerCall := ⟨uiKey, uiTimeOut, some 0, [], []⟩

theorem timer_conservation_one_timer :
    ∃ replies w, runSteps step (initWorld 0 7)
        [.add (timerCall 1 25600) 0 true, .setCurTime 25600000, .check] = some (replies, w) ∧
      Conserved w := by
  have hops : Admissible step StepOk (initWorld 0 7)
      [.add (timerCall 1 25600) 0 true, .setCurTime 25600000, .check] := by
    have hadd : StepOk (initWorld 0 7) (.add (timerCall 1 25600) 0 true) :=
      ⟨by decide, ⟨by decide, by decide⟩, fun c hc => absurd rfl hc⟩
    refine ⟨hadd, ?_⟩
    intro o w hw
    obtain ⟨o', w', hw', -, hinv⟩ := WorldInv.step _ _ (initWorld_inv 0 7) hadd.fits
    rw [hw] at hw'
    obtain ⟨rfl, rfl⟩ := Prod.mk.inj (Option.some.inj hw')
    obtain ⟨K, htimer, -⟩ := hinv.timer
    obtain ⟨hphase, hcur, hbase, hcheck, hcount, hindex⟩ : w.phase = .idle ∧
        w.timer.qwCurTime = 0 ∧ w.timer.qwBaseTime = 0 ∧ w.timer.uiCheckTime = 0 ∧
        w.timer.uiCount = 1 ∧ w.timer.index 1 = 0 := by
      obtain ⟨-, rfl⟩ := Prod.mk.inj (Option.some.inj hw)
      decide
    have hclock : ClockOk w.timer 25600000 := by
      rw [ClockOk, hcur, hbase]
      decide
    have hset := htimer.setCurTime hclock.1
    refine ⟨hclock, ?_⟩
    intro o w₁ hw₁
    obtain ⟨-, rfl⟩ := Prod.mk.inj (Option.some.inj hw₁)
    refine ⟨⟨hphase, hset.nodes.fresh ?_, ?_, ?_⟩, fun _ _ _ => trivial⟩
    · show 25600000 ≤ w.timer.qwBaseTime + 5 * 60 * 1000 * 1000
      omega
    · show w.timer.uiCount ≤ 10000
      omega
    · intro _ _
      show w.timer.index 1 = w.timer.uiCheckTime / 256 % 64
      rw [hindex, hcheck]
  obtain ⟨replies, w, hrun, hcons, -⟩ := timer_conservation 0 7 _ hops
  exact ⟨replies, w, hrun, hcons⟩

/-- Ten timers that expire in tick 256 and one in tick 600; the check at tick 256
stops at its tenth callback, and the next one cascades a slot too early. -/
def dropRun : List Op :=
  (List.range 10).map (fun k => .add (timerCall (k + 1) 25600) 0 true) ++
    [.add (timerCall 11 60000) 0 true, .setCurTime 25600000, .check] ++
    List.replicate 10 (.resume 0) ++ [.check, .setCurTime 70000000, .check]

/-- One timer is pending and counted, its tick is past, and no slot holds a node. -/
def DroppedOne (w : World) : Prop :=
  w.timer.uiCount = 1 ∧ w.timer.uiCheckTime = 701 ∧ w.pending = [⟨10, 11, 600⟩] ∧
    w.fired.length = 10 ∧ w.removed = [] ∧ ∀ p ∈ allSlots, w.timer.list.next p = p

instance (w : World) : Decidable (DroppedOne w) :=
  inferInstanceAs (Decidable (_ ∧ _ ∧ _ ∧ _ ∧ _ ∧ _))

theorem timer_dropped :
    ∃ replies w, runSteps step (initWorld 0 7) dropRun = some (replies, w) ∧ DroppedOne w := by
  have hrun : ((runSteps step (initWorld 0 7) dropRun).any fun r => decide (DroppedOne r.2)) =
      true := by
    decide +kernel
  obtain ⟨⟨replies, w⟩, hw, hdrop⟩ := (Option.any_eq_true _ _).mp hrun
  exact ⟨replies, w, hw, of_decide_eq_true hdrop⟩

end Conservation

end XrkMonitor.Timer
