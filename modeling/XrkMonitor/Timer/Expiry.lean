import XrkMonitor.Timer.Calls

/-!
# The loop of `CheckTimer`

From a tick whose slots stand right, the loop either passes every tick up to the
clock, or it stops at the next pending arming in its own tick. A node in the
current slot of `tv1` is due, so the check against an early expiry does not fire.
-/

namespace XrkMonitor.Timer

open Library

/-- The loop writes none of these. -/
structure Kept (t t' : MtReportTimer) : Prop where
  cur : t'.qwCurTime = t.qwCurTime
  base : t'.qwBaseTime = t.qwBaseTime
  pid : t'.dwProcessId = t.dwProcessId
  run : t'.cIsAgentRun = t.cIsAgentRun

theorem Kept.refl (t : MtReportTimer) : Kept t t := ⟨rfl, rfl, rfl, rfl⟩

theorem Kept.trans {t₁ t₂ t₃ : MtReportTimer} (h : Kept t₁ t₂) (h' : Kept t₂ t₃) : Kept t₁ t₃ :=
  ⟨h'.cur.trans h.cur, h'.base.trans h.base, h'.pid.trans h.pid, h'.run.trans h.run⟩

theorem kept_nextTick (t : MtReportTimer) : Kept t (nextTick t) := ⟨rfl, rfl, rfl, rfl⟩

/-- How the loop up to tick `uiCurTime` ends: with nothing left to expire, or at an arming that
expires in its tick, and not early; its node hands out its data. -/
inductive Outcome (t : MtReportTimer) (pending : List Arming) (uiCurTime iCheckNodeCount : Nat) :
    Phase → MtReportTimer → Prop
  | idle {t' : MtReportTimer} {K : Nat → Nat} :
      TimerInv t' K pending → Undone K t'.uiCheckTime ∨ Done K t'.uiCheckTime →
      (∀ r ∈ pending, uiCurTime < r.due) → Kept t t' → t'.stHash = t.stHash →
      Outcome t pending uiCurTime iCheckNodeCount .idle t'
  | expire {t' : MtReportTimer} {K : Nat → Nat} (r : Arming) (onExpire : Option Nat) :
      r ∈ pending → r.due = t'.uiCheckTime → t'.uiCheckTime ≤ uiCurTime →
      TimerInv t' K (dropCell r.cell pending) → Done K t'.uiCheckTime →
      (t'.stHash r.cell).uiKey ≠ 0 → Kept t t' →
      t'.stHash = Function.update t.stHash r.cell { t.stHash r.cell with pDataPtr := none } →
      (t.stHash r.cell).qwExpireTime ≤ t.qwCurTime + MT_TIMER_CHECK_INTVALUS →
      Outcome t pending uiCurTime iCheckNodeCount
        (.callback r.cell onExpire (takeData (t.stHash r.cell)) uiCurTime (iCheckNodeCount + 1)) t'

theorem Outcome.of_kept {t₁ t₂ : MtReportTimer} (hk : Kept t₁ t₂)
    (hhash : t₂.stHash = t₁.stHash) {t' : MtReportTimer} {pending : List Arming}
    {uiCurTime iCheckNodeCount : Nat} {ph : Phase}
    (h : Outcome t₂ pending uiCurTime iCheckNodeCount ph t') :
    Outcome t₁ pending uiCurTime iCheckNodeCount ph t' := by
  cases h with
  | idle hinv hK hdue hkept hsame =>
    exact Outcome.idle hinv hK hdue (hk.trans hkept) (hsame.trans hhash)
  | expire r onExpire hr hdue hle hinv hK hkey hkept hupdate hexpire =>
    rw [hhash] at hupdate hexpire ⊢
    rw [hk.cur] at hexpire
    exact Outcome.expire r onExpire hr hdue hle hinv hK hkey (hk.trans hkept) hupdate hexpire

/-- The clock has come to tick `uiCurTime`. -/
def ClockAt (t : MtReportTimer) (uiCurTime : Nat) : Prop :=
  t.qwBaseTime + uiCurTime * MT_TIMER_CHECK_INTVALUS ≤ t.qwCurTime ∧ uiCurTime < 2 ^ 32 - 1

section

variable {t : MtReportTimer} {K : Nat → Nat} {pending : List Arming} {c : Nat}
  {uiCurTime iCheckNodeCount : Nat}

theorem TimerInv.le_due (h : TimerInv t K pending) :
    ∀ r ∈ pending, t.uiCheckTime ≤ r.due := by
  intro r hr
  rw [h.due r hr]
  exact le_max_right _ _

theorem ClockAt.le (h : ClockAt t uiCurTime) : uiCurTime ≤ clockTick t := by
  have hclock := h.1
  apply (Nat.le_div_iff_mul_le (by decide)).mpr
  omega

theorem NodesOk.not_early {P : Set Nat} (h : NodesOk t P) (hc : c ∈ P)
    (hclock : ClockAt t uiCurTime) (hle : (t.stHash c).uiExpire ≤ uiCurTime) :
    ¬ (t.qwCurTime < (t.stHash c).qwExpireTime ∧
      MT_TIMER_CHECK_INTVALUS < (t.stHash c).qwExpireTime - t.qwCurTime) := by
  have hbase := (h.used c (h.key c hc)).2
  have hexp := h.expire c hc
  have hclock := hclock.1
  simp only [MT_TIMER_CHECK_INTVALUS] at hexp hclock ⊢
  omega

theorem NodesOk.getTimerData {P : Set Nat} (h : NodesOk t P) (hf : Fresh t)
    (hc : (t.stHash c).uiKey ≠ 0) :
    getTimerData t (t.stHash c).uiKey =
      (0, takeData (t.stHash c), setNode t c { t.stHash c with pDataPtr := none }) := by
  simp only [Timer.getTimerData, h.search_found hf hc]

/-- The pass over the current slot of `tv1` after its cascade. -/
theorem TimerInv.repeatSlot (h : TimerInv t K pending) (hdone : Done K t.uiCheckTime)
    (hf : Fresh t) (hclock : ClockAt t uiCurTime) (hle : t.uiCheckTime ≤ uiCurTime)
    (iCheckNodeCount : Nat) (next : MtReportTimer → Option (Phase × MtReportTimer))
    (hnext : TimerInv (nextTick t) K pending → Undone K (nextTick t).uiCheckTime →
      (nextTick t).uiCheckTime = t.uiCheckTime + 1 →
      ∃ ph t', next (nextTick t) = some (ph, t') ∧
        Outcome t pending uiCurTime iCheckNodeCount ph t') :
    ∃ ph t', repeatSlot t uiCurTime iCheckNodeCount next = some (ph, t') ∧
      Outcome t pending uiCurTime iCheckNodeCount ph t' := by
  obtain ⟨L, slotOf, w⟩ := h.wheel
  have hnextHead := (w.links.ring 0 (t.index 0) (by simp)).next_head
  cases hL : L (.head 0 (t.index 0)) with
  | nil =>
    rw [hL] at hnextHead
    obtain ⟨w', hun, hinc, hlater⟩ := w.nextTick hdone hL (by have := hclock.2; omega)
    simp only [Timer.repeatSlot, hnextHead, List.map_nil, List.headD_nil, if_true]
    apply hnext _ _ hinc
    · refine ⟨⟨L, slotOf, w'⟩, ?_, h.nodup, h.count, ?_, ?_⟩
      · exact h.nodes.congr rfl rfl rfl le_rfl
      · intro r hr
        have hlate := hlater r.cell (mem_cellsOf.mpr ⟨r, hr, rfl⟩)
        rw [h.due r hr, hinc, max_eq_left (by omega)]
        exact (max_eq_left hlate).symm
      · rw [hinc]
        exact Nat.succ_le_succ (hle.trans hclock.le)
    · rw [hinc]
      exact hun
  | cons c cs =>
    rw [hL] at hnextHead
    have hmem : c ∈ L (.head 0 (t.index 0)) := by simp [hL]
    have hcP := ((w.links.mem _ _).mp hmem).1
    have hexp := (w.due_iff hdone hcP).mp hmem
    have hkey := h.nodes.key c hcP
    have hunlink := h.unlink hcP
    have hearly : ¬ ((unlinkTimer t c).qwCurTime < ((unlinkTimer t c).stHash c).qwExpireTime ∧
        MT_TIMER_CHECK_INTVALUS <
          ((unlinkTimer t c).stHash c).qwExpireTime - (unlinkTimer t c).qwCurTime) :=
      h.nodes.not_early hcP hclock (hexp.trans hle)
    have hdata := hunlink.nodes.getTimerData (c := c) hf hkey
    obtain ⟨r, hr, rfl⟩ := mem_cellsOf.mp hcP
    simp only [Timer.repeatSlot, hnextHead, List.map_cons, List.headD_cons, reduceCtorEq,
      if_false]
    rw [if_neg hearly, hdata]
    refine ⟨_, _, rfl, Outcome.expire r _ hr ?_ hle ?_ hdone ?_ ⟨rfl, rfl, rfl, rfl⟩ rfl ?_⟩
    · rw [h.due r hr]
      exact max_eq_right hexp
    · apply hunlink.setNode
      · exact Or.inr ⟨rfl, rfl, rfl⟩
      · intro _
        exact ⟨rfl, rfl, rfl⟩
    · simpa [Timer.setNode, unlinkTimer] using hkey
    · have hearly : ¬ (t.qwCurTime < (t.stHash r.cell).qwExpireTime ∧
          MT_TIMER_CHECK_INTVALUS < (t.stHash r.cell).qwExpireTime - t.qwCurTime) := hearly
      omega

/-- The loop of `RunTimerList`, given a pass for each tick up to the clock. -/
theorem TimerInv.runTimerList (hcount : pending.length ≤ 10000) :
    ∀ (fuel : Nat) (t : MtReportTimer) (K : Nat → Nat), TimerInv t K pending →
      Undone K t.uiCheckTime ∨ Done K t.uiCheckTime →
      (t.uiCheckTime ≤ uiCurTime → t.index 0 = 0 → Undone K t.uiCheckTime) →
      Fresh t → ClockAt t uiCurTime → uiCurTime + 2 ≤ fuel + t.uiCheckTime → 0 < fuel →
      ∃ ph t', runTimerList uiCurTime iCheckNodeCount fuel t = some (ph, t') ∧
        Outcome t pending uiCurTime iCheckNodeCount ph t' := by
  intro fuel
  induction fuel with
  | zero =>
    intro t K _ _ _ _ _ _ hpos
    omega
  | succ fuel ih =>
    intro t K h hK hun hf hclock hfuel _
    rw [Timer.runTimerList]
    by_cases hloop : t.uiCheckTime ≤ uiCurTime ∧ 0 < t.uiCount
    · rw [if_pos hloop]
      obtain ⟨L, slotOf, w⟩ := h.wheel
      obtain ⟨h₁, index₁, K₁, L₁, slotOf₁, hcas, w₁, hdone⟩ :=
        w.cascadeTick (atMost_cellsOf hcount) (hun hloop.1)
      rw [hcas]
      have hinv₁ : TimerInv { t with list := h₁, index := index₁ } K₁ pending :=
        ⟨⟨L₁, slotOf₁, w₁⟩, h.nodes.congr rfl rfl rfl le_rfl, h.nodup, h.count, h.due, h.check⟩
      obtain ⟨ph, t', hres, hout⟩ := hinv₁.repeatSlot hdone hf hclock hloop.1
        iCheckNodeCount (Timer.runTimerList uiCurTime iCheckNodeCount fuel) (by
          intro hinv₂ hun₂ hinc
          obtain ⟨ph, t', hres, hout⟩ := ih _ K₁ hinv₂ (Or.inl hun₂) (fun _ _ => hun₂) hf hclock
            (by rw [hinc]; show uiCurTime + 2 ≤ fuel + (t.uiCheckTime + 1); omega)
            (by have := hloop.1; omega)
          exact ⟨ph, t', hres, Outcome.of_kept (kept_nextTick _) rfl hout⟩)
      have hkept : Kept t { t with list := h₁, index := index₁ } := ⟨rfl, rfl, rfl, rfl⟩
      exact ⟨ph, t', hres, Outcome.of_kept hkept rfl hout⟩
    · rw [if_neg hloop]
      refine ⟨.idle, t, rfl, Outcome.idle h hK ?_ (Kept.refl t) rfl⟩
      intro r hr
      have hpos : 0 < t.uiCount := by
        rw [h.count]
        exact List.length_pos_of_mem hr
      have hlt : uiCurTime < t.uiCheckTime := by
        by_contra hge
        exact hloop ⟨by omega, hpos⟩
      exact hlt.trans_le (h.le_due r hr)

theorem clockAt_curTick (hbase : t.qwBaseTime ≤ t.qwCurTime)
    (htick : clockTick t < 2 ^ 32 - 1) : ClockAt t (curTick t) := by
  have hcur : curTick t = clockTick t := Nat.mod_eq_of_lt (htick.trans (by decide))
  rw [hcur]
  refine ⟨?_, htick⟩
  simp only [clockTick, MT_TIMER_CHECK_INTVALUS]
  omega

theorem TimerInv.checkTimer (h : TimerInv t K pending) (hcount : pending.length ≤ 10000)
    (hK : Undone K t.uiCheckTime ∨ Done K t.uiCheckTime)
    (hun : t.uiCheckTime ≤ curTick t → t.index 0 = 0 → Undone K t.uiCheckTime)
    (hf : Fresh t) (hclock : ClockAt t (curTick t)) :
    ∃ ph t', checkTimer t = some (ph, t') ∧ Outcome t pending (curTick t) 0 ph t' := by
  unfold Timer.checkTimer
  by_cases hle : t.uiCheckTime ≤ curTick t
  · rw [if_pos hle]
    apply TimerInv.runTimerList hcount _ t K h hK hun hf hclock
    · simp only [loopFuel]
      omega
    · simp only [loopFuel]
      omega
  · rw [if_neg hle]
    refine ⟨.idle, t, rfl, Outcome.idle h hK ?_ (Kept.refl t) rfl⟩
    intro r hr
    exact (Nat.lt_of_not_le hle).trans_le (h.le_due r hr)

theorem TimerInv.endCallback (h : TimerInv t K pending) {iRet : Int}
    (hret : iRet = 1 ↔ c ∈ cellsOf pending) : TimerInv (endCallback t c iRet) K pending := by
  unfold Timer.endCallback
  by_cases hone : iRet = 1
  · rw [if_neg (not_not.mpr hone)]
    exact h
  · rw [if_pos hone]
    have hc : c ∉ cellsOf pending := fun hm => hone (hret.mpr hm)
    have hset := h.setNode (c := c) TimerNode.zero (Or.inl rfl) fun hm => absurd hm hc
    obtain ⟨L, slotOf, w⟩ := hset.wheel
    exact ⟨⟨L, slotOf, w.links.clear hc _ _, w.slot, w.index0, w.index, w.ahead, w.node⟩,
      hset.nodes.congr rfl rfl rfl le_rfl, hset.nodup, hset.count, hset.due, hset.check⟩

theorem kept_endCallback (t : MtReportTimer) (c : Nat) (iRet : Int) :
    Kept t (endCallback t c iRet) ∧ (endCallback t c iRet).uiCheckTime = t.uiCheckTime := by
  unfold endCallback
  split
  · exact ⟨⟨rfl, rfl, rfl, rfl⟩, rfl⟩
  · exact ⟨Kept.refl t, rfl⟩

theorem Fresh.endCallback (hf : Fresh t) (c : Nat) (iRet : Int) : Fresh (endCallback t c iRet) := by
  unfold Timer.endCallback
  split
  · intro d hd
    by_cases hdc : d = c
    · subst hdc
      simp [setNode, TimerNode.zero] at hd
    · have hsame : (setNode t c TimerNode.zero).stHash d = t.stHash d :=
        Function.update_of_ne hdc _ _
      simp only [hsame] at hd ⊢
      exact hf d hd
  · exact hf

theorem TimerInv.repeatOrStop (h : TimerInv t K pending) (hcount : pending.length ≤ 10000)
    (hdone : Done K t.uiCheckTime) (hf : Fresh t) (hclock : ClockAt t uiCurTime)
    (hle : t.uiCheckTime ≤ uiCurTime) (iCheckNodeCount : Nat) :
    ∃ ph t', repeatOrStop t uiCurTime iCheckNodeCount = some (ph, t') ∧
      (Outcome t pending uiCurTime iCheckNodeCount ph t' ∨
        MAX_TIMER_NODE_PER_TRY ≤ iCheckNodeCount ∧ ph = .idle ∧ t' = t) := by
  unfold Timer.repeatOrStop
  by_cases hmax : MAX_TIMER_NODE_PER_TRY ≤ iCheckNodeCount
  · rw [if_pos hmax]
    exact ⟨.idle, t, rfl, Or.inr ⟨hmax, rfl, rfl⟩⟩
  · rw [if_neg hmax]
    obtain ⟨ph, t', hres, hout⟩ := h.repeatSlot hdone hf hclock hle iCheckNodeCount
      (fun t => Timer.runTimerList uiCurTime iCheckNodeCount (loopFuel t uiCurTime) t) (by
        intro hinv hun hinc
        obtain ⟨ph, t', hres, hout⟩ := TimerInv.runTimerList hcount
          (loopFuel (nextTick t) uiCurTime) (nextTick t) K hinv (Or.inl hun)
          (fun _ _ => hun) hf hclock (by simp only [loopFuel]; omega)
          (by simp only [loopFuel, hinc]; omega)
        exact ⟨ph, t', hres, Outcome.of_kept (kept_nextTick t) rfl hout⟩)
    exact ⟨ph, t', hres, Or.inl hout⟩

end

end XrkMonitor.Timer
