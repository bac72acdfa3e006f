import Mathlib.Data.List.Perm.Subperm
import XrkMonitor.Timer.FreeCell
import XrkMonitor.Timer.Nodes

/-!
# The calls of the timer

Each time a node is linked it is armed anew: `Arming` records the node and the
tick it is due at. `TimerInv t K pending` says that the linked nodes are those of
the pending armings, that `uiCount` counts them, and that none of them is overdue.
-/

namespace XrkMonitor.Timer

open Library

/-- One link of a node by `AddTimer` or `UpdateTimer`, and the tick it is due at. -/
structure Arming where
  id : Nat
  cell : Nat
  due : Nat
deriving Repr, DecidableEq

/-- The nodes of some armings. -/
def cellsOf (pending : List Arming) : Set Nat := { c | c ∈ pending.map Arming.cell }

/-- The armings of other nodes. -/
def dropCell (c : Nat) (pending : List Arming) : List Arming := pending.filter (·.cell ≠ c)

section Armings

variable {pending : List Arming} {r : Arming} {c : Nat}

theorem mem_cellsOf : c ∈ cellsOf pending ↔ ∃ r ∈ pending, r.cell = c := by
  simp [cellsOf]

theorem cellsOf_dropCell (c : Nat) (pending : List Arming) :
    cellsOf (dropCell c pending) = cellsOf pending \ {c} := by
  ext d
  simp only [mem_cellsOf, dropCell, List.mem_filter, decide_eq_true_eq, Set.mem_sdiff,
    Set.mem_singleton_iff]
  constructor
  · rintro ⟨r, ⟨hr, hne⟩, rfl⟩
    exact ⟨⟨r, hr, rfl⟩, hne⟩
  · rintro ⟨⟨r, hr, rfl⟩, hne⟩
    exact ⟨r, ⟨hr, hne⟩, rfl⟩

theorem cellsOf_concat (pending : List Arming) (r : Arming) :
    cellsOf (pending ++ [r]) = insert r.cell (cellsOf pending) := by
  ext d
  simp [cellsOf, or_comm, eq_comm]

theorem perm_dropCell (hnd : (pending.map Arming.cell).Nodup) (hr : r ∈ pending) :
    pending.Perm (r :: dropCell r.cell pending) := by
  induction pending with
  | nil => cases hr
  | cons x xs ih =>
    rw [List.map_cons, List.nodup_cons] at hnd
    rcases List.mem_cons.mp hr with rfl | hr
    · have hkeep : dropCell r.cell (r :: xs) = xs := by
        unfold dropCell
        rw [List.filter_cons_of_neg (by simp)]
        apply List.filter_eq_self.mpr
        intro y hy
        have hne : y.cell ≠ r.cell := by
          intro heq
          exact hnd.1 (heq ▸ List.mem_map_of_mem hy)
        simpa using hne
      rw [hkeep]
    · have hne : x.cell ≠ r.cell := by
        intro heq
        exact hnd.1 (heq ▸ List.mem_map_of_mem hr)
      have hkeep : dropCell r.cell (x :: xs) = x :: dropCell r.cell xs :=
        List.filter_cons_of_pos (by simpa using hne)
      rw [hkeep]
      exact ((ih hnd.2 hr).cons x).trans (List.Perm.swap _ _ _)

theorem length_dropCell (hnd : (pending.map Arming.cell).Nodup) (hr : r ∈ pending) :
    (dropCell r.cell pending).length + 1 = pending.length :=
  (perm_dropCell hnd hr).length_eq.symm

theorem atMost_cellsOf {N : Nat} (h : pending.length ≤ N) : AtMost (cellsOf pending) N := by
  intro l hl hsub
  have hle := (hl.subperm (show l ⊆ pending.map Arming.cell from hsub)).length_le
  rw [List.length_map] at hle
  omega

end Armings

/-- The ticks that the clock has gone since `InitTimer`. -/
def clockTick (t : MtReportTimer) : Nat :=
  (t.qwCurTime - t.qwBaseTime) / MT_TIMER_CHECK_INTVALUS

/-- The timer holds exactly the pending armings. -/
structure TimerInv (t : MtReportTimer) (K : Nat → Nat) (pending : List Arming) : Prop where
  wheel : ∃ L slotOf, Wheel t K (cellsOf pending) L slotOf
  nodes : NodesOk t (cellsOf pending)
  nodup : (pending.map Arming.cell).Nodup
  count : t.uiCount = pending.length
  due : ∀ r ∈ pending, r.due = max (t.stHash r.cell).uiExpire t.uiCheckTime
  check : t.uiCheckTime ≤ clockTick t + 1

section Calls

variable {t : MtReportTimer} {K : Nat → Nat} {pending : List Arming} {c : Nat} {now : Nat}
  {t' : MtReportTimer} {call : TimerCall} {P : Set Nat} {pNode : Option Nat} {node : TimerNode}
  {isMalloc : Bool}

theorem TimerInv.length_le (h : TimerInv t K pending) : pending.length ≤ 11170 := by
  have hsub : ∀ d ∈ pending.map Arming.cell, d ∈ List.range 11170 := by
    intro d hd
    exact List.mem_range.mpr (h.nodes.cell_lt (h.nodes.key d hd))
  have hle := (h.nodup.subperm hsub).length_le
  simpa using hle

theorem TimerInv.check_of_le (h : TimerInv t K pending) (hnow : t.qwCurTime ≤ now) :
    t.uiCheckTime ≤ (now - t.qwBaseTime) / MT_TIMER_CHECK_INTVALUS + 1 := by
  have hcheck := h.check
  have hlater : clockTick t ≤ (now - t.qwBaseTime) / MT_TIMER_CHECK_INTVALUS :=
    Nat.div_le_div_right (Nat.sub_le_sub_right hnow _)
  omega

theorem TimerInv.setCurTime (h : TimerInv t K pending) (hnow : t.qwCurTime ≤ now) :
    TimerInv (setCurTime t now) K pending := by
  obtain ⟨L, slotOf, w⟩ := h.wheel
  exact ⟨⟨L, slotOf, w.congr rfl rfl rfl fun c hc => ⟨rfl, (w.node c hc).2⟩⟩,
    h.nodes.congr rfl rfl rfl hnow, h.nodup, h.count, h.due, h.check_of_le hnow⟩

/-- A write to one node that keeps what the timer reads of a linked node, and
gives an unlinked one no other key. -/
theorem TimerInv.setNode (h : TimerInv t K pending) (node : TimerNode)
    (hkey : node.uiKey = 0 ∨
      node.uiKey = (t.stHash c).uiKey ∧ node.dwProcessId = (t.stHash c).dwProcessId ∧
        node.qwExpireTime = (t.stHash c).qwExpireTime)
    (hlinked : c ∈ cellsOf pending → node.uiKey = (t.stHash c).uiKey ∧
      node.uiExpire = (t.stHash c).uiExpire ∧ node.qwExpireTime = (t.stHash c).qwExpireTime) :
    TimerInv (setNode t c node) K pending := by
  obtain ⟨L, slotOf, w⟩ := h.wheel
  have hn := h.nodes
  have hself : (Timer.setNode t c node).stHash c = node := Function.update_self _ _ _
  have hother : ∀ d, d ≠ c → (Timer.setNode t c node).stHash d = t.stHash d :=
    fun d hd => Function.update_of_ne hd _ _
  have hsub : ∀ d, ((Timer.setNode t c node).stHash d).uiKey ≠ 0 →
      ((Timer.setNode t c node).stHash d).uiKey = (t.stHash d).uiKey ∧
      ((Timer.setNode t c node).stHash d).dwProcessId = (t.stHash d).dwProcessId ∧
      ((Timer.setNode t c node).stHash d).qwExpireTime = (t.stHash d).qwExpireTime := by
    intro d hd
    by_cases hdc : d = c
    · subst hdc
      rw [hself] at hd ⊢
      exact hkey.resolve_left hd
    · rw [hother d hdc]
      exact ⟨rfl, rfl, rfl⟩
  have hlink : ∀ d ∈ cellsOf pending,
      ((Timer.setNode t c node).stHash d).uiKey = (t.stHash d).uiKey ∧
      ((Timer.setNode t c node).stHash d).uiExpire = (t.stHash d).uiExpire ∧
      ((Timer.setNode t c node).stHash d).qwExpireTime = (t.stHash d).qwExpireTime := by
    intro d hd
    by_cases hdc : d = c
    · subst hdc
      rw [hself]
      exact hlinked hd
    · rw [hother d hdc]
      exact ⟨rfl, rfl, rfl⟩
  have hkeep : ∀ d ∈ cellsOf pending, ((Timer.setNode t c node).stHash d).uiKey ≠ 0 := by
    intro d hd
    rw [(hlink d hd).1]
    exact hn.key d hd
  refine ⟨⟨L, slotOf, w.congr rfl rfl rfl ?_⟩, ⟨hkeep, ?_, ?_, ?_, hn.base, ?_⟩, h.nodup,
    h.count, ?_, h.check⟩
  · intro d hd
    exact ⟨(hlink d hd).2.1, (hsub d (hkeep d hd)).2.1.trans (w.node d hd).2⟩
  · intro d hd
    have hold := (hsub d hd).1
    rw [hold] at hd ⊢
    exact hn.cell d hd
  · intro d d' hd heq
    have hd' : ((Timer.setNode t c node).stHash d').uiKey ≠ 0 := by rwa [← heq]
    have hold := (hsub d hd).1
    rw [hold, (hsub d' hd').1] at heq
    rw [hold] at hd
    exact hn.inj d d' hd heq
  · intro d hd
    obtain ⟨hold, hpid, hqw⟩ := hsub d hd
    rw [hold] at hd
    rw [hpid, hqw]
    exact hn.used d hd
  · intro d hd
    rw [(hlink d hd).2.1, (hlink d hd).2.2]
    exact hn.expire d hd
  · intro r hr
    rw [(hlink r.cell (mem_cellsOf.mpr ⟨r, hr, rfl⟩)).2.1]
    exact h.due r hr

theorem TimerInv.unlink (h : TimerInv t K pending) (hc : c ∈ cellsOf pending) :
    TimerInv (unlinkTimer t c) K (dropCell c pending) := by
  obtain ⟨L, slotOf, w⟩ := h.wheel
  obtain ⟨L', w'⟩ := w.unlink hc
  obtain ⟨r, hr, rfl⟩ := mem_cellsOf.mp hc
  have hn := h.nodes
  have hlen := length_dropCell h.nodup hr
  have hle := h.length_le
  have hsub : cellsOf (dropCell r.cell pending) ⊆ cellsOf pending := by
    rw [cellsOf_dropCell]
    exact Set.sdiff_subset
  refine ⟨⟨L', slotOf, ?_⟩, ?_, ?_, ?_, ?_, h.check⟩
  · rw [cellsOf_dropCell]
    exact w'
  · exact ⟨fun c hc => hn.key c (hsub hc), hn.cell, hn.inj, hn.used, hn.base,
      fun c hc => hn.expire c (hsub hc)⟩
  · exact (List.filter_sublist.map Arming.cell).nodup h.nodup
  · show wordDec 32 t.uiCount = _
    rw [h.count, wordDec_of_pos (by omega) (by omega)]
    omega
  · intro r' hr'
    exact h.due r' (List.mem_filter.mp hr').1

/-- A node that is not linked is filled in with a key of its own and linked. -/
theorem TimerInv.arm (h : TimerInv t K pending) (uiTimeOut id : Nat)
    (hc : c ∉ cellsOf pending) (hnow : t.qwCurTime ≤ now)
    (hreach : InReach t.uiCheckTime
      ((now - t.qwBaseTime + timeMsToUs uiTimeOut) / MT_TIMER_CHECK_INTVALUS))
    (hkey : node.uiKey ≠ 0)
    (hcell : ∃ row, row < STATIC_HASH_ROW_MAX ∧ c = hashCell row node.uiKey)
    (hinj : ∀ d, (t.stHash d).uiKey = node.uiKey → d = c)
    (hqw : node.qwExpireTime = timeMsToUs uiTimeOut + now)
    (hui : node.uiExpire = expireTick (Timer.setCurTime t now) uiTimeOut) :
    TimerInv
      (countTimer (internalAddTimer (Timer.setNode (Timer.setCurTime t now) c node) c)) K
      (pending ++ [⟨id, c, max node.uiExpire t.uiCheckTime⟩]) := by
  obtain ⟨L, slotOf, w⟩ := h.wheel
  have hn := h.nodes
  have hbase : t.qwBaseTime ≤ now := hn.base.trans hnow
  have hexp : node.uiExpire =
      (now - t.qwBaseTime + timeMsToUs uiTimeOut) / MT_TIMER_CHECK_INTVALUS := by
    rw [hui]
    exact Nat.mod_eq_of_lt hreach.1
  have hself : ∀ n, (Timer.setNode (Timer.setCurTime t now) c n).stHash c = n :=
    fun n => Function.update_self _ _ _
  have hother : ∀ d, d ≠ c → ∀ n,
      (Timer.setNode (Timer.setCurTime t now) c n).stHash d = t.stHash d :=
    fun d hd n => Function.update_of_ne hd _ _
  have hdc : ∀ d ∈ cellsOf pending, d ≠ c := by
    rintro d hd rfl
    exact hc hd
  have w₁ : Wheel (Timer.setNode (Timer.setCurTime t now) c node) K (cellsOf pending) L slotOf := by
    apply Wheel.congr w
    · rfl
    · rfl
    · rfl
    · intro d hd
      rw [hother d (hdc d hd)]
      exact ⟨rfl, (w.node d hd).2⟩
  obtain ⟨L', slotOf', w₂⟩ := w₁.add hc (by rw [hself, hexp]; exact hreach)
  have hfinal : ∀ d, (countTimer (internalAddTimer
      (Timer.setNode (Timer.setCurTime t now) c node) c)).stHash d =
      if d = c then { node with dwProcessId := t.dwProcessId } else t.stHash d := by
    intro d
    by_cases hd : d = c
    · subst hd
      simp [countTimer, internalAddTimer, Timer.setNode, Timer.setCurTime]
    · simp [countTimer, internalAddTimer, Timer.setNode, Timer.setCurTime, hd]
  refine ⟨⟨L', slotOf', ?_⟩, ⟨?_, ?_, ?_, ?_, hbase, ?_⟩, ?_, ?_, ?_, h.check_of_le hnow⟩
  · rw [cellsOf_concat]
    exact w₂.congr rfl rfl rfl fun d hd => ⟨rfl, (w₂.node d hd).2⟩
  · intro d hd
    rw [cellsOf_concat] at hd
    rw [hfinal]
    split
    · exact hkey
    · rename_i hne
      exact hn.key d (hd.resolve_left hne)
  · intro d hd
    rw [hfinal] at hd ⊢
    split at hd
    · rename_i heq
      rw [if_pos heq, heq]
      exact hcell
    · rename_i hne
      rw [if_neg hne]
      exact hn.cell d hd
  · intro d d' hd heq
    rw [hfinal] at hd
    rw [hfinal, hfinal] at heq
    by_cases h₁ : d = c
    · by_cases h₂ : d' = c
      · rw [h₁, h₂]
      · rw [if_pos h₁, if_neg h₂] at heq
        exact absurd (hinj d' heq.symm) h₂
    · by_cases h₂ : d' = c
      · rw [if_neg h₁, if_pos h₂] at heq
        exact absurd (hinj d heq) h₁
      · rw [if_neg h₁] at hd
        rw [if_neg h₁, if_neg h₂] at heq
        exact hn.inj d d' hd heq
  · intro d hd
    rw [hfinal] at hd ⊢
    split at hd
    · rename_i heq
      rw [if_pos heq]
      refine ⟨rfl, ?_⟩
      show t.qwBaseTime ≤ node.qwExpireTime
      omega
    · rename_i hne
      rw [if_neg hne]
      exact hn.used d hd
  · intro d hd
    rw [cellsOf_concat] at hd
    rw [hfinal]
    split
    · show node.uiExpire = (node.qwExpireTime - t.qwBaseTime) / MT_TIMER_CHECK_INTVALUS
      rw [hexp, hqw]
      congr 1
      omega
    · rename_i hne
      exact hn.expire d (hd.resolve_left hne)
  · rw [List.map_append]
    apply List.nodup_append.mpr
    refine ⟨h.nodup, List.nodup_singleton c, ?_⟩
    rintro d hd _ hd' rfl
    obtain rfl : d = c := by simpa using hd'
    exact hc hd
  · show wordInc 32 t.uiCount = _
    have hle := h.length_le
    rw [h.count, wordInc_of_lt (by omega), List.length_append, List.length_singleton]
  · intro r hr
    rw [hfinal]
    rcases List.mem_append.mp hr with hr | hr
    · rw [if_neg (hdc r.cell (mem_cellsOf.mpr ⟨r, hr, rfl⟩))]
      exact h.due r hr
    · obtain rfl : r = ⟨id, c, max node.uiExpire t.uiCheckTime⟩ := by simpa using hr
      rw [if_pos rfl]
      rfl

/-- What a call other than `CheckTimer` keeps. -/
structure Frame (t t' : MtReportTimer) : Prop where
  check : t'.uiCheckTime = t.uiCheckTime
  base : t'.qwBaseTime = t.qwBaseTime
  cur : t.qwCurTime ≤ t'.qwCurTime
  run : t'.cIsAgentRun = t.cIsAgentRun
  key : ∀ c, (t.stHash c).uiKey ≠ 0 → (t'.stHash c).uiKey ≠ 0

theorem Frame.refl (t : MtReportTimer) : Frame t t := ⟨rfl, rfl, le_rfl, rfl, fun _ h => h⟩

theorem Frame.trans {t₁ t₂ t₃ : MtReportTimer} (h : Frame t₁ t₂) (h' : Frame t₂ t₃) :
    Frame t₁ t₃ :=
  ⟨h'.check.trans h.check, h'.base.trans h.base, h.cur.trans h'.cur, h'.run.trans h.run,
    fun c hc => h'.key c (h.key c hc)⟩

theorem frame_setNode (node : TimerNode)
    (hkey : (t.stHash c).uiKey ≠ 0 → node.uiKey ≠ 0) : Frame t (Timer.setNode t c node) where
  check := rfl
  base := rfl
  cur := le_rfl
  run := rfl
  key := by
    intro d hd
    by_cases hdc : d = c
    · subst hdc
      simpa [Timer.setNode] using hkey hd
    · simpa [Timer.setNode, hdc] using hd

theorem uiExpire_arm (now : Nat) (node : TimerNode) :
    ((countTimer (internalAddTimer (Timer.setNode (Timer.setCurTime t now) c node) c)).stHash
      c).uiExpire = node.uiExpire := by
  simp [countTimer, internalAddTimer, Timer.setNode]

theorem frame_arm (hnow : t.qwCurTime ≤ now)
    (hkey : node.uiKey ≠ 0) :
    Frame t
      (countTimer (internalAddTimer (Timer.setNode (Timer.setCurTime t now) c node) c)) where
  check := rfl
  base := rfl
  cur := hnow
  run := rfl
  key := by
    intro d hd
    by_cases hdc : d = c
    · subst hdc
      simpa [countTimer, internalAddTimer, Timer.setNode] using hkey
    · simpa [countTimer, internalAddTimer, Timer.setNode, Timer.setCurTime, hdc] using hd

/-- The clock of a call does not go back and stays within 31 bits of ticks. -/
def ClockOk (t : MtReportTimer) (now : Nat) : Prop :=
  t.qwCurTime ≤ now ∧ now - t.qwBaseTime + 2 ^ 32 ≤ 2 ^ 31 * 100000

/-- The clock does not go back, and the expiry of a timeout that starts now is within reach. -/
def ArmOk (t : MtReportTimer) (uiTimeOut now : Nat) : Prop :=
  t.qwCurTime ≤ now ∧
    (now - t.qwBaseTime + timeMsToUs (max uiTimeOut 1000)) / MT_TIMER_CHECK_INTVALUS <
      min (2 ^ 32 - 1) (t.uiCheckTime + 2 ^ 31)

theorem TimerInv.inReach (h : TimerInv t K pending) {uiTimeOut now : Nat}
    (harm : ArmOk t uiTimeOut now) : InReach t.uiCheckTime
      ((now - t.qwBaseTime + timeMsToUs (max uiTimeOut 1000)) / MT_TIMER_CHECK_INTVALUS) := by
  obtain ⟨hnow, hlt⟩ := harm
  have hcheck := h.check_of_le hnow
  have hlater : (now - t.qwBaseTime) / MT_TIMER_CHECK_INTVALUS ≤
      (now - t.qwBaseTime + timeMsToUs (max uiTimeOut 1000)) / MT_TIMER_CHECK_INTVALUS :=
    Nat.div_le_div_right (Nat.le_add_right _ _)
  exact ⟨by omega, by omega, by omega⟩

theorem ArmOk.clock_lt {uiTimeOut now : Nat} (h : ArmOk t uiTimeOut now) :
    (now - t.qwBaseTime) / MT_TIMER_CHECK_INTVALUS < 2 ^ 32 - 1 := by
  have hlater : (now - t.qwBaseTime) / MT_TIMER_CHECK_INTVALUS ≤
      (now - t.qwBaseTime + timeMsToUs (max uiTimeOut 1000)) / MT_TIMER_CHECK_INTVALUS :=
    Nat.div_le_div_right (Nat.le_add_right _ _)
  exact hlater.trans_lt (h.2.trans_le (Nat.min_le_left _ _))

theorem ClockOk.armOk (h : ClockOk t now) (uiTimeOut : Nat) : ArmOk t uiTimeOut now := by
  have hus : timeMsToUs (max uiTimeOut 1000) < 2 ^ 32 := Nat.mod_lt _ (by decide)
  obtain ⟨hnow, htick⟩ := h
  refine ⟨hnow, ?_⟩
  simp only [MT_TIMER_CHECK_INTVALUS]
  omega

/-- A call that arms no timer, or arms node `c`. -/
inductive Armed (t : MtReportTimer) (K : Nat → Nat) (pending : List Arming) :
    Option Nat → MtReportTimer → Prop
  | refused {t' : MtReportTimer} : TimerInv t' K pending → Frame t t' → t'.qwCurTime = t.qwCurTime →
      Armed t K pending none t'
  | linked {t' : MtReportTimer} (c : Nat) :
      (∀ id, TimerInv t' K
        (pending ++ [⟨id, c, max (t'.stHash c).uiExpire t.uiCheckTime⟩])) →
      Frame t t' → Armed t K pending (some c) t'

theorem Armed.frame (h : Armed t K pending pNode t') :
    Frame t t' := by
  cases h with
  | refused _ hf _ => exact hf
  | linked _ _ hf => exact hf

theorem Armed.of_frame {t₁ t' : MtReportTimer}
    (h : Armed t₁ K pending pNode t') (hf : Frame t t₁) (hcur : t₁.qwCurTime = t.qwCurTime) :
    Armed t K pending pNode t' := by
  cases h with
  | refused hinv hf' hsame => exact Armed.refused hinv (hf.trans hf') (hsame.trans hcur)
  | linked c hinv hf' =>
    refine Armed.linked c ?_ (hf.trans hf')
    rw [← hf.check]
    exact hinv

theorem TimerInv.addTimer (h : TimerInv t K pending) (hf : Fresh t)
    (hkey : call.uiKey ≠ 0) (hclock : ArmOk t call.uiTimeOut now) (isMalloc : Bool) :
    ∃ iRet pNode t', addTimer t call now isMalloc = (iRet, pNode, t') ∧
      Armed t K pending pNode t' ∧ (pNode = none → iRet < 0) ∧
      (pNode.isSome → t'.qwCurTime = now) := by
  unfold Timer.addTimer
  by_cases hsess : TIMER_NODE_SESS_DATA_LEN < call.pSessShmData.length
  · rw [if_pos hsess]
    exact ⟨_, _, _, rfl, Armed.refused h (Frame.refl t) rfl, by simp, by simp⟩
  rw [if_neg hsess]
  obtain ⟨isFind, pNode, hres, hspec⟩ :=
    h.nodes.searchEx hf call.uiKey (List.range STATIC_HASH_ROW_MAX) none
  rw [hres]
  cases isFind with
  | true => exact ⟨_, _, _, rfl, Armed.refused h (Frame.refl t) rfl, by simp, by simp⟩
  | false =>
    obtain ⟨hnew, hempty⟩ := hspec rfl
    cases pNode with
    | none => exact ⟨_, _, _, rfl, Armed.refused h (Frame.refl t) rfl, by simp, by simp⟩
    | some c =>
      obtain ⟨hzero, row, hrow, hcell⟩ := (hempty c rfl).resolve_left (by simp)
      have hc : c ∉ cellsOf pending := fun hm => h.nodes.key c hm hzero
      by_cases hmalloc : 0 < call.sData.length ∧ ¬ isMalloc = true
      · simp only [if_pos hmalloc]
        refine ⟨_, _, _, rfl, Armed.refused ?_ ?_ rfl, by simp, by simp⟩
        · exact h.setNode _ (Or.inl hzero) fun hm => absurd hm hc
        · exact frame_setNode _ fun hne => absurd hzero hne
      · simp only [if_neg hmalloc]
        refine ⟨_, _, _, rfl, Armed.linked c ?_ (frame_arm hclock.1 hkey), by simp,
          fun _ => rfl⟩
        intro id
        rw [uiExpire_arm]
        apply h.arm (max call.uiTimeOut 1000) id hc hclock.1 (h.inReach hclock) hkey
          ⟨row, List.mem_range.mp hrow, hcell⟩ _ rfl rfl
        intro d hd
        have hd : (t.stHash d).uiKey = call.uiKey := hd
        obtain ⟨row', hrow', hcell'⟩ := h.nodes.cell d (by rw [hd]; exact hkey)
        rw [hd] at hcell'
        rw [hcell'] at hd
        exact absurd hd (hnew row' (List.mem_range.mpr hrow'))

theorem TimerInv.updateTimer (h : TimerInv t K pending) (hc : c ∉ cellsOf pending)
    (hkey : (t.stHash c).uiKey ≠ 0)
    (hclock : ArmOk t (t.stHash c).uiTimeOut now) (sData : List UInt8) (isMalloc : Bool) :
    ∃ iRet t', updateTimer t c sData now isMalloc = (iRet, t') ∧
      Armed t K pending (if iRet = 0 then some c else none) t' ∧
      (iRet = 0 → t'.qwCurTime = now) := by
  unfold Timer.updateTimer
  by_cases hmalloc : 0 < sData.length ∧ ¬ isMalloc = true
  · rw [if_pos hmalloc]
    refine ⟨_, _, rfl, ?_, by simp⟩
    rw [if_neg (by decide)]
    refine Armed.refused ?_ (frame_setNode _ fun hne => hne) rfl
    exact h.setNode _ (Or.inr ⟨rfl, rfl, rfl⟩) fun hm => absurd hm hc
  · rw [if_neg hmalloc]
    refine ⟨_, _, rfl, ?_, fun _ => rfl⟩
    rw [if_pos rfl]
    refine Armed.linked c ?_ (frame_arm hclock.1 hkey)
    intro id
    rw [uiExpire_arm]
    exact h.arm (max (t.stHash c).uiTimeOut 1000) id hc hclock.1 (h.inReach hclock) hkey
      (h.nodes.cell c hkey) (fun d hd => (h.nodes.inj c d hkey hd.symm).symm) rfl rfl

theorem TimerInv.getTimer (h : TimerInv t K pending) (hf : Fresh t) {uiKey : Nat}
    (hlinked : ∀ c, (t.stHash c).uiKey = uiKey → c ∈ cellsOf pending) :
    getTimer t uiKey = (⟨-2, none, 0, []⟩, t) ∨
      ∃ c reply t', getTimer t uiKey = (reply, t') ∧ reply.pNode = some c ∧
        c ∈ cellsOf pending ∧ TimerInv t' K (dropCell c pending) ∧ Frame t t' ∧
        t'.qwCurTime = t.qwCurTime := by
  unfold Timer.getTimer
  rcases h.nodes.search_cases hf uiKey with hnone | ⟨c, hc, hsome⟩
  · left
    rw [hnone]
  · right
    rw [hsome]
    have hcP := hlinked c hc
    refine ⟨c, _, _, rfl, rfl, hcP, ?_, ?_, rfl⟩
    · exact (h.unlink hcP).setNode _ (Or.inr ⟨rfl, rfl, rfl⟩) fun _ => ⟨rfl, rfl, rfl⟩
    · have hkeep : Frame t (unlinkTimer t c) := ⟨rfl, rfl, le_rfl, rfl, fun _ h => h⟩
      exact hkeep.trans (frame_setNode _ fun hne => hne)

theorem NodesOk.addTimer_linked (h : NodesOk t P) (hf : Fresh t)
    {iRet : Int}
    (hadd : Timer.addTimer t call now isMalloc = (iRet, some c, t')) :
    iRet = 0 ∧ (t.stHash c).uiKey = 0 ∧ t'.qwBaseTime = t.qwBaseTime ∧
      t'.stHash = Function.update t.stHash c
        { call.node (Timer.setCurTime t now) (t.stHash c) with dwProcessId := t.dwProcessId } := by
  unfold Timer.addTimer at hadd
  split at hadd
  case isTrue => simp at hadd
  case isFalse =>
    obtain ⟨isFind, pNode, hres, hspec⟩ :=
      h.searchEx hf call.uiKey (List.range STATIC_HASH_ROW_MAX) none
    rw [hres] at hadd
    cases isFind with
    | true => simp at hadd
    | false =>
      cases pNode with
      | none => simp at hadd
      | some d =>
        obtain ⟨hzero, -⟩ := ((hspec rfl).2 d rfl).resolve_left (by simp)
        dsimp only at hadd
        split at hadd
        case isTrue => simp at hadd
        case isFalse =>
          obtain ⟨rfl, hnode, rfl⟩ := by simpa using hadd
          subst hnode
          refine ⟨rfl, hzero, rfl, ?_⟩
          simp only [countTimer, internalAddTimer, Timer.setNode, Timer.setCurTime,
            Function.update_self, Function.update_idem]

theorem NodesOk.addTimer_refused (h : NodesOk t P) (hf : Fresh t)
    {iRet : Int}
    (hadd : Timer.addTimer t call now isMalloc = (iRet, none, t')) {d : Nat}
    (hd : (t.stHash d).uiKey ≠ 0) : t'.stHash d = t.stHash d := by
  unfold Timer.addTimer at hadd
  split at hadd
  case isTrue =>
    obtain ⟨-, rfl⟩ := by simpa using hadd
    rfl
  case isFalse =>
    obtain ⟨isFind, pNode, hres, hspec⟩ :=
      h.searchEx hf call.uiKey (List.range STATIC_HASH_ROW_MAX) none
    rw [hres] at hadd
    cases isFind with
    | true =>
      obtain ⟨-, rfl⟩ := by simpa using hadd
      rfl
    | false =>
      cases pNode with
      | none =>
        obtain ⟨-, rfl⟩ := by simpa using hadd
        rfl
      | some c =>
        obtain ⟨hzero, -⟩ := ((hspec rfl).2 c rfl).resolve_left (by simp)
        have hdc : d ≠ c := by
          rintro rfl
          exact hd hzero
        dsimp only at hadd
        split at hadd
        case isTrue =>
          obtain ⟨-, rfl⟩ := by simpa using hadd
          exact Function.update_of_ne hdc _ _
        case isFalse => simp at hadd

theorem updateTimer_hash (t : MtReportTimer) (c : Nat) (sData : List UInt8) (now : Nat)
    (isMalloc : Bool) :
    (∀ d, d ≠ c → (Timer.updateTimer t c sData now isMalloc).2.stHash d = t.stHash d) ∧
    (Timer.updateTimer t c sData now isMalloc).2.qwBaseTime = t.qwBaseTime ∧
    ((Timer.updateTimer t c sData now isMalloc).1 = 0 →
      ((Timer.updateTimer t c sData now isMalloc).2.stHash c).pDataPtr = copyData sData ∧
      ((Timer.updateTimer t c sData now isMalloc).2.stHash c).uiDataLen =
        (t.stHash c).uiDataLen ∧
      ((Timer.updateTimer t c sData now isMalloc).2.stHash c).qwExpireTime =
        timeMsToUs (max (t.stHash c).uiTimeOut 1000) + now ∧
      ((Timer.updateTimer t c sData now isMalloc).2.stHash c).uiExpire =
        expireTick (Timer.setCurTime t now) (max (t.stHash c).uiTimeOut 1000)) := by
  unfold Timer.updateTimer
  split
  case isTrue =>
    exact ⟨fun d hd => Function.update_of_ne hd _ _, rfl, fun hzero => absurd hzero (by simp)⟩
  case isFalse =>
    refine ⟨fun d hd => ?_, rfl, fun _ => ?_⟩
    · simp only [countTimer, internalAddTimer, Timer.setNode, Timer.setCurTime,
        Function.update_of_ne hd]
    · simp [countTimer, internalAddTimer, Timer.setNode]
      exact ⟨rfl, rfl⟩

theorem NodesOk.getTimer_found (h : NodesOk t P) (hf : Fresh t) {uiKey : Nat}
    {reply : TimerReply} (hget : Timer.getTimer t uiKey = (reply, t'))
    (hnode : reply.pNode = some c) :
    (t.stHash c).uiKey = uiKey ∧ (reply.uiDataLen, reply.psData) = takeData (t.stHash c) ∧
      reply.iRet = (if (takeData (t.stHash c)).1 ≠ (t.stHash c).uiDataLen then -4 else 0) ∧
      t'.stHash = Function.update t.stHash c { t.stHash c with pDataPtr := none } := by
  unfold Timer.getTimer at hget
  rcases h.search_cases hf uiKey with hnone | ⟨d, hd, hsome⟩
  · rw [hnone] at hget
    obtain ⟨rfl, rfl⟩ := Prod.mk.inj hget
    cases hnode
  · rw [hsome] at hget
    obtain ⟨rfl, rfl⟩ := Prod.mk.inj hget
    obtain rfl : d = c := Option.some.inj hnode
    exact ⟨hd, rfl, rfl, rfl⟩

end Calls

end XrkMonitor.Timer
