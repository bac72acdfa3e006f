import Mathlib.Tactic.Common
import XrkMonitor.LogWrite.Dispatch

/-!
# One writer process per app

An app that was given to a running writer stays with it as long as its time
stamp is younger than `iCheckWriteProcessTime` whenever the dispatcher looks.
The stamp is set to the start of the pass that writes the app, so it can get
almost as old as two passes, and a dispatch that waits for the writer adds the
time since the scan began. `one_writer` is about the schedules in which two
passes and a scan fit into the check time; `app_given_twice` is a schedule of
short `WriteFile` calls in which they do not.
-/

namespace XrkMonitor.LogWrite

variable {cfg : Config} {s : State} {c : Nat} {s' : State} {ch : Child} {as : List Action}

/-- The seconds a pass may take. -/
def passTime (cfg : Config) : Nat := (cfg.iCheckWriteProcessTime - 10) / 2

/-- What the schedule must respect at a step: a pass of the write loop stays
below `passTime`, the clock below `2 ^ 32`; the first writer with a free record
has room when an app is to be dispatched; no writer reads its record between the
two writes of a dispatch; no writer ends its loop. -/
def StepOk (cfg : Config) (s : State) : Action → Prop
  | .tick d =>
    s.now + d < 2 ^ 32 ∧
      ∀ c < cfg.iProcessCount - 1, (s.childs c).running →
        s.now + d < (s.childs c).tmTmp + passTime cfg
  | .visit j =>
    needsDispatch cfg s j →
      ∀ c < cfg.iProcessCount - 1, (s.childs c).iAppId = 0 →
        (∀ c' < c, (s.childs c').iAppId ≠ 0) →
          (s.childs c).pstLogFile.length < maxSlogShmFilePerProcess
  | .accept c => ∀ p ∈ s.placing, p.2 ≠ c
  | .leave _ => False
  | _ => True

instance StepOk.decidable (cfg : Config) (s : State) : ∀ a, Decidable (StepOk cfg s a)
  | .tick _ | .visit _ | .accept _ => by unfold StepOk; infer_instance
  | .leave _ => inferInstanceAs (Decidable False)
  | .report _ | .scan | .clearPer | .place | .run _ | .write _ | .wrote _ _ | .crash _ =>
    inferInstanceAs (Decidable True)

/-- Every step of the schedule respects the condition in the state it meets. -/
def ScheduleOk (cfg : Config) : State → List Action → Prop
  | _, [] => True
  | s, a :: as => StepOk cfg s a ∧ ScheduleOk cfg (step cfg s a) as

instance ScheduleOk.decidable (cfg : Config) : ∀ s as, Decidable (ScheduleOk cfg s as)
  | _, [] => isTrue trivial
  | s, a :: as =>
    have : Decidable (ScheduleOk cfg (step cfg s a) as) := ScheduleOk.decidable cfg _ as
    inferInstanceAs (Decidable (StepOk cfg s a ∧ ScheduleOk cfg (step cfg s a) as))

/-- The apps a pass has stamped. -/
def Phase.done (len : Nat) : Phase → Nat
  | .start => len
  | .loop i => i
  | .calling i _ => i + 1
  | .tail => len

/-- The app that waits in the record of writer `c`. -/
def waiting (s : State) (c : Nat) : Option Nat :=
  if (s.childs c).iAppId = 0 then none
  else
    match s.placing with
    | some (j, kk) => if kk = c then some j else some (s.childs c).iAppShmIndex
    | none => some (s.childs c).iAppShmIndex

/-- App `j` waits for writer `c`, and its stamp is from a scan that began at
most ten seconds before the last look of the writer at the record. -/
def WaitFresh (cfg : Config) (s : State) (j c : Nat) : Prop :=
  waiting s c = some j ∧
    ((∀ kk, s.placing ≠ some (j, kk)) →
      (s.childs c).tmTmp < (s.apps j).dwLastTryWriteLogTime + 10 + passTime cfg ∧
        ((s.childs c).phase = .start →
          (s.childs c).tmTmp ≤ (s.apps j).dwLastTryWriteLogTime + 10))

/-- Writer `c` has app `j`, with a stamp of this pass or of the one before. -/
def OwnFresh (cfg : Config) (s : State) (j c : Nat) : Prop :=
  ∃ k, (s.childs c).pstLogFile[k]? = some j ∧
    (s.childs c).tmTmp < (s.apps j).dwLastTryWriteLogTime + passTime cfg ∧
    (k < (s.childs c).phase.done (s.childs c).pstLogFile.length →
      (s.childs c).tmTmp ≤ (s.apps j).dwLastTryWriteLogTime)

/-- The clocks of the dispatcher and of the writers are close to each other. -/
structure ClockInv (cfg : Config) (s : State) : Prop where
  check_le : cfg.iCheckWriteProcessTime ≤ s.tmTmp
  scan_le : s.tmTmp ≤ s.now
  now_le : s.now ≤ s.tmTmp + 10
  now_lt : s.now < 2 ^ 32
  exists_lt : ∀ c, (s.childs c).running → c < cfg.iProcessCount - 1
  pass : ∀ c, (s.childs c).running →
    (s.childs c).tmTmp ≤ s.now ∧ s.now < (s.childs c).tmTmp + passTime cfg

/-- The records of the dispatches and the stamps of their apps. -/
structure OwnerInv (cfg : Config) (s : State) : Prop where
  one : OneWriter s
  alive : ∀ j c, (j, c) ∈ s.given → (s.childs c).running
  owned : ∀ j c, (s.childs c).running → j ∈ (s.childs c).pstLogFile → (j, c) ∈ s.given
  wait : ∀ j c, (s.childs c).running → waiting s c = some j → (j, c) ∈ s.given
  placing : ∀ j kk, s.placing = some (j, kk) →
    (s.childs kk).iAppId ≠ 0 ∧ ∀ c, (j, c) ∈ s.given → c = kk
  fresh : ∀ j c, (j, c) ∈ s.given → WaitFresh cfg s j c ∨ OwnFresh cfg s j c

/-- The shared count of a writer's apps is right, and there is room for more. -/
structure RoomInv (s : State) : Prop where
  total : ∀ c, (s.childs c).iAppWriteTotal = (s.childs c).pstLogFile.length
  room : RoomLeft s

theorem passTime_bound (cfg : Config) :
    2 * passTime cfg + 10 ≤ cfg.iCheckWriteProcessTime ∧ 0 < passTime cfg := by
  have h := cfg.check_ge
  unfold passTime
  omega

theorem not_needsDispatch (hclk : ClockInv cfg s) (hown : OwnerInv cfg s) (hpl : s.placing = none)
    {j c : Nat} (hg : (j, c) ∈ s.given) : needsDispatch cfg s j = false := by
  obtain ⟨hpos, -⟩ := passTime_bound cfg
  have hpass := hclk.pass c (hown.alive j c hg)
  have hlt : s.tmTmp < (s.apps j).dwLastTryWriteLogTime + cfg.iCheckWriteProcessTime := by
    have hscan := hclk.scan_le
    rcases hown.fresh j c hg with ⟨-, hw⟩ | ⟨k, -, hw, -⟩
    · have hbound := (hw (by simp [hpl])).1
      omega
    · omega
  have hsub : (s.tmTmp + 2 ^ 32 - cfg.iCheckWriteProcessTime) % 2 ^ 32
      = s.tmTmp - cfg.iCheckWriteProcessTime := by
    have h1 := hclk.check_le
    have h2 := hclk.scan_le
    have h3 := hclk.now_lt
    omega
  have hcheck := hclk.check_le
  simp only [needsDispatch, hsub, Bool.and_eq_false_iff, Bool.not_eq_false', decide_eq_true_eq]
  right
  omega

/-! ### The search for a writer -/

/-- The search ends with a free record of a writer with room, or with the first
free record. -/
theorem search_spec {childs : Nat → Child} {kk : Nat} (h : search cfg childs = some kk) :
    kk < cfg.iProcessCount - 1 ∧ (childs kk).iAppId = 0 ∧
      ((childs kk).iAppWriteTotal < maxSlogShmFilePerProcess ∨
        ∀ c' < kk, (childs c').iAppId ≠ 0) := by
  have key : ∀ n, (∀ k, (List.range n).foldl (searchStep childs) none = some k →
        k < n ∧ (childs k).iAppId = 0 ∧
          ((childs k).iAppWriteTotal < maxSlogShmFilePerProcess ∨
            ∀ c' < k, (childs c').iAppId ≠ 0)) ∧
      ((List.range n).foldl (searchStep childs) none = none → ∀ c' < n, (childs c').iAppId ≠ 0) := by
    intro n
    induction n with
    | zero => simp
    | succ n ih =>
      obtain ⟨ihs, ihn⟩ := ih
      simp only [List.range_succ, List.foldl_append, List.foldl_cons, List.foldl_nil]
      cases hk : (List.range n).foldl (searchStep childs) none with
      | none =>
        have hfree := ihn hk
        simp only [searchStep]
        split
        · rename_i h0
          refine ⟨fun k hkk => ?_, by simp⟩
          obtain rfl := Option.some.inj hkk
          exact ⟨Nat.lt_succ_self n, h0, .inr hfree⟩
        · rename_i h0
          refine ⟨by simp, fun _ c' hc' => ?_⟩
          rcases Nat.lt_succ_iff_lt_or_eq.1 hc' with h' | rfl
          · exact hfree c' h'
          · exact h0
      | some k₀ =>
        have hold := ihs k₀ hk
        simp only [searchStep]
        split
        · rename_i h0
          split
          · rename_i hroom
            refine ⟨fun k hkk => ?_, by simp⟩
            obtain rfl := Option.some.inj hkk
            exact ⟨Nat.lt_succ_self n, h0, .inl hroom.1⟩
          · refine ⟨fun k hkk => ?_, by simp⟩
            obtain rfl := Option.some.inj hkk
            exact ⟨Nat.lt_succ_of_lt hold.1, hold.2⟩
        · refine ⟨fun k hkk => ?_, by simp⟩
          obtain rfl := Option.some.inj hkk
          exact ⟨Nat.lt_succ_of_lt hold.1, hold.2⟩
  exact (key _).1 kk h

/-! ### What a step keeps -/

/-- A writer's hold on its apps: everything but its clock, its phase and its
counts. -/
def SameHold (ch ch' : Child) : Prop :=
  ch'.running = ch.running ∧ ch'.iAppId = ch.iAppId ∧ ch'.iAppShmIndex = ch.iAppShmIndex ∧
    ch'.pstLogFile = ch.pstLogFile

theorem SameHold.refl (ch : Child) : SameHold ch ch := ⟨rfl, rfl, rfl, rfl⟩

theorem waiting_congr (hpl : s'.placing = s.placing)
    (hc : SameHold (s.childs c) (s'.childs c)) : waiting s' c = waiting s c := by
  obtain ⟨-, hid, hidx, -⟩ := hc
  simp only [waiting, hpl, hid, hidx]

theorem OwnerInv.congr (h : OwnerInv cfg s) (hg : s'.given = s.given)
    (hpl : s'.placing = s.placing) (hc : ∀ c, SameHold (s.childs c) (s'.childs c))
    (hf : ∀ j c, (j, c) ∈ s.given → WaitFresh cfg s j c ∨ OwnFresh cfg s j c →
      WaitFresh cfg s' j c ∨ OwnFresh cfg s' j c) : OwnerInv cfg s' where
  one := by
    intro j c c'
    rw [hg]
    exact h.one j c c'
  alive := by
    intro j c
    rw [hg, (hc c).1]
    exact h.alive j c
  owned := by
    intro j c
    rw [hg, (hc c).1, (hc c).2.2.2]
    exact h.owned j c
  wait := by
    intro j c
    rw [hg, (hc c).1, waiting_congr hpl (hc c)]
    exact h.wait j c
  placing := by
    intro j kk
    rw [hpl, hg, (hc kk).2.1]
    exact h.placing j kk
  fresh := by
    intro j c hgj
    rw [hg] at hgj
    exact hf j c hgj (h.fresh j c hgj)

theorem fresh_of_stamp {j c : Nat} (hpl : s'.placing = s.placing)
    (hc : SameHold (s.childs c) (s'.childs c)) (htm : (s'.childs c).tmTmp = (s.childs c).tmTmp)
    (hph : (s'.childs c).phase = (s.childs c).phase)
    (hL : (s'.apps j).dwLastTryWriteLogTime = (s.apps j).dwLastTryWriteLogTime ∨
      (s.childs c).tmTmp ≤ (s'.apps j).dwLastTryWriteLogTime)
    (h : WaitFresh cfg s j c ∨ OwnFresh cfg s j c) : WaitFresh cfg s' j c ∨ OwnFresh cfg s' j c := by
  obtain ⟨-, hP⟩ := passTime_bound cfg
  rcases h with ⟨hw, hb⟩ | ⟨k, hk, hb, hd⟩
  · refine .inl ⟨by rw [waiting_congr hpl hc, hw], fun hne => ?_⟩
    rw [hpl] at hne
    obtain ⟨h1, h2⟩ := hb hne
    rw [htm, hph]
    refine ⟨by omega, fun hs => ?_⟩
    have h3 := h2 hs
    omega
  · refine .inr ⟨k, by rw [hc.2.2.2, hk], by rw [htm]; omega, ?_⟩
    rw [htm, hph, hc.2.2.2]
    intro hkd
    have h3 := hd hkd
    omega

theorem OwnerInv.of_childs (h : OwnerInv cfg s) (hg : s'.given = s.given)
    (hpl : s'.placing = s.placing) (hc : s'.childs = s.childs)
    (hL : ∀ j c, (j, c) ∈ s.given →
      (s'.apps j).dwLastTryWriteLogTime = (s.apps j).dwLastTryWriteLogTime ∨
        (s.childs c).tmTmp ≤ (s'.apps j).dwLastTryWriteLogTime) : OwnerInv cfg s' := by
  refine h.congr hg hpl (fun c => by rw [hc]; exact SameHold.refl _) ?_
  intro j c hgj hf
  exact fresh_of_stamp hpl (by rw [hc]; exact SameHold.refl _) (by rw [hc]) (by rw [hc])
    (hL j c hgj) hf

theorem ClockInv.congr (h : ClockInv cfg s) (hn : s'.now = s.now)
    (ht : s'.tmTmp = s.tmTmp)
    (hc : ∀ c, (s'.childs c).running → (s.childs c).running ∧
      ((s'.childs c).tmTmp = (s.childs c).tmTmp ∨ (s'.childs c).tmTmp = s.now)) :
    ClockInv cfg s' where
  check_le := by rw [ht]; exact h.check_le
  scan_le := by rw [ht, hn]; exact h.scan_le
  now_le := by rw [ht, hn]; exact h.now_le
  now_lt := by rw [hn]; exact h.now_lt
  exists_lt := fun c hrun => h.exists_lt c (hc c hrun).1
  pass := by
    intro c hrun
    obtain ⟨hr, htm⟩ := hc c hrun
    have hp := h.pass c hr
    have hP := (passTime_bound cfg).2
    rw [hn]
    omega

theorem RoomInv.setChild (h : RoomInv s)
    (hid : ch.iAppId = (s.childs c).iAppId) (hf : ch.pstLogFile = (s.childs c).pstLogFile)
    (ht : ch.iAppWriteTotal = (s.childs c).iAppWriteTotal) : RoomInv (s.setChild c ch) := by
  obtain ⟨htot, hroom, hbug⟩ := h
  refine ⟨?_, ?_, hbug⟩
  · intro x
    by_cases hx : x = c
    · subst hx
      simpa [State.setChild, hf, ht] using htot x
    · simpa [State.setChild, Function.update_of_ne hx] using htot x
  · intro x
    by_cases hx : x = c
    · subst hx
      simpa [State.setChild, hf, hid] using hroom x
    · simpa [State.setChild, Function.update_of_ne hx] using hroom x

structure Inv (cfg : Config) (s : State) : Prop where
  clock : ClockInv cfg s
  owner : OwnerInv cfg s
  room : RoomInv s

theorem inv_init {t₀ : Nat} (apps : Nat → App) (h₀ : cfg.iCheckWriteProcessTime ≤ t₀)
    (h₁ : t₀ < 2 ^ 32) : Inv cfg (initState cfg t₀ apps) := by
  have hP := (passTime_bound cfg).2
  refine ⟨⟨h₀, Nat.le_refl _, Nat.le_add_right _ _, h₁, ?_, ?_⟩, ⟨?_, ?_, ?_, ?_, ?_, ?_⟩, ⟨?_, ?_, rfl⟩⟩
  · intro c hrun
    exact of_decide_eq_true hrun
  · intro c _
    exact ⟨Nat.le_refl _, Nat.lt_add_of_pos_right hP⟩
  all_goals simp [initState, OneWriter, waiting]

theorem Inv.tick (h : Inv cfg s) {d : Nat} (hok : StepOk cfg s (.tick d)) :
    Inv cfg (step cfg s (.tick d)) := by
  obtain ⟨hlt, hpass⟩ := hok
  simp only [step]
  split
  · rename_i htick
    simp only [tickOk, Bool.and_eq_true, decide_eq_true_eq] at htick
    have hscan := h.clock.scan_le
    refine ⟨⟨h.clock.check_le, ?_, htick.1, hlt, h.clock.exists_lt, ?_⟩, ?_, ⟨h.room.total, h.room.room⟩⟩
    · exact Nat.le_trans hscan (Nat.le_add_right _ _)
    · intro c hrun
      have hold := (h.clock.pass c hrun).1
      exact ⟨Nat.le_trans hold (Nat.le_add_right _ _), hpass c (h.clock.exists_lt c hrun) hrun⟩
    · exact h.owner.of_childs rfl rfl rfl fun _ _ _ => .inl rfl
  · exact h

theorem Inv.report (h : Inv cfg s) (j : Nat) : Inv cfg (step cfg s (.report j)) := by
  refine ⟨h.clock.congr rfl rfl fun c hrun => ⟨hrun, .inl rfl⟩, ?_, ⟨h.room.total, h.room.room⟩⟩
  refine h.owner.of_childs rfl rfl rfl fun i c _ => .inl ?_
  by_cases hi : i = j
  · subst hi
    simp [step, State.setApp]
  · simp [step, State.setApp, Function.update_of_ne hi]

theorem Inv.scan (h : Inv cfg s) : Inv cfg (step cfg s .scan) := by
  simp only [step]
  split
  · obtain ⟨hc1, hc2, hc3, hc4, hc5, hc6⟩ := h.clock
    refine ⟨⟨Nat.le_trans hc1 hc2, Nat.le_refl _, Nat.le_add_right _ _, hc4, hc5, hc6⟩, ?_, ⟨h.room.total, h.room.room⟩⟩
    exact h.owner.of_childs rfl rfl rfl fun _ _ _ => .inl rfl
  · exact h

theorem Inv.clearPer (h : Inv cfg s) : Inv cfg (step cfg s .clearPer) := by
  refine ⟨h.clock.congr rfl rfl fun c hrun => ⟨hrun, .inl rfl⟩, ?_, ⟨h.room.total, h.room.room⟩⟩
  refine h.owner.congr rfl rfl (fun c => ⟨rfl, rfl, rfl, rfl⟩) ?_
  intro j c _ hf
  exact fresh_of_stamp rfl ⟨rfl, rfl, rfl, rfl⟩ rfl rfl (.inl rfl) hf

theorem Inv.readLogStat (h : Inv cfg s) (j : Nat) :
    Inv cfg (s.setApp j { s.apps j with
      dwLastTryWriteLogTime := s.now, bReadLogStatInfo := true }) := by
  refine ⟨h.clock.congr rfl rfl fun c hrun => ⟨hrun, .inl rfl⟩, ?_, ⟨h.room.total, h.room.room⟩⟩
  refine h.owner.of_childs rfl rfl rfl fun i c hg => ?_
  by_cases hi : i = j
  · subst hi
    right
    have hp := h.clock.pass c (h.owner.alive i c hg)
    simpa [State.setApp] using hp.1
  · left
    simp [State.setApp, Function.update_of_ne hi]

theorem waiting_free (h : (s.childs c).iAppId = 0) : waiting s c = none := by
  simp [waiting, h]

theorem Inv.dispatch (h : Inv cfg s) {j kk : Nat} (hpl : s.placing = none)
    (hid : (s.apps j).iAppId ≠ 0) (hneed : needsDispatch cfg s j = true)
    (hok : StepOk cfg s (.visit j)) (hkk : search cfg s.childs = some kk) :
    Inv cfg
      { s with
        placing := some (j, kk)
        childs := Function.update s.childs kk { s.childs kk with iAppId := (s.apps j).iAppId }
        given := if (s.childs kk).running then (j, kk) :: s.given else s.given } := by
  obtain ⟨hkklt, hfree, hroom⟩ := search_spec hkk
  have hnew : ∀ c, (j, c) ∉ s.given := by
    intro c hg
    rw [not_needsDispatch h.clock h.owner hpl hg] at hneed
    exact absurd hneed (by simp)
  have hlen : (s.childs kk).pstLogFile.length < maxSlogShmFilePerProcess := by
    rcases hroom with hroom | hroom
    · rw [← h.room.total kk]
      exact hroom
    · exact hok hneed kk hkklt hfree hroom
  have hgiven : ∀ {i c : Nat},
      (i, c) ∈ (if (s.childs kk).running then (j, kk) :: s.given else s.given) ↔
        (i, c) ∈ s.given ∨ (i = j ∧ c = kk ∧ (s.childs kk).running = true) := by
    intro i c
    by_cases hr : (s.childs kk).running = true
    · simp [hr, or_comm]
    · simp [hr]
  have hwkk : waiting
      { s with
        placing := some (j, kk)
        childs := Function.update s.childs kk { s.childs kk with iAppId := (s.apps j).iAppId }
        given := if (s.childs kk).running then (j, kk) :: s.given else s.given } kk = some j := by
    simp [waiting, hid]
  have hwne : ∀ c, c ≠ kk → waiting
      { s with
        placing := some (j, kk)
        childs := Function.update s.childs kk { s.childs kk with iAppId := (s.apps j).iAppId }
        given := if (s.childs kk).running then (j, kk) :: s.given else s.given } c
        = waiting s c := by
    intro c hc
    simp [waiting, hpl, Function.update_of_ne hc, Ne.symm hc]
  refine ⟨h.clock.congr rfl rfl ?_, ⟨?_, ?_, ?_, ?_, ?_, ?_⟩, ⟨?_, ?_, h.room.room.2⟩⟩
  · intro c hrun
    by_cases hc : c = kk
    · subst hc
      exact ⟨by simpa using hrun, .inl (by simp)⟩
    · exact ⟨by simpa [Function.update_of_ne hc] using hrun, .inl (by simp [Function.update_of_ne hc])⟩
  · intro i c c' hg hg'
    rcases hgiven.1 hg with hg₁ | ⟨hi, hc, -⟩
    · rcases hgiven.1 hg' with hg₂ | ⟨hi, -, -⟩
      · exact h.owner.one i c c' hg₁ hg₂
      · exact absurd (hi ▸ hg₁) (hnew c)
    · rcases hgiven.1 hg' with hg₂ | ⟨-, hc', -⟩
      · exact absurd (hi ▸ hg₂) (hnew c')
      · rw [hc, hc']
  · intro i c hg
    rcases hgiven.1 hg with hg | ⟨rfl, rfl, hr⟩
    · have hr := h.owner.alive i c hg
      by_cases hc : c = kk
      · subst hc
        simpa using hr
      · simpa [Function.update_of_ne hc] using hr
    · simpa using hr
  · intro i c hr hi
    refine hgiven.2 (.inl ?_)
    by_cases hc : c = kk
    · subst hc
      exact h.owner.owned i c (by simpa using hr) (by simpa using hi)
    · exact h.owner.owned i c (by simpa [Function.update_of_ne hc] using hr)
        (by simpa [Function.update_of_ne hc] using hi)
  · intro i c hr hw
    by_cases hc : c = kk
    · subst hc
      rw [hwkk] at hw
      exact hgiven.2 (.inr ⟨(Option.some.inj hw).symm, rfl, by simpa using hr⟩)
    · rw [hwne c hc] at hw
      exact hgiven.2 (.inl (h.owner.wait i c (by simpa [Function.update_of_ne hc] using hr) hw))
  · intro i k hik
    obtain ⟨rfl, rfl⟩ := Prod.mk.inj (Option.some.inj hik)
    refine ⟨by simpa using hid, fun c hg => ?_⟩
    rcases hgiven.1 hg with hg₁ | ⟨-, hc, -⟩
    · exact absurd hg₁ (hnew c)
    · exact hc
  · intro i c hg
    rcases hgiven.1 hg with hg₁ | ⟨rfl, rfl, -⟩
    · rcases h.owner.fresh i c hg₁ with ⟨hw, hb⟩ | ⟨k, hk, hb, hd⟩
      · have hc : c ≠ kk := by
          rintro rfl
          rw [waiting_free hfree] at hw
          exact absurd hw (by simp)
        refine .inl ⟨by rw [hwne c hc, hw], fun _ => ?_⟩
        simpa [Function.update_of_ne hc] using hb (by simp [hpl])
      · refine .inr ⟨k, ?_⟩
        by_cases hc : c = kk
        · subst hc
          simpa using ⟨hk, hb, hd⟩
        · simpa [Function.update_of_ne hc] using ⟨hk, hb, hd⟩
    · exact .inl ⟨hwkk, fun hne => absurd rfl (hne c)⟩
  · intro c
    by_cases hc : c = kk
    · subst hc
      simpa using h.room.total c
    · simpa [Function.update_of_ne hc] using h.room.total c
  · intro c hc0
    by_cases hc : c = kk
    · subst hc
      simpa using hlen
    · simpa [Function.update_of_ne hc] using
        h.room.room.1 c (by simpa [Function.update_of_ne hc] using hc0)

theorem Inv.visit (h : Inv cfg s) {j : Nat} (hok : StepOk cfg s (.visit j)) :
    Inv cfg (step cfg s (.visit j)) := by
  simp only [step]
  split
  · rename_i hpre
    simp only [tryDispatchAppWrite]
    split
    · rename_i hneed
      cases hkk : search cfg s.childs with
      | some kk => exact h.dispatch hpre.1 hpre.2 hneed hok hkk
      | none => exact h
    · split
      · exact h
      · exact h.readLogStat j
  · exact h

theorem waiting_placed {j kk : Nat} (hpl : s.placing = some (j, kk)) (c : Nat) :
    waiting (placeApp s j kk) c = waiting s c := by
  by_cases hc : c = kk
  · subst hc
    simp [waiting, placeApp, hpl]
  · simp [waiting, placeApp, hpl, Function.update_of_ne hc, Ne.symm hc]

theorem Inv.place (h : Inv cfg s) : Inv cfg (step cfg s .place) := by
  simp only [step]
  cases hpl : s.placing with
  | none => exact h
  | some p =>
    obtain ⟨j, kk⟩ := p
    obtain ⟨hid, hone⟩ := h.owner.placing j kk hpl
    have hch : ∀ c, ∃ x, (placeApp s j kk).childs c = { s.childs c with iAppShmIndex := x } := by
      intro c
      by_cases hc : c = kk
      · subst hc
        exact ⟨j, by simp [placeApp]⟩
      · exact ⟨(s.childs c).iAppShmIndex, by simp [placeApp, Function.update_of_ne hc]⟩
    have happ : ∀ i, i ≠ j → (placeApp s j kk).apps i = s.apps i := by
      intro i hi
      simp [placeApp, Function.update_of_ne hi]
    have hL : ((placeApp s j kk).apps j).dwLastTryWriteLogTime = s.tmTmp := by
      simp [placeApp]
    refine ⟨h.clock.congr rfl rfl ?_, ⟨h.owner.one, ?_, ?_, ?_, ?_, ?_⟩, ⟨?_, ?_, h.room.room.2⟩⟩
    · intro c hrun
      obtain ⟨x, hx⟩ := hch c
      rw [hx] at hrun ⊢
      exact ⟨hrun, .inl rfl⟩
    · intro i c hg
      obtain ⟨x, hx⟩ := hch c
      rw [hx]
      exact h.owner.alive i c hg
    · intro i c
      obtain ⟨x, hx⟩ := hch c
      rw [hx]
      exact h.owner.owned i c
    · intro i c
      obtain ⟨x, hx⟩ := hch c
      rw [hx, waiting_placed hpl]
      exact h.owner.wait i c
    · intro i k hik
      simp [placeApp] at hik
    · intro i c hg
      have hnow := h.clock.now_le
      have hpass := h.clock.pass c (h.owner.alive i c hg)
      have hP := (passTime_bound cfg).2
      obtain ⟨x, hx⟩ := hch c
      simp only [WaitFresh, OwnFresh, waiting_placed hpl, hx]
      by_cases hij : i = j
      · subst hij
        obtain rfl := hone c hg
        refine .inl ⟨by simp [waiting, hpl, hid], fun _ => ?_⟩
        rw [hL]
        exact ⟨by omega, fun _ => by omega⟩
      · rw [happ i hij]
        rcases h.owner.fresh i c hg with ⟨hw, hb⟩ | hown
        · refine .inl ⟨hw, fun _ => hb ?_⟩
          intro k hk
          rw [hpl] at hk
          exact hij (Prod.mk.inj (Option.some.inj hk)).1.symm
        · exact .inr hown
    · intro c
      obtain ⟨x, hx⟩ := hch c
      rw [hx]
      exact h.room.total c
    · intro c
      obtain ⟨x, hx⟩ := hch c
      rw [hx]
      exact h.room.room.1 c

/-- A change of a writer's clock and phase keeps its apps if it keeps the bounds
on their stamps. -/
theorem OwnerInv.setChild (h : OwnerInv cfg s)
    (hc : SameHold (s.childs c) ch)
    (hw : (s.childs c).iAppId ≠ 0 → ∀ L, (s.childs c).tmTmp < L + 10 + passTime cfg →
      ((s.childs c).phase = .start → (s.childs c).tmTmp ≤ L + 10) →
      ch.tmTmp < L + 10 + passTime cfg ∧ (ch.phase = .start → ch.tmTmp ≤ L + 10))
    (ho : ∀ k j, (s.childs c).pstLogFile[k]? = some j →
      (s.childs c).tmTmp < (s.apps j).dwLastTryWriteLogTime + passTime cfg →
      (k < (s.childs c).phase.done (s.childs c).pstLogFile.length →
        (s.childs c).tmTmp ≤ (s.apps j).dwLastTryWriteLogTime) →
      ch.tmTmp < (s.apps j).dwLastTryWriteLogTime + passTime cfg ∧
        (k < ch.phase.done (s.childs c).pstLogFile.length →
          ch.tmTmp ≤ (s.apps j).dwLastTryWriteLogTime)) :
    OwnerInv cfg (s.setChild c ch) := by
  have hself : (s.setChild c ch).childs c = ch := Function.update_self _ _ _
  have hne : ∀ x, x ≠ c → (s.setChild c ch).childs x = s.childs x :=
    fun x hx => Function.update_of_ne hx _ _
  have hch : ∀ x, SameHold (s.childs x) ((s.setChild c ch).childs x) := by
    intro x
    by_cases hx : x = c
    · subst hx
      rw [hself]
      exact hc
    · rw [hne x hx]
      exact SameHold.refl _
  refine OwnerInv.congr h rfl rfl hch ?_
  intro j x hg hfresh
  by_cases hx : x = c
  · subst hx
    rcases hfresh with ⟨hwj, hb⟩ | ⟨k, hk, hlt, hd⟩
    · refine .inl ⟨?_, fun hpl => ?_⟩
      · have hpl : (s.setChild x ch).placing = s.placing := rfl
        rw [← hwj]
        exact waiting_congr hpl (hch x)
      · have hid : (s.childs x).iAppId ≠ 0 := by
          intro h0
          rw [waiting_free h0] at hwj
          exact absurd hwj (by simp)
        rw [hself]
        exact hw hid _ (hb hpl).1 (hb hpl).2
    · refine .inr ⟨k, ?_⟩
      rw [hself, hc.2.2.2]
      exact ⟨hk, ho k j hk hlt hd⟩
  · have htm : ((s.setChild c ch).childs x).tmTmp = (s.childs x).tmTmp := by
      rw [hne x hx]
    have hph : ((s.setChild c ch).childs x).phase = (s.childs x).phase := by
      rw [hne x hx]
    exact fresh_of_stamp (s := s) rfl (hch x) htm hph (.inl rfl) hfresh

theorem ClockInv.setChild (h : ClockInv cfg s)
    (hr : ch.running = (s.childs c).running)
    (ht : ch.tmTmp = (s.childs c).tmTmp ∨ ch.tmTmp = s.now) : ClockInv cfg (s.setChild c ch) := by
  refine h.congr rfl rfl ?_
  intro x hrun
  by_cases hx : x = c
  · subst hx
    simp only [State.setChild, Function.update_self] at hrun ⊢
    exact ⟨hr ▸ hrun, ht⟩
  · simp only [State.setChild, Function.update_of_ne hx] at hrun ⊢
    exact ⟨hrun, .inl trivial⟩

theorem Inv.run (h : Inv cfg s) (c : Nat) : Inv cfg (step cfg s (.run c)) := by
  simp only [step]
  split
  · rename_i hpre
    obtain ⟨hrun, hph⟩ := hpre
    have hpass := h.clock.pass c hrun
    refine ⟨h.clock.setChild rfl (.inr rfl), ?_, h.room.setChild rfl rfl rfl⟩
    refine h.owner.setChild ⟨rfl, rfl, rfl, rfl⟩ ?_ ?_
    · intro _ L _ hstart
      have hle := hstart hph
      exact ⟨by dsimp only; omega, by simp⟩
    · intro k j hk _ hd
      have hlen : k < (s.childs c).pstLogFile.length := (List.getElem?_eq_some_iff.1 hk).1
      have hle := hd (by simpa [hph, Phase.done] using hlen)
      exact ⟨by dsimp only; omega, by simp [Phase.done]⟩
  · exact h

theorem Inv.wrote (h : Inv cfg s) (c iRet : Nat) : Inv cfg (step cfg s (.wrote c iRet)) := by
  simp only [step]
  split
  · rename_i i since hrun hph
    have hpass := h.clock.pass c hrun
    have hP := passTime_bound cfg
    have hbreak : ¬(s.childs c).tmTmp + cfg.iCheckWriteProcessTime - 10 < s.now := by
      omega
    refine ⟨h.clock.setChild rfl (.inl rfl), ?_, h.room.setChild rfl rfl rfl⟩
    refine h.owner.setChild ⟨rfl, rfl, rfl, rfl⟩ ?_ ?_
    · intro _ L hlt _
      exact ⟨hlt, by simp [hbreak]⟩
    · intro k j _ hlt hd
      rw [hph] at hd
      simp only [if_neg hbreak, Phase.done] at hd ⊢
      exact ⟨hlt, hd⟩
  · exact h

theorem Inv.stamp (h : Inv cfg s) {j c t : Nat} (hg : (j, c) ∈ s.given)
    (ht : (s.childs c).tmTmp ≤ t) : Inv cfg (s.stamp j t) := by
  refine ⟨h.clock.congr rfl rfl fun x hrun => ⟨hrun, .inl rfl⟩, ?_,
    ⟨h.room.total, h.room.room⟩⟩
  refine h.owner.of_childs rfl rfl rfl fun i x hgi => ?_
  by_cases hi : i = j
  · subst hi
    obtain rfl := h.owner.one i x c hgi hg
    right
    simpa [State.stamp, State.setApp] using ht
  · left
    simp [State.stamp, State.setApp, Function.update_of_ne hi]

theorem Inv.writeNext (h : Inv cfg s) {c i : Nat} (hrun : (s.childs c).running = true)
    (hph : (s.childs c).phase = .loop i) : Inv cfg (writeNext s c i) := by
  simp only [LogWrite.writeNext]
  cases hj : (s.childs c).pstLogFile[i]? with
  | none =>
    refine ⟨h.clock.setChild rfl (.inl rfl), ?_, h.room.setChild rfl rfl rfl⟩
    refine h.owner.setChild ⟨rfl, rfl, rfl, rfl⟩ ?_ ?_
    · intro _ L hlt _
      exact ⟨hlt, by simp⟩
    · intro k j hk hlt hd
      have hki : k < i := by
        have h1 := (List.getElem?_eq_some_iff.1 hk).1
        have h2 := List.getElem?_eq_none_iff.1 hj
        omega
      rw [hph] at hd
      exact ⟨hlt, fun _ => hd hki⟩
  | some j₀ =>
    have hg₀ := h.owner.owned j₀ c hrun (List.mem_of_getElem? hj)
    have hs := h.stamp hg₀ (Nat.le_refl (s.childs c).tmTmp)
    have hL : ((s.stamp j₀ (s.childs c).tmTmp).apps j₀).dwLastTryWriteLogTime
        = (s.childs c).tmTmp := by
      simp [State.stamp, State.setApp]
    refine ⟨hs.clock.setChild rfl (.inl rfl), ?_, hs.room.setChild rfl rfl rfl⟩
    refine hs.owner.setChild ⟨rfl, rfl, rfl, rfl⟩ ?_ ?_
    · intro _ L hlt _
      exact ⟨hlt, by simp⟩
    · intro k j hk hlt hd
      refine ⟨hlt, fun hki => ?_⟩
      have hph' : ((s.stamp j₀ (s.childs c).tmTmp).childs c).phase = .loop i := hph
      rw [hph'] at hd
      rcases Nat.lt_succ_iff_lt_or_eq.1 hki with hki | rfl
      · exact hd hki
      · have hjj : j = j₀ := Option.some.inj (hk.symm.trans hj)
        subst hjj
        exact Nat.le_of_eq hL.symm

theorem Inv.write (h : Inv cfg s) (c : Nat) : Inv cfg (step cfg s (.write c)) := by
  simp only [step]
  split
  · rename_i i hrun hph
    exact h.writeNext hrun hph
  · exact h

theorem Inv.stop (h : Inv cfg s) (c : Nat) : Inv cfg (s.stop c) := by
  have hsub : ∀ {i x : Nat}, (i, x) ∈ (s.stop c).given ↔ (i, x) ∈ s.given ∧ x ≠ c := by
    intro i x
    simp [State.stop]
  have hself : ((s.stop c).childs c).running = false := by
    simp [State.stop]
  have hne : ∀ x, x ≠ c → (s.stop c).childs x = s.childs x := by
    intro x hx
    simp [State.stop, Function.update_of_ne hx]
  have hrunne : ∀ x, ((s.stop c).childs x).running = true → x ≠ c := by
    rintro x hr rfl
    rw [hself] at hr
    exact absurd hr (by simp)
  have hw : ∀ x, waiting (s.stop c) x = waiting s x := by
    intro x
    by_cases hx : x = c
    · subst hx
      simp [waiting, State.stop]
    · simp [waiting, State.stop, Function.update_of_ne hx]
  refine ⟨h.clock.congr rfl rfl ?_, ⟨?_, ?_, ?_, ?_, ?_, ?_⟩, ⟨?_, ?_, h.room.room.2⟩⟩
  · intro x hr
    have hx := hrunne x hr
    rw [hne x hx] at hr ⊢
    exact ⟨hr, .inl rfl⟩
  · intro j x x' hg hg'
    exact h.owner.one j x x' (hsub.1 hg).1 (hsub.1 hg').1
  · intro j x hg
    rw [hne x (hsub.1 hg).2]
    exact h.owner.alive j x (hsub.1 hg).1
  · intro j x hr hj
    have hx := hrunne x hr
    rw [hne x hx] at hr hj
    exact hsub.2 ⟨h.owner.owned j x hr hj, hx⟩
  · intro j x hr hj
    have hx := hrunne x hr
    rw [hne x hx] at hr
    rw [hw] at hj
    exact hsub.2 ⟨h.owner.wait j x hr hj, hx⟩
  · intro j kk hpl
    obtain ⟨hid, hone⟩ := h.owner.placing j kk hpl
    refine ⟨?_, fun x hg => hone x (hsub.1 hg).1⟩
    by_cases hx : kk = c
    · subst hx
      simpa [State.stop] using hid
    · rw [hne kk hx]
      exact hid
  · intro j x hg
    obtain ⟨hgs, hx⟩ := hsub.1 hg
    refine fresh_of_stamp (s := s) rfl ?_ ?_ ?_ (.inl rfl) (h.owner.fresh j x hgs)
    · rw [hne x hx]
      exact SameHold.refl _
    · rw [hne x hx]
    · rw [hne x hx]
  · intro x
    by_cases hx : x = c
    · subst hx
      simpa [State.stop] using h.room.total x
    · rw [hne x hx]
      exact h.room.total x
  · intro x
    by_cases hx : x = c
    · subst hx
      simpa [State.stop] using h.room.room.1 x
    · rw [hne x hx]
      exact h.room.room.1 x

/-- The writer has opened the app of its record. -/
theorem Inv.accepted (h : Inv cfg s) (hok : StepOk cfg s (.accept c))
    (hrun : (s.childs c).running = true) (hph : (s.childs c).phase = .tail)
    (hid : (s.childs c).iAppId ≠ 0) :
    Inv cfg ((s.stamp (s.childs c).iAppShmIndex s.now).setChild c
      { s.childs c with
        pstLogFile := (s.childs c).pstLogFile ++ [(s.childs c).iAppShmIndex]
        iAppWriteTotal := (s.childs c).iAppWriteTotal + 1
        iAppId := 0
        phase := .start }) := by
  have hwc : waiting s c = some (s.childs c).iAppShmIndex := by
    cases hpl : s.placing with
    | none => simp [waiting, hid, hpl]
    | some p =>
      have hne : p.2 ≠ c := by
        rintro rfl
        exact hok p hpl rfl
      simp [waiting, hid, hpl, hne]
  have hg₀ := h.owner.wait _ c hrun hwc
  have hpass := h.clock.pass c hrun
  have hs := h.stamp hg₀ hpass.1
  generalize hj₀ : (s.childs c).iAppShmIndex = j₀ at *
  generalize hs' : (s.stamp j₀ s.now).setChild c _ = s'
  have hself : s'.childs c = { s.childs c with
      pstLogFile := (s.childs c).pstLogFile ++ [j₀]
      iAppWriteTotal := (s.childs c).iAppWriteTotal + 1
      iAppId := 0
      phase := .start } := by
    rw [← hs']
    simp [State.setChild]
  have hne : ∀ x, x ≠ c → s'.childs x = s.childs x := by
    intro x hx
    rw [← hs']
    simp [State.setChild, State.stamp, State.setApp, Function.update_of_ne hx]
  have hgiven : s'.given = s.given := by
    rw [← hs']
    rfl
  have hplace : s'.placing = s.placing := by
    rw [← hs']
    rfl
  have happs : s'.apps = (s.stamp j₀ s.now).apps := by
    rw [← hs']
    rfl
  have hwx : ∀ x, x ≠ c → waiting s' x = waiting s x := by
    intro x hx
    exact waiting_congr hplace (by rw [hne x hx]; exact SameHold.refl _)
  refine ⟨?_, ⟨?_, ?_, ?_, ?_, ?_, ?_⟩, ⟨?_, ?_, ?_⟩⟩
  · rw [← hs']
    exact hs.clock.setChild rfl (.inl rfl)
  · intro j x x'
    rw [hgiven]
    exact h.owner.one j x x'
  · intro j x hg
    rw [hgiven] at hg
    by_cases hx : x = c
    · subst hx
      rw [hself]
      exact hrun
    · rw [hne x hx]
      exact h.owner.alive j x hg
  · intro j x hr hj
    rw [hgiven]
    by_cases hx : x = c
    · subst hx
      rw [hself] at hj
      rcases List.mem_append.1 hj with hj | hj
      · exact h.owner.owned j x hrun hj
      · rw [List.mem_singleton.1 hj]
        exact hg₀
    · rw [hne x hx] at hr hj
      exact h.owner.owned j x hr hj
  · intro j x hr hj
    rw [hgiven]
    by_cases hx : x = c
    · subst hx
      rw [waiting_free (by rw [hself])] at hj
      exact absurd hj (by simp)
    · rw [hne x hx] at hr
      rw [hwx x hx] at hj
      exact h.owner.wait j x hr hj
  · intro j kk hpl
    rw [hplace] at hpl
    have hkk : kk ≠ c := by
      rintro rfl
      exact hok (j, kk) hpl rfl
    rw [hgiven, hne kk hkk]
    exact h.owner.placing j kk hpl
  · intro j x hg
    rw [hgiven] at hg
    by_cases hx : x = c
    · subst hx
      right
      have hL₀ : ((s.stamp j₀ s.now).apps j₀).dwLastTryWriteLogTime = s.now := by
        simp [State.stamp, State.setApp]
      have hP := (passTime_bound cfg).2
      by_cases hj : j = j₀
      · subst hj
        refine ⟨(s.childs x).pstLogFile.length, ?_⟩
        rw [hself, happs, hL₀]
        exact ⟨by simp, by dsimp only; omega, fun _ => hpass.1⟩
      · rcases hs.owner.fresh j x hg with ⟨hw, -⟩ | ⟨k, hk, hlt, hd⟩
        · exact absurd (Option.some.inj (hw.symm.trans hwc)) hj
        · have hlen := (List.getElem?_eq_some_iff.1 hk).1
          have hph' : ((s.stamp j₀ s.now).childs x).phase = .tail := hph
          rw [hph'] at hd
          refine ⟨k, ?_⟩
          rw [hself, happs]
          exact ⟨(List.getElem?_append_left hlen).trans hk, hlt, fun _ => hd hlen⟩
    · refine fresh_of_stamp (s := s.stamp j₀ s.now) hplace ?_ ?_ ?_ (.inl ?_) (hs.owner.fresh j x hg)
      · rw [hne x hx]
        exact SameHold.refl _
      · rw [hne x hx]
        rfl
      · rw [hne x hx]
        rfl
      · rw [happs]
  · intro x
    by_cases hx : x = c
    · subst hx
      rw [hself]
      simp [h.room.total x]
    · rw [hne x hx]
      exact h.room.total x
  · intro x hx0
    by_cases hx : x = c
    · subst hx
      rw [hself] at hx0
      exact absurd rfl hx0
    · rw [hne x hx] at hx0 ⊢
      exact h.room.room.1 x hx0
  · rw [← hs']
    exact h.room.room.2

theorem Inv.accept (h : Inv cfg s) (hok : StepOk cfg s (.accept c)) :
    Inv cfg (step cfg s (.accept c)) := by
  simp only [step]
  split
  · rename_i hpre
    obtain ⟨hrun, hph⟩ := hpre
    simp only [tryAcceptDispatchApp]
    split
    · rename_i hid
      refine ⟨h.clock.setChild rfl (.inl rfl), ?_, h.room.setChild rfl rfl rfl⟩
      refine h.owner.setChild ⟨rfl, rfl, rfl, rfl⟩ ?_ ?_
      · intro hne
        exact absurd hid hne
      · intro k j hk hlt hd
        rw [hph] at hd
        exact ⟨hlt, hd⟩
    · rename_i hid
      split
      · rename_i hfull
        exact absurd (h.room.room.1 c hid) (Nat.not_lt.2 hfull)
      · exact h.accepted hok hrun hph hid
  · exact h

theorem Inv.step (h : Inv cfg s) {a : Action} (hok : StepOk cfg s a) : Inv cfg (step cfg s a) := by
  cases a with
  | tick d => exact h.tick hok
  | report j => exact h.report j
  | scan => exact h.scan
  | clearPer => exact h.clearPer
  | visit j => exact h.visit hok
  | place => exact h.place
  | run c => exact h.run c
  | write c => exact h.write c
  | wrote c iRet => exact h.wrote c iRet
  | accept c => exact h.accept hok
  | crash c => exact h.stop c
  | leave c => exact absurd hok id

theorem Inv.run_list (h : Inv cfg s) (hok : ScheduleOk cfg s as) :
    Inv cfg (LogWrite.run cfg s as) := by
  induction as generalizing s with
  | nil => exact h
  | cons a as ih => exact ih (h.step hok.1) hok.2

theorem ScheduleOk.take (hok : ScheduleOk cfg s as) (n : Nat) :
    ScheduleOk cfg s (as.take n) := by
  induction as generalizing s n with
  | nil => simpa using hok
  | cons a as ih =>
    cases n with
    | zero => trivial
    | succ n => exact ⟨hok.1, ih hok.2 n⟩

/-- In every state of a schedule whose passes are short, no app is given to two
running writers and no app waits for a writer without room. -/
theorem one_writer (cfg : Config) (t₀ : Nat) (apps : Nat → App)
    (h₀ : cfg.iCheckWriteProcessTime ≤ t₀) (h₁ : t₀ < 2 ^ 32) (as : List Action)
    (hok : ScheduleOk cfg (initState cfg t₀ apps) as) (n : Nat) :
    OneWriter (run cfg (initState cfg t₀ apps) (as.take n)) ∧
      RoomLeft (run cfg (initState cfg t₀ apps) (as.take n)) := by
  have h := (inv_init apps h₀ h₁).run_list (hok.take n)
  exact ⟨h.owner.one, h.room.room⟩

/-- Two writers and a check time of 300 seconds. -/
def twoWriters : Config := ⟨3, 300, by decide, by decide⟩

/-- Apps without logs, before any write. -/
def idleApps (j : Nat) : App := ⟨j + 1, 0, false, true⟩

/-- An app is dispatched, taken over, and written in two passes. -/
theorem one_writer_two_passes :
    OneWriter (run twoWriters (initState twoWriters 1000 idleApps)
      ([.report 4, .visit 4, .place, .run 0, .write 0, .accept 0, .tick 9, .scan, .run 0, .write 0,
        .tick 9, .wrote 0 5, .write 0, .accept 0, .scan, .report 4, .visit 4].take 17)) := by
  exact (one_writer twoWriters 1000 idleApps (by decide) (by decide)
    [.report 4, .visit 4, .place, .run 0, .write 0, .accept 0, .tick 9, .scan, .run 0, .write 0,
      .tick 9, .wrote 0 5, .write 0, .accept 0, .scan, .report 4, .visit 4] (by decide +kernel) 17).1

/-- Writer 0 takes over apps `0` to `k - 1`, one per pass. -/
def takeOver (k : Nat) : List Action :=
  (List.range k).flatMap fun j =>
    [.report j, .visit j, .place, .run 0] ++ (List.range j).flatMap (fun _ => [.write 0, .wrote 0 0])
      ++ [.write 0, .accept 0]

/-- The first `k` calls of a pass of writer 0, nine seconds each. -/
def slowCalls (k : Nat) : List Action :=
  .run 0 :: (List.range k).flatMap fun _ => [.write 0, .tick 9, .wrote 0 1, .scan]

/-- A pass over 18 apps, and the next one up to its seventeenth call. -/
def slowPasses : List Action :=
  takeOver 18 ++ slowCalls 18 ++ [.write 0, .accept 0] ++ slowCalls 16 ++ [.report 17, .visit 17]

/-- The last app of a slow pass is given to a second writer. -/
theorem app_given_twice :
    ¬OneWriter (run twoWriters (initState twoWriters 1000 idleApps) slowPasses) := by
  intro h
  have h₀ : (17, 0) ∈ (run twoWriters (initState twoWriters 1000 idleApps) slowPasses).given := by
    decide +kernel
  have h₁ : (17, 1) ∈ (run twoWriters (initState twoWriters 1000 idleApps) slowPasses).given := by
    decide +kernel
  exact absurd (h 17 0 1 h₀ h₁) (by decide)

end XrkMonitor.LogWrite
