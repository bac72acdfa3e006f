import XrkMonitor.Library.RingScan
import XrkMonitor.LogRing.Ring
import XrkMonitor.LogSpec.Buffer

/-!
# Abandoned cells of the log buffers

A writer takes a cell of a ring, or of the special buffer, and sets its sequence number to zero
until the record is written. `ReadAppLog` stops at such a cell and passes it if the time stamp says
that its writer has died. The two loops compare the times the other way round: the loop over the
special buffer passes a cell that is five seconds old, the loop over a ring one that is not older.

## Implementation notes

The age of a cell is counted in the seconds of `time`. A call reads one special buffer and one ring;
both indices are in their arrays. Times are cut to 32 bits before they are compared.
-/

namespace XrkMonitor.LogRing

open Library

section Rules

/-- The second of a time stamp. -/
def seconds (qwLogTime : Nat) : Nat := qwLogTime / 1000000

/-- The comparison of the loop over a ring. -/
def ringPasses (now qwLogTime : Nat) : Prop :=
  now % 2 ^ 32 ≤ (seconds qwLogTime + 5) % 2 ^ 32

/-- The comparison of the loop over the special buffer. -/
def specPasses (now qwLogTime : Nat) : Prop :=
  (seconds qwLogTime + 5) % 2 ^ 32 ≤ now % 2 ^ 32

/-- The loop over a ring goes on behind a cell. -/
def RingGoesOn (env : ReadEnv) (s : MTLogShm) (j : Nat) : Prop :=
  (s.sLogList ((s.iLogStarIndex.toNat + j) % MTLOG_SHM_RECORDS_COUNT)).dwLogSeq ≠ 0 ∧
    env.readAppLogToBuf j = true

/-- The loop over the special buffer goes on behind a record. -/
def SpecLogGoesOn (env : LogSpec.ReadEnv) (stLogConfig : List LogSpec.SLogConfig) (p : Nat)
    (plog : LogSpec.MTLog) : Prop :=
  plog.dwLogSeq ≠ 0 ∧
    match LogSpec.chooseSpec env.qwCurTime stLogConfig plog with
    | .wait => False
    | .skip => True
    | .read plog =>
      plog.iAppId ≠ 0 ∧ plog.iModuleId ≠ 0 ∧ env.readAppLogToBuf p ≠ .refused

def SpecGoesOn (env : LogSpec.ReadEnv) (stLogConfig : List LogSpec.SLogConfig)
    (s : LogSpec.SpecShm) (j : Nat) : Prop :=
  let p := (s.iLogSpecialReadIdx.toNat + j) % LogSpec.MTLOG_LOG_SPECIAL_COUNT
  SpecLogGoesOn env stLogConfig p (s.sLogListSpec p)

/-- A call of `ReadAppLog` keeps an unfinished record of a ring that is younger than five seconds,
and passes one that is older if it comes to it. -/
def RingRule (env : ReadEnv) (s : MTLogShm) : Prop :=
  ∃ e s' out, readAppLog env s = some (e, s', out) ∧ s'.iWriteIndex = s.iWriteIndex ∧
    StallRule MTLOG_SHM_RECORDS_COUNT s.iLogStarIndex s'.iLogStarIndex s.iWriteIndex
      (RingGoesOn env s)
      (fun p => (s.sLogList p).dwLogSeq = 0)
      (fun p => env.now < seconds (s.sLogList p).qwLogTime + 5)
      (fun p => env.cas = true ∧ seconds (s.sLogList p).qwLogTime + 5 < env.now)

/-- The same for the special buffer. -/
def SpecRule (env : LogSpec.ReadEnv) (stLogConfig : List LogSpec.SLogConfig)
    (s : LogSpec.SpecShm) : Prop :=
  ∃ e s' out, LogSpec.readSpecLog env stLogConfig s = some (e, s', out) ∧
    s'.iLogSpecialWriteIdx = s.iLogSpecialWriteIdx ∧
    StallRule LogSpec.MTLOG_LOG_SPECIAL_COUNT s.iLogSpecialReadIdx s'.iLogSpecialReadIdx
      s.iLogSpecialWriteIdx (SpecGoesOn env stLogConfig s)
      (fun p => (s.sLogListSpec p).dwLogSeq = 0)
      (fun p => env.now < seconds (s.sLogListSpec p).qwLogTime + 5)
      (fun p => seconds (s.sLogListSpec p).qwLogTime + 5 < env.now)

end Rules

section Ring

variable {env : ReadEnv} {s : MTLogShm} {a k : Nat}

/-- The cell at an offset from the start index. -/
def cellAt (s : MTLogShm) (k : Nat) : Nat := (s.iLogStarIndex.toNat + k) % MTLOG_SHM_RECORDS_COUNT

/-- The start index set to a cell. -/
def startAt (s : MTLogShm) (c : Nat) : MTLogShm := { s with iLogStarIndex := (c : Int) }

theorem sLogList_startAt (s : MTLogShm) (c : Nat) : (startAt s c).sLogList = s.sLogList := rfl

theorem startAt_self {c : Nat} (h : s.iLogStarIndex = (c : Int)) : startAt s c = s := by
  rw [startAt, ← h]

theorem advanceStart_startAt (s : MTLogShm) (c : Nat) :
    advanceStart (startAt s (c % MTLOG_SHM_RECORDS_COUNT)) =
      startAt s ((c + 1) % MTLOG_SHM_RECORDS_COUNT) := by
  rw [← ringNext_mod (by decide)]
  rfl

theorem readLoop_goes_on (env : ReadEnv) (s : MTLogShm) (a fuel k : Nat) (out : List MTLog)
    (h : ∀ j < k, (a + j) % MTLOG_SHM_RECORDS_COUNT ≠ s.iWriteIndex ∧
      (s.sLogList ((a + j) % MTLOG_SHM_RECORDS_COUNT)).dwLogSeq ≠ 0 ∧
      env.readAppLogToBuf (out.length + j) = true) :
    ∃ out', out'.length = out.length + k ∧
      readLoop env (fuel + k) (startAt s (a % MTLOG_SHM_RECORDS_COUNT)) out =
        readLoop env fuel (startAt s ((a + k) % MTLOG_SHM_RECORDS_COUNT)) out' := by
  induction k generalizing fuel with
  | zero => exact ⟨out, rfl, rfl⟩
  | succ k ih =>
    obtain ⟨out', hlen, hrun⟩ := ih (fuel + 1) fun j hj => h j (Nat.lt_succ_of_lt hj)
    obtain ⟨hwrite, hseq, hroom⟩ := h k (Nat.lt_succ_self k)
    rw [← hlen] at hroom
    refine ⟨out' ++ [s.sLogList ((a + k) % MTLOG_SHM_RECORDS_COUNT)], ?_, ?_⟩
    · rw [List.length_append, List.length_singleton, hlen, Nat.add_assoc]
    · have hfuel : fuel + (k + 1) = fuel + 1 + k := by omega
      rw [hfuel, hrun, readLoop, if_pos ⟨Int.natCast_nonneg _, Int.ofNat_inj.not.mpr hwrite⟩]
      dsimp only
      have hcell : (startAt s ((a + k) % MTLOG_SHM_RECORDS_COUNT)).iLogStarIndex.toNat =
          (a + k) % MTLOG_SHM_RECORDS_COUNT := rfl
      rw [hcell, sLogList_startAt, if_neg hseq, if_pos hroom, advanceStart_startAt]
      rfl

theorem readLoop_ends (env : ReadEnv) (s : MTLogShm) (c fuel : Nat) (out : List MTLog)
    (h : c = s.iWriteIndex ∨
      ¬ ((s.sLogList c).dwLogSeq ≠ 0 ∧ env.readAppLogToBuf out.length = true)) :
    ∃ e s', readLoop env (fuel + 1) (startAt s c) out = some (e, s', out) ∧
      s'.iWriteIndex = s.iWriteIndex ∧
      (¬ (c ≠ s.iWriteIndex ∧ (s.sLogList c).dwLogSeq = 0 ∧
        ringPasses env.now (s.sLogList c).qwLogTime) → s' = startAt s c) ∧
      (c ≠ s.iWriteIndex → (s.sLogList c).dwLogSeq = 0 →
        ringPasses env.now (s.sLogList c).qwLogTime → s' = advanceStart (startAt s c)) := by
  have hcell : (startAt s c).iLogStarIndex.toNat = c := rfl
  rw [readLoop]
  by_cases hwrite : c = s.iWriteIndex
  · rw [if_neg fun hgo => hgo.2 (Int.ofNat_inj.mpr hwrite)]
    exact ⟨_, _, rfl, rfl, fun _ => rfl, fun hne => absurd hwrite hne⟩
  · rw [if_pos ⟨Int.natCast_nonneg _, Int.ofNat_inj.not.mpr hwrite⟩]
    dsimp only
    rw [hcell, sLogList_startAt]
    by_cases hseq : (s.sLogList c).dwLogSeq = 0
    · by_cases hpass : ringPasses env.now (s.sLogList c).qwLogTime
      · have htest : env.now % 2 ^ 32 ≤ ((s.sLogList c).qwLogTime / 1000000 + 5) % 2 ^ 32 := hpass
        refine ⟨.unfinished, advanceStart (startAt s c), ?_, rfl, ?_, fun _ _ _ => rfl⟩
        · rw [if_pos hseq, if_pos htest]
        · exact fun hno => absurd ⟨hwrite, hseq, hpass⟩ hno
      · have htest : ¬ env.now % 2 ^ 32 ≤ ((s.sLogList c).qwLogTime / 1000000 + 5) % 2 ^ 32 := hpass
        refine ⟨.unfinished, startAt s c, ?_, rfl, fun _ => rfl, fun _ _ h => absurd h hpass⟩
        rw [if_pos hseq, if_neg htest]
    · have hroom : ¬ env.readAppLogToBuf out.length = true := by
        rcases h with h | h
        · exact absurd h hwrite
        · exact fun hroom => h ⟨hseq, hroom⟩
      refine ⟨.refused, startAt s c, ?_, rfl, fun _ => rfl, fun _ h => absurd h hseq⟩
      rw [if_neg hseq, if_neg hroom]

theorem readAppLog_of_loop {e : ReadEnd} {s' : MTLogShm} {out : List MTLog}
    (hcas : env.cas = true)
    (hloop : readLoop env (MTLOG_SHM_RECORDS_COUNT + 1) s [] = some (e, s', out)) :
    ∃ s'', readAppLog env s = some (some e, s'', out) ∧ s''.iWriteIndex = s'.iWriteIndex ∧
      (s''.iLogStarIndex = s'.iLogStarIndex ∨
        s''.iLogStarIndex = -1 ∧ s'.iLogStarIndex = s'.iWriteIndex) := by
  rw [readAppLog, if_pos hcas, hloop, Option.map_some]
  dsimp only
  by_cases href : e = .refused
  · rw [if_pos href]
    exact ⟨s', rfl, rfl, Or.inl rfl⟩
  · rw [if_neg href]
    by_cases hempty : s'.iLogStarIndex = s'.iWriteIndex
    · rw [if_pos hempty]
      exact ⟨_, rfl, rfl, Or.inr ⟨rfl, hempty⟩⟩
    · rw [if_neg hempty]
      exact ⟨s', rfl, rfl, Or.inl rfl⟩

/-- A call that gets the ring and finds records scans them. -/
theorem readAppLog_scan (hcas : env.cas = true) (hw : s.iWriteIndex < MTLOG_SHM_RECORDS_COUNT)
    (hs : s.iLogStarIndex < MTLOG_SHM_RECORDS_COUNT) (hpos : 0 ≤ s.iLogStarIndex) :
    ∃ k e s' out, StopsAt MTLOG_SHM_RECORDS_COUNT s.iLogStarIndex.toNat s.iWriteIndex
        (RingGoesOn env s) k ∧
      readAppLog env s = some (e, s', out) ∧ s'.iWriteIndex = s.iWriteIndex ∧
      (¬ (cellAt s k ≠ s.iWriteIndex ∧ (s.sLogList (cellAt s k)).dwLogSeq = 0 ∧
          ringPasses env.now (s.sLogList (cellAt s k)).qwLogTime) →
        EndsAt MTLOG_SHM_RECORDS_COUNT s.iLogStarIndex.toNat s.iWriteIndex k s'.iLogStarIndex) ∧
      (cellAt s k ≠ s.iWriteIndex → (s.sLogList (cellAt s k)).dwLogSeq = 0 →
        ringPasses env.now (s.sLogList (cellAt s k)).qwLogTime →
        EndsAt MTLOG_SHM_RECORDS_COUNT s.iLogStarIndex.toNat s.iWriteIndex (k + 1)
          s'.iLogStarIndex) := by
  obtain ⟨k, hk, hstop⟩ := exists_stopsAt hw s.iLogStarIndex.toNat (RingGoesOn env s)
  have hstart : startAt s (s.iLogStarIndex.toNat % MTLOG_SHM_RECORDS_COUNT) = s := by
    apply startAt_self
    rw [Nat.mod_eq_of_lt (by omega)]
    omega
  obtain ⟨out, hlen, hrun⟩ := readLoop_goes_on env s s.iLogStarIndex.toNat
    (MTLOG_SHM_RECORDS_COUNT - k + 1) k [] fun j hj => by
      rw [List.length_nil, Nat.zero_add]
      exact hstop.before j hj
  rw [List.length_nil, Nat.zero_add] at hlen
  have hfuel : MTLOG_SHM_RECORDS_COUNT - k + 1 + k = MTLOG_SHM_RECORDS_COUNT + 1 := by omega
  have hend := hstop.stop
  rw [RingGoesOn, ← hlen] at hend
  rw [hstart, hfuel] at hrun
  obtain ⟨e, s', hloop, hwrite, hkept, hpassed⟩ :=
    readLoop_ends env s (cellAt s k) (MTLOG_SHM_RECORDS_COUNT - k) out (by
      rw [cellAt, ← hlen]
      exact hend)
  change _ = readLoop env _ (startAt s (cellAt s k)) out at hrun
  rw [hloop] at hrun
  obtain ⟨s'', hread, hwrite', hindex⟩ := readAppLog_of_loop hcas hrun
  refine ⟨k, some e, s'', out, hstop, hread, hwrite'.trans hwrite, ?_, ?_⟩
  · intro hno
    rw [hkept hno] at hindex
    rcases hindex with h | ⟨h, hsame⟩
    · exact Or.inl h
    · exact Or.inr ⟨h, Int.ofNat_inj.mp hsame⟩
  · intro hne hseq hpass
    rw [hpassed hne hseq hpass, cellAt, advanceStart_startAt] at hindex
    rcases hindex with h | ⟨h, hsame⟩
    · exact Or.inl h
    · exact Or.inr ⟨h, Int.ofNat_inj.mp hsame⟩

/-- The rule holds exactly where the comparison passes what the rule passes. -/
theorem ringRule_iff (hw : s.iWriteIndex < MTLOG_SHM_RECORDS_COUNT)
    (hs : s.iLogStarIndex < MTLOG_SHM_RECORDS_COUNT) :
    RingRule env s ↔ (env.cas = true → ∀ p,
      Reaches MTLOG_SHM_RECORDS_COUNT s.iLogStarIndex s.iWriteIndex (RingGoesOn env s) p →
      (s.sLogList p).dwLogSeq = 0 →
      (env.now < seconds (s.sLogList p).qwLogTime + 5 →
        ¬ ringPasses env.now (s.sLogList p).qwLogTime) ∧
      (seconds (s.sLogList p).qwLogTime + 5 < env.now →
        ringPasses env.now (s.sLogList p).qwLogTime)) := by
  cases hcas : env.cas with
  | false =>
    have hread : readAppLog env s = some (none, s, []) := by
      rw [readAppLog, hcas]
      rfl
    constructor
    · intro _ h
      cases h
    · intro _
      refine ⟨none, s, [], hread, rfl, fun p hp _ _ => hp, ?_⟩
      intro p _ _ hold
      rw [hcas] at hold
      cases hold.1
  | true =>
    by_cases hpos : 0 ≤ s.iLogStarIndex
    · obtain ⟨k, e, s', out, hstop, hread, hwrite, hkept, hpassed⟩ :=
        readAppLog_scan hcas hw hs hpos
      have hiff : StallRule MTLOG_SHM_RECORDS_COUNT s.iLogStarIndex s'.iLogStarIndex
          s.iWriteIndex (RingGoesOn env s) (fun p => (s.sLogList p).dwLogSeq = 0)
          (fun p => env.now < seconds (s.sLogList p).qwLogTime + 5)
          (fun p => env.cas = true ∧ seconds (s.sLogList p).qwLogTime + 5 < env.now) ↔
          ∀ p, Reaches MTLOG_SHM_RECORDS_COUNT s.iLogStarIndex s.iWriteIndex
              (RingGoesOn env s) p →
            (s.sLogList p).dwLogSeq = 0 →
            (env.now < seconds (s.sLogList p).qwLogTime + 5 →
              ¬ ringPasses env.now (s.sLogList p).qwLogTime) ∧
            (env.cas = true ∧ seconds (s.sLogList p).qwLogTime + 5 < env.now →
              ringPasses env.now (s.sLogList p).qwLogTime) :=
        stallRule_iff hw hpos hstop (fun j hj hgo => hgo.1 hj) hkept hpassed
      constructor
      · rintro ⟨e', s'', out', hread', -, hrule⟩ - p hreach hseq
        rw [hread, Option.some.injEq, Prod.mk.injEq, Prod.mk.injEq] at hread'
        rw [← hread'.2.1] at hrule
        obtain ⟨hyoung, hold⟩ := hiff.mp hrule p hreach hseq
        exact ⟨hyoung, fun h => hold ⟨hcas, h⟩⟩
      · intro hcond
        refine ⟨e, s', out, hread, hwrite, hiff.mpr ?_⟩
        intro p hreach hseq
        obtain ⟨hyoung, hold⟩ := hcond rfl p hreach hseq
        exact ⟨hyoung, fun h => hold h.2⟩
    · have hloop : readLoop env (MTLOG_SHM_RECORDS_COUNT + 1) s [] = some (.drained, s, []) := by
        rw [readLoop, if_neg fun h => hpos h.1]
      obtain ⟨s', hread, hwrite, -⟩ := readAppLog_of_loop hcas hloop
      constructor
      · intro _ _ p hreach
        exact absurd hreach.1 hpos
      · intro _
        exact ⟨_, s', _, hread, hwrite, stallRule_empty (Int.not_le.mp hpos) _⟩

end Ring

section Special

open LogSpec (MTLOG_LOG_SPECIAL_COUNT SpecShm readSpecLoop readSpecLog)

variable {env : LogSpec.ReadEnv} {stLogConfig : List LogSpec.SLogConfig} {s t : SpecShm}
  {a c k : Nat}

theorem readSpecLoop_step (ht : t.iLogSpecialReadIdx = (c : Int))
    (hne : c ≠ t.iLogSpecialWriteIdx)
    (hgo : SpecLogGoesOn env stLogConfig c (t.sLogListSpec c)) (fuel : Nat)
    (out : List LogSpec.LogInfo) :
    ∃ t' out', readSpecLoop env stLogConfig (fuel + 1) t out =
        readSpecLoop env stLogConfig fuel t' out' ∧
      t'.iLogSpecialReadIdx = (ringNext MTLOG_LOG_SPECIAL_COUNT c : Nat) ∧
      t'.iLogSpecialWriteIdx = t.iLogSpecialWriteIdx ∧
      ∀ p, p ≠ c → t'.sLogListSpec p = t.sLogListSpec p := by
  have hcell : t.iLogSpecialReadIdx.toNat = c := by
    rw [ht]
    rfl
  have hwait : 0 ≤ t.iLogSpecialReadIdx ∧ t.iLogSpecialReadIdx ≠ t.iLogSpecialWriteIdx := by
    rw [ht]
    exact ⟨Int.natCast_nonneg _, Int.ofNat_inj.not.mpr hne⟩
  have hadvance : (LogSpec.advanceRead t).iLogSpecialReadIdx =
      (ringNext MTLOG_LOG_SPECIAL_COUNT c : Nat) := by
    rw [← hcell]
    rfl
  obtain ⟨hseq, hchoice⟩ := hgo
  rw [readSpecLoop, if_pos hwait]
  dsimp only
  rw [hcell, if_neg hseq]
  cases hchoose : LogSpec.chooseSpec env.qwCurTime stLogConfig (t.sLogListSpec c) with
  | wait =>
    rw [hchoose] at hchoice
    exact hchoice.elim
  | skip => exact ⟨_, out, rfl, hadvance, rfl, fun _ _ => rfl⟩
  | read plog =>
    rw [hchoose] at hchoice
    obtain ⟨happ, hmodule, hroom⟩ := hchoice
    have hkeep : ∀ log p, p ≠ c → (t.setLog c log).sLogListSpec p = t.sLogListSpec p :=
      fun log p hp => Function.update_of_ne hp _ _
    dsimp only
    rw [if_neg (not_or.mpr ⟨happ, hmodule⟩)]
    cases hanswer : env.readAppLogToBuf c with
    | refused => exact absurd hanswer hroom
    | noApp => exact ⟨_, _, rfl, hadvance, rfl, hkeep _⟩
    | taken => exact ⟨_, _, rfl, hadvance, rfl, hkeep _⟩

theorem readSpecLoop_goes_on (fuel : Nat) (out : List LogSpec.LogInfo)
    (hk : k < MTLOG_LOG_SPECIAL_COUNT)
    (hs : s.iLogSpecialReadIdx = (a % MTLOG_LOG_SPECIAL_COUNT : Nat))
    (h : ∀ j < k, (a + j) % MTLOG_LOG_SPECIAL_COUNT ≠ s.iLogSpecialWriteIdx ∧
      SpecLogGoesOn env stLogConfig ((a + j) % MTLOG_LOG_SPECIAL_COUNT)
        (s.sLogListSpec ((a + j) % MTLOG_LOG_SPECIAL_COUNT))) :
    ∃ t out', readSpecLoop env stLogConfig (fuel + k) s out =
        readSpecLoop env stLogConfig fuel t out' ∧
      t.iLogSpecialReadIdx = ((a + k) % MTLOG_LOG_SPECIAL_COUNT : Nat) ∧
      t.iLogSpecialWriteIdx = s.iLogSpecialWriteIdx ∧
      ∀ j, k ≤ j → j < MTLOG_LOG_SPECIAL_COUNT →
        t.sLogListSpec ((a + j) % MTLOG_LOG_SPECIAL_COUNT) =
          s.sLogListSpec ((a + j) % MTLOG_LOG_SPECIAL_COUNT) := by
  induction k generalizing fuel with
  | zero => exact ⟨s, out, rfl, hs, rfl, fun _ _ _ => rfl⟩
  | succ k ih =>
    obtain ⟨t, out', hrun, hindex, hwrite, hkeep⟩ :=
      ih (fuel + 1) (Nat.lt_of_succ_lt hk) fun j hj => h j (Nat.lt_succ_of_lt hj)
    obtain ⟨hne, hgo⟩ := h k (Nat.lt_succ_self k)
    rw [← hkeep k (le_refl k) (Nat.lt_of_succ_lt hk)] at hgo
    rw [← hwrite] at hne
    obtain ⟨t', out'', hstep, hindex', hwrite', hkeep'⟩ :=
      readSpecLoop_step hindex hne hgo fuel out'
    have hfuel : fuel + (k + 1) = fuel + 1 + k := by omega
    refine ⟨t', out'', ?_, ?_, hwrite'.trans hwrite, ?_⟩
    · rw [hfuel, hrun, hstep]
    · rw [hindex', ringNext_mod (by decide), Nat.add_assoc]
    · intro j hj hlt
      rw [hkeep', hkeep j (Nat.le_of_succ_le hj) hlt]
      intro hsame
      have heq := ring_mod_inj (a := a + k) (b := a + j) (by omega) (by omega) hsame.symm
      omega

/-- How the loop ends. -/
theorem readSpecLoop_ends (ht : t.iLogSpecialReadIdx = (c : Int)) (fuel : Nat)
    (out : List LogSpec.LogInfo)
    (h : c = t.iLogSpecialWriteIdx ∨ ¬ SpecLogGoesOn env stLogConfig c (t.sLogListSpec c)) :
    ∃ e t', readSpecLoop env stLogConfig (fuel + 1) t out = some (e, t', out) ∧
      t'.iLogSpecialWriteIdx = t.iLogSpecialWriteIdx ∧
      (¬ (c ≠ t.iLogSpecialWriteIdx ∧ (t.sLogListSpec c).dwLogSeq = 0 ∧
        specPasses env.now (t.sLogListSpec c).qwLogTime) → t'.iLogSpecialReadIdx = (c : Int)) ∧
      (c ≠ t.iLogSpecialWriteIdx → (t.sLogListSpec c).dwLogSeq = 0 →
        specPasses env.now (t.sLogListSpec c).qwLogTime →
        t'.iLogSpecialReadIdx = (ringNext MTLOG_LOG_SPECIAL_COUNT c : Nat)) := by
  have hcell : t.iLogSpecialReadIdx.toNat = c := by
    rw [ht]
    rfl
  rw [readSpecLoop]
  by_cases hwrite : c = t.iLogSpecialWriteIdx
  · rw [if_neg fun hgo => hgo.2 (ht.trans (Int.ofNat_inj.mpr hwrite))]
    exact ⟨_, t, rfl, rfl, fun _ => ht, fun hne => absurd hwrite hne⟩
  · have hwait : 0 ≤ t.iLogSpecialReadIdx ∧ t.iLogSpecialReadIdx ≠ t.iLogSpecialWriteIdx := by
      rw [ht]
      exact ⟨Int.natCast_nonneg _, Int.ofNat_inj.not.mpr hwrite⟩
    rw [if_pos hwait]
    dsimp only
    rw [hcell]
    by_cases hseq : (t.sLogListSpec c).dwLogSeq = 0
    · rw [if_pos hseq]
      by_cases hpass : specPasses env.now (t.sLogListSpec c).qwLogTime
      · have htest : ((t.sLogListSpec c).qwLogTime / 1000000 + 5) % 2 ^ 32 ≤ env.now % 2 ^ 32 :=
          hpass
        have hadvance : (LogSpec.advanceRead t).iLogSpecialReadIdx =
            (ringNext MTLOG_LOG_SPECIAL_COUNT c : Nat) := by
          rw [← hcell]
          rfl
        rw [if_pos htest]
        exact ⟨_, _, rfl, rfl, fun hno => absurd ⟨hwrite, hseq, hpass⟩ hno,
          fun _ _ _ => hadvance⟩
      · have htest : ¬ ((t.sLogListSpec c).qwLogTime / 1000000 + 5) % 2 ^ 32 ≤ env.now % 2 ^ 32 :=
          hpass
        rw [if_neg htest]
        exact ⟨_, t, rfl, rfl, fun _ => ht, fun _ _ h => absurd h hpass⟩
    · rw [if_neg hseq]
      have hno : ¬ SpecLogGoesOn env stLogConfig c (t.sLogListSpec c) := by
        rcases h with h | h
        · exact absurd h hwrite
        · exact h
      cases hchoose : LogSpec.chooseSpec env.qwCurTime stLogConfig (t.sLogListSpec c) with
      | wait => exact ⟨_, t, rfl, rfl, fun _ => ht, fun _ h => absurd h hseq⟩
      | skip =>
        refine absurd ⟨hseq, ?_⟩ hno
        rw [hchoose]
        trivial
      | read plog =>
        dsimp only
        by_cases hzero : plog.iAppId = 0 ∨ plog.iModuleId = 0
        · rw [if_pos hzero]
          exact ⟨_, _, rfl, rfl, fun _ => ht, fun _ h => absurd h hseq⟩
        · rw [if_neg hzero]
          have hgo : env.readAppLogToBuf c ≠ .refused →
              SpecLogGoesOn env stLogConfig c (t.sLogListSpec c) := by
            intro hroom
            refine ⟨hseq, ?_⟩
            rw [hchoose]
            exact ⟨fun h => hzero (Or.inl h), fun h => hzero (Or.inr h), hroom⟩
          cases hanswer : env.readAppLogToBuf c with
          | refused => exact ⟨_, _, rfl, rfl, fun _ => ht, fun _ h => absurd h hseq⟩
          | noApp => exact absurd (hgo (by rw [hanswer]; exact fun h => by cases h)) hno
          | taken => exact absurd (hgo (by rw [hanswer]; exact fun h => by cases h)) hno

theorem readSpecLog_of_loop {e : LogSpec.SpecEnd} {s' : SpecShm} {out : List LogSpec.LogInfo}
    (hloop : readSpecLoop env stLogConfig (MTLOG_LOG_SPECIAL_COUNT + 1) s [] = some (e, s', out)) :
    ∃ s'', readSpecLog env stLogConfig s = some (e, s'', out) ∧
      s''.iLogSpecialWriteIdx = s'.iLogSpecialWriteIdx ∧
      (s''.iLogSpecialReadIdx = s'.iLogSpecialReadIdx ∨
        s''.iLogSpecialReadIdx = -1 ∧ s'.iLogSpecialReadIdx = s'.iLogSpecialWriteIdx) := by
  rw [readSpecLog, hloop, Option.map_some]
  dsimp only
  by_cases hreturn : e = .refused ∨ e = .aborted
  · rw [if_pos hreturn]
    exact ⟨s', rfl, rfl, Or.inl rfl⟩
  · rw [if_neg hreturn]
    by_cases hempty : s'.iLogSpecialReadIdx = s'.iLogSpecialWriteIdx
    · rw [if_pos hempty]
      exact ⟨_, rfl, rfl, Or.inr ⟨rfl, hempty⟩⟩
    · rw [if_neg hempty]
      exact ⟨s', rfl, rfl, Or.inl rfl⟩

/-- The cell at an offset from the read index. -/
def specCellAt (s : SpecShm) (k : Nat) : Nat :=
  (s.iLogSpecialReadIdx.toNat + k) % MTLOG_LOG_SPECIAL_COUNT

/-- A call that finds records in the special buffer scans them. -/
theorem readSpecLog_scan (hw : s.iLogSpecialWriteIdx < MTLOG_LOG_SPECIAL_COUNT)
    (hs : s.iLogSpecialReadIdx < MTLOG_LOG_SPECIAL_COUNT) (hpos : 0 ≤ s.iLogSpecialReadIdx) :
    ∃ k e s' out, StopsAt MTLOG_LOG_SPECIAL_COUNT s.iLogSpecialReadIdx.toNat s.iLogSpecialWriteIdx
        (SpecGoesOn env stLogConfig s) k ∧
      readSpecLog env stLogConfig s = some (e, s', out) ∧
      s'.iLogSpecialWriteIdx = s.iLogSpecialWriteIdx ∧
      (¬ (specCellAt s k ≠ s.iLogSpecialWriteIdx ∧
          (s.sLogListSpec (specCellAt s k)).dwLogSeq = 0 ∧
          specPasses env.now (s.sLogListSpec (specCellAt s k)).qwLogTime) →
        EndsAt MTLOG_LOG_SPECIAL_COUNT s.iLogSpecialReadIdx.toNat s.iLogSpecialWriteIdx k
          s'.iLogSpecialReadIdx) ∧
      (specCellAt s k ≠ s.iLogSpecialWriteIdx → (s.sLogListSpec (specCellAt s k)).dwLogSeq = 0 →
        specPasses env.now (s.sLogListSpec (specCellAt s k)).qwLogTime →
        EndsAt MTLOG_LOG_SPECIAL_COUNT s.iLogSpecialReadIdx.toNat s.iLogSpecialWriteIdx (k + 1)
          s'.iLogSpecialReadIdx) := by
  obtain ⟨k, hk, hstop⟩ :=
    exists_stopsAt hw s.iLogSpecialReadIdx.toNat (SpecGoesOn env stLogConfig s)
  have hstart : s.iLogSpecialReadIdx =
      (s.iLogSpecialReadIdx.toNat % MTLOG_LOG_SPECIAL_COUNT : Nat) := by
    rw [Nat.mod_eq_of_lt (by omega)]
    omega
  obtain ⟨t, out, hrun, hindex, hwrite, hkeep⟩ :=
    readSpecLoop_goes_on (MTLOG_LOG_SPECIAL_COUNT - k + 1) [] hk hstart hstop.before
  have hfuel : MTLOG_LOG_SPECIAL_COUNT - k + 1 + k = MTLOG_LOG_SPECIAL_COUNT + 1 := by omega
  have hcell : t.sLogListSpec (specCellAt s k) = s.sLogListSpec (specCellAt s k) :=
    hkeep k (le_refl k) hk
  have hend : specCellAt s k = t.iLogSpecialWriteIdx ∨
      ¬ SpecLogGoesOn env stLogConfig (specCellAt s k) (t.sLogListSpec (specCellAt s k)) := by
    rw [hcell, hwrite]
    exact hstop.stop
  obtain ⟨e, s', hloop, hwrite', hkept, hpassed⟩ := readSpecLoop_ends hindex _ out hend
  rw [hfuel, hloop] at hrun
  obtain ⟨s'', hread, hwrite'', hindex'⟩ := readSpecLog_of_loop hrun
  change (¬ (specCellAt s k ≠ _ ∧ (t.sLogListSpec (specCellAt s k)).dwLogSeq = 0 ∧
    specPasses env.now (t.sLogListSpec (specCellAt s k)).qwLogTime) → _) at hkept
  change (specCellAt s k ≠ _ → (t.sLogListSpec (specCellAt s k)).dwLogSeq = 0 →
    specPasses env.now (t.sLogListSpec (specCellAt s k)).qwLogTime → _) at hpassed
  rw [hcell, hwrite] at hkept hpassed
  rw [hwrite', hwrite] at hindex'
  refine ⟨k, e, s'', out, hstop, hread, hwrite''.trans (hwrite'.trans hwrite), ?_, ?_⟩
  · intro hno
    rw [hkept hno] at hindex'
    rcases hindex' with h | ⟨h, hsame⟩
    · exact Or.inl h
    · exact Or.inr ⟨h, Int.ofNat_inj.mp hsame⟩
  · intro hne hseq hpass
    rw [hpassed hne hseq hpass, ringNext_mod (by decide), Nat.add_assoc] at hindex'
    rcases hindex' with h | ⟨h, hsame⟩
    · exact Or.inl h
    · exact Or.inr ⟨h, Int.ofNat_inj.mp hsame⟩

/-- The rule holds exactly where the comparison passes what the rule passes. -/
theorem specRule_iff (hw : s.iLogSpecialWriteIdx < MTLOG_LOG_SPECIAL_COUNT)
    (hs : s.iLogSpecialReadIdx < MTLOG_LOG_SPECIAL_COUNT) :
    SpecRule env stLogConfig s ↔ ∀ p,
      Reaches MTLOG_LOG_SPECIAL_COUNT s.iLogSpecialReadIdx s.iLogSpecialWriteIdx
        (SpecGoesOn env stLogConfig s) p →
      (s.sLogListSpec p).dwLogSeq = 0 →
      (env.now < seconds (s.sLogListSpec p).qwLogTime + 5 →
        ¬ specPasses env.now (s.sLogListSpec p).qwLogTime) ∧
      (seconds (s.sLogListSpec p).qwLogTime + 5 < env.now →
        specPasses env.now (s.sLogListSpec p).qwLogTime) := by
  by_cases hpos : 0 ≤ s.iLogSpecialReadIdx
  · obtain ⟨k, e, s', out, hstop, hread, hwrite, hkept, hpassed⟩ :=
      @readSpecLog_scan env stLogConfig s hw hs hpos
    have hiff : StallRule MTLOG_LOG_SPECIAL_COUNT s.iLogSpecialReadIdx s'.iLogSpecialReadIdx
        s.iLogSpecialWriteIdx (SpecGoesOn env stLogConfig s)
        (fun p => (s.sLogListSpec p).dwLogSeq = 0)
        (fun p => env.now < seconds (s.sLogListSpec p).qwLogTime + 5)
        (fun p => seconds (s.sLogListSpec p).qwLogTime + 5 < env.now) ↔
        ∀ p, Reaches MTLOG_LOG_SPECIAL_COUNT s.iLogSpecialReadIdx s.iLogSpecialWriteIdx
            (SpecGoesOn env stLogConfig s) p →
          (s.sLogListSpec p).dwLogSeq = 0 →
          (env.now < seconds (s.sLogListSpec p).qwLogTime + 5 →
            ¬ specPasses env.now (s.sLogListSpec p).qwLogTime) ∧
          (seconds (s.sLogListSpec p).qwLogTime + 5 < env.now →
            specPasses env.now (s.sLogListSpec p).qwLogTime) :=
      stallRule_iff hw hpos hstop (fun j hj hgo => hgo.1 hj) hkept hpassed
    constructor
    · rintro ⟨e', s'', out', hread', -, hrule⟩
      rw [hread, Option.some.injEq, Prod.mk.injEq, Prod.mk.injEq] at hread'
      rw [← hread'.2.1] at hrule
      exact hiff.mp hrule
    · intro hcond
      exact ⟨e, s', out, hread, hwrite, hiff.mpr hcond⟩
  · have hloop : readSpecLoop env stLogConfig (MTLOG_LOG_SPECIAL_COUNT + 1) s [] =
        some (.drained, s, []) := by
      rw [readSpecLoop, if_neg fun h => hpos h.1]
    obtain ⟨s', hread, hwrite, -⟩ := readSpecLog_of_loop hloop
    constructor
    · intro _ p hreach
      exact absurd hreach.1 hpos
    · intro _
      exact ⟨_, s', _, hread, hwrite, stallRule_empty (Int.not_le.mp hpos) _⟩

end Special

section Both

open LogSpec (MTLOG_LOG_SPECIAL_COUNT SpecShm)

/-- The time stamp is five seconds behind the clock, or exactly one of the two times has left the
32 bits that are compared since. -/
def RingAge (now second : Nat) : Prop :=
  now = second + 5 ∨ (now < second + 5 ∧ (second + 5) % 2 ^ 32 < now % 2 ^ 32) ∨
    (second + 5 < now ∧ now % 2 ^ 32 ≤ (second + 5) % 2 ^ 32)

/-- The two times compare as they do in their 32 bits. -/
def SpecAge (now second : Nat) : Prop :=
  now = second + 5 ∨ (now < second + 5 ∧ now % 2 ^ 32 < (second + 5) % 2 ^ 32) ∨
    (second + 5 < now ∧ (second + 5) % 2 ^ 32 ≤ now % 2 ^ 32)

theorem ringAge_iff (now qwLogTime : Nat) :
    ((now < seconds qwLogTime + 5 → ¬ ringPasses now qwLogTime) ∧
      (seconds qwLogTime + 5 < now → ringPasses now qwLogTime)) ↔
      RingAge now (seconds qwLogTime) := by
  unfold RingAge ringPasses
  omega

theorem specAge_iff (now qwLogTime : Nat) :
    ((now < seconds qwLogTime + 5 → ¬ specPasses now qwLogTime) ∧
      (seconds qwLogTime + 5 < now → specPasses now qwLogTime)) ↔
      SpecAge now (seconds qwLogTime) := by
  unfold SpecAge specPasses
  omega

/-- For every state with its indices in the arrays: both buffers keep the rule exactly when the
unfinished record that the loop of the special buffer comes to compares as its time says, and the
one that the loop of the ring comes to is five seconds old. -/
theorem abandoned_cells_iff (env : LogSpec.ReadEnv) (stLogConfig : List LogSpec.SLogConfig)
    (spec : SpecShm) (ringEnv : ReadEnv) (ring : MTLogShm)
    (hspecWrite : spec.iLogSpecialWriteIdx < MTLOG_LOG_SPECIAL_COUNT)
    (hspecRead : spec.iLogSpecialReadIdx < MTLOG_LOG_SPECIAL_COUNT)
    (hwrite : ring.iWriteIndex < MTLOG_SHM_RECORDS_COUNT)
    (hstart : ring.iLogStarIndex < MTLOG_SHM_RECORDS_COUNT) :
    (SpecRule env stLogConfig spec ∧ RingRule ringEnv ring) ↔
      (∀ p, Reaches MTLOG_LOG_SPECIAL_COUNT spec.iLogSpecialReadIdx spec.iLogSpecialWriteIdx
          (SpecGoesOn env stLogConfig spec) p →
        (spec.sLogListSpec p).dwLogSeq = 0 →
        SpecAge env.now (seconds (spec.sLogListSpec p).qwLogTime)) ∧
      (ringEnv.cas = true → ∀ p,
        Reaches MTLOG_SHM_RECORDS_COUNT ring.iLogStarIndex ring.iWriteIndex
          (RingGoesOn ringEnv ring) p →
        (ring.sLogList p).dwLogSeq = 0 →
        RingAge ringEnv.now (seconds (ring.sLogList p).qwLogTime)) := by
  rw [specRule_iff hspecWrite hspecRead, ringRule_iff hwrite hstart]
  simp only [specAge_iff, ringAge_iff]

/-- A special buffer without records. -/
def emptySpec : SpecShm := ⟨0, -1, fun _ => ⟨0, 0, 0, 0, 0, 0, 0⟩⟩

/-- A call that gets the ring, at a second. -/
def readAt (now : Nat) : ReadEnv := ⟨true, now, fun _ => true⟩

def specReadAt (now : Nat) : LogSpec.ReadEnv :=
  ⟨now, now * 1000000, fun _ => .taken, fun _ => false⟩

/-- A ring whose one record was taken at second 1700000000 and is not written. -/
def abandonedRing : MTLogShm := ⟨1, 0, fun _ => ⟨1700000000000000, 0, 1, 2, 4, 9⟩, 0⟩

theorem abandoned_cells_five :
    SpecRule (specReadAt 1700000005) [] emptySpec ∧
      RingRule (readAt 1700000005) abandonedRing := by
  refine (abandoned_cells_iff (specReadAt 1700000005) [] emptySpec (readAt 1700000005)
    abandonedRing (by decide) (by decide) (by decide) (by decide)).mpr ⟨?_, ?_⟩
  · intro p hreach
    exact absurd hreach.1 (by decide)
  · intro _ p _ _
    have hage : 1700000005 = seconds 1700000000000000 + 5 := by decide
    exact Or.inl hage

/-- The record of a ring that was taken a second ago is passed before it is written. -/
theorem young_cell_passed :
    ¬ ∀ (env : LogSpec.ReadEnv) (stLogConfig : List LogSpec.SLogConfig) (spec : SpecShm)
      (ringEnv : ReadEnv) (ring : MTLogShm),
      spec.iLogSpecialWriteIdx < MTLOG_LOG_SPECIAL_COUNT →
      spec.iLogSpecialReadIdx < MTLOG_LOG_SPECIAL_COUNT →
      ring.iWriteIndex < MTLOG_SHM_RECORDS_COUNT →
      ring.iLogStarIndex < MTLOG_SHM_RECORDS_COUNT →
      SpecRule env stLogConfig spec ∧ RingRule ringEnv ring := by
  intro hall
  have hrule := (hall (specReadAt 1700000001) [] emptySpec (readAt 1700000001) abandonedRing
    (by decide) (by decide) (by decide) (by decide)).2
  have hreach : Reaches MTLOG_SHM_RECORDS_COUNT abandonedRing.iLogStarIndex
      abandonedRing.iWriteIndex (RingGoesOn (readAt 1700000001) abandonedRing) 0 := by
    refine ⟨by decide, 0, by decide, ?_, fun j hj => absurd hj (Nat.not_lt_zero j)⟩
    intro j hj
    rw [Nat.le_zero.mp hj]
    decide
  have hcond := (ringRule_iff (by decide) (by decide)).mp hrule rfl 0 hreach rfl
  have hyoung : (readAt 1700000001).now <
      seconds (abandonedRing.sLogList 0).qwLogTime + 5 := by decide
  have hpass : ringPasses (readAt 1700000001).now (abandonedRing.sLogList 0).qwLogTime := by
    unfold ringPasses
    decide
  exact hcond.1 hyoung hpass

end Both

end XrkMonitor.LogRing
