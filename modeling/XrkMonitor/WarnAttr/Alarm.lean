import Mathlib.Algebra.Order.Group.Nat
import XrkMonitor.WarnAttr.Scan

/-!
# When an alarm is given

A value is compared with the limits of a configuration, and its change against the value before
with the wave limit. The change in percent is computed in 32 bits: the difference is taken as an
`int`, so that one of more than half the range counts as its complement, and a
hundred times it may wrap. The lost carry can only make the change smaller: an alarm
is never made up, and one is missed exactly when the wrapped value falls back to the limit.

## Implementation notes

`change` is the exact difference and `wrappedChange` what the multiplication leaves, both
as naturals. The warnings of a machine and of a view are compared by their kind and values; ids,
type flags and masks differ.
-/

namespace XrkMonitor.WarnAttr

/-- `|last - preLast|` -/
def change (dwLastVal dwPreLastVal : UInt32) : Nat :=
  dwLastVal.toNat - dwPreLastVal.toNat + (dwPreLastVal.toNat - dwLastVal.toNat)

/-- A hundred times the change, taken the short way round `2 ^ 32`, in 32 bits. -/
def wrappedChange (dwLastVal dwPreLastVal : UInt32) : Nat :=
  min (change dwLastVal dwPreLastVal) (2 ^ 32 - change dwLastVal dwPreLastVal) * 100 % 2 ^ 32

/-- A warning with the flag is given. -/
def Emits (ws : List TAttrWarnInfo) (flag : Nat) : Prop := ∃ w ∈ ws, hasFlag w.iWarnFlag flag

/-- The warnings are those of the exact comparisons. -/
structure AlarmsExact (c : TWarnConfig) (dwLastVal dwPreLastVal : UInt32)
    (ws : List TAttrWarnInfo) : Prop where
  min : Emits ws ATTR_WARN_FLAG_MIN ↔
    hasFlag c.iWarnConfigFlag ATTR_WARN_FLAG_MIN ∧ (dwLastVal.toNat : Int) < c.iWarnMin.toInt
  max : Emits ws ATTR_WARN_FLAG_MAX ↔
    hasFlag c.iWarnConfigFlag ATTR_WARN_FLAG_MAX ∧ c.iWarnMax.toInt < dwLastVal.toNat
  wave : Emits ws ATTR_WARN_FLAG_WAVE ↔
    hasFlag c.iWarnConfigFlag ATTR_WARN_FLAG_WAVE ∧ 0 < dwPreLastVal.toNat ∧
      c.iWarnWave.toInt < (change dwLastVal dwPreLastVal * 100 / dwPreLastVal.toNat : Nat)

/-- The kind of a warning, with its limit, value and time. -/
def TAttrWarnInfo.alarm (w : TAttrWarnInfo) : Nat × Int32 × UInt32 × Nat :=
  (w.iWarnFlag &&& (ATTR_WARN_FLAG_MAX ||| ATTR_WARN_FLAG_MIN ||| ATTR_WARN_FLAG_WAVE),
    w.iWarnConfigValue, w.dwWarnValue, w.dwWarnTimeSec)

/-- The check of a view that holds the two values, and of every machine that reports them, are exact
and agree. -/
def AlarmsRight (c : TWarnConfig) (dwLastVal dwPreLastVal : UInt32) : Prop :=
  ∀ now,
    let view := checkViewWarn { c with
      dwReserved1 := dwPreLastVal
      dwReserved2 := dwLastVal } now
    AlarmsExact c dwLastVal dwPreLastVal view ∧
      ∀ bWarnFlag node iDayMinIdx,
        adaptReportValue node.toTWarnAttrReportInfo now iDayMinIdx = (dwLastVal, dwPreLastVal) →
        AlarmsExact c dwLastVal dwPreLastVal (checkMachineWarn bWarnFlag c node now iDayMinIdx) ∧
          (checkMachineWarn bWarnFlag c node now iDayMinIdx).map TAttrWarnInfo.alarm =
            view.map TAttrWarnInfo.alarm

/-- The exact change stays within the limit, or what is left of it after wrapping still is beyond
it and an `int`. -/
def WaveFits (c : TWarnConfig) (dwLastVal dwPreLastVal : UInt32) : Prop :=
  hasFlag c.iWarnConfigFlag ATTR_WARN_FLAG_WAVE → 0 < dwPreLastVal.toNat →
    (change dwLastVal dwPreLastVal * 100 : Int) < (c.iWarnWave.toInt + 1) * dwPreLastVal.toNat ∨
      (c.iWarnWave.toInt + 1) * dwPreLastVal.toNat ≤ wrappedChange dwLastVal dwPreLastVal ∧
        wrappedChange dwLastVal dwPreLastVal < 2 ^ 31 * dwPreLastVal.toNat

section Wave

variable {dwLastVal dwPreLastVal : UInt32}

theorem toNat_abs_sub (dwLastVal dwPreLastVal : UInt32) :
    (dwLastVal - dwPreLastVal).toInt32.abs.toUInt32.toNat =
      min (change dwLastVal dwPreLastVal) (2 ^ 32 - change dwLastVal dwPreLastVal) := by
  have habs := BitVec.toNat_abs (x := (dwLastVal - dwPreLastVal).toBitVec)
  change (dwLastVal - dwPreLastVal).toBitVec.abs.toNat = _
  have hsub : (dwLastVal - dwPreLastVal).toBitVec.toNat =
      (2 ^ 32 - dwPreLastVal.toNat + dwLastVal.toNat) % 2 ^ 32 := UInt32.toNat_sub _ _
  rw [habs, BitVec.msb_eq_decide, hsub, change]
  have hlast := dwLastVal.toNat_lt
  have hpre := dwPreLastVal.toNat_lt
  simp only [decide_eq_true_eq]
  split <;> omega

theorem toNat_hundred (x : Int32) :
    (x * 100).toUInt32.toNat = x.toUInt32.toNat * 100 % 2 ^ 32 :=
  BitVec.toNat_mul x.toBitVec 100#32

theorem waveOf_toInt (dwLastVal dwPreLastVal : UInt32) :
    (waveOf dwLastVal dwPreLastVal).toInt =
      if 2 * (wrappedChange dwLastVal dwPreLastVal / dwPreLastVal.toNat) < 2 ^ 32 then
        ((wrappedChange dwLastVal dwPreLastVal / dwPreLastVal.toNat : Nat) : Int)
      else (wrappedChange dwLastVal dwPreLastVal / dwPreLastVal.toNat : Nat) - (2 ^ 32 : Nat) := by
  have hcond := BitVec.toInt_eq_toNat_cond (waveOf dwLastVal dwPreLastVal).toBitVec
  have hquot : (waveOf dwLastVal dwPreLastVal).toBitVec.toNat =
      wrappedChange dwLastVal dwPreLastVal / dwPreLastVal.toNat := by
    change (((dwLastVal - dwPreLastVal).toInt32.abs * 100).toUInt32 / dwPreLastVal).toNat = _
    rw [UInt32.toNat_div, toNat_hundred, toNat_abs_sub, wrappedChange]
  rw [hquot] at hcond
  exact hcond

theorem wrappedChange_le (dwLastVal dwPreLastVal : UInt32) :
    wrappedChange dwLastVal dwPreLastVal ≤ change dwLastVal dwPreLastVal * 100 := by
  refine (Nat.mod_le _ _).trans (Nat.mul_le_mul_right 100 ?_)
  exact Nat.min_le_left _ _

/-- The alarm of the code and the exact alarm are the same exactly when the condition holds. -/
theorem wave_iff {iWarnWave : Int32} (hwave : 0 ≤ iWarnWave.toInt)
    (hpre : 0 < dwPreLastVal.toNat) :
    (iWarnWave < waveOf dwLastVal dwPreLastVal ↔
        iWarnWave.toInt < (change dwLastVal dwPreLastVal * 100 / dwPreLastVal.toNat : Nat)) ↔
      (change dwLastVal dwPreLastVal * 100 : Int) < (iWarnWave.toInt + 1) * dwPreLastVal.toNat ∨
        (iWarnWave.toInt + 1) * dwPreLastVal.toNat ≤ wrappedChange dwLastVal dwPreLastVal ∧
          wrappedChange dwLastVal dwPreLastVal < 2 ^ 31 * dwPreLastVal.toNat := by
  obtain ⟨k, hk⟩ := Int.eq_ofNat_of_zero_le hwave
  have hexact : k < change dwLastVal dwPreLastVal * 100 / dwPreLastVal.toNat ↔
      (k + 1) * dwPreLastVal.toNat ≤ change dwLastVal dwPreLastVal * 100 :=
    Nat.le_div_iff_mul_le hpre
  have hcode : k < wrappedChange dwLastVal dwPreLastVal / dwPreLastVal.toNat ↔
      (k + 1) * dwPreLastVal.toNat ≤ wrappedChange dwLastVal dwPreLastVal :=
    Nat.le_div_iff_mul_le hpre
  have hint : wrappedChange dwLastVal dwPreLastVal / dwPreLastVal.toNat < 2 ^ 31 ↔
      wrappedChange dwLastVal dwPreLastVal < 2 ^ 31 * dwPreLastVal.toNat :=
    Nat.div_lt_iff_lt_mul hpre
  have hle := wrappedChange_le dwLastVal dwPreLastVal
  have hcast : (iWarnWave.toInt + 1) * dwPreLastVal.toNat = ((k + 1) * dwPreLastVal.toNat : Nat) := by
    rw [hk, Int.natCast_mul, Int.natCast_add]
    rfl
  rw [Int32.lt_iff_toInt_lt, waveOf_toInt, hcast, hk]
  have hlt : wrappedChange dwLastVal dwPreLastVal / dwPreLastVal.toNat < 2 ^ 32 :=
    Nat.lt_of_le_of_lt (Nat.div_le_self _ _) (Nat.mod_lt _ (Nat.two_pow_pos 32))
  generalize wrappedChange dwLastVal dwPreLastVal / dwPreLastVal.toNat = q at *
  generalize change dwLastVal dwPreLastVal * 100 / dwPreLastVal.toNat = e at *
  generalize (k + 1) * dwPreLastVal.toNat = least at *
  split <;> omega

theorem waveFits_of_lt (c : TWarnConfig)
    (h : change dwLastVal dwPreLastVal * 100 < 2 ^ 31) : WaveFits c dwLastVal dwPreLastVal := by
  intro _ hpre
  have hwrapped : wrappedChange dwLastVal dwPreLastVal = change dwLastVal dwPreLastVal * 100 := by
    rw [wrappedChange]
    omega
  rw [hwrapped]
  by_cases hlt : (change dwLastVal dwPreLastVal * 100 : Int) <
      (c.iWarnWave.toInt + 1) * dwPreLastVal.toNat
  · exact Or.inl hlt
  · exact Or.inr ⟨Int.not_lt.mp hlt, by omega⟩

end Wave

section Checks

variable {c : TWarnConfig} {dwLastVal dwPreLastVal : UInt32} {typeFlag : Nat}

theorem emits_append (ws ws' : List TAttrWarnInfo) (flag : Nat) :
    Emits (ws ++ ws') flag ↔ Emits ws flag ∨ Emits ws' flag := by
  simp only [Emits, List.mem_append, or_and_right, exists_or]

theorem emits_ite (p : Prop) [Decidable p] (w : TAttrWarnInfo) (flag : Nat) :
    Emits (if p then [w] else []) flag ↔ p ∧ hasFlag w.iWarnFlag flag := by
  by_cases hp : p
  · simp [Emits, hp]
  · simp [Emits, hp]

theorem hasFlag_maskFlag (htype : typeFlag = ATTR_WARN_FLAG_TYPE_MACHINE ∨
      typeFlag = ATTR_WARN_FLAG_TYPE_VIEW) (masked : Bool) {kind flag : Nat}
    (hkind : kind ∈ [ATTR_WARN_FLAG_MAX, ATTR_WARN_FLAG_MIN, ATTR_WARN_FLAG_WAVE])
    (hflag : flag ∈ [ATTR_WARN_FLAG_MAX, ATTR_WARN_FLAG_MIN, ATTR_WARN_FLAG_WAVE]) :
    hasFlag (maskFlag (kind ||| typeFlag) masked) flag = decide (kind = flag) ∧
      maskFlag (kind ||| typeFlag) masked &&&
        (ATTR_WARN_FLAG_MAX ||| ATTR_WARN_FLAG_MIN ||| ATTR_WARN_FLAG_WAVE) = kind := by
  simp only [List.mem_cons, List.not_mem_nil, or_false] at hkind hflag
  rcases hkind with rfl | rfl | rfl <;> rcases hflag with rfl | rfl | rfl <;>
    rcases htype with rfl | rfl <;> cases masked <;> exact ⟨rfl, rfl⟩

theorem toNat_toUInt32 {x : Int32} (h : 0 ≤ x.toInt) : (x.toUInt32.toNat : Int) = x.toInt := by
  have hcond : x.toInt = _ := BitVec.toInt_eq_toNat_cond x.toBitVec
  have hnat : x.toBitVec.toNat = x.toUInt32.toNat := rfl
  have hlt := x.toUInt32.toNat_lt
  rw [hnat] at hcond
  split at hcond <;> omega

variable (masked : Bool) (iWarnId iAttrId : Int) (now : Nat)

theorem emits_checkValues (htype : typeFlag = ATTR_WARN_FLAG_TYPE_MACHINE ∨
      typeFlag = ATTR_WARN_FLAG_TYPE_VIEW) {flag : Nat}
    (hflag : flag ∈ [ATTR_WARN_FLAG_MAX, ATTR_WARN_FLAG_MIN, ATTR_WARN_FLAG_WAVE]) :
    Emits (checkValues c typeFlag masked iWarnId iAttrId dwLastVal dwPreLastVal now) flag ↔
      hasFlag c.iWarnConfigFlag flag ∧
        ((flag = ATTR_WARN_FLAG_MIN ∧ dwLastVal < c.iWarnMin.toUInt32) ∨
          (flag = ATTR_WARN_FLAG_MAX ∧ c.iWarnMax.toUInt32 < dwLastVal) ∨
          (flag = ATTR_WARN_FLAG_WAVE ∧ 0 < dwPreLastVal ∧
            c.iWarnWave < waveOf dwLastVal dwPreLastVal)) := by
  have hkind := fun kind hk => (@hasFlag_maskFlag typeFlag htype masked kind flag hk hflag).1
  simp only [checkValues, emits_append, emits_ite, hkind ATTR_WARN_FLAG_MIN (by decide),
    hkind ATTR_WARN_FLAG_MAX (by decide), hkind ATTR_WARN_FLAG_WAVE (by decide),
    decide_eq_true_eq]
  constructor
  · rintro ((⟨⟨hset, h⟩, rfl⟩ | ⟨⟨hset, h⟩, rfl⟩) | ⟨⟨hset, h⟩, rfl⟩)
    · exact ⟨hset, Or.inl ⟨rfl, h⟩⟩
    · exact ⟨hset, Or.inr (Or.inl ⟨rfl, h⟩)⟩
    · exact ⟨hset, Or.inr (Or.inr ⟨rfl, h⟩)⟩
  · rintro ⟨hset, ⟨rfl, h⟩ | ⟨rfl, h⟩ | ⟨rfl, h⟩⟩
    · exact Or.inl (Or.inl ⟨⟨hset, h⟩, rfl⟩)
    · exact Or.inl (Or.inr ⟨⟨hset, h⟩, rfl⟩)
    · exact Or.inr ⟨⟨hset, h⟩, rfl⟩

/-- The checks of the values are exact exactly when the wave check is. -/
theorem alarmsExact_iff (htype : typeFlag = ATTR_WARN_FLAG_TYPE_MACHINE ∨
      typeFlag = ATTR_WARN_FLAG_TYPE_VIEW)
    (hmin : 0 ≤ c.iWarnMin.toInt) (hmax : 0 ≤ c.iWarnMax.toInt) (hwave : 0 ≤ c.iWarnWave.toInt) :
    AlarmsExact c dwLastVal dwPreLastVal
        (checkValues c typeFlag masked iWarnId iAttrId dwLastVal dwPreLastVal now) ↔
      WaveFits c dwLastVal dwPreLastVal := by
  have hemits := fun flag hflag => @emits_checkValues c dwLastVal dwPreLastVal typeFlag masked
    iWarnId iAttrId now htype flag hflag
  have hzero : 0 < dwPreLastVal ↔ 0 < dwPreLastVal.toNat := UInt32.lt_iff_toNat_lt
  have hmin' := toNat_toUInt32 hmin
  have hmax' := toNat_toUInt32 hmax
  have hwaveEmits : Emits (checkValues c typeFlag masked iWarnId iAttrId dwLastVal dwPreLastVal now)
        ATTR_WARN_FLAG_WAVE ↔ hasFlag c.iWarnConfigFlag ATTR_WARN_FLAG_WAVE ∧
      0 < dwPreLastVal.toNat ∧ c.iWarnWave < waveOf dwLastVal dwPreLastVal := by
    rw [hemits ATTR_WARN_FLAG_WAVE (by decide), ← hzero]
    simp [ATTR_WARN_FLAG_WAVE, ATTR_WARN_FLAG_MIN, ATTR_WARN_FLAG_MAX]
  constructor
  · intro h hset hpre
    refine (wave_iff hwave hpre).mp ?_
    have hexact := hwaveEmits.symm.trans h.wave
    constructor
    · intro hcode
      exact (hexact.mp ⟨hset, hpre, hcode⟩).2.2
    · intro hspec
      exact (hexact.mpr ⟨hset, hpre, hspec⟩).2.2
  · intro hfits
    refine ⟨?_, ?_, ?_⟩
    · have hbelow : dwLastVal < c.iWarnMin.toUInt32 ↔
          (dwLastVal.toNat : Int) < c.iWarnMin.toInt := by
        rw [UInt32.lt_iff_toNat_lt]
        omega
      rw [hemits ATTR_WARN_FLAG_MIN (by decide), ← hbelow]
      simp [ATTR_WARN_FLAG_WAVE, ATTR_WARN_FLAG_MIN, ATTR_WARN_FLAG_MAX]
    · have habove : c.iWarnMax.toUInt32 < dwLastVal ↔ c.iWarnMax.toInt < dwLastVal.toNat := by
        rw [UInt32.lt_iff_toNat_lt]
        omega
      rw [hemits ATTR_WARN_FLAG_MAX (by decide), ← habove]
      simp [ATTR_WARN_FLAG_WAVE, ATTR_WARN_FLAG_MIN, ATTR_WARN_FLAG_MAX]
    · rw [hwaveEmits]
      refine and_congr_right ?_
      intro hset
      refine and_congr_right ?_
      intro hpre
      exact (wave_iff hwave hpre).mpr (hfits hset hpre)

theorem map_alarm_checkValues {typeFlag' : Nat} (htype : typeFlag = ATTR_WARN_FLAG_TYPE_MACHINE ∨
      typeFlag = ATTR_WARN_FLAG_TYPE_VIEW)
    (htype' : typeFlag' = ATTR_WARN_FLAG_TYPE_MACHINE ∨ typeFlag' = ATTR_WARN_FLAG_TYPE_VIEW)
    (masked' : Bool) (iWarnId' iAttrId' : Int) :
    (checkValues c typeFlag masked iWarnId iAttrId dwLastVal dwPreLastVal now).map
        TAttrWarnInfo.alarm =
      (checkValues c typeFlag' masked' iWarnId' iAttrId' dwLastVal dwPreLastVal now).map
        TAttrWarnInfo.alarm := by
  have hkind := fun kind hk => (@hasFlag_maskFlag typeFlag htype masked kind kind hk hk).2
  have hkind' := fun kind hk => (@hasFlag_maskFlag typeFlag' htype' masked' kind kind hk hk).2
  simp only [checkValues, List.map_append, apply_ite (List.map TAttrWarnInfo.alarm), List.map_cons,
    List.map_nil, TAttrWarnInfo.alarm, hkind ATTR_WARN_FLAG_MIN (by decide),
    hkind ATTR_WARN_FLAG_MAX (by decide), hkind ATTR_WARN_FLAG_WAVE (by decide),
    hkind' ATTR_WARN_FLAG_MIN (by decide), hkind' ATTR_WARN_FLAG_MAX (by decide),
    hkind' ATTR_WARN_FLAG_WAVE (by decide)]

/-- For every configuration with limits from `0` on and every two values: the checks of views and
machines are exact and agree exactly when the wave check does not lose an alarm to the wrapping. -/
theorem alarmsRight_iff (hmin : 0 ≤ c.iWarnMin.toInt) (hmax : 0 ≤ c.iWarnMax.toInt)
    (hwave : 0 ≤ c.iWarnWave.toInt) :
    AlarmsRight c dwLastVal dwPreLastVal ↔ WaveFits c dwLastVal dwPreLastVal := by
  constructor
  · intro h
    exact (alarmsExact_iff _ c.iWarnId c.iAttrId 0 (Or.inr rfl) hmin hmax hwave).mp (h 0).1
  · intro hfits now
    refine ⟨(alarmsExact_iff _ _ _ now (Or.inr rfl) hmin hmax hwave).mpr hfits, ?_⟩
    intro bWarnFlag node iDayMinIdx hvalues
    rw [checkMachineWarn, hvalues]
    exact ⟨(alarmsExact_iff _ _ _ now (Or.inl rfl) hmin hmax hwave).mpr hfits,
      map_alarm_checkValues _ _ _ _ (Or.inl rfl) (Or.inr rfl) _ _ _⟩

end Checks

/-- A wave limit of 300 percent. -/
def waveConfig : TWarnConfig where
  iWarnId := 7
  iAttrId := 3
  iWarnMax := 1000
  iWarnMin := 10
  iWarnWave := 300
  iWarnConfigFlag := ATTR_WARN_FLAG_MAX ||| ATTR_WARN_FLAG_MIN ||| ATTR_WARN_FLAG_WAVE
  iWarnConfigId := 1
  dwReserved1 := 0
  dwReserved2 := 0
  dwReserved3 := 0

theorem alarmsRight_small : AlarmsRight waveConfig 500 100 :=
  (alarmsRight_iff (by decide) (by decide) (by decide)).mpr (waveFits_of_lt _ (by decide))

/-- A counter that goes from 1 to its end: the change counts as 200 percent. -/
theorem wave_missed :
    ¬ AlarmsRight waveConfig 4294967295 1 ∧ waveOf 4294967295 1 = 200 ∧
      change 4294967295 1 * 100 / 1 = 429496729400 := by
  refine ⟨?_, by decide, by decide⟩
  intro h
  have hemits := (h 0).1.wave.mpr (by decide)
  have hwave := (emits_checkValues _ _ _ _ (Or.inr rfl) (by decide)).mp hemits
  exact absurd hwave (by decide)

end XrkMonitor.WarnAttr
