import XrkMonitor.Library.TokenBucket
import Mathlib.Algebra.Order.Floor.Div
import Mathlib.GroupTheory.GroupAction.Ring

/-!
# The frequency control of the log files

`TokenBucket_Gen` adds the tokens of the time that has passed and carries the rest of a token in
`qwLastCalcDelta`; `TokenBucket_Get` takes tokens out. While the clock does not go back and every
`TokenBucket_Get` follows a `TokenBucket_Gen` of the same time, no interval grants more than a full
bucket and what the frequency gives for its length.

## Implementation notes

The clock is read in microseconds, as `TV2US` gives it. All fields have the width that they have in
the source; the sum of the signed count and the unsigned tokens is taken in unsigned arithmetic, as
the conversions of the language have it.
-/

namespace XrkMonitor.ServerLog

open Library

section Functions

/-- The fields of `TokenBucket`. -/
structure TokenBucket where
  dwFreqPerSec : UInt32
  dwBucketSize : UInt32
  llTokenCount : Int64
  qwLastGenTime : UInt64
  qwLastCalcDelta : UInt64
deriving DecidableEq

/-- `TokenBucket_Init` when the clock reads `qwNow`. -/
def tokenBucketInit (dwFreqPerSec dwBucketSize : UInt32) (qwNow : UInt64) : TokenBucket where
  dwFreqPerSec := dwFreqPerSec
  dwBucketSize := dwBucketSize
  llTokenCount := dwBucketSize.toUInt64.toInt64
  qwLastGenTime := qwNow
  qwLastCalcDelta := 0

/-- The millionth parts of a token that `TokenBucket_Gen` shares out. -/
def TokenBucket.produced (tb : TokenBucket) (qwNow : UInt64) : UInt64 :=
  tb.dwFreqPerSec.toUInt64 * (qwNow - tb.qwLastGenTime) + tb.qwLastCalcDelta

/-- `TokenBucket_Gen` when the clock reads `qwNow`. -/
def tokenBucketGen (tb : TokenBucket) (qwNow : UInt64) : Int × TokenBucket :=
  if qwNow < tb.qwLastGenTime then (-1, { tb with qwLastGenTime := qwNow })
  else
    let qwNewTokens := tb.produced qwNow / 1000000
    let qwCalcDelta := tb.produced qwNow % 1000000
    let tb' := { tb with qwLastGenTime := qwNow, qwLastCalcDelta := qwCalcDelta }
    let llNewTokenCount := (tb.llTokenCount.toUInt64 + qwNewTokens).toInt64
    if llNewTokenCount < tb.llTokenCount then
      (-1, { tb' with llTokenCount := tb.dwBucketSize.toUInt64.toInt64 })
    else if tb.dwBucketSize.toUInt64.toInt64 < llNewTokenCount then
      (0, { tb' with llTokenCount := tb.dwBucketSize.toUInt64.toInt64 })
    else (0, { tb' with llTokenCount := llNewTokenCount })

/-- `TokenBucket_Get`. -/
def tokenBucketGet (tb : TokenBucket) (dwNeedTokens : UInt32) : Int × TokenBucket :=
  if tb.llTokenCount < dwNeedTokens.toUInt64.toInt64 then (-1, tb)
  else (0, { tb with llTokenCount := tb.llTokenCount - dwNeedTokens.toUInt64.toInt64 })

/-- A call, with the time at which it is made. -/
inductive BucketCall where
  | gen (qwNow : UInt64)
  | get (qwNow : UInt64) (dwNeedTokens : UInt32)

/-- The bucket after a call. -/
def TokenBucket.step (tb : TokenBucket) : BucketCall → TokenBucket
  | .gen qwNow => (tokenBucketGen tb qwNow).2
  | .get _ dwNeedTokens => (tokenBucketGet tb dwNeedTokens).2

/-- The tokens that a call grants between two times. -/
def granted (t₁ t₂ : UInt64) (tb : TokenBucket) : BucketCall → Nat
  | .gen _ => 0
  | .get qwNow dwNeedTokens =>
    if t₁ ≤ qwNow ∧ qwNow ≤ t₂ ∧ (tokenBucketGet tb dwNeedTokens).1 = 0
    then dwNeedTokens.toNat else 0

/-- The clock does not go back from `qwNow`, and every `TokenBucket_Get` directly follows a
`TokenBucket_Gen` of the same time; `fresh` tells that the call before was one at `qwNow`. -/
def Paced (qwNow : UInt64) (fresh : Bool) : List BucketCall → Prop
  | [] => True
  | .gen qwNext :: calls => qwNow ≤ qwNext ∧ Paced qwNext true calls
  | .get qwNext _ :: calls => fresh = true ∧ qwNext = qwNow ∧ Paced qwNow false calls

end Functions

section Counts

variable {tb : TokenBucket} {qwNow : UInt64}

/-- The count is one of a bucket, and the carried rest is less than a token. -/
structure TokenBucket.Metered (tb : TokenBucket) : Prop where
  nonneg : 0 ≤ tb.llTokenCount.toInt
  le_size : tb.llTokenCount.toInt ≤ tb.dwBucketSize.toNat
  delta_lt : tb.qwLastCalcDelta.toNat < 1000000

/-- The bucket in whole tokens and millionth parts of a token. -/
def TokenBucket.level (tb : TokenBucket) : Bucket where
  whole := tb.llTokenCount.toInt.toNat
  part := tb.qwLastCalcDelta.toNat

/-- The frequency times the time that has passed: the millionth parts that flow into the bucket. -/
def TokenBucket.inflow (tb : TokenBucket) (qwNow : UInt64) : Nat :=
  tb.dwFreqPerSec.toNat * (qwNow.toNat - tb.qwLastGenTime.toNat)

theorem toInt_toInt64_of_lt {x : UInt64} (h : x.toNat < 2 ^ 63) : x.toInt64.toInt = x.toNat := by
  have hbmod : x.toInt64.toInt = (x.toNat : Int).bmod (2 ^ 64) := by
    rw [← Int64.toInt_toBitVec, UInt64.toBitVec_toInt64, BitVec.toInt_eq_toNat_bmod,
      UInt64.toNat_toBitVec]
  rw [hbmod]
  exact Int.bmod_eq_of_le (by omega) (by omega)

@[simp]
theorem toInt_word (dw : UInt32) : dw.toUInt64.toInt64.toInt = dw.toNat := by
  have hlt := dw.toNat_lt
  have hword : dw.toUInt64.toNat = dw.toNat := UInt32.toNat_toUInt64 dw
  rw [toInt_toInt64_of_lt (by omega), hword]

theorem toNat_produced (h : tb.qwLastGenTime ≤ qwNow) :
    (tb.produced qwNow).toNat = (tb.inflow qwNow + tb.qwLastCalcDelta.toNat) % 2 ^ 64 := by
  unfold TokenBucket.produced TokenBucket.inflow
  rw [UInt64.toNat_add, UInt64.toNat_mul, UInt64.toNat_sub_of_le _ _ h, UInt32.toNat_toUInt64,
    Nat.mod_add_mod]

theorem toNat_toUInt64_of_nonneg {x : Int64} (h : 0 ≤ x.toInt) :
    (x.toUInt64.toNat : Int) = x.toInt := by
  have hbmod : x.toInt = (x.toUInt64.toNat : Int).bmod (2 ^ 64) := by
    rw [← Int64.toInt_toBitVec, BitVec.toInt_eq_toNat_bmod]
    rfl
  have hlt := x.toUInt64.toNat_lt
  by_cases hhalf : x.toUInt64.toNat < 2 ^ 63
  · rw [hbmod, Int.bmod_eq_of_le (by omega) (by omega)]
  · have hneg : (x.toUInt64.toNat : Int).bmod (2 ^ 64) =
        x.toUInt64.toNat - ((2 ^ 64 : Nat) : Int) := by
      rw [← Int.sub_bmod_right, Int.bmod_eq_of_le (by omega) (by omega)]
    omega

theorem toInt_newTokenCount (h : tb.Metered) (qwNow : UInt64) :
    (tb.llTokenCount.toUInt64 + tb.produced qwNow / 1000000).toInt64.toInt =
      tb.llTokenCount.toInt + (tb.produced qwNow).toNat / 1000000 := by
  have hcount := toNat_toUInt64_of_nonneg h.nonneg
  have hle := h.le_size
  have hsize := tb.dwBucketSize.toNat_lt
  have hproduced := (tb.produced qwNow).toNat_lt
  have hdiv : (tb.produced qwNow / 1000000).toNat = (tb.produced qwNow).toNat / 1000000 :=
    UInt64.toNat_div _ _
  have hsum : (tb.llTokenCount.toUInt64 + tb.produced qwNow / 1000000).toNat =
      tb.llTokenCount.toUInt64.toNat + (tb.produced qwNow).toNat / 1000000 := by
    rw [UInt64.toNat_add, hdiv]
    exact Nat.mod_eq_of_lt (by omega)
  rw [toInt_toInt64_of_lt (by omega), hsum]
  omega

theorem tokenBucketGen_of_le (h : tb.Metered) (hle : tb.qwLastGenTime ≤ qwNow) :
    (tokenBucketGen tb qwNow).2 =
      { tb with
        qwLastGenTime := qwNow
        qwLastCalcDelta := tb.produced qwNow % 1000000
        llTokenCount := Int64.ofNat (min tb.dwBucketSize.toNat
          (tb.level.whole + (tb.produced qwNow).toNat / 1000000)) } := by
  have hnonneg := h.nonneg
  have hsize := tb.dwBucketSize.toNat_lt
  have hnew := toInt_newTokenCount h qwNow
  have hgrows : ¬(tb.llTokenCount.toUInt64 + tb.produced qwNow / 1000000).toInt64 <
      tb.llTokenCount := by
    rw [Int64.lt_iff_toInt_lt, hnew]
    omega
  have hwhole : (tb.level.whole : Int) = tb.llTokenCount.toInt := Int.toNat_of_nonneg hnonneg
  unfold tokenBucketGen
  rw [if_neg (UInt64.not_lt.mpr hle)]
  dsimp only
  rw [if_neg hgrows]
  split
  case isTrue hover =>
      rw [Int64.lt_iff_toInt_lt, toInt_word, hnew] at hover
      dsimp only
      congr 1
      apply Int64.toInt_inj.mp
      rw [toInt_word, Int64.toInt_ofNat_of_lt (by omega)]
      omega
  case isFalse hunder =>
      rw [Int64.lt_iff_toInt_lt, toInt_word, hnew] at hunder
      dsimp only
      congr 1
      apply Int64.toInt_inj.mp
      rw [hnew, Int64.toInt_ofNat_of_lt (by omega)]
      omega

theorem level_gen (h : tb.Metered) (hle : tb.qwLastGenTime ≤ qwNow) :
    (tokenBucketGen tb qwNow).2.level =
      { whole := min tb.dwBucketSize.toNat
          (tb.level.whole + (tb.produced qwNow).toNat / 1000000)
        part := (tb.produced qwNow).toNat % 1000000 } := by
  have hsize := tb.dwBucketSize.toNat_lt
  rw [tokenBucketGen_of_le h hle]
  ext
  · simp only [TokenBucket.level]
    rw [Int64.toInt_ofNat_of_lt (by omega), Int.toNat_natCast]
  · exact UInt64.toNat_mod _ _

theorem TokenBucket.Metered.gen (h : tb.Metered) (hle : tb.qwLastGenTime ≤ qwNow) :
    (tokenBucketGen tb qwNow).2.Metered := by
  have hsize := tb.dwBucketSize.toNat_lt
  rw [tokenBucketGen_of_le h hle]
  have hcount : (Int64.ofNat (min tb.dwBucketSize.toNat
      (tb.level.whole + (tb.produced qwNow).toNat / 1000000))).toInt =
      min tb.dwBucketSize.toNat (tb.level.whole + (tb.produced qwNow).toNat / 1000000) :=
    Int64.toInt_ofNat_of_lt (by omega)
  refine ⟨?_, ?_, ?_⟩
  · rw [hcount]
    omega
  · rw [hcount]
    exact Int.ofNat_le.mpr (Nat.min_le_left _ _)
  · have hmod : (tb.produced qwNow % 1000000).toNat = (tb.produced qwNow).toNat % 1000000 :=
      UInt64.toNat_mod _ _
    rw [hmod]
    exact Nat.mod_lt _ (by decide)

theorem worth_gen_le (h : tb.Metered) (hle : tb.qwLastGenTime ≤ qwNow) :
    (tokenBucketGen tb qwNow).2.level.worth 1000000 ≤
      tb.level.worth 1000000 + tb.inflow qwNow := by
  have hproduced : (tb.produced qwNow).toNat ≤ tb.inflow qwNow + tb.qwLastCalcDelta.toNat := by
    rw [toNat_produced hle]
    exact Nat.mod_le _ _
  have hsplit : min tb.dwBucketSize.toNat (tb.level.whole + (tb.produced qwNow).toNat / 1000000) *
      1000000 + (tb.produced qwNow).toNat % 1000000 ≤
        tb.level.whole * 1000000 + (tb.produced qwNow).toNat :=
    Bucket.worth_split_le (Nat.min_le_right _ _)
  have hpart : tb.level.part = tb.qwLastCalcDelta.toNat := rfl
  rw [level_gen h hle, Bucket.worth_mk, Bucket.worth_eq, hpart]
  calc
    _ ≤ tb.level.whole * 1000000 + (tb.produced qwNow).toNat := hsplit
    _ ≤ _ := Nat.add_le_add_left hproduced _
    _ = _ := by rw [Nat.add_assoc, Nat.add_comm tb.qwLastCalcDelta.toNat]

theorem tokenBucketGet_eq (h : tb.Metered) (dwNeedTokens : UInt32) :
    (tb.level.whole < dwNeedTokens.toNat ∧ tokenBucketGet tb dwNeedTokens = (-1, tb)) ∨
    (dwNeedTokens.toNat ≤ tb.level.whole ∧ (tokenBucketGet tb dwNeedTokens).1 = 0 ∧
      (tokenBucketGet tb dwNeedTokens).2.llTokenCount.toInt =
        tb.llTokenCount.toInt - dwNeedTokens.toNat) := by
  have hnonneg := h.nonneg
  have hcount : tb.llTokenCount.toInt < dwNeedTokens.toNat ↔
      tb.llTokenCount < dwNeedTokens.toUInt64.toInt64 := by
    rw [Int64.lt_iff_toInt_lt, toInt_word]
  have hwhole : (tb.level.whole : Int) = tb.llTokenCount.toInt := Int.toNat_of_nonneg hnonneg
  by_cases hfew : tb.llTokenCount.toInt < dwNeedTokens.toNat
  · exact Or.inl ⟨by omega, if_pos (hcount.mp hfew)⟩
  · have hget : tokenBucketGet tb dwNeedTokens = (0, { tb with
        llTokenCount := tb.llTokenCount - dwNeedTokens.toUInt64.toInt64 }) :=
      if_neg fun hlt => hfew (hcount.mpr hlt)
    have hle := h.le_size
    have hsize := tb.dwBucketSize.toNat_lt
    rw [hget]
    refine Or.inr ⟨by omega, rfl, ?_⟩
    rw [Int64.toInt_sub, toInt_word]
    exact Int.bmod_eq_of_le (by omega) (by omega)

theorem TokenBucket.Metered.get (h : tb.Metered) (dwNeedTokens : UInt32) :
    (tokenBucketGet tb dwNeedTokens).2.Metered := by
  have hnonneg := h.nonneg
  have hle := h.le_size
  have hwhole : (tb.level.whole : Int) = tb.llTokenCount.toInt := Int.toNat_of_nonneg hnonneg
  have hsize : (tokenBucketGet tb dwNeedTokens).2.dwBucketSize = tb.dwBucketSize := by
    unfold tokenBucketGet
    split <;> rfl
  have hdelta : (tokenBucketGet tb dwNeedTokens).2.qwLastCalcDelta = tb.qwLastCalcDelta := by
    unfold tokenBucketGet
    split <;> rfl
  obtain ⟨-, heq⟩ | ⟨henough, -, hcount⟩ := tokenBucketGet_eq h dwNeedTokens
  · rw [heq]
    exact h
  · refine ⟨?_, ?_, ?_⟩
    · rw [hcount]
      omega
    · rw [hcount, hsize]
      omega
    · rw [hdelta]
      exact h.delta_lt

theorem worth_get (h : tb.Metered) (t₁ t₂ qwNow : UInt64) (dwNeedTokens : UInt32) :
    (tokenBucketGet tb dwNeedTokens).2.level.worth 1000000 +
      granted t₁ t₂ tb (.get qwNow dwNeedTokens) * 1000000 ≤ tb.level.worth 1000000 := by
  have hdelta : (tokenBucketGet tb dwNeedTokens).2.level.part = tb.level.part := by
    unfold tokenBucketGet
    split <;> rfl
  obtain ⟨-, heq⟩ | ⟨henough, -, hcount⟩ := tokenBucketGet_eq h dwNeedTokens
  · have hnone : granted t₁ t₂ tb (.get qwNow dwNeedTokens) = 0 :=
      if_neg fun hgrant => absurd hgrant.2.2 (by rw [heq]; exact (by decide : (-1 : Int) ≠ 0))
    rw [hnone, heq, Nat.zero_mul, Nat.add_zero]
  · have hgrant : granted t₁ t₂ tb (.get qwNow dwNeedTokens) ≤ dwNeedTokens.toNat := by
      simp only [granted]
      split
      · exact Nat.le_refl _
      · exact Nat.zero_le _
    have hwhole : (tokenBucketGet tb dwNeedTokens).2.level.whole =
        tb.level.whole - dwNeedTokens.toNat := by
      have hnonneg : (tb.level.whole : Int) = tb.llTokenCount.toInt :=
        Int.toNat_of_nonneg h.nonneg
      simp only [TokenBucket.level] at henough hnonneg ⊢
      omega
    rw [Bucket.worth_eq, Bucket.worth_eq, hdelta, hwhole]
    omega

end Counts

section Intervals

variable {tb : TokenBucket} {fresh : Bool} {t₁ t₂ : UInt64} {calls : List BucketCall}
  {qwNow : UInt64}

theorem gen_qwLastGenTime (h : tb.Metered) (hle : tb.qwLastGenTime ≤ qwNow) :
    (tokenBucketGen tb qwNow).2.qwLastGenTime = qwNow := by
  rw [tokenBucketGen_of_le h hle]

theorem gen_dwFreqPerSec (h : tb.Metered) (hle : tb.qwLastGenTime ≤ qwNow) :
    (tokenBucketGen tb qwNow).2.dwFreqPerSec = tb.dwFreqPerSec := by
  rw [tokenBucketGen_of_le h hle]

theorem gen_dwBucketSize (h : tb.Metered) (hle : tb.qwLastGenTime ≤ qwNow) :
    (tokenBucketGen tb qwNow).2.dwBucketSize = tb.dwBucketSize := by
  rw [tokenBucketGen_of_le h hle]

theorem get_fields (tb : TokenBucket) (dwNeedTokens : UInt32) :
    (tokenBucketGet tb dwNeedTokens).2.qwLastGenTime = tb.qwLastGenTime ∧
    (tokenBucketGet tb dwNeedTokens).2.dwFreqPerSec = tb.dwFreqPerSec ∧
    (tokenBucketGet tb dwNeedTokens).2.dwBucketSize = tb.dwBucketSize := by
  unfold tokenBucketGet
  split <;> exact ⟨rfl, rfl, rfl⟩

theorem Paced.run (h : tb.Metered) (hpaced : Paced tb.qwLastGenTime fresh calls) :
    (calls.foldl TokenBucket.step tb).Metered ∧
    (calls.foldl TokenBucket.step tb).dwFreqPerSec = tb.dwFreqPerSec ∧
    (calls.foldl TokenBucket.step tb).dwBucketSize = tb.dwBucketSize := by
  induction calls generalizing tb fresh with
  | nil => exact ⟨h, rfl, rfl⟩
  | cons call calls ih =>
    cases call with
    | gen qwNow =>
      obtain ⟨hle, hrest⟩ := hpaced
      rw [← gen_qwLastGenTime h hle] at hrest
      obtain ⟨hmetered, hfreq, hsize⟩ := ih (h.gen hle) hrest
      exact ⟨hmetered, hfreq.trans (gen_dwFreqPerSec h hle),
        hsize.trans (gen_dwBucketSize h hle)⟩
    | get qwNow dwNeedTokens =>
      obtain ⟨-, rfl, hrest⟩ := hpaced
      obtain ⟨hlast, hfreqGet, hsizeGet⟩ := get_fields tb dwNeedTokens
      rw [← hlast] at hrest
      obtain ⟨hmetered, hfreq, hsize⟩ := ih (h.get dwNeedTokens) hrest
      exact ⟨hmetered, hfreq.trans hfreqGet, hsize.trans hsizeGet⟩

theorem Paced.spent_over (hover : t₂ < qwNow)
    (hpaced : Paced qwNow fresh calls) :
    spent TokenBucket.step (granted t₁ t₂) tb calls = 0 := by
  induction calls generalizing tb fresh qwNow with
  | nil => rfl
  | cons call calls ih =>
    cases call with
    | gen qwNext =>
      obtain ⟨hle, hrest⟩ := hpaced
      have hzero : granted t₁ t₂ tb (.gen qwNext) = 0 := rfl
      rw [spent_cons, hzero, ih (UInt64.lt_of_lt_of_le hover hle) hrest]
    | get qwNext dwNeedTokens =>
      obtain ⟨-, rfl, hrest⟩ := hpaced
      have hzero : granted t₁ t₂ tb (.get qwNext dwNeedTokens) = 0 :=
        if_neg fun hgrant => UInt64.not_lt.mpr hgrant.2.1 hover
      rw [spent_cons, hzero, ih hover hrest]

theorem elapsed_add {freq a b c : Nat} (hab : a ≤ b) (hbc : b ≤ c) :
    freq * (b - a) + freq * (c - b) = freq * (c - a) := by
  have hsplit : b - a + (c - b) = c - a := by omega
  rw [← Nat.mul_add, hsplit]

theorem Paced.spent_inside (t₁ : UInt64) (h : tb.Metered)
    (hpaced : Paced tb.qwLastGenTime fresh calls) (hle : tb.qwLastGenTime ≤ t₂) :
    spent TokenBucket.step (granted t₁ t₂) tb calls * 1000000 ≤
      tb.level.worth 1000000 + tb.inflow t₂ := by
  induction calls generalizing tb fresh with
  | nil => exact Nat.le_trans (Nat.le_of_eq (Nat.zero_mul _)) (Nat.zero_le _)
  | cons call calls ih =>
    cases call with
    | gen qwNow =>
      obtain ⟨hnext, hrest⟩ := hpaced
      have hzero : granted t₁ t₂ tb (.gen qwNow) = 0 := rfl
      rw [spent_cons, hzero, Nat.zero_add]
      by_cases hover : t₂ < qwNow
      · rw [hrest.spent_over hover, Nat.zero_mul]
        exact Nat.zero_le _
      · have hin : qwNow ≤ t₂ := UInt64.not_lt.mp hover
        have hlast := gen_qwLastGenTime h hnext
        have hworth := worth_gen_le h hnext
        have hspent := ih (h.gen hnext) (by rw [hlast]; exact hrest) (by rw [hlast]; exact hin)
        rw [TokenBucket.inflow, hlast, gen_dwFreqPerSec h hnext] at hspent
        calc
          _ ≤ _ := hspent
          _ ≤ _ := Nat.add_le_add_right hworth _
          _ = _ := by
            rw [TokenBucket.inflow, Nat.add_assoc,
              elapsed_add (UInt64.le_iff_toNat_le.mp hnext) (UInt64.le_iff_toNat_le.mp hin),
              TokenBucket.inflow]
    | get qwNow dwNeedTokens =>
      obtain ⟨-, rfl, hrest⟩ := hpaced
      obtain ⟨hlast, hfreq, -⟩ := get_fields tb dwNeedTokens
      have hworth := worth_get h t₁ t₂ tb.qwLastGenTime dwNeedTokens
      have hspent := ih (h.get dwNeedTokens) (by rw [hlast]; exact hrest)
        (by rw [hlast]; exact hle)
      rw [TokenBucket.inflow, hlast, hfreq] at hspent
      rw [spent_cons, Nat.add_mul]
      calc
        _ ≤ _ := Nat.add_le_add_left hspent _
        _ = _ := by rw [← Nat.add_assoc, Nat.add_comm (granted t₁ t₂ tb _ * 1000000),
            TokenBucket.inflow]
        _ ≤ _ := Nat.add_le_add_right hworth _

/-- What is granted between two times, if the calls have not come to the first. -/
theorem Paced.spent_interval (h : tb.Metered) (hpaced : Paced tb.qwLastGenTime fresh calls)
    (hstart : fresh = true → tb.qwLastGenTime < t₁) :
    spent TokenBucket.step (granted t₁ t₂) tb calls * 1000000 ≤
      tb.dwBucketSize.toNat * 1000000 + (1000000 - 1) +
        tb.dwFreqPerSec.toNat * (t₂.toNat - t₁.toNat) := by
  induction calls generalizing tb fresh with
  | nil => exact Nat.le_trans (Nat.le_of_eq (Nat.zero_mul _)) (Nat.zero_le _)
  | cons call calls ih =>
    cases call with
    | gen qwNow =>
      obtain ⟨hnext, hrest⟩ := hpaced
      have hzero : granted t₁ t₂ tb (.gen qwNow) = 0 := rfl
      have hlast := gen_qwLastGenTime h hnext
      have hfreq := gen_dwFreqPerSec h hnext
      have hsize := gen_dwBucketSize h hnext
      rw [spent_cons, hzero, Nat.zero_add]
      by_cases hbefore : qwNow < t₁
      · have hspent := ih (h.gen hnext) (by rw [hlast]; exact hrest)
          (fun _ => by rw [hlast]; exact hbefore)
        rw [hfreq, hsize] at hspent
        exact hspent
      · have hin : t₁ ≤ qwNow := UInt64.not_lt.mp hbefore
        by_cases hover : t₂ < qwNow
        · rw [hrest.spent_over hover, Nat.zero_mul]
          exact Nat.zero_le _
        · have hspent := Paced.spent_inside t₁ (h.gen hnext)
            (by rw [hlast]; exact hrest) (by rw [hlast]; exact UInt64.not_lt.mp hover)
          rw [TokenBucket.inflow, hlast, hfreq] at hspent
          have hwhole : (tokenBucketGen tb qwNow).2.level.whole ≤ tb.dwBucketSize.toNat := by
            rw [level_gen h hnext]
            exact Nat.min_le_left _ _
          have hworth : (tokenBucketGen tb qwNow).2.level.worth 1000000 ≤
              tb.dwBucketSize.toNat * 1000000 + (1000000 - 1) :=
            Bucket.worth_lt (by decide) hwhole (h.gen hnext).delta_lt
          have hshort : t₂.toNat - qwNow.toNat ≤ t₂.toNat - t₁.toNat :=
            Nat.sub_le_sub_left (UInt64.le_iff_toNat_le.mp hin) _
          calc
            _ ≤ _ := hspent
            _ ≤ _ := Nat.add_le_add hworth (Nat.mul_le_mul_left _ hshort)
    | get qwNow dwNeedTokens =>
      obtain ⟨hfresh, rfl, hrest⟩ := hpaced
      obtain ⟨hlast, hfreq, hsize⟩ := get_fields tb dwNeedTokens
      have hzero : granted t₁ t₂ tb (.get tb.qwLastGenTime dwNeedTokens) = 0 :=
        if_neg fun hgrant => UInt64.not_lt.mpr hgrant.1 (hstart hfresh)
      have hspent := ih (h.get dwNeedTokens) (by rw [hlast]; exact hrest)
        (fun hfalse => absurd hfalse Bool.false_ne_true)
      rw [hfreq, hsize] at hspent
      rw [spent_cons, hzero, Nat.zero_add]
      exact hspent

end Intervals

section Repeated

variable {tb : TokenBucket} {qwMid qwNow : UInt64} {times : List UInt64}

/-- The bucket after calls of `TokenBucket_Gen` at some times. -/
def TokenBucket.genAll (tb : TokenBucket) (times : List UInt64) : TokenBucket :=
  times.foldl (fun tb qwNow => (tokenBucketGen tb qwNow).2) tb

/-- No call of `TokenBucket_Gen` at these times leaves the bucket full. -/
def TokenBucket.NeverFull (tb : TokenBucket) : List UInt64 → Prop
  | [] => True
  | qwNow :: times =>
    (tokenBucketGen tb qwNow).2.llTokenCount.toInt < tb.dwBucketSize.toNat ∧
      (tokenBucketGen tb qwNow).2.NeverFull times

/-- Times from `qwFirst` on that do not go back, up to a last one. -/
def Ascending (qwFirst : UInt64) (times : List UInt64) (qwNow : UInt64) : Prop :=
  List.IsChain (· ≤ ·) (qwFirst :: (times ++ [qwNow]))

theorem Ascending.le {qwFirst : UInt64}
    (h : Ascending qwFirst times qwNow) : qwFirst ≤ qwNow := by
  induction times generalizing qwFirst with
  | nil => exact (List.isChain_cons_cons.mp h).1
  | cons qwNext times ih =>
    obtain ⟨hfirst, hrest⟩ := List.isChain_cons_cons.mp h
    exact UInt64.le_trans hfirst (ih hrest)

theorem gen_congr {tb' : TokenBucket} (h : tb.Metered) (h' : tb'.Metered)
    (hle : tb.qwLastGenTime ≤ qwNow) (hle' : tb'.qwLastGenTime ≤ qwNow)
    (hfreq : tb'.dwFreqPerSec = tb.dwFreqPerSec) (hsize : tb'.dwBucketSize = tb.dwBucketSize)
    (hlevel : (tokenBucketGen tb' qwNow).2.level = (tokenBucketGen tb qwNow).2.level) :
    (tokenBucketGen tb' qwNow).2 = (tokenBucketGen tb qwNow).2 := by
  have hcount : (tokenBucketGen tb' qwNow).2.llTokenCount =
      (tokenBucketGen tb qwNow).2.llTokenCount := by
    have hnonneg := (h.gen hle).nonneg
    have hnonneg' := (h'.gen hle').nonneg
    have hwhole := congrArg Bucket.whole hlevel
    simp only [TokenBucket.level] at hwhole
    exact Int64.toInt_inj.mp (by omega)
  have hdelta : (tokenBucketGen tb' qwNow).2.qwLastCalcDelta =
      (tokenBucketGen tb qwNow).2.qwLastCalcDelta :=
    UInt64.toNat_inj.mp (congrArg Bucket.part hlevel)
  rw [tokenBucketGen_of_le h hle, tokenBucketGen_of_le h' hle'] at hcount hdelta ⊢
  dsimp only at hcount hdelta
  rw [hcount, hdelta, hfreq, hsize]

theorem level_gen_of_lt (h : tb.Metered) (hle : tb.qwLastGenTime ≤ qwNow)
    (hlt : tb.inflow qwNow + tb.qwLastCalcDelta.toNat < 2 ^ 64) :
    (tokenBucketGen tb qwNow).2.level =
      Bucket.fill tb.dwBucketSize.toNat 1000000 tb.level (tb.inflow qwNow) := by
  have hproduced : (tb.produced qwNow).toNat = tb.level.part + tb.inflow qwNow := by
    rw [toNat_produced hle, Nat.mod_eq_of_lt hlt, Nat.add_comm]
    rfl
  rw [level_gen h hle, hproduced]
  rfl

theorem inflow_gen (h : tb.Metered) (hmid : tb.qwLastGenTime ≤ qwMid) (hle : qwMid ≤ qwNow) :
    tb.inflow qwMid + (tokenBucketGen tb qwMid).2.inflow qwNow = tb.inflow qwNow := by
  simp only [TokenBucket.inflow]
  rw [gen_qwLastGenTime h hmid, gen_dwFreqPerSec h hmid]
  exact elapsed_add (UInt64.le_iff_toNat_le.mp hmid) (UInt64.le_iff_toNat_le.mp hle)

theorem gen_gen_of_produced (h : tb.Metered) (hmid : tb.qwLastGenTime ≤ qwMid)
    (hle : qwMid ≤ qwNow)
    (hwhole : (tokenBucketGen tb qwMid).2.level.whole = tb.level.whole)
    (hproduced : ((tokenBucketGen tb qwMid).2.produced qwNow).toNat =
      (tb.produced qwNow).toNat) :
    (tokenBucketGen (tokenBucketGen tb qwMid).2 qwNow).2 = (tokenBucketGen tb qwNow).2 := by
  have hlast : (tokenBucketGen tb qwMid).2.qwLastGenTime ≤ qwNow := by
    rw [gen_qwLastGenTime h hmid]
    exact hle
  apply gen_congr h (h.gen hmid) (UInt64.le_trans hmid hle) hlast (gen_dwFreqPerSec h hmid)
    (gen_dwBucketSize h hmid)
  rw [level_gen (h.gen hmid) hlast, level_gen h (UInt64.le_trans hmid hle), hwhole, hproduced,
    gen_dwBucketSize h hmid]

theorem gen_gen_of_lt (h : tb.Metered) (hmid : tb.qwLastGenTime ≤ qwMid) (hle : qwMid ≤ qwNow)
    (hlt : tb.inflow qwNow + tb.qwLastCalcDelta.toNat < 2 ^ 64) :
    (tokenBucketGen (tokenBucketGen tb qwMid).2 qwNow).2 = (tokenBucketGen tb qwNow).2 := by
  have hlast : (tokenBucketGen tb qwMid).2.qwLastGenTime ≤ qwNow := by
    rw [gen_qwLastGenTime h hmid]
    exact hle
  have hinflow := inflow_gen h hmid hle
  have hfirst := level_gen_of_lt h hmid (by omega)
  have hpart : (tokenBucketGen tb qwMid).2.qwLastCalcDelta.toNat ≤
      tb.qwLastCalcDelta.toNat + tb.inflow qwMid := by
    have hmod : (tokenBucketGen tb qwMid).2.qwLastCalcDelta.toNat =
        (tb.qwLastCalcDelta.toNat + tb.inflow qwMid) % 1000000 := congrArg Bucket.part hfirst
    rw [hmod]
    exact Nat.mod_le _ _
  apply gen_congr h (h.gen hmid) (UInt64.le_trans hmid hle) hlast (gen_dwFreqPerSec h hmid)
    (gen_dwBucketSize h hmid)
  rw [level_gen_of_lt (h.gen hmid) hlast (by omega), gen_dwBucketSize h hmid, hfirst,
    Bucket.fill_fill (by decide), hinflow, level_gen_of_lt h (UInt64.le_trans hmid hle) hlt]

/-- Two calls of which the second does not leave the bucket full. -/
theorem gen_gen_of_not_full (h : tb.Metered) (hmid : tb.qwLastGenTime ≤ qwMid)
    (hle : qwMid ≤ qwNow) (hlt : tb.inflow qwNow < 2 ^ 64)
    (hfull : (tokenBucketGen (tokenBucketGen tb qwMid).2 qwNow).2.llTokenCount.toInt <
      tb.dwBucketSize.toNat) :
    (tokenBucketGen (tokenBucketGen tb qwMid).2 qwNow).2 = (tokenBucketGen tb qwNow).2 := by
  have hlast : (tokenBucketGen tb qwMid).2.qwLastGenTime ≤ qwNow := by
    rw [gen_qwLastGenTime h hmid]
    exact hle
  have hinflow := inflow_gen h hmid hle
  have hdelta := h.delta_lt
  have hlevel := level_gen h hmid
  have hwhole : (tokenBucketGen tb qwMid).2.level.whole = min tb.dwBucketSize.toNat
      (tb.level.whole + (tb.produced qwMid).toNat / 1000000) := congrArg Bucket.whole hlevel
  have hpart : (tokenBucketGen tb qwMid).2.qwLastCalcDelta.toNat =
      (tb.produced qwMid).toNat % 1000000 := congrArg Bucket.part hlevel
  have hsecond := toNat_produced hlast
  have hsingle := toNat_produced (UInt64.le_trans hmid hle)
  have hfirst := toNat_produced hmid
  have hfits : tb.level.whole ≤ tb.dwBucketSize.toNat := by
    have := h.le_size
    simp only [TokenBucket.level]
    omega
  by_cases hwrap : tb.inflow qwNow + tb.qwLastCalcDelta.toNat < 2 ^ 64
  · exact gen_gen_of_lt h hmid hle hwrap
  · by_cases hsmall : (tb.produced qwMid).toNat < 1000000
    · rw [Nat.mod_eq_of_lt hsmall] at hpart
      apply gen_gen_of_produced h hmid hle (by omega)
      rw [hsecond, hsingle, hpart, hfirst]
      omega
    · exfalso
      have hsize := tb.dwBucketSize.toNat_lt
      have hfull' : (tokenBucketGen (tokenBucketGen tb qwMid).2 qwNow).2.level.whole <
          tb.dwBucketSize.toNat := by
        have hnonneg := ((h.gen hmid).gen hlast).nonneg
        simp only [TokenBucket.level]
        omega
      have hwhole₂ : (tokenBucketGen (tokenBucketGen tb qwMid).2 qwNow).2.level.whole =
          min (tokenBucketGen tb qwMid).2.dwBucketSize.toNat
            ((tokenBucketGen tb qwMid).2.level.whole +
              ((tokenBucketGen tb qwMid).2.produced qwNow).toNat / 1000000) :=
        congrArg Bucket.whole (level_gen (h.gen hmid) hlast)
      rw [gen_dwBucketSize h hmid] at hwhole₂
      have hfirst' : (tb.produced qwMid).toNat =
          tb.inflow qwMid + tb.qwLastCalcDelta.toNat := by
        omega
      have hsecond' : ((tokenBucketGen tb qwMid).2.produced qwNow).toNat =
          (tokenBucketGen tb qwMid).2.inflow qwNow + (tb.produced qwMid).toNat % 1000000 := by
        rw [hsecond, hpart]
        exact Nat.mod_eq_of_lt (by omega)
      omega

theorem TokenBucket.NeverFull.last (hroom : tb.NeverFull (times ++ [qwNow])) (h : tb.Metered)
    (hasc : Ascending tb.qwLastGenTime times qwNow) :
    (tb.genAll (times ++ [qwNow])).llTokenCount.toInt < tb.dwBucketSize.toNat := by
  induction times generalizing tb with
  | nil => exact hroom.1
  | cons qwMid times ih =>
    obtain ⟨hmid, hrest⟩ := List.isChain_cons_cons.mp hasc
    have hlast := ih hroom.2 (h.gen hmid) (by rw [gen_qwLastGenTime h hmid]; exact hrest)
    rw [gen_dwBucketSize h hmid] at hlast
    exact hlast

theorem genAll_eq (h : tb.Metered)
    (hasc : Ascending tb.qwLastGenTime times qwNow) (hlt : tb.inflow qwNow < 2 ^ 64)
    (hroom : tb.NeverFull (times ++ [qwNow]) ∨
      tb.inflow qwNow + tb.qwLastCalcDelta.toNat < 2 ^ 64) :
    tb.genAll (times ++ [qwNow]) = tb.genAll [qwNow] := by
  induction times generalizing tb with
  | nil => rfl
  | cons qwMid times ih =>
    obtain ⟨hmid, hrest⟩ := List.isChain_cons_cons.mp hasc
    have hlast := gen_qwLastGenTime h hmid
    have hle : qwMid ≤ qwNow := Ascending.le hrest
    have hinflow := inflow_gen h hmid hle
    have hstep : (tokenBucketGen tb qwMid).2.genAll (times ++ [qwNow]) =
        (tokenBucketGen tb qwMid).2.genAll [qwNow] := by
      apply ih (h.gen hmid)
      · rw [hlast]
        exact hrest
      · omega
      · obtain ⟨-, hroom⟩ | hroom := hroom
        · exact Or.inl hroom
        · refine Or.inr ?_
          have hpart : (tokenBucketGen tb qwMid).2.qwLastCalcDelta.toNat =
              (tb.produced qwMid).toNat % 1000000 := congrArg Bucket.part (level_gen h hmid)
          rw [toNat_produced hmid] at hpart
          omega
    have hpair : (tokenBucketGen (tokenBucketGen tb qwMid).2 qwNow).2 =
        (tokenBucketGen tb qwNow).2 := by
      obtain ⟨-, hroom⟩ | hroom := hroom
      · apply gen_gen_of_not_full h hmid hle hlt
        have hfull := hroom.last (h.gen hmid) (by rw [hlast]; exact hrest)
        rw [hstep, gen_dwBucketSize h hmid] at hfull
        exact hfull
      · exact gen_gen_of_lt h hmid hle hroom
    exact hstep.trans hpair

theorem Metered.init (dwFreqPerSec dwBucketSize : UInt32) (qwStart : UInt64) :
    (tokenBucketInit dwFreqPerSec dwBucketSize qwStart).Metered := by
  have hcount : (tokenBucketInit dwFreqPerSec dwBucketSize qwStart).llTokenCount.toInt =
      dwBucketSize.toNat := toInt_word dwBucketSize
  refine ⟨?_, ?_, Nat.zero_lt_succ _⟩
  · omega
  · rw [hcount]
    exact Int.le_refl _

end Repeated

/-- The counts, the tokens granted in an interval, and what several calls share out. -/
theorem tokenBucket_bounds (dwFreqPerSec dwBucketSize : UInt32) (qwStart : UInt64)
    (calls : List BucketCall) (hpaced : Paced qwStart false calls) :
    let first := tokenBucketInit dwFreqPerSec dwBucketSize qwStart
    let last := calls.foldl TokenBucket.step first
    (0 ≤ last.llTokenCount.toInt ∧ last.llTokenCount.toInt ≤ dwBucketSize.toNat) ∧
    (∀ t₁ t₂ : UInt64, t₁ ≤ t₂ →
      spent TokenBucket.step (granted t₁ t₂) first calls ≤ dwBucketSize.toNat +
        dwFreqPerSec.toNat * (t₂.toNat - t₁.toNat) ⌈/⌉ 1000000) ∧
    (∀ (times : List UInt64) (qwNow : UInt64), Ascending last.qwLastGenTime times qwNow →
      last.inflow qwNow < 2 ^ 64 →
      last.NeverFull (times ++ [qwNow]) ∨
        last.inflow qwNow + last.qwLastCalcDelta.toNat < 2 ^ 64 →
      last.genAll (times ++ [qwNow]) = last.genAll [qwNow]) := by
  intro first last
  have hinit : first.Metered := Metered.init dwFreqPerSec dwBucketSize qwStart
  obtain ⟨hmetered, -, hsize⟩ := Paced.run hinit hpaced
  refine ⟨⟨hmetered.nonneg, ?_⟩, ?_, ?_⟩
  · rw [← show last.dwBucketSize = dwBucketSize from hsize]
    exact hmetered.le_size
  · intro t₁ t₂ hle
    have hspent : spent TokenBucket.step (granted t₁ t₂) first calls * 1000000 ≤
        dwBucketSize.toNat * 1000000 + (1000000 - 1) +
          dwFreqPerSec.toNat * (t₂.toNat - t₁.toNat) :=
      Paced.spent_interval hinit hpaced fun hfalse => absurd hfalse Bool.false_ne_true
    rw [Nat.ceilDiv_eq_add_pred_div]
    generalize dwFreqPerSec.toNat * (t₂.toNat - t₁.toNat) = inflow at hspent ⊢
    omega
  · intro times qwNow hasc hlt hroom
    exact genAll_eq hmetered hasc hlt hroom

/-- Ten tokens a second; eight are taken at once, and four after half a second. -/
def twoBursts : List BucketCall :=
  [.gen 0, .get 0 8, .gen 250000, .gen 500000, .get 500000 4]

theorem tokenBucket_bounds_twoBursts :
    spent TokenBucket.step (granted 0 500000) (tokenBucketInit 10 10 0) twoBursts ≤
        10 + 10 * 500000 ⌈/⌉ 1000000 ∧
      (twoBursts.foldl TokenBucket.step (tokenBucketInit 10 10 0)).genAll [650000, 700000] =
        (twoBursts.foldl TokenBucket.step (tokenBucketInit 10 10 0)).genAll [700000] := by
  have hbounds := tokenBucket_bounds 10 10 0 twoBursts
    ⟨by decide, rfl, rfl, by decide, by decide, rfl, rfl, trivial⟩
  refine ⟨hbounds.2.1 0 500000 (by decide), hbounds.2.2 [650000] 700000 ?_ ?_ ?_⟩
  · unfold Ascending
    decide +kernel
  · decide +kernel
  · exact Or.inl ⟨by decide +kernel, by decide +kernel, trivial⟩

end XrkMonitor.ServerLog
