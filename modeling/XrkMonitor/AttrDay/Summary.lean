import XrkMonitor.AttrDay.Record
import XrkMonitor.Library.RunningSums

/-!
# The summary of a day

Before the rows of a day are put into one record, `GetMonitorAttrMemcache` adds each row to the
sum of its period and keeps total, maximum, minimum and last period on the way. Each of them is
taken from the sum as it stands after the row. That is right for the array, the maximum and the
last period. The total adds the earlier rows of a period again, and the
minimum may be a sum that is not complete.

## Implementation notes

A row carries its value as `getuval` gives it, the time and the address. The array is a map whose
entries from `COUNT_STATIC_TIMES_PER_DAY` on are not used. The period of a time is that of
`GetDayOfMin`. Sums are naturals cut to 32 bits. What the day record takes of the function,
`AttrDay.getMonitorAttrMemcache`, is a part of what is modelled here.
-/

namespace XrkMonitor.AttrDay.Summary

open Library WarnAttr

/-- A row of the table of a day. -/
structure ReportRow where
  value : Nat
  report_time : Nat
  client_ip : Nat

/-- What `GetMonitorAttrMemcache` gives. -/
structure DaySummary where
  uiMin : Nat
  uiMax : Nat
  uiTotal : Nat
  iMaxReportIdx : Int
  puiValArry : Nat → Nat
  puiLastIp : Nat

section Operations

variable (tz iStaticTime : Nat)

/-- `iDayOfMinTmp`. -/
def rowPeriod (row : ReportRow) : Nat :=
  getDayOfMin (uitotimeInfo tz row.report_time) iStaticTime

/-- One row. -/
def addRow (s : DaySummary) (row : ReportRow) : DaySummary :=
  let iDayOfMinTmp := rowPeriod tz iStaticTime row
  let val := (s.puiValArry iDayOfMinTmp + row.value) % 2 ^ 32
  { uiMin := if s.uiMin > val then val else s.uiMin
    uiMax := if s.uiMax < val then val else s.uiMax
    uiTotal := (s.uiTotal + val) % 2 ^ 32
    iMaxReportIdx := if (iDayOfMinTmp : Int) > s.iMaxReportIdx then iDayOfMinTmp
      else s.iMaxReportIdx
    puiValArry := Function.update s.puiValArry iDayOfMinTmp val
    puiLastIp := s.puiLastIp }

/-- `GetMonitorAttrMemcache`, which finds the array and the address as they are given. -/
def getMonitorAttrMemcache (puiValArry : Nat → Nat) (puiLastIp : Nat) (rows : List ReportRow) :
    DaySummary :=
  match rows with
  | [] => ⟨0, 0, 0, -1, puiValArry, puiLastIp⟩
  | row :: rest =>
    { (row :: rest).foldl (addRow tz iStaticTime)
        ⟨row.value, row.value, 0, -1, fun _ => 0, puiLastIp⟩ with
      puiLastIp := ((row :: rest).getLast (List.cons_ne_nil row rest)).client_ip }

end Operations

variable {tz iStaticTime : Nat}

/-- The sum of the values of a period. -/
def periodSum (tz iStaticTime : Nat) (rows : List ReportRow) (p : Nat) : Nat :=
  sumAt (rowPeriod tz iStaticTime) ReportRow.value p rows

def valueSum (rows : List ReportRow) : Nat := (rows.map ReportRow.value).sum

/-- The summary is that of the rows. -/
structure SummaryExact (tz iStaticTime : Nat) (rows : List ReportRow) (s : DaySummary) : Prop where
  array : ∀ p < COUNT_STATIC_TIMES_PER_DAY, s.puiValArry p = periodSum tz iStaticTime rows p
  total : s.uiTotal = valueSum rows
  max_mem : rows ≠ [] →
    ∃ row ∈ rows, s.uiMax = periodSum tz iStaticTime rows (rowPeriod tz iStaticTime row)
  le_max : ∀ row ∈ rows, periodSum tz iStaticTime rows (rowPeriod tz iStaticTime row) ≤ s.uiMax
  min_mem : rows ≠ [] →
    ∃ row ∈ rows, s.uiMin = periodSum tz iStaticTime rows (rowPeriod tz iStaticTime row)
  min_le : ∀ row ∈ rows, s.uiMin ≤ periodSum tz iStaticTime rows (rowPeriod tz iStaticTime row)
  idx_mem : rows ≠ [] → ∃ row ∈ rows, s.iMaxReportIdx = rowPeriod tz iStaticTime row
  le_idx : ∀ row ∈ rows, (rowPeriod tz iStaticTime row : Int) ≤ s.iMaxReportIdx

/-- The values of a summary, without the address. -/
def DaySummary.values (s : DaySummary) : Nat × Nat × Nat × Int × (Nat → Nat) :=
  (s.uiMin, s.uiMax, s.uiTotal, s.iMaxReportIdx, s.puiValArry)

/-- The summary is that of the rows, in whatever order they come. -/
def SummaryRight (tz iStaticTime : Nat) (puiValArry : Nat → Nat) (puiLastIp : Nat)
    (rows : List ReportRow) : Prop :=
  SummaryExact tz iStaticTime rows
      (getMonitorAttrMemcache tz iStaticTime puiValArry puiLastIp rows) ∧
    ∀ rows' : List ReportRow, rows'.Perm rows →
      (getMonitorAttrMemcache tz iStaticTime puiValArry puiLastIp rows').values =
        (getMonitorAttrMemcache tz iStaticTime puiValArry puiLastIp rows).values

/-- The rows of a period have one value, what is added too often is a multiple of `2 ^ 32`, and each
value is at least the sum of some period. Without rows, the array was clear. -/
structure SummaryFits (tz iStaticTime : Nat) (puiValArry : Nat → Nat) (rows : List ReportRow) :
    Prop where
  clear : rows = [] → ∀ p < COUNT_STATIC_TIMES_PER_DAY, puiValArry p = 0
  value : rows.Pairwise fun row row' =>
    rowPeriod tz iStaticTime row = rowPeriod tz iStaticTime row' → row.value = row'.value
  total : pairSum (rowPeriod tz iStaticTime) ReportRow.value rows % 2 ^ 32 = 0
  min : ∀ row ∈ rows, ∃ row' ∈ rows,
    periodSum tz iStaticTime rows (rowPeriod tz iStaticTime row') ≤ row.value

section Loop

/-- The running sums of the rows. -/
def rowSums (tz iStaticTime : Nat) (acc : Nat → Nat) (rows : List ReportRow) : List Nat :=
  runningSums (rowPeriod tz iStaticTime) ReportRow.value acc rows

theorem foldl_addRow (rows : List ReportRow) {s : DaySummary} (htotal : s.uiTotal < 2 ^ 32)
    (hfit : ∀ p, s.puiValArry p + periodSum tz iStaticTime rows p < 2 ^ 32) :
    rows.foldl (addRow tz iStaticTime) s =
      { uiMin := (rowSums tz iStaticTime s.puiValArry rows).foldl (better (· > ·)) s.uiMin
        uiMax := (rowSums tz iStaticTime s.puiValArry rows).foldl (better (· < ·)) s.uiMax
        uiTotal := (s.uiTotal + (rowSums tz iStaticTime s.puiValArry rows).sum) % 2 ^ 32
        iMaxReportIdx := (rows.map fun row => (rowPeriod tz iStaticTime row : Int)).foldl
          (better (· < ·)) s.iMaxReportIdx
        puiValArry := fun p => s.puiValArry p + periodSum tz iStaticTime rows p
        puiLastIp := s.puiLastIp } := by
  induction rows generalizing s with
  | nil =>
    simp only [rowSums, runningSums, List.foldl_nil, List.sum_nil, List.map_nil, periodSum, sumAt,
      Nat.add_zero]
    rw [Nat.mod_eq_of_lt htotal]
  | cons row rows ih =>
    have hsum := hfit (rowPeriod tz iStaticTime row)
    rw [periodSum, sumAt, if_pos rfl] at hsum
    have hval : (s.puiValArry (rowPeriod tz iStaticTime row) + row.value) % 2 ^ 32 =
        s.puiValArry (rowPeriod tz iStaticTime row) + row.value := Nat.mod_eq_of_lt (by omega)
    have hmove : ∀ p, Function.update s.puiValArry (rowPeriod tz iStaticTime row)
        (s.puiValArry (rowPeriod tz iStaticTime row) + row.value) p +
          periodSum tz iStaticTime rows p =
        s.puiValArry p + periodSum tz iStaticTime (row :: rows) p :=
      update_add_sumAt s.puiValArry row rows
    have hstep := ih (s := addRow tz iStaticTime s row) (Nat.mod_lt _ (Nat.two_pow_pos 32)) (by
      intro p
      simp only [addRow, hval]
      rw [hmove]
      exact hfit p)
    rw [List.foldl_cons, hstep]
    simp only [addRow, hval, hmove, rowSums, runningSums, List.foldl_cons, List.sum_cons,
      List.map_cons, better, Nat.mod_add_mod, Nat.add_assoc, gt_iff_lt]

end Loop

section Summary

variable {puiValArry : Nat → Nat} {puiLastIp : Nat} {rows : List ReportRow} {s : DaySummary}

/-- The running sums of all rows. -/
abbrev daySums (tz iStaticTime : Nat) (rows : List ReportRow) : List Nat :=
  rowSums tz iStaticTime (fun _ => 0) rows

theorem foldl_min {x : Nat} {l : List Nat} (hx : x ∈ l) :
    l.foldl (better (· > ·)) x ∈ l ∧ ∀ y ∈ l, l.foldl (better (· > ·)) x ≤ y := by
  obtain ⟨hmem, hbest⟩ := foldl_better (r := fun a b : Nat => a > b) (by omega) (by omega)
    (by omega) x l
  constructor
  · rcases List.mem_cons.mp hmem with heq | hmem
    · rw [heq]
      exact hx
    · exact hmem
  · intro y hy
    exact Nat.not_lt.mp (hbest y (List.mem_cons_of_mem x hy))

theorem foldl_max {x : Nat} {l : List Nat} (hx : x ∈ l) :
    l.foldl (better (· < ·)) x ∈ l ∧ ∀ y ∈ l, y ≤ l.foldl (better (· < ·)) x := by
  obtain ⟨hmem, hbest⟩ := foldl_better (r := fun a b : Nat => a < b) (by omega) (by omega)
    (by omega) x l
  constructor
  · rcases List.mem_cons.mp hmem with heq | hmem
    · rw [heq]
      exact hx
    · exact hmem
  · intro y hy
    exact Nat.not_lt.mp (hbest y (List.mem_cons_of_mem x hy))

theorem foldl_idx (hrows : rows ≠ []) :
    let idx := (rows.map fun row => (rowPeriod tz iStaticTime row : Int)).foldl
      (better (· < ·)) (-1)
    (∃ row ∈ rows, idx = rowPeriod tz iStaticTime row) ∧
      ∀ row ∈ rows, (rowPeriod tz iStaticTime row : Int) ≤ idx := by
  obtain ⟨hmem, hbest⟩ := foldl_better (r := fun a b : Int => a < b) (by omega) (by omega)
    (by omega) (-1) (rows.map fun row => (rowPeriod tz iStaticTime row : Int))
  have hle : ∀ row ∈ rows, (rowPeriod tz iStaticTime row : Int) ≤
      (rows.map fun row => (rowPeriod tz iStaticTime row : Int)).foldl (better (· < ·)) (-1) := by
    intro row hrow
    exact Int.not_lt.mp (hbest _ (List.mem_cons_of_mem _ (List.mem_map_of_mem hrow)))
  refine ⟨?_, hle⟩
  rcases List.mem_cons.mp hmem with heq | hmem
  · obtain ⟨row, rest, rfl⟩ := List.exists_cons_of_ne_nil hrows
    have hfirst := hle row List.mem_cons_self
    rw [heq] at hfirst
    omega
  · obtain ⟨row, hrow, heq⟩ := List.mem_map.mp hmem
    exact ⟨row, hrow, heq.symm⟩

/-- What the function gives for a list with rows. -/
structure GivesSums (tz iStaticTime : Nat) (rows : List ReportRow) (s : DaySummary) : Prop where
  min_mem : s.uiMin ∈ daySums tz iStaticTime rows
  min_le : ∀ x ∈ daySums tz iStaticTime rows, s.uiMin ≤ x
  max_mem : s.uiMax ∈ daySums tz iStaticTime rows
  le_max : ∀ x ∈ daySums tz iStaticTime rows, x ≤ s.uiMax
  total : s.uiTotal = (daySums tz iStaticTime rows).sum % 2 ^ 32
  idx_mem : ∃ row ∈ rows, s.iMaxReportIdx = rowPeriod tz iStaticTime row
  le_idx : ∀ row ∈ rows, (rowPeriod tz iStaticTime row : Int) ≤ s.iMaxReportIdx
  array : s.puiValArry = periodSum tz iStaticTime rows

theorem givesSums_getMonitorAttrMemcache (hrows : rows ≠ []) (hsum : valueSum rows < 2 ^ 32) :
    GivesSums tz iStaticTime rows
      (getMonitorAttrMemcache tz iStaticTime puiValArry puiLastIp rows) := by
  have hidx := @foldl_idx tz iStaticTime rows hrows
  obtain ⟨row, rest, rfl⟩ := List.exists_cons_of_ne_nil hrows
  have hfit : ∀ p, 0 + periodSum tz iStaticTime (row :: rest) p < 2 ^ 32 := by
    intro p
    have hle : periodSum tz iStaticTime (row :: rest) p ≤ valueSum (row :: rest) :=
      sumAt_le_sum p _
    omega
  have hloop := foldl_addRow (row :: rest) (s := ⟨row.value, row.value, 0, -1, fun _ => 0, puiLastIp⟩)
    (Nat.two_pow_pos 32) hfit
  have hfirst : row.value ∈ daySums tz iStaticTime (row :: rest) := by
    rw [daySums, rowSums, runningSums, Nat.zero_add]
    exact List.mem_cons_self
  have hmin := foldl_min hfirst
  have hmax := foldl_max hfirst
  rw [getMonitorAttrMemcache, hloop]
  exact
    { min_mem := hmin.1
      min_le := hmin.2
      max_mem := hmax.1
      le_max := hmax.2
      total := by rw [Nat.zero_add]
      idx_mem := hidx.1
      le_idx := hidx.2
      array := funext fun p => Nat.zero_add _ }

theorem sum_daySums (rows : List ReportRow) :
    (daySums tz iStaticTime rows).sum =
      valueSum rows + pairSum (rowPeriod tz iStaticTime) ReportRow.value rows := by
  have hsums : (daySums tz iStaticTime rows).sum = _ := sum_runningSums _ _
  have hzero : ∀ l : List ReportRow, (l.map fun _ => 0).sum = 0 := by
    intro l
    induction l with
    | nil => rfl
    | cons x l ih => rw [List.map_cons, List.sum_cons, ih]
  rw [hsums, hzero, Nat.zero_add]
  rfl

theorem periodSum_mem_daySums {row : ReportRow} (hrow : row ∈ rows) :
    periodSum tz iStaticTime rows (rowPeriod tz iStaticTime row) ∈ daySums tz iStaticTime rows := by
  have hmem := @sumAt_mem_runningSums _ _ _ (rowPeriod tz iStaticTime) ReportRow.value (fun _ => 0)
    row rows hrow
  rwa [Nat.zero_add] at hmem

/-- In one order the summary is right exactly when the pairs are a multiple of `2 ^ 32` and no running
sum is below every period's sum. -/
theorem GivesSums.exact_iff (h : GivesSums tz iStaticTime rows s)
    (hrows : rows ≠ []) (hsum : valueSum rows < 2 ^ 32) :
    SummaryExact tz iStaticTime rows s ↔
      pairSum (rowPeriod tz iStaticTime) ReportRow.value rows % 2 ^ 32 = 0 ∧
        ∀ x ∈ daySums tz iStaticTime rows, ∃ row ∈ rows,
          periodSum tz iStaticTime rows (rowPeriod tz iStaticTime row) ≤ x := by
  have htotal := h.total
  rw [sum_daySums] at htotal
  constructor
  · intro hexact
    have hvalue := hexact.total
    refine ⟨by omega, ?_⟩
    intro x hx
    obtain ⟨row, hrow, hmin⟩ := hexact.min_mem hrows
    exact ⟨row, hrow, hmin ▸ h.min_le x hx⟩
  · rintro ⟨hpairs, hleast⟩
    refine
      { array := fun p _ => congrFun h.array p
        total := by omega
        max_mem := ?_
        le_max := fun row hrow => h.le_max _ (periodSum_mem_daySums hrow)
        min_mem := ?_
        min_le := fun row hrow => h.min_le _ (periodSum_mem_daySums hrow)
        idx_mem := fun _ => h.idx_mem
        le_idx := h.le_idx }
    · intro _
      obtain ⟨row, hrow, -, hle⟩ := mem_runningSums h.max_mem
      refine ⟨row, hrow, Nat.le_antisymm ?_ (h.le_max _ (periodSum_mem_daySums hrow))⟩
      rwa [Nat.zero_add] at hle
    · intro _
      obtain ⟨row, hrow, hle⟩ := hleast _ h.min_mem
      exact ⟨row, hrow, Nat.le_antisymm (h.min_le _ (periodSum_mem_daySums hrow)) hle⟩

theorem summaryExact_nil_iff (htotal : s.uiTotal = 0) :
    SummaryExact tz iStaticTime [] s ↔
      ∀ p < COUNT_STATIC_TIMES_PER_DAY, s.puiValArry p = 0 := by
  constructor
  · intro h
    exact h.array
  · intro hclear
    exact
      { array := hclear
        total := htotal
        max_mem := fun h => absurd rfl h
        le_max := List.forall_mem_nil _
        min_mem := fun h => absurd rfl h
        min_le := List.forall_mem_nil _
        idx_mem := fun h => absurd rfl h
        le_idx := List.forall_mem_nil _ }

theorem summaryExact_iff (hsum : valueSum rows < 2 ^ 32) :
    SummaryExact tz iStaticTime rows
        (getMonitorAttrMemcache tz iStaticTime puiValArry puiLastIp rows) ↔
      (rows = [] → ∀ p < COUNT_STATIC_TIMES_PER_DAY, puiValArry p = 0) ∧
        pairSum (rowPeriod tz iStaticTime) ReportRow.value rows % 2 ^ 32 = 0 ∧
        ∀ x ∈ daySums tz iStaticTime rows, ∃ row ∈ rows,
          periodSum tz iStaticTime rows (rowPeriod tz iStaticTime row) ≤ x := by
  by_cases hrows : rows = []
  · subst hrows
    rw [summaryExact_nil_iff rfl]
    constructor
    · intro hclear
      exact ⟨fun _ => hclear, rfl, List.forall_mem_nil _⟩
    · intro h
      exact h.1 rfl
  · rw [(givesSums_getMonitorAttrMemcache hrows hsum).exact_iff hrows hsum]
    exact (and_iff_right fun h => absurd h hrows).symm

variable {rows' : List ReportRow}

theorem periodSum_perm (h : rows'.Perm rows) (p : Nat) :
    periodSum tz iStaticTime rows' p = periodSum tz iStaticTime rows p :=
  sumAt_perm h p

theorem valueSum_perm (h : rows'.Perm rows) : valueSum rows' = valueSum rows :=
  (h.map _).sum_eq

theorem SummaryExact.perm (h : SummaryExact tz iStaticTime rows s)
    (hperm : rows'.Perm rows) : SummaryExact tz iStaticTime rows' s := by
  have hsums := fun p => @periodSum_perm tz iStaticTime rows rows' hperm p
  have hmem : ∀ row, row ∈ rows' ↔ row ∈ rows := fun _ => hperm.mem_iff
  have hne : rows' ≠ [] → rows ≠ [] := by
    rintro hne rfl
    exact hne hperm.eq_nil
  exact
    { array := fun p hp => (h.array p hp).trans (hsums p).symm
      total := h.total.trans (valueSum_perm hperm).symm
      max_mem := by simpa only [hmem, hsums] using fun hrows => h.max_mem (hne hrows)
      le_max := by simpa only [hmem, hsums] using h.le_max
      min_mem := by simpa only [hmem, hsums] using fun hrows => h.min_mem (hne hrows)
      min_le := by simpa only [hmem, hsums] using h.min_le
      idx_mem := by simpa only [hmem] using fun hrows => h.idx_mem (hne hrows)
      le_idx := by simpa only [hmem] using h.le_idx }

theorem SummaryExact.eq {s s' : DaySummary} (h : SummaryExact tz iStaticTime rows s)
    (h' : SummaryExact tz iStaticTime rows s') (hrows : rows ≠ []) :
    s.uiMin = s'.uiMin ∧ s.uiMax = s'.uiMax ∧ s.uiTotal = s'.uiTotal ∧
      s.iMaxReportIdx = s'.iMaxReportIdx := by
  obtain ⟨a, ha, hmin⟩ := h.min_mem hrows
  obtain ⟨a', ha', hmin'⟩ := h'.min_mem hrows
  obtain ⟨b, hb, hmax⟩ := h.max_mem hrows
  obtain ⟨b', hb', hmax'⟩ := h'.max_mem hrows
  obtain ⟨c, hc, hidx⟩ := h.idx_mem hrows
  obtain ⟨c', hc', hidx'⟩ := h'.idx_mem hrows
  refine ⟨Nat.le_antisymm ?_ ?_, Nat.le_antisymm ?_ ?_, h.total.trans h'.total.symm,
    Int.le_antisymm ?_ ?_⟩
  · exact hmin' ▸ h.min_le a' ha'
  · exact hmin ▸ h'.min_le a ha
  · exact hmax ▸ h'.le_max b hb
  · exact hmax' ▸ h.le_max b' hb'
  · exact hidx ▸ h'.le_idx c hc
  · exact hidx' ▸ h.le_idx c' hc'

theorem SummaryExact.of_values {s s' : DaySummary} (h : SummaryExact tz iStaticTime rows s)
    (hvalues : s'.values = s.values) : SummaryExact tz iStaticTime rows s' := by
  simp only [DaySummary.values, Prod.mk.injEq] at hvalues
  obtain ⟨hmin, hmax, htotal, hidx, harray⟩ := hvalues
  exact
    { array := harray ▸ h.array
      total := htotal ▸ h.total
      max_mem := hmax ▸ h.max_mem
      le_max := hmax ▸ h.le_max
      min_mem := hmin ▸ h.min_mem
      min_le := hmin ▸ h.min_le
      idx_mem := hidx ▸ h.idx_mem
      le_idx := hidx ▸ h.le_idx }

theorem summaryRight_iff_forall_perm (hsum : valueSum rows < 2 ^ 32) :
    SummaryRight tz iStaticTime puiValArry puiLastIp rows ↔
      ∀ rows' : List ReportRow, rows'.Perm rows → SummaryExact tz iStaticTime rows'
        (getMonitorAttrMemcache tz iStaticTime puiValArry puiLastIp rows') := by
  constructor
  · rintro ⟨hexact, horder⟩ rows' hperm
    exact (hexact.of_values (horder rows' hperm)).perm hperm
  · intro hall
    refine ⟨hall rows (List.Perm.refl rows), ?_⟩
    intro rows' hperm
    by_cases hrows : rows = []
    · subst hrows
      rw [hperm.eq_nil]
    · have hrows' : rows' ≠ [] := by
        rintro rfl
        exact hrows hperm.symm.eq_nil
      have hsum' : valueSum rows' < 2 ^ 32 := by rwa [valueSum_perm hperm]
      obtain ⟨hmin, hmax, htotal, hidx⟩ := ((hall rows' hperm).perm hperm.symm).eq
        (hall rows (List.Perm.refl rows)) hrows
      have harray := @givesSums_getMonitorAttrMemcache tz iStaticTime puiValArry puiLastIp _ hrows hsum
      have harray' :=
        @givesSums_getMonitorAttrMemcache tz iStaticTime puiValArry puiLastIp _ hrows' hsum'
      have hsums : periodSum tz iStaticTime rows' = periodSum tz iStaticTime rows :=
        funext fun p => periodSum_perm hperm p
      rw [DaySummary.values, DaySummary.values, hmin, hmax, htotal, hidx, harray.array, harray'.array,
        hsums]

theorem value_eq_of_forall_perm (hsum : valueSum rows < 2 ^ 32)
    (hpairs : ∀ rows' : List ReportRow, rows'.Perm rows →
      pairSum (rowPeriod tz iStaticTime) ReportRow.value rows' % 2 ^ 32 = 0) :
    rows.Pairwise fun row row' =>
      rowPeriod tz iStaticTime row = rowPeriod tz iStaticTime row' → row.value = row'.value := by
  rw [List.pairwise_iff_forall_sublist]
  intro a b hsub hkey
  obtain ⟨rest, hrest⟩ := hsub.exists_perm_append
  have hab := hpairs (a :: b :: rest) hrest.symm
  have hba := hpairs (b :: a :: rest) ((List.Perm.swap a b rest).trans hrest.symm)
  have hswap := @pairSum_swap _ _ _ (rowPeriod tz iStaticTime) ReportRow.value a b rest hkey
  have hvalues : a.value + (b.value + valueSum rest) = valueSum rows :=
    (valueSum_perm hrest).symm
  omega

/-- For every list of rows whose values fit 32 bits: the summary is right and does not depend on the
order exactly when the condition holds. -/
theorem summaryRight_iff (hsum : valueSum rows < 2 ^ 32) :
    SummaryRight tz iStaticTime puiValArry puiLastIp rows ↔
      SummaryFits tz iStaticTime puiValArry rows := by
  have hiff : ∀ rows' : List ReportRow, rows'.Perm rows → _ := fun rows' hperm =>
    @summaryExact_iff tz iStaticTime puiValArry puiLastIp rows' (by rwa [valueSum_perm hperm])
  rw [summaryRight_iff_forall_perm hsum]
  constructor
  · intro hall
    have hcond := fun rows' hperm => (hiff rows' hperm).mp (hall rows' hperm)
    refine
      { clear := (hcond rows (List.Perm.refl rows)).1
        value := value_eq_of_forall_perm hsum fun rows' hperm => (hcond rows' hperm).2.1
        total := (hcond rows (List.Perm.refl rows)).2.1
        min := ?_ }
    intro row hrow
    obtain ⟨front, back, hsplit⟩ := List.append_of_mem hrow
    obtain ⟨rest, hrest⟩ : ∃ rest, rows.Perm (row :: rest) :=
      ⟨front ++ back, hsplit ▸ List.perm_middle⟩
    have hfirst : row.value ∈ daySums tz iStaticTime (row :: rest) := by
      rw [daySums, rowSums, runningSums, Nat.zero_add]
      exact List.mem_cons_self
    obtain ⟨row', hrow', hle⟩ := (hcond (row :: rest) hrest.symm).2.2 _ hfirst
    refine ⟨row', hrest.mem_iff.mpr hrow', ?_⟩
    rwa [periodSum_perm hrest.symm] at hle
  · intro hfits rows' hperm
    refine (hiff rows' hperm).mpr ⟨?_, ?_, ?_⟩
    · rintro rfl
      exact hfits.clear hperm.symm.eq_nil
    · rw [← pairSum_perm hperm.symm hfits.value]
      exact hfits.total
    · intro x hx
      obtain ⟨row, hrow, hle, -⟩ := mem_runningSums hx
      obtain ⟨row', hrow', hleast⟩ := hfits.min row (hperm.mem_iff.mp hrow)
      refine ⟨row', hperm.mem_iff.mpr hrow', ?_⟩
      rw [periodSum_perm hperm]
      exact Nat.le_trans hleast hle

end Summary

section Collected

/-- The row as the day record reads it. -/
def ReportRow.toRecord (tz : Nat) (row : ReportRow) : AttrDay.ReportRow where
  report_time := uitotimeInfo tz row.report_time
  value := UInt32.ofNat row.value

/-- The values of the day record are those of the summary. -/
structure SameValues (d : AttrDay.DayValues) (s : DaySummary) : Prop where
  max : d.dwMax.toNat = s.uiMax
  idx : d.iMaxReportIdx = s.iMaxReportIdx
  array : ∀ p, (d.arrydwValue p).toNat = s.puiValArry p

end Collected

/-- Three rows of a local time that is the time of the epoch, one in each period of five minutes. -/
theorem summaryRight_three :
    SummaryRight 0 5 (fun _ => 9) 0 [⟨3, 60, 1⟩, ⟨0, 600, 1⟩, ⟨7, 1200, 1⟩] :=
  (summaryRight_iff (by decide)).mpr ⟨by decide, by decide, by decide, by decide⟩

/-- Two rows of one period, 10 and 1: the total is 21 and the minimum 10. -/
theorem summary_wrong :
    let s := getMonitorAttrMemcache 0 5 (fun _ => 0) 0 [⟨10, 60, 1⟩, ⟨1, 120, 1⟩]
    ¬ SummaryRight 0 5 (fun _ => 0) 0 [⟨10, 60, 1⟩, ⟨1, 120, 1⟩] ∧ s.uiTotal = 21 ∧
      s.uiMin = 10 ∧ s.uiMax = 11 := by
  refine ⟨?_, by decide, by decide, by decide⟩
  rintro ⟨h, -⟩
  exact absurd h.total (by decide)

end XrkMonitor.AttrDay.Summary
