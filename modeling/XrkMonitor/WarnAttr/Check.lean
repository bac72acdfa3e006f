import XrkMonitor.WarnAttr.Window

/-!
# The values the warning checker reads

The warning checker reads the window that the attribute server keeps and corrects it
for the time that has passed since the last report. It does so with the minute of the
day, where the window has the index of the period in the day.

## Implementation notes

A period is completed when its last second is reached, so the periods completed at a
time are those up to the number of whole periods. `minutesPassed` is the case that
`AdaptReportValue` takes, three standing for every longer time.
-/

namespace XrkMonitor.WarnAttr

open Library

/-- `GetDayOfMin` of the warning checker: the minute of the day. -/
def checkDayOfMin (tz timeSec : Nat) : Nat :=
  let info := uitotimeInfo tz timeSec
  let i := info.hour * 60 + info.min
  if 1440 ≤ i then 1439 else i

/-- `AdaptReportValue` gives the last value and the one before it. -/
def adaptReportValue (node : TWarnAttrReportInfo) (now iDayMinIdx : Nat) : UInt32 × UInt32 :=
  let dwLastVal := node.dwLastVal
  let dwPreLastVal := node.dwPreLastVal
  if node.bAttrDataType = .SUM_REPORT_TOTAL then
    if dwLastVal ≤ dwPreLastVal then (dwPreLastVal, dwPreLastVal) else (dwLastVal, dwPreLastVal)
  else if (node.dwLastReportTime + 1440 * 60) % 2 ^ 32 ≤ now then
    (0, 0)
  else if iDayMinIdx ≠ node.iMinIdx then
    if (node.iMinIdx + 1) % 1440 = iDayMinIdx then
      (node.dwCurVal, dwLastVal)
    else if (node.iMinIdx + 2) % 1440 = iDayMinIdx then
      (0, node.dwCurVal)
    else
      (0, 0)
  else
    (dwLastVal, dwPreLastVal)

/-- The minutes between the index of the window and the minute of the day, up to three. -/
def minutesPassed (node : TWarnAttrReportInfo) (now iDayMinIdx : Nat) : Nat :=
  if (node.dwLastReportTime + 1440 * 60) % 2 ^ 32 ≤ now then 3
  else if iDayMinIdx = node.iMinIdx then 0
  else if (node.iMinIdx + 1) % 1440 = iDayMinIdx then 1
  else if (node.iMinIdx + 2) % 1440 = iDayMinIdx then 2
  else 3

/-- The periods completed at a time. -/
def completed (tz T now : Nat) : Nat := (now + tz) / (60 * T)

/-- The checker takes as many minutes to have passed as there are periods from the last report to
the running one, where more than two are alike. -/
def CheckOk (tz T : Nat) (s : WindowRun) (now : Nat) : Prop :=
  ∀ r ∈ s.reports.getLast?,
    minutesPassed s.node now (checkDayOfMin tz now) =
      min (completed tz T now + 1 - period tz T r) 3

instance (tz T : Nat) (s : WindowRun) (now : Nat) : Decidable (CheckOk tz T s now) :=
  inferInstanceAs (Decidable (∀ r ∈ s.reports.getLast?, _))

section Adapt

variable {tz T : Nat} {iDataType : AttrDataType} {rs : List Report} {p d : Nat}
variable {node : TWarnAttrReportInfo} {now i : Nat}

theorem adaptReportValue_eq (hty : node.bAttrDataType ≠ .SUM_REPORT_TOTAL) :
    adaptReportValue node now i =
      match minutesPassed node now i with
      | 0 => (node.dwLastVal, node.dwPreLastVal)
      | 1 => (node.dwCurVal, node.dwLastVal)
      | 2 => (0, node.dwCurVal)
      | _ => (0, 0) := by
  simp only [adaptReportValue, minutesPassed, hty, reduceIte]
  split
  · rfl
  · by_cases hi : i = node.iMinIdx
    · simp [hi]
    · simp only [hi, ne_eq, not_false_eq_true, reduceIte]
      split
      · rfl
      · split <;> rfl

theorem carried_of_ne (hty : iDataType ≠ .SUM_REPORT_TOTAL) (cur : UInt32) :
    carried iDataType cur = 0 := by
  simp [carried, hty]

theorem adaptReportValue_right (hty : iDataType ≠ .SUM_REPORT_TOTAL)
    (hnode : node.bAttrDataType = iDataType) (hw : WindowAt tz T iDataType rs p node)
    (hrs : ∀ r ∈ rs, period tz T r ≤ p) (hpass : minutesPassed node now i = min d 3) :
    adaptReportValue node now i =
      (aggregate tz T iDataType rs (p + d) 1, aggregate tz T iDataType rs (p + d) 2) := by
  rw [adaptReportValue_eq (by rw [hnode]; exact hty), hpass]
  match d with
  | 0 => simp [hw.2.1, hw.2.2]
  | 1 =>
    simp only [aggregate_move 1 0, aggregate_move 1 1, hw.1, hw.2.1]
    rfl
  | 2 =>
    simp only [aggregate_move 2 0, aggregate_carried hrs (Nat.lt_succ_self 1),
      carried_of_ne hty, hw.1]
    rfl
  | d + 3 =>
    have hmin : min (d + 3) 3 = 3 := by omega
    simp only [aggregate_carried hrs (show 1 < d + 3 by omega),
      aggregate_carried hrs (show 2 < d + 3 by omega), carried_of_ne hty, hmin]

theorem period_le_completed (tz : Nat) {r : Report} (hT : 0 < T) (h : r.time ≤ now) :
    period tz T r ≤ completed tz T now + 1 := by
  have hsum : now + tz + 60 * T = now + tz + 60 * T * 1 := by omega
  calc
    period tz T r ≤ (now + tz + 60 * T) / (60 * T) := by
      apply Nat.div_le_div_right
      omega
    _ = completed tz T now + 1 := by
      rw [completed, hsum, Nat.add_mul_div_left _ _ (by omega)]

end Adapt

/-- After every sequence of reports that meet their condition, at every later time that meets the
checker's, the checker reads the aggregates of the two last completed periods. -/
theorem alarm_input_right (tz T : Nat) (hT : isValidStaticTime T = true) (iDataType : AttrDataType)
    (hty : iDataType ≠ .SUM_REPORT_TOTAL) (node : TWarnAttrReportInfo) (rs : List Report)
    (hok : Admissible (reportStep tz T iDataType) (ReportOk tz T iDataType)
      (WindowRun.start node) rs) :
    ∃ os s, runSteps (reportStep tz T iDataType) (WindowRun.start node) rs = some (os, s) ∧
      ∀ r ∈ rs.getLast?, ∀ now, r.time ≤ now → CheckOk tz T s now →
        adaptReportValue s.node now (checkDayOfMin tz now) =
          (aggregate tz T iDataType rs (completed tz T now) 0,
            aggregate tz T iDataType rs (completed tz T now) 1) := by
  obtain ⟨os, s, hrun, rfl, hinv⟩ := runSteps_report_inv (valid_pos hT) node hok
  refine ⟨os, s, hrun, ?_⟩
  intro r hr now hnow hcheck
  have hmem : r ∈ s.reports := List.mem_of_getLast? hr
  have hle := period_le_completed tz (valid_pos hT) hnow
  have hsum : period tz T r + (completed tz T now + 1 - period tz T r) = completed tz T now + 1 :=
    Nat.add_sub_cancel' hle
  have hright := adaptReportValue_right hty (hinv.kind (List.ne_nil_of_mem hmem)).1
    (hinv.right r hr) (hinv.period_le hr) (hcheck r hr)
  rw [hsum] at hright
  rw [hright, aggregate_move 1 0, aggregate_move 1 1]

/-- A minute attribute: the check two minutes after the last report. -/
theorem alarm_input_right_minute :
    isValidStaticTime 1 = true ∧
    ∃ os s, runSteps (reportStep 0 1 .SUM_REPORT_M) (WindowRun.start emptySlot)
        [⟨100, 5⟩, ⟨150, 7⟩] = some (os, s) ∧
      CheckOk 0 1 s 200 ∧
      adaptReportValue s.node 200 (checkDayOfMin 0 200) =
        (aggregate 0 1 .SUM_REPORT_M [⟨100, 5⟩, ⟨150, 7⟩] (completed 0 1 200) 0,
          aggregate 0 1 .SUM_REPORT_M [⟨100, 5⟩, ⟨150, 7⟩] (completed 0 1 200) 1) := by
  refine ⟨by decide, ?_⟩
  obtain ⟨os, s, hrun, hright⟩ := alarm_input_right 0 1 (by decide) .SUM_REPORT_M (by decide)
    emptySlot [⟨100, 5⟩, ⟨150, 7⟩] (by decide +kernel)
  have hcheck : CheckOk 0 1 s 200 := by
    obtain ⟨-, rfl⟩ := Prod.mk.inj (Option.some.inj hrun)
    decide +kernel
  exact ⟨os, s, hrun, hcheck, hright ⟨150, 7⟩ rfl 200 (by decide) hcheck⟩

/-- A five minute attribute: the checker takes the index of the period for a minute of the day
and reads nothing. -/
theorem alarm_input_five_minutes_lost :
    ¬ ∃ os s, runSteps (reportStep 0 5 .SUM_REPORT_M) (WindowRun.start emptySlot)
        [⟨36090, 5⟩] = some (os, s) ∧
      adaptReportValue s.node 36360 (checkDayOfMin 0 36360) =
        (aggregate 0 5 .SUM_REPORT_M [⟨36090, 5⟩] (completed 0 5 36360) 0,
          aggregate 0 5 .SUM_REPORT_M [⟨36090, 5⟩] (completed 0 5 36360) 1) := by
  rintro ⟨os, s, hrun, hright⟩
  obtain ⟨-, rfl⟩ := Prod.mk.inj (Option.some.inj hrun)
  revert hright
  decide +kernel

end XrkMonitor.WarnAttr
