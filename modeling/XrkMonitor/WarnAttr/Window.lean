import Mathlib.Data.List.MinMax
import XrkMonitor.Library.MachineWord
import XrkMonitor.Library.Periods
import XrkMonitor.Library.Run

/-!
# The period window of an attribute

The attribute server keeps, for an attribute and a machine, the value of the running
period and of the two periods before it. `AddReportToWarnAttrShm` decides from the
index of the period in the day, and from the time since the last report, how the
window moves. The values are compared with the aggregates of the reports by period.

## Implementation notes

Times are seconds since the epoch, `tz` is the offset of the local time. A period of
`T` minutes ends with its last second, as `GetDayOfMin` counts them, so the period of a
time is the number of periods that have begun before it. The hash lookup gives the
node of the pair and whether it was in use. The identifiers and the address of the
last report are left out: one pair is modelled.
-/

namespace XrkMonitor.WarnAttr

open Library

/-- The data types of attributes. -/
inductive AttrDataType
  | SUM_REPORT_M
  | SUM_REPORT_MIN
  | EX_REPORT
  | SUM_REPORT_MAX
  | SUM_REPORT_TOTAL
  | STR_REPORT_D
  | STR_REPORT_D_IP
  | DATA_USE_LAST
deriving Repr, DecidableEq

def COUNT_STATIC_TIMES_PER_DAY : Nat := 1440

/-- The part of `TIME_INFO` that gives the time of day. -/
structure TimeInfo where
  hour : Nat
  min : Nat
  sec : Nat
deriving Repr, DecidableEq

/-- `TWarnAttrReportInfo`. -/
structure TWarnAttrReportInfo where
  dwPreLastVal : UInt32
  dwLastVal : UInt32
  dwCurVal : UInt32
  iMinIdx : Nat
  dwLastReportTime : Nat
  bAttrDataType : AttrDataType
  wStaticTime : Nat
  dwLastToDbTime : Nat
  wLastToDbIdx : Nat
deriving Repr, DecidableEq

section Operations

/-- `uitotime_info` reads the local time of day of a 32-bit time. -/
def uitotimeInfo (tz now : Nat) : TimeInfo where
  hour := (now % 2 ^ 32 + tz) / 3600 % 24
  min := (now % 2 ^ 32 + tz) / 60 % 60
  sec := (now % 2 ^ 32 + tz) % 60

/-- `GetDayOfMin`; the subtraction at zero is the source's clip of a negative index. -/
def getDayOfMin (info : TimeInfo) (iStaticTime : Nat) : Nat :=
  let iStaticTime := if iStaticTime = 0 then 1 else iStaticTime
  let i := (info.hour * 60 + info.min) / iStaticTime
  let i := if i % iStaticTime ≠ 0 ∨ 0 < info.sec then i + 1 else i
  let i := i - 1
  if COUNT_STATIC_TIMES_PER_DAY ≤ i then COUNT_STATIC_TIMES_PER_DAY - 1 else i

/-- `IsValidStaticTime`. -/
def isValidStaticTime (iStaticTime : Nat) : Bool :=
  iStaticTime ∈ [1, 5, 10, 15, 30, 60, 120, 180]

/-- The value of a period in which nothing is reported. -/
def carried (iDataType : AttrDataType) (cur : UInt32) : UInt32 :=
  if iDataType = .SUM_REPORT_TOTAL then cur else 0

/-- The value of a period after its first report. -/
def started (iDataType : AttrDataType) (cur val : UInt32) : UInt32 :=
  if iDataType = .SUM_REPORT_TOTAL then cur + val else val

/-- The value of a period after a further report. -/
def merged (iDataType : AttrDataType) (cur val : UInt32) : UInt32 :=
  if iDataType = .SUM_REPORT_MIN then
    if val < cur then val else cur
  else if iDataType = .SUM_REPORT_MAX then
    if cur < val then val else cur
  else if iDataType = .DATA_USE_LAST then
    val
  else
    cur + val

/-- The rule for a long time without reports. -/
def lostReports (node : TWarnAttrReportInfo) (iStaticTime now : Nat) : Bool :=
  (node.dwLastReportTime + iStaticTime * 60 * 2) % 2 ^ 32 < now

/-- The window after a report, when the node was in use. -/
def moveWindow (node : TWarnAttrReportInfo) (dwVal : UInt32) (iMinIdx : Nat)
    (iDataType : AttrDataType) (iStaticTime now : Nat) : TWarnAttrReportInfo :=
  if lostReports node iStaticTime now then
    { node with
      dwPreLastVal := carried iDataType node.dwCurVal
      dwLastVal := carried iDataType node.dwCurVal
      dwCurVal := started iDataType node.dwCurVal dwVal }
  else if node.iMinIdx = iMinIdx then
    { node with
      dwCurVal := merged iDataType node.dwCurVal dwVal }
  else if node.iMinIdx + 1 = iMinIdx then
    { node with
      dwPreLastVal := node.dwLastVal
      dwLastVal := node.dwCurVal
      dwCurVal := started iDataType node.dwCurVal dwVal }
  else if node.iMinIdx + 2 = iMinIdx then
    { node with
      dwPreLastVal := node.dwCurVal
      dwLastVal := carried iDataType node.dwCurVal
      dwCurVal := started iDataType node.dwCurVal dwVal }
  else
    { node with
      dwPreLastVal := carried iDataType node.dwCurVal
      dwLastVal := carried iDataType node.dwCurVal
      dwCurVal := started iDataType node.dwCurVal dwVal }

/-- `AddReportToWarnAttrShm` on the node that `GetWarnAttrInfo` gives; `dwIsFind` tells whether
the node was in use. -/
def addReportToWarnAttrShm (node : TWarnAttrReportInfo) (dwIsFind : Bool) (dwVal : UInt32)
    (iMinIdx : Nat) (iDataType : AttrDataType) (iStaticTime now : Nat) : TWarnAttrReportInfo :=
  let node :=
    if dwIsFind then
      moveWindow node dwVal iMinIdx iDataType iStaticTime now
    else
      { node with
        dwPreLastVal := 0
        dwLastVal := 0
        dwCurVal := dwVal }
  { node with
    bAttrDataType := iDataType
    wStaticTime := iStaticTime
    iMinIdx := iMinIdx
    dwLastReportTime := now % 2 ^ 32 }

end Operations

/-- A report: its time and its value. -/
structure Report where
  time : Nat
  val : UInt32
deriving Repr, DecidableEq

section Aggregates

/-- The periods that have begun before a time. -/
def periodAt (tz T t : Nat) : Nat := (t + tz + 60 * T - 1) / (60 * T)

/-- The period of a report. -/
abbrev period (tz T : Nat) (r : Report) : Nat := periodAt tz T r.time

/-- The sum of the values, as a 32-bit counter has it. -/
def sumOf (rs : List Report) : UInt32 := rs.foldl (fun x r => x + r.val) 0

/-- The aggregate of the period `k` periods before period `p`. -/
def aggregate (tz T : Nat) (iDataType : AttrDataType) (rs : List Report) (p k : Nat) : UInt32 :=
  match iDataType with
  | .SUM_REPORT_TOTAL => sumOf (upTo (period tz T) rs p k)
  | .SUM_REPORT_MIN => ((back (period tz T) rs p k).map Report.val).min?.getD 0
  | .SUM_REPORT_MAX => ((back (period tz T) rs p k).map Report.val).max?.getD 0
  | .DATA_USE_LAST => ((back (period tz T) rs p k).map Report.val).getLast?.getD 0
  | _ => sumOf (back (period tz T) rs p k)

variable {tz T : Nat} {ty : AttrDataType} {rs : List Report} {r : Report} {p : Nat}
  {vs : List UInt32}

theorem sumOf_append (rs : List Report) (r : Report) : sumOf (rs ++ [r]) = sumOf rs + r.val := by
  simp [sumOf]

theorem aggregate_append_succ (hr : p ≤ period tz T r) (k : Nat) :
    aggregate tz T ty (rs ++ [r]) p (k + 1) = aggregate tz T ty rs p (k + 1) := by
  simp only [aggregate, back_append_succ hr, upTo_append_succ hr]

theorem aggregate_move (d k : Nat) :
    aggregate tz T ty rs (p + d) (k + d) = aggregate tz T ty rs p k := by
  simp only [aggregate, back_move, upTo_move]

theorem aggregate_carried (hrs : ∀ r ∈ rs, period tz T r ≤ p) {d k : Nat} (h : k < d) :
    aggregate tz T ty rs (p + d) k = carried ty (aggregate tz T ty rs p 0) := by
  have hall : upTo (period tz T) rs p 0 = rs := upTo_of_le (d := 0) hrs (Nat.le_refl 0)
  cases ty <;>
    simp [aggregate, carried, back_of_lt hrs h, upTo_of_le hrs (Nat.le_of_lt h), hall, sumOf]

theorem aggregate_started (hrs : ∀ r ∈ rs, period tz T r ≤ p) {d : Nat} (hd : 0 < d)
    (hr : period tz T r = p + d) :
    aggregate tz T ty (rs ++ [r]) (p + d) 0 = started ty (aggregate tz T ty rs p 0) r.val := by
  have hall : upTo (period tz T) rs p 0 = rs := upTo_of_le (d := 0) hrs (Nat.le_refl 0)
  cases ty <;>
    simp [aggregate, started, back_append_zero hr, upTo_append_zero hr, back_of_lt hrs hd,
      upTo_of_le hrs (Nat.zero_le d), hall, sumOf]

theorem merged_min (cur val : UInt32) : merged .SUM_REPORT_MIN cur val = min cur val := by
  have hmin : min cur val = if cur ≤ val then cur else val := rfl
  simp only [merged, reduceIte, hmin]
  grind [UInt32.not_le]

theorem merged_max (cur val : UInt32) : merged .SUM_REPORT_MAX cur val = max cur val := by
  have hmax : max cur val = if cur ≤ val then val else cur := rfl
  simp only [merged, reduceCtorEq, reduceIte, hmax]
  split <;> split <;> grind [UInt32.not_le]

theorem min?_append_single (hvs : vs ≠ []) (v : UInt32) :
    (vs ++ [v]).min?.getD 0 = min (vs.min?.getD 0) v := by
  obtain ⟨x, xs, rfl⟩ := List.exists_cons_of_ne_nil hvs
  simp only [List.cons_append, List.min?_cons', List.foldl_append, List.foldl_cons,
    List.foldl_nil, Option.getD_some]

theorem max?_append_single (hvs : vs ≠ []) (v : UInt32) :
    (vs ++ [v]).max?.getD 0 = max (vs.max?.getD 0) v := by
  obtain ⟨x, xs, rfl⟩ := List.exists_cons_of_ne_nil hvs
  simp only [List.cons_append, List.max?_cons', List.foldl_append, List.foldl_cons,
    List.foldl_nil, Option.getD_some]

theorem aggregate_merged (hr : period tz T r = p) {r₀ : Report} (hr₀ : r₀ ∈ rs)
    (hp : period tz T r₀ = p) :
    aggregate tz T ty (rs ++ [r]) p 0 = merged ty (aggregate tz T ty rs p 0) r.val := by
  have hne : (back (period tz T) rs p 0).map Report.val ≠ [] := by
    apply List.ne_nil_of_mem (a := r₀.val)
    apply List.mem_map_of_mem
    simp [back, hr₀, hp]
  cases ty with
  | SUM_REPORT_MIN =>
    rw [merged_min]
    simp [aggregate, back_append_zero hr, min?_append_single hne]
  | SUM_REPORT_MAX =>
    rw [merged_max]
    simp [aggregate, back_append_zero hr, max?_append_single hne]
  | _ => simp [aggregate, merged, back_append_zero hr, upTo_append_zero hr, sumOf_append]

end Aggregates

section Times

variable {tz T t t' : Nat}

theorem le_periodAt_mul (tz : Nat) (hT : 0 < T) : t + tz ≤ periodAt tz T t * (60 * T) := by
  have h := Nat.lt_div_mul_add (a := t + tz + 60 * T - 1) (b := 60 * T) (by omega)
  simp only [periodAt]
  omega

theorem periodAt_mul_lt (tz : Nat) (hT : 0 < T) : periodAt tz T t * (60 * T) < t + tz + 60 * T := by
  have h := Nat.div_mul_le_self (t + tz + 60 * T - 1) (60 * T)
  simp only [periodAt]
  omega

theorem add_lt_of_periodAt_lt (hT : 0 < T) {j : Nat}
    (h : periodAt tz T t + j < periodAt tz T t') : t + j * (60 * T) < t' := by
  have hmul : (periodAt tz T t + j + 1) * (60 * T) ≤ periodAt tz T t' * (60 * T) :=
    Nat.mul_le_mul_right _ h
  have hlow := le_periodAt_mul (t := t) tz hT
  have hhigh := periodAt_mul_lt (t := t') tz hT
  simp only [Nat.add_mul, Nat.one_mul] at hmul
  omega

theorem periodAt_le_of_le (h : t ≤ t') : periodAt tz T t ≤ periodAt tz T t' := by
  apply Nat.div_le_div_right
  omega

theorem valid_pos (hT : isValidStaticTime T = true) : 0 < T := by
  simp only [isValidStaticTime, List.mem_cons, List.not_mem_nil, or_false,
    decide_eq_true_eq] at hT
  omega

end Times

/-- The node of a pair and the reports that were made. -/
structure WindowRun where
  node : TWarnAttrReportInfo
  dwIsFind : Bool
  reports : List Report
deriving Repr, DecidableEq

section Runs

variable (tz T : Nat) (iDataType : AttrDataType)

/-- The state before the first report; `node` is what the free slot holds. -/
def WindowRun.start (node : TWarnAttrReportInfo) : WindowRun where
  node := node
  dwIsFind := false
  reports := []

/-- A report at its time, with the index `GetDayOfMin` gives. -/
def WindowRun.report (s : WindowRun) (r : Report) : WindowRun where
  node := addReportToWarnAttrShm s.node s.dwIsFind r.val (getDayOfMin (uitotimeInfo tz r.time) T)
    iDataType T r.time
  dwIsFind := true
  reports := s.reports ++ [r]

def reportStep (s : WindowRun) (r : Report) : Option (Unit × WindowRun) :=
  some ((), s.report tz T iDataType r)

/-- The times are in order, and a report at most two periods after the last one has an index
that moved by as many, and is not taken for lost: two periods later a cumulative attribute
may be. -/
def ReportOk (s : WindowRun) (r : Report) : Prop :=
  ∀ r₀ ∈ s.reports.getLast?,
    r₀.time ≤ r.time ∧
    (period tz T r ≤ period tz T r₀ + 2 →
      period tz T r₀ + getDayOfMin (uitotimeInfo tz r.time) T = period tz T r + s.node.iMinIdx ∧
      (lostReports s.node T r.time = true →
        iDataType = .SUM_REPORT_TOTAL ∧ period tz T r = period tz T r₀ + 2))

instance (s : WindowRun) (r : Report) : Decidable (ReportOk tz T iDataType s r) :=
  inferInstanceAs (Decidable (∀ r₀ ∈ s.reports.getLast?, _))

/-- The values of the window are the aggregates of period `p` and of the two before it. -/
def WindowAt (rs : List Report) (p : Nat) (node : TWarnAttrReportInfo) : Prop :=
  node.dwCurVal = aggregate tz T iDataType rs p 0 ∧
  node.dwLastVal = aggregate tz T iDataType rs p 1 ∧
  node.dwPreLastVal = aggregate tz T iDataType rs p 2

/-- The window holds the aggregates of the running period and of the two before it. -/
def WindowRight (s : WindowRun) : Prop :=
  ∀ r ∈ s.reports.getLast?, WindowAt tz T iDataType s.reports (period tz T r) s.node

/-- What reports keep: the window is right for the last report, which is the latest. -/
structure WindowInv (s : WindowRun) : Prop where
  found : s.dwIsFind = true ↔ s.reports ≠ []
  kind : s.reports ≠ [] → s.node.bAttrDataType = iDataType ∧ s.node.wStaticTime = T
  lastTime : ∀ r ∈ s.reports.getLast?, s.node.dwLastReportTime = r.time % 2 ^ 32
  latest : ∀ r ∈ s.reports.getLast?, ∀ r' ∈ s.reports, r'.time ≤ r.time
  right : WindowRight tz T iDataType s

variable {tz T iDataType} {s : WindowRun} {rs : List Report} {r₀ : Report}

theorem WindowInv.start (node : TWarnAttrReportInfo) :
    WindowInv tz T iDataType (WindowRun.start node) where
  found := by simp [WindowRun.start]
  kind := by simp [WindowRun.start]
  lastTime := by simp [WindowRun.start]
  latest := by simp [WindowRun.start]
  right := by simp [WindowRun.start, WindowRight]

theorem lostReports_of_period_lt (tz : Nat) (hT : 0 < T) {node : TWarnAttrReportInfo} {r₀ r : Report}
    (htime : node.dwLastReportTime = r₀.time % 2 ^ 32)
    (h : period tz T r₀ + 2 < period tz T r) : lostReports node T r.time = true := by
  have hlt := add_lt_of_periodAt_lt hT h
  have hmod := Nat.mod_le (node.dwLastReportTime + T * 60 * 2) (2 ^ 32)
  have hle := Nat.mod_le r₀.time (2 ^ 32)
  simp only [lostReports, decide_eq_true_eq]
  omega

section Move

variable {rs : List Report} {r : Report} {node : TWarnAttrReportInfo} {p d i : Nat} {r₀ : Report}

theorem WindowAt.append (hr : period tz T r = p) {cur last pre : UInt32}
    (hcur : cur = aggregate tz T iDataType (rs ++ [r]) p 0)
    (hlast : last = aggregate tz T iDataType rs p 1)
    (hpre : pre = aggregate tz T iDataType rs p 2) :
    WindowAt tz T iDataType (rs ++ [r]) p
      { node with
        dwPreLastVal := pre
        dwLastVal := last
        dwCurVal := cur } := by
  refine ⟨hcur, ?_, ?_⟩
  · rw [aggregate_append_succ hr.ge]
    exact hlast
  · rw [aggregate_append_succ hr.ge]
    exact hpre

theorem WindowAt.lost (hw : WindowAt tz T iDataType rs p node)
    (hrs : ∀ r ∈ rs, period tz T r ≤ p) (hr : period tz T r = p + d)
    (hd : 2 < d ∨ iDataType = .SUM_REPORT_TOTAL ∧ d = 2) :
    WindowAt tz T iDataType (rs ++ [r]) (p + d)
      { node with
        dwPreLastVal := carried iDataType node.dwCurVal
        dwLastVal := carried iDataType node.dwCurVal
        dwCurVal := started iDataType node.dwCurVal r.val } := by
  have hpos : 0 < d := by omega
  apply WindowAt.append hr
  · rw [hw.1, aggregate_started hrs hpos hr]
  · rw [hw.1, aggregate_carried hrs (by omega)]
  · obtain hlt | ⟨rfl, rfl⟩ := hd
    · rw [hw.1, aggregate_carried hrs hlt]
    · rw [hw.1, aggregate_move 2 0]
      rfl

theorem WindowAt.same (hw : WindowAt tz T iDataType rs p node) (hr₀ : r₀ ∈ rs)
    (hp : period tz T r₀ = p) (hr : period tz T r = p) :
    WindowAt tz T iDataType (rs ++ [r]) p
      { node with
        dwCurVal := merged iDataType node.dwCurVal r.val } := by
  apply WindowAt.append hr
  · rw [hw.1, aggregate_merged hr hr₀ hp]
  · exact hw.2.1
  · exact hw.2.2

theorem WindowAt.next (hw : WindowAt tz T iDataType rs p node)
    (hrs : ∀ r ∈ rs, period tz T r ≤ p) (hr : period tz T r = p + 1) :
    WindowAt tz T iDataType (rs ++ [r]) (p + 1)
      { node with
        dwPreLastVal := node.dwLastVal
        dwLastVal := node.dwCurVal
        dwCurVal := started iDataType node.dwCurVal r.val } := by
  apply WindowAt.append hr
  · rw [hw.1, aggregate_started hrs (Nat.succ_pos 0) hr]
  · rw [hw.1, aggregate_move 1 0]
  · rw [hw.2.1, aggregate_move 1 1]

theorem WindowAt.second (hw : WindowAt tz T iDataType rs p node)
    (hrs : ∀ r ∈ rs, period tz T r ≤ p) (hr : period tz T r = p + 2) :
    WindowAt tz T iDataType (rs ++ [r]) (p + 2)
      { node with
        dwPreLastVal := node.dwCurVal
        dwLastVal := carried iDataType node.dwCurVal
        dwCurVal := started iDataType node.dwCurVal r.val } := by
  apply WindowAt.append hr
  · rw [hw.1, aggregate_started hrs (Nat.succ_pos 1) hr]
  · rw [hw.1, aggregate_carried hrs (Nat.lt_succ_self 1)]
  · rw [hw.1, aggregate_move 2 0]

theorem moveWindow_right (hw : WindowAt tz T iDataType rs p node)
    (hrs : ∀ r ∈ rs, period tz T r ≤ p) (hr₀ : r₀ ∈ rs) (hp : period tz T r₀ = p)
    (hr : period tz T r = p + d) (hlost : 2 < d → lostReports node T r.time = true)
    (hidx : d ≤ 2 → i = node.iMinIdx + d ∧
      (lostReports node T r.time = true → iDataType = .SUM_REPORT_TOTAL ∧ d = 2)) :
    WindowAt tz T iDataType (rs ++ [r]) (p + d)
      (moveWindow node r.val i iDataType T r.time) := by
  cases hl : lostReports node T r.time with
  | true =>
    simp only [moveWindow, hl, reduceIte]
    apply hw.lost hrs hr
    obtain hd | hd := Nat.lt_or_ge 2 d
    · exact Or.inl hd
    · exact Or.inr ((hidx hd).2 hl)
  | false =>
    have hd : d ≤ 2 := by
      apply Nat.le_of_not_lt
      intro hd
      simp [hlost hd] at hl
    obtain ⟨rfl, -⟩ := hidx hd
    simp only [moveWindow, hl]
    match d, hd with
    | 0, _ => simpa using hw.same hr₀ hp hr
    | 1, _ => simpa using hw.next hrs hr
    | 2, _ => simpa using hw.second hrs hr

end Move

theorem WindowInv.first (h : WindowInv tz T iDataType s) (hnil : s.reports = [])
    (r : Report) : WindowInv tz T iDataType (s.report tz T iDataType r) := by
  have hfind : s.dwIsFind = false := by
    apply Bool.eq_false_iff.mpr
    intro ht
    exact h.found.mp ht hnil
  constructor
  · simp [WindowRun.report]
  · simp [WindowRun.report, addReportToWarnAttrShm]
  · simp [WindowRun.report, hnil, addReportToWarnAttrShm]
  · simp [WindowRun.report, hnil]
  · intro r' hr'
    simp only [WindowRun.report, hnil, List.nil_append, List.getLast?_singleton,
      Option.mem_some_iff] at hr'
    subst hr'
    simp only [WindowRun.report, hnil, List.nil_append, hfind, addReportToWarnAttrShm,
      Bool.false_eq_true, reduceIte]
    cases iDataType <;>
      simp [WindowAt, aggregate, back, upTo, sumOf]

theorem WindowInv.period_le (h : WindowInv tz T iDataType s)
    (hr₀ : r₀ ∈ s.reports.getLast?) : ∀ r ∈ s.reports, period tz T r ≤ period tz T r₀ := by
  intro r hr
  exact periodAt_le_of_le (h.latest r₀ hr₀ r hr)

theorem WindowInv.next (hT : 0 < T) (h : WindowInv tz T iDataType s)
    (hr₀ : r₀ ∈ s.reports.getLast?) {r : Report} (hok : ReportOk tz T iDataType s r) :
    WindowInv tz T iDataType (s.report tz T iDataType r) := by
  have hmem : r₀ ∈ s.reports := List.mem_of_getLast? hr₀
  have hfind : s.dwIsFind = true := h.found.mpr (List.ne_nil_of_mem hmem)
  obtain ⟨htime, hidx⟩ := hok r₀ hr₀
  have hrs := h.period_le hr₀
  obtain ⟨d, hd⟩ : ∃ d, period tz T r = period tz T r₀ + d :=
    Nat.exists_eq_add_of_le (periodAt_le_of_le htime)
  constructor
  · simp [WindowRun.report]
  · simp [WindowRun.report, addReportToWarnAttrShm]
  · simp [WindowRun.report, addReportToWarnAttrShm]
  · intro r₁ hr₁ r' hr'
    simp only [WindowRun.report, List.getLast?_concat, Option.mem_some_iff] at hr₁
    simp only [WindowRun.report, List.mem_append, List.mem_singleton] at hr'
    subst hr₁
    obtain hr' | rfl := hr'
    · exact le_trans (h.latest r₀ hr₀ r' hr') htime
    · exact le_rfl
  · intro r₁ hr₁
    simp only [WindowRun.report, List.getLast?_concat, Option.mem_some_iff] at hr₁
    subst hr₁
    have hmove := moveWindow_right (i := getDayOfMin (uitotimeInfo tz r.time) T) (h.right r₀ hr₀)
      hrs hmem rfl hd
      (fun hlt => lostReports_of_period_lt tz hT (h.lastTime r₀ hr₀) (by omega))
      (by
        intro hle
        obtain ⟨hi, hlost⟩ := hidx (by omega)
        exact ⟨by omega, fun hl => ⟨(hlost hl).1, by have := (hlost hl).2; omega⟩⟩)
    simp only [WindowRun.report, addReportToWarnAttrShm, hfind, reduceIte, hd]
    exact hmove

theorem reportStep_inv (hT : 0 < T) (s : WindowRun) (r : Report)
    (h : WindowInv tz T iDataType s) (hok : ReportOk tz T iDataType s r) :
    ∃ o s', reportStep tz T iDataType s r = some (o, s') ∧ True ∧ WindowInv tz T iDataType s' := by
  refine ⟨(), s.report tz T iDataType r, rfl, trivial, ?_⟩
  cases hr₀ : s.reports.getLast? with
  | none => exact h.first (List.getLast?_eq_none_iff.mp hr₀) r
  | some r₀ => exact h.next hT hr₀ hok

theorem runSteps_report_reports {s s' : WindowRun} {os : List Unit}
    (h : runSteps (reportStep tz T iDataType) s rs = some (os, s')) :
    s'.reports = s.reports ++ rs := by
  induction rs generalizing s os with
  | nil =>
    obtain ⟨-, rfl⟩ := Prod.mk.inj (Option.some.inj h)
    simp
  | cons r rs ih =>
    simp only [runSteps, reportStep, Option.bind_eq_bind, Option.bind_some,
      Option.bind_eq_some_iff] at h
    obtain ⟨⟨os₁, s₁⟩, hs₁, hout⟩ := h
    obtain ⟨-, rfl⟩ := Prod.mk.inj (Option.some.inj hout)
    rw [ih hs₁]
    simp [WindowRun.report]

theorem runSteps_report_inv (hT : 0 < T) (node : TWarnAttrReportInfo)
    (hok : Admissible (reportStep tz T iDataType) (ReportOk tz T iDataType)
      (WindowRun.start node) rs) :
    ∃ os s, runSteps (reportStep tz T iDataType) (WindowRun.start node) rs = some (os, s) ∧
      s.reports = rs ∧ WindowInv tz T iDataType s := by
  obtain ⟨os, s, hrun, -, hinv⟩ :=
    run_invariant (reportStep_inv hT) rs (WindowRun.start node) (WindowInv.start node) hok
  refine ⟨os, s, hrun, ?_, hinv⟩
  rw [runSteps_report_reports hrun]
  rfl

/-- After every sequence of reports that meet the condition the window holds the aggregates of
the running period and of the two periods before it. -/
theorem attr_window_right (tz T : Nat) (hT : isValidStaticTime T = true)
    (iDataType : AttrDataType) (node : TWarnAttrReportInfo) (rs : List Report)
    (hok : Admissible (reportStep tz T iDataType) (ReportOk tz T iDataType)
      (WindowRun.start node) rs) :
    ∃ os s, runSteps (reportStep tz T iDataType) (WindowRun.start node) rs = some (os, s) ∧
      s.reports = rs ∧ WindowRight tz T iDataType s := by
  obtain ⟨os, s, hrun, hrs, hinv⟩ := runSteps_report_inv (valid_pos hT) node hok
  exact ⟨os, s, hrun, hrs, hinv.right⟩

/-- A slot of the hash that was never used. -/
def emptySlot : TWarnAttrReportInfo where
  dwPreLastVal := 0
  dwLastVal := 0
  dwCurVal := 0
  iMinIdx := 0
  dwLastReportTime := 0
  bAttrDataType := .SUM_REPORT_M
  wStaticTime := 0
  dwLastToDbTime := 0
  wLastToDbIdx := 0

/-- Reports of a minute, of the next one, of the second after it and after a long pause. -/
theorem attr_window_right_pauses :
    isValidStaticTime 1 = true ∧
    ∃ os s, runSteps (reportStep 0 1 .SUM_REPORT_M) (WindowRun.start emptySlot)
        [⟨100, 5⟩, ⟨110, 6⟩, ⟨150, 7⟩, ⟨250, 8⟩, ⟨90000, 9⟩] = some (os, s) ∧
      s.reports = [⟨100, 5⟩, ⟨110, 6⟩, ⟨150, 7⟩, ⟨250, 8⟩, ⟨90000, 9⟩] ∧
      WindowRight 0 1 .SUM_REPORT_M s :=
  ⟨by decide, attr_window_right 0 1 (by decide) .SUM_REPORT_M emptySlot _ (by decide +kernel)⟩

/-- A report of the last minute of a day and one of the first minute of the next day: the value of
the day's last minute is dropped. -/
theorem attr_window_midnight_lost :
    ¬ ∃ os s, runSteps (reportStep 0 1 .SUM_REPORT_M) (WindowRun.start emptySlot)
        [⟨86390, 5⟩, ⟨86410, 6⟩] = some (os, s) ∧
      s.reports = [⟨86390, 5⟩, ⟨86410, 6⟩] ∧ WindowRight 0 1 .SUM_REPORT_M s := by
  rintro ⟨os, s, hrun, -, hright⟩
  obtain ⟨-, rfl⟩ := Prod.mk.inj (Option.some.inj hrun)
  have hlast := (hright ⟨86410, 6⟩ rfl).2.1
  revert hlast
  decide +kernel

end Runs

end XrkMonitor.WarnAttr
