import XrkMonitor.WarnAttr.Window

/-!
# Writing completed periods to the database

From time to time the attribute server writes the value of the period before the
running one to the database, once in a period. Which value this is, and whether it was
written, is read off the window, its last report, and the index and time of the last
write.

## Implementation notes

One pair is modelled, with no failure of the database. A row stands for the period
before the one in which it is inserted. `now` is the time of the last event and `shown`
the last period in which a write met a report less than a period old: both are kept
beside the state for the statements, as are the rows.
-/

namespace XrkMonitor.WarnAttr

open Library

section Operations

/-- The last report is at least one period old. -/
def reportIsOld (node : TWarnAttrReportInfo) (now : Nat) : Bool :=
  (node.dwLastReportTime + node.wStaticTime * 60) % 2 ^ 32 ≤ now

/-- The value of the period before the running one, as `WriteAttrDataToDb` reads it. -/
def valueForDb (node : TWarnAttrReportInfo) (now idx : Nat) : UInt32 :=
  if reportIsOld node now then 0
  else if idx ≠ node.iMinIdx then
    if node.iMinIdx + 1 = idx then node.dwCurVal else 0
  else node.dwLastVal

/-- The period was written before. -/
def writtenToDb (node : TWarnAttrReportInfo) (now idx : Nat) : Bool :=
  node.wLastToDbIdx = idx ∧ now ≤ (node.dwLastToDbTime + node.wStaticTime * 60) % 2 ^ 32

/-- The body of the loop in `WriteAttrDataToDb`: the value that is inserted, if any, and the node. -/
def writeNodeToDb (tz : Nat) (node : TWarnAttrReportInfo) (now : Nat) :
    Option UInt32 × TWarnAttrReportInfo :=
  let idx := getDayOfMin (uitotimeInfo tz now) node.wStaticTime
  let dwLastVal := valueForDb node now idx
  if dwLastVal = 0 ∨ writtenToDb node now idx = true then
    (none, node)
  else
    (some dwLastVal,
      { node with
        wLastToDbIdx := idx
        dwLastToDbTime := now })

/-- `WriteAttrDataToDb` does nothing until some seconds after the last time. -/
def tooEarlyForDb (s_dwLastTrySaveDbTime now m_iRand : Nat) : Bool :=
  now < (s_dwLastTrySaveDbTime + 10 + m_iRand % 30) % 2 ^ 32

end Operations

/-- A row of the database: the time of the insert and the value. -/
structure Row where
  time : Nat
  value : UInt32
deriving Repr, DecidableEq

/-- The pair with its reports, the time of the last write, the rows, and the clock. -/
structure DbRun where
  window : WindowRun
  s_dwLastTrySaveDbTime : Nat
  rows : List Row
  now : Nat
  shown : Nat
deriving Repr, DecidableEq

/-- What happens to the pair. -/
inductive DbEvent
  | report (r : Report)
  | tick (now m_iRand : Nat)
deriving Repr, DecidableEq

def DbEvent.time : DbEvent → Nat
  | .report r => r.time
  | .tick now _ => now

/-- The reports of a schedule. -/
def reportsOf (evs : List DbEvent) : List Report :=
  evs.filterMap fun ev =>
    match ev with
    | .report r => some r
    | .tick _ _ => none

section Runs

variable (tz T : Nat) (iDataType : AttrDataType)

/-- The state before the first report; `node` is what the free slot holds. -/
def DbRun.start (node : TWarnAttrReportInfo) (now : Nat) : DbRun where
  window := WindowRun.start node
  s_dwLastTrySaveDbTime := 0
  rows := []
  now := now
  shown := 0

def DbRun.report (s : DbRun) (r : Report) : DbRun :=
  { s with
    window := s.window.report tz T iDataType r
    now := r.time }

/-- A write meets a report that is less than a period old. -/
def DbRun.meets (s : DbRun) (now m_iRand : Nat) : Bool :=
  !tooEarlyForDb s.s_dwLastTrySaveDbTime now m_iRand && s.window.dwIsFind &&
    !reportIsOld s.window.node now

/-- `WriteAttrDataToDb`. -/
def DbRun.tick (s : DbRun) (now m_iRand : Nat) : DbRun :=
  if tooEarlyForDb s.s_dwLastTrySaveDbTime now m_iRand then
    { s with
      now := now }
  else if s.window.dwIsFind then
    let (row, node) := writeNodeToDb tz s.window.node now
    { window :=
        { s.window with
          node := node }
      s_dwLastTrySaveDbTime := now
      rows := s.rows ++ (row.map fun v => ⟨now, v⟩).toList
      now := now
      shown := if s.meets now m_iRand then periodAt tz T now else s.shown }
  else
    { s with
      s_dwLastTrySaveDbTime := now
      now := now }

def dbStep (s : DbRun) : DbEvent → Option (Unit × DbRun)
  | .report r => some ((), s.report tz T iDataType r)
  | .tick now m_iRand => some ((), s.tick tz T now m_iRand)

/-- The values of the rows inserted in a period. -/
def DbRun.rowsIn (s : DbRun) (p : Nat) : List UInt32 :=
  (back (fun row => periodAt tz T row.time) s.rows p 0).map Row.value

/-- The rows a period should have: the aggregate of the period before it, unless that is zero. -/
def rowsFor (rs : List Report) (p : Nat) : List UInt32 :=
  if aggregate tz T iDataType rs p 1 = 0 then [] else [aggregate tz T iDataType rs p 1]

/-- The events are in order and at most 40 seconds apart, on a 32-bit clock. -/
def InTime (s : DbRun) (t : Nat) : Prop := s.now ≤ t ∧ t ≤ s.now + 40 ∧ t < 2 ^ 32

/-- When a period ends, the aggregate of the period before it is zero or a write in it met a report
less than a period old. -/
def LeaveOk (s : DbRun) (t : Nat) : Prop :=
  periodAt tz T s.now < periodAt tz T t →
    aggregate tz T iDataType s.window.reports (periodAt tz T s.now) 1 = 0 ∨
    s.shown = periodAt tz T s.now

/-- A write that meets a report finds an index that moved by as many periods as passed since, and
the mark of the last write tells whether that write was in the running period. -/
def TickOk (s : DbRun) (now m_iRand : Nat) : Prop :=
  s.meets now m_iRand = true → ∀ r ∈ s.window.reports.getLast?,
    period tz T r + getDayOfMin (uitotimeInfo tz now) T =
      periodAt tz T now + s.window.node.iMinIdx ∧
    (writtenToDb s.window.node now (getDayOfMin (uitotimeInfo tz now) T) = true ↔
      periodAt tz T s.window.node.dwLastToDbTime = periodAt tz T now)

/-- The condition on an event. -/
def DbOk (s : DbRun) (ev : DbEvent) : Prop :=
  InTime s ev.time ∧ LeaveOk tz T iDataType s ev.time ∧
    match ev with
    | .report r => ReportOk tz T iDataType s.window r
    | .tick now m_iRand => TickOk tz T s now m_iRand

instance (s : DbRun) (now m_iRand : Nat) : Decidable (TickOk tz T s now m_iRand) :=
  inferInstanceAs (Decidable (_ → ∀ r ∈ s.window.reports.getLast?, _))

instance (s : DbRun) (ev : DbEvent) : Decidable (DbOk tz T iDataType s ev) :=
  match ev with
  | .report _ => inferInstanceAs (Decidable ((_ ∧ _ ∧ _) ∧ (_ → _) ∧ _))
  | .tick _ _ => inferInstanceAs (Decidable ((_ ∧ _ ∧ _) ∧ (_ → _) ∧ _))

/-- What the events keep: every period that is over has its rows, and the running one has them once
they were shown. -/
structure DbInv (s : DbRun) : Prop where
  window : WindowInv tz T iDataType s.window
  latest : ∀ r ∈ s.window.reports.getLast?, r.time ≤ s.now
  rowsLe : ∀ row ∈ s.rows, periodAt tz T row.time ≤ periodAt tz T s.now
  shownLe : s.shown ≤ periodAt tz T s.now
  markLe : periodAt tz T s.window.node.dwLastToDbTime ≤ periodAt tz T s.now
  mark : periodAt tz T s.window.node.dwLastToDbTime = periodAt tz T s.now ↔
    s.rowsIn tz T (periodAt tz T s.now) ≠ []
  past : ∀ p < periodAt tz T s.now,
    s.rowsIn tz T p = rowsFor tz T iDataType s.window.reports p
  running : s.rowsIn tz T (periodAt tz T s.now) =
    if s.shown = periodAt tz T s.now then
      rowsFor tz T iDataType s.window.reports (periodAt tz T s.now)
    else []

variable {tz T iDataType} {s : DbRun} {r : Report} {node : TWarnAttrReportInfo} {now m_iRand : Nat}

theorem rowsFor_nil (p : Nat) : rowsFor tz T iDataType [] p = [] := by
  cases iDataType <;> simp [rowsFor, aggregate, back, upTo, sumOf]

theorem DbInv.start {now : Nat}
    (h : periodAt tz T node.dwLastToDbTime < periodAt tz T now) :
    DbInv tz T iDataType (DbRun.start node now) where
  window := WindowInv.start node
  latest := by simp [DbRun.start, WindowRun.start]
  rowsLe := by simp [DbRun.start]
  shownLe := Nat.zero_le _
  markLe := Nat.le_of_lt h
  mark := by
    have hne : periodAt tz T node.dwLastToDbTime ≠ periodAt tz T now := Nat.ne_of_lt h
    simp [DbRun.start, WindowRun.start, DbRun.rowsIn, back, hne]
  past := by
    intro p _
    simp [DbRun.start, WindowRun.start, DbRun.rowsIn, back, rowsFor_nil]
  running := by simp [DbRun.start, WindowRun.start, DbRun.rowsIn, back, rowsFor_nil]

theorem DbInv.rowsIn_of_lt (h : DbInv tz T iDataType s) {p : Nat}
    (hp : periodAt tz T s.now < p) : s.rowsIn tz T p = [] := by
  obtain ⟨d, hd⟩ := Nat.exists_eq_add_of_le (Nat.le_of_lt hp)
  rw [DbRun.rowsIn, hd, back_of_lt h.rowsLe (by omega), List.map_nil]

theorem InTime.period_cases (tz : Nat) {t : Nat} (hT : 0 < T) (h : InTime s t) :
    periodAt tz T t = periodAt tz T s.now ∨ periodAt tz T t = periodAt tz T s.now + 1 := by
  have hle : periodAt tz T s.now ≤ periodAt tz T t := periodAt_le_of_le h.1
  have hlt : ¬ periodAt tz T s.now + 1 < periodAt tz T t := by
    intro hlt
    have hadd := add_lt_of_periodAt_lt hT hlt
    have := h.2.1
    omega
  omega

/-- The clock may move on when the running period has its rows. -/
theorem DbInv.advance (hT : 0 < T) (h : DbInv tz T iDataType s) {t : Nat}
    (htime : InTime s t) (hleave : LeaveOk tz T iDataType s t) :
    DbInv tz T iDataType
      { s with
        now := t } := by
  have hlatest : ∀ r ∈ s.window.reports.getLast?, r.time ≤ t := by
    intro r hr
    exact le_trans (h.latest r hr) htime.1
  obtain heq | heq := htime.period_cases tz hT
  · constructor
    · exact h.window
    · exact hlatest
    · simpa only [heq] using h.rowsLe
    · simpa only [heq] using h.shownLe
    · simpa only [heq] using h.markLe
    · simpa only [DbRun.rowsIn, heq] using h.mark
    · simpa only [DbRun.rowsIn, heq] using h.past
    · simpa only [DbRun.rowsIn, heq] using h.running
  · have hnext : s.rowsIn tz T (periodAt tz T t) = [] := h.rowsIn_of_lt (by omega)
    have hshown : s.shown ≠ periodAt tz T t := by
      have := h.shownLe
      omega
    have hmark := h.markLe
    constructor
    · exact h.window
    · exact hlatest
    · intro row hrow
      have := h.rowsLe row hrow
      change _ ≤ periodAt tz T t
      omega
    · have := h.shownLe
      change s.shown ≤ periodAt tz T t
      omega
    · change periodAt tz T s.window.node.dwLastToDbTime ≤ periodAt tz T t
      omega
    · have hne : periodAt tz T s.window.node.dwLastToDbTime ≠ periodAt tz T t := by omega
      exact iff_of_false hne (not_not.mpr hnext)
    · intro p hp
      obtain hlt | rfl : p < periodAt tz T s.now ∨ p = periodAt tz T s.now := by
        change p < periodAt tz T t at hp
        omega
      · exact h.past p hlt
      · change s.rowsIn tz T _ = _
        rw [h.running]
        obtain hzero | hs := hleave (by omega)
        · simp [rowsFor, hzero]
        · simp [hs]
    · change s.rowsIn tz T (periodAt tz T t) = if s.shown = periodAt tz T t then _ else _
      rw [hnext]
      simp [hshown]

theorem rowsFor_append {rs : List Report} {p : Nat} (hr : p ≤ period tz T r) :
    rowsFor tz T iDataType (rs ++ [r]) p = rowsFor tz T iDataType rs p := by
  simp only [rowsFor, aggregate_append_succ hr]

theorem addReport_dwLastToDbTime (node : TWarnAttrReportInfo) (dwIsFind : Bool) (dwVal : UInt32)
    (iMinIdx : Nat) (iDataType : AttrDataType) (iStaticTime now : Nat) :
    (addReportToWarnAttrShm node dwIsFind dwVal iMinIdx iDataType iStaticTime now).dwLastToDbTime =
      node.dwLastToDbTime := by
  simp only [addReportToWarnAttrShm, moveWindow]
  split
  · split
    · rfl
    · split
      · rfl
      · split
        · rfl
        · split <;> rfl
  · rfl

theorem DbInv.report (h : DbInv tz T iDataType s) (hr : s.now = r.time)
    (hwin : WindowInv tz T iDataType (s.window.report tz T iDataType r)) :
    DbInv tz T iDataType (s.report tz T iDataType r) := by
  have hmark : (s.window.report tz T iDataType r).node.dwLastToDbTime =
      s.window.node.dwLastToDbTime := addReport_dwLastToDbTime ..
  have hfor : ∀ p ≤ periodAt tz T r.time,
      rowsFor tz T iDataType (s.window.reports ++ [r]) p =
        rowsFor tz T iDataType s.window.reports p := by
    intro p hp
    exact rowsFor_append hp
  constructor
  · exact hwin
  · simp [DbRun.report, WindowRun.report]
  · simpa only [DbRun.report, hr] using h.rowsLe
  · simpa only [DbRun.report, hr] using h.shownLe
  · simpa only [DbRun.report, hr, hmark] using h.markLe
  · simpa only [DbRun.report, DbRun.rowsIn, hr, hmark] using h.mark
  · intro p hp
    have hpast := h.past p (hr ▸ hp)
    have hp' : p ≤ periodAt tz T r.time := Nat.le_of_lt hp
    change s.rowsIn tz T p = rowsFor tz T iDataType (s.window.reports ++ [r]) p
    rw [hpast, hfor p hp']
  · have hrun := h.running
    change s.rowsIn tz T (periodAt tz T r.time) = if s.shown = periodAt tz T r.time then
      rowsFor tz T iDataType (s.window.reports ++ [r]) (periodAt tz T r.time) else []
    rw [hfor _ le_rfl, ← hr]
    exact hrun

theorem valueForDb_right (hT : 0 < T) {w : WindowRun} (hw : WindowInv tz T iDataType w)
    (hr : r ∈ w.reports.getLast?) {now idx : Nat} (hnow : r.time ≤ now)
    (hold : reportIsOld w.node now = false)
    (hidx : period tz T r + idx = periodAt tz T now + w.node.iMinIdx) :
    valueForDb w.node now idx = aggregate tz T iDataType w.reports (periodAt tz T now) 1 := by
  have hkind := (hw.kind (List.ne_nil_of_mem (List.mem_of_getLast? hr))).2
  have hle : period tz T r ≤ periodAt tz T now := periodAt_le_of_le hnow
  have hnew : periodAt tz T now ≤ period tz T r + 1 := by
    apply Nat.le_of_not_lt
    intro hlt
    have hadd := add_lt_of_periodAt_lt hT hlt
    have hmod := Nat.mod_le (w.node.dwLastReportTime + w.node.wStaticTime * 60) (2 ^ 32)
    have hlast := Nat.mod_le r.time (2 ^ 32)
    simp only [reportIsOld, decide_eq_false_iff_not, not_le] at hold
    rw [hw.lastTime r hr, hkind] at hold hmod
    omega
  obtain ⟨hcur, hlast, -⟩ := hw.right r hr
  obtain heq | heq : periodAt tz T now = period tz T r ∨ periodAt tz T now = period tz T r + 1 := by
    omega
  · have hsame : idx = w.node.iMinIdx := by omega
    rw [heq, ← hlast]
    simp [valueForDb, hold, hsame]
  · have hne : idx ≠ w.node.iMinIdx := by omega
    have hone : w.node.iMinIdx + 1 = idx := by omega
    rw [heq, aggregate_move 1 0, ← hcur]
    simp [valueForDb, hold, hne, hone]

theorem DbInv.skip (h : DbInv tz T iDataType s) {shown last : Nat}
    (hshown : shown = s.shown ∨ shown = periodAt tz T s.now ∧
      s.rowsIn tz T (periodAt tz T s.now) =
        rowsFor tz T iDataType s.window.reports (periodAt tz T s.now)) :
    DbInv tz T iDataType
      { s with
        s_dwLastTrySaveDbTime := last
        shown := shown } := by
  constructor
  · exact h.window
  · exact h.latest
  · exact h.rowsLe
  · obtain rfl | ⟨rfl, -⟩ := hshown
    · exact h.shownLe
    · exact le_rfl
  · exact h.markLe
  · exact h.mark
  · exact h.past
  · obtain rfl | ⟨rfl, hrows⟩ := hshown
    · exact h.running
    · simpa [DbRun.rowsIn] using hrows

theorem DbInv.insert (h : DbInv tz T iDataType s) {last idx : Nat} {v : UInt32}
    (hrows : s.rowsIn tz T (periodAt tz T s.now) = [])
    (hv : rowsFor tz T iDataType s.window.reports (periodAt tz T s.now) = [v]) :
    DbInv tz T iDataType
      { window :=
          { s.window with
            node :=
              { s.window.node with
                wLastToDbIdx := idx
                dwLastToDbTime := s.now } }
        s_dwLastTrySaveDbTime := last
        rows := s.rows ++ [⟨s.now, v⟩]
        now := s.now
        shown := periodAt tz T s.now } := by
  have hnew : (back (fun row => periodAt tz T row.time) (s.rows ++ [⟨s.now, v⟩])
      (periodAt tz T s.now) 0).map Row.value = [v] := by
    rw [back_append_zero rfl, List.map_append]
    change s.rowsIn tz T _ ++ [v] = [v]
    rw [hrows, List.nil_append]
  constructor
  · exact ⟨h.window.found, h.window.kind, h.window.lastTime, h.window.latest, h.window.right⟩
  · exact h.latest
  · intro row hrow
    obtain hrow | hrow := List.mem_append.mp hrow
    · exact h.rowsLe row hrow
    · rw [List.mem_singleton.mp hrow]
  · exact le_rfl
  · exact le_rfl
  · simp [DbRun.rowsIn, hnew]
  · intro p hp
    have hne : periodAt tz T s.now ≠ p := Nat.ne_of_gt hp
    have hpast := h.past p hp
    simpa [DbRun.rowsIn, back, hne] using hpast
  · simpa [DbRun.rowsIn, hnew] using hv.symm

theorem DbRun.tick_of_none (hearly : tooEarlyForDb s.s_dwLastTrySaveDbTime now m_iRand = false)
    (hfind : s.window.dwIsFind = true)
    (hnone : writeNodeToDb tz s.window.node now = (none, s.window.node)) :
    s.tick tz T now m_iRand =
      { s with
        s_dwLastTrySaveDbTime := now
        now := now
        shown := if s.meets now m_iRand then periodAt tz T now else s.shown } := by
  rw [DbRun.tick, if_neg (by simp [hearly]), if_pos hfind, hnone]
  simp

theorem DbRun.tick_of_some {v : UInt32}
    (hearly : tooEarlyForDb s.s_dwLastTrySaveDbTime now m_iRand = false)
    (hfind : s.window.dwIsFind = true)
    (hsome : writeNodeToDb tz s.window.node now = (some v, node)) :
    s.tick tz T now m_iRand =
      { window :=
          { s.window with
            node := node }
        s_dwLastTrySaveDbTime := now
        rows := s.rows ++ [⟨now, v⟩]
        now := now
        shown := if s.meets now m_iRand then periodAt tz T now else s.shown } := by
  rw [DbRun.tick, if_neg (by simp [hearly]), if_pos hfind, hsome]
  simp

theorem DbInv.tick_of_meets (hT : 0 < T) (h : DbInv tz T iDataType s) {m_iRand : Nat}
    (hr : r ∈ s.window.reports.getLast?)
    (hearly : tooEarlyForDb s.s_dwLastTrySaveDbTime s.now m_iRand = false)
    (hfind : s.window.dwIsFind = true) (hold : reportIsOld s.window.node s.now = false)
    (hok : TickOk tz T s s.now m_iRand) : DbInv tz T iDataType (s.tick tz T s.now m_iRand) := by
  have hkind := (h.window.kind (h.window.found.mp hfind)).2
  have hmeets : s.meets s.now m_iRand = true := by
    simp [DbRun.meets, hold, hearly, hfind]
  obtain ⟨hidx, hmark⟩ := hok hmeets r hr
  have hval := valueForDb_right hT h.window hr (h.latest r hr) hold hidx
  by_cases hskip : aggregate tz T iDataType s.window.reports (periodAt tz T s.now) 1 = 0 ∨
      writtenToDb s.window.node s.now (getDayOfMin (uitotimeInfo tz s.now) T) = true
  · have hnone : writeNodeToDb tz s.window.node s.now = (none, s.window.node) := by
      simp only [writeNodeToDb, hkind, hval]
      exact if_pos hskip
    rw [DbRun.tick_of_none hearly hfind hnone, if_pos hmeets]
    apply h.skip (Or.inr ⟨rfl, ?_⟩)
    obtain hzero | hwritten := hskip
    · simp [h.running, rowsFor, hzero]
    · have hrows := h.mark.mp (hmark.mp hwritten)
      have hrun := h.running
      split at hrun
      · exact hrun
      · exact absurd hrun hrows
  · have hsome : writeNodeToDb tz s.window.node s.now =
        (some (aggregate tz T iDataType s.window.reports (periodAt tz T s.now) 1),
          { s.window.node with
            wLastToDbIdx := getDayOfMin (uitotimeInfo tz s.now) T
            dwLastToDbTime := s.now }) := by
      rw [← hval]
      simp only [writeNodeToDb, hkind]
      apply if_neg
      rw [hval]
      exact hskip
    obtain ⟨hne, hwritten⟩ := not_or.mp hskip
    rw [DbRun.tick_of_some hearly hfind hsome, if_pos hmeets]
    apply h.insert
    · by_contra hrows
      exact hwritten (hmark.mpr (h.mark.mpr hrows))
    · simp [rowsFor, hne]

theorem DbInv.tick (hT : 0 < T) (h : DbInv tz T iDataType s) {m_iRand : Nat}
    (hok : TickOk tz T s s.now m_iRand) : DbInv tz T iDataType (s.tick tz T s.now m_iRand) := by
  cases hearly : tooEarlyForDb s.s_dwLastTrySaveDbTime s.now m_iRand with
  | true =>
    simp only [DbRun.tick, hearly, reduceIte]
    exact h
  | false =>
    cases hfind : s.window.dwIsFind with
    | false =>
      simp only [DbRun.tick, hearly, hfind, Bool.false_eq_true, reduceIte]
      exact h.skip (Or.inl rfl)
    | true =>
      have hrs : s.window.reports ≠ [] := h.window.found.mp hfind
      obtain ⟨r, hr⟩ := Option.ne_none_iff_exists'.mp (mt List.getLast?_eq_none_iff.mp hrs)
      cases hold : reportIsOld s.window.node s.now with
      | true =>
        have hmeets : s.meets s.now m_iRand = false := by
          simp [DbRun.meets, hold]
        have hnone : writeNodeToDb tz s.window.node s.now = (none, s.window.node) := by
          simp [writeNodeToDb, valueForDb, hold]
        rw [DbRun.tick_of_none hearly hfind hnone, hmeets]
        exact h.skip (Or.inl rfl)
      | false => exact h.tick_of_meets hT hr hearly hfind hold hok

theorem dbStep_inv (hT : 0 < T) (s : DbRun) (ev : DbEvent) (h : DbInv tz T iDataType s)
    (hok : DbOk tz T iDataType s ev) :
    ∃ o s', dbStep tz T iDataType s ev = some (o, s') ∧ True ∧ DbInv tz T iDataType s' := by
  obtain ⟨htime, hleave, hev⟩ := hok
  have hadv := h.advance hT htime hleave
  cases ev with
  | report r =>
    obtain ⟨o, w, hw, -, hwin⟩ := reportStep_inv hT s.window r h.window hev
    obtain ⟨-, rfl⟩ := Prod.mk.inj (Option.some.inj hw)
    exact ⟨(), _, rfl, trivial, hadv.report rfl hwin⟩
  | tick now m_iRand => exact ⟨(), _, rfl, trivial, hadv.tick hT hev⟩

theorem runSteps_db_reports {evs : List DbEvent} {s s' : DbRun} {os : List Unit}
    (h : runSteps (dbStep tz T iDataType) s evs = some (os, s')) :
    s'.window.reports = s.window.reports ++ reportsOf evs := by
  induction evs generalizing s os with
  | nil =>
    obtain ⟨-, rfl⟩ := Prod.mk.inj (Option.some.inj h)
    simp [reportsOf]
  | cons ev evs ih =>
    simp only [runSteps, Option.bind_eq_bind, Option.bind_eq_some_iff] at h
    obtain ⟨⟨o, s₁⟩, hs₁, ⟨os₂, s₂⟩, hs₂, hout⟩ := h
    obtain ⟨-, rfl⟩ := Prod.mk.inj (Option.some.inj hout)
    rw [ih hs₂]
    cases ev with
    | report r =>
      obtain ⟨-, rfl⟩ := Prod.mk.inj (Option.some.inj hs₁)
      simp [DbRun.report, WindowRun.report, reportsOf]
    | tick now m_iRand =>
      obtain ⟨-, rfl⟩ := Prod.mk.inj (Option.some.inj hs₁)
      have hkeep : (s.tick tz T now m_iRand).window.reports = s.window.reports := by
        simp only [DbRun.tick]
        split
        · rfl
        · split <;> rfl
      simp [hkeep, reportsOf]

/-- In every schedule that meets the condition, a period whose next one is over has one row with
its aggregate, or none when the aggregate is zero. -/
theorem completed_period_written_once (tz T : Nat) (hT : isValidStaticTime T = true)
    (iDataType : AttrDataType) (node : TWarnAttrReportInfo) (now : Nat)
    (hnode : periodAt tz T node.dwLastToDbTime < periodAt tz T now) (evs : List DbEvent)
    (hok : Admissible (dbStep tz T iDataType) (DbOk tz T iDataType) (DbRun.start node now) evs) :
    ∃ os s, runSteps (dbStep tz T iDataType) (DbRun.start node now) evs = some (os, s) ∧
      ∀ q, q + 1 < periodAt tz T s.now →
        s.rowsIn tz T (q + 1) =
          if aggregate tz T iDataType (reportsOf evs) q 0 = 0 then []
          else [aggregate tz T iDataType (reportsOf evs) q 0] := by
  obtain ⟨os, s, hrun, -, hinv⟩ :=
    run_invariant (dbStep_inv (valid_pos hT)) evs _ (DbInv.start hnode) hok
  refine ⟨os, s, hrun, ?_⟩
  intro q hq
  have hrs : s.window.reports = reportsOf evs := runSteps_db_reports hrun
  rw [hinv.past (q + 1) hq, hrs, rowsFor, aggregate_move 1 0]

/-- A report late in its minute, with writes every half minute. -/
theorem completed_period_written_once_late :
    isValidStaticTime 1 = true ∧
    periodAt 0 1 emptySlot.dwLastToDbTime < periodAt 0 1 36030 ∧
    ∃ os s, runSteps (dbStep 0 1 .SUM_REPORT_M) (DbRun.start emptySlot 36030)
        [.report ⟨36050, 5⟩, .tick 36055 0, .tick 36085 0, .tick 36115 0, .tick 36145 0] =
          some (os, s) ∧
      ∀ q, q + 1 < periodAt 0 1 s.now →
        s.rowsIn 0 1 (q + 1) =
          if aggregate 0 1 .SUM_REPORT_M [⟨36050, 5⟩] q 0 = 0 then []
          else [aggregate 0 1 .SUM_REPORT_M [⟨36050, 5⟩] q 0] :=
  ⟨by decide, by decide, completed_period_written_once 0 1 (by decide) .SUM_REPORT_M emptySlot 36030
    (by decide) _ (by decide +kernel)⟩

/-- A report early in its minute and none in the next: no write meets it in time, and the minute is
never written. -/
theorem completed_period_not_written :
    ¬ ∀ os s, runSteps (dbStep 0 1 .SUM_REPORT_M) (DbRun.start emptySlot 35990)
        [.report ⟨36001, 5⟩, .tick 36030 0, .tick 36060 0, .tick 36090 0, .tick 36120 0,
          .tick 36150 0] = some (os, s) →
      ∀ q, q + 1 < periodAt 0 1 s.now →
        s.rowsIn 0 1 (q + 1) =
          if aggregate 0 1 .SUM_REPORT_M [⟨36001, 5⟩] q 0 = 0 then []
          else [aggregate 0 1 .SUM_REPORT_M [⟨36001, 5⟩] q 0] := by
  intro h
  have hrows := h _ _ rfl 601 (by decide +kernel)
  revert hrows
  decide +kernel

end Runs

end XrkMonitor.WarnAttr
