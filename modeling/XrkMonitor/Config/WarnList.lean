import Mathlib.Data.List.Iterate
import XrkMonitor.Config.Apps
import XrkMonitor.Config.IdHash

/-!
# The list of recent warnings

`ReadTableWarnInfo` keeps the newest rows of `mt_warn_info` in a hash table, and its
nodes in a list by the time of the last warning. With an id it reads one row and puts it
in front of the list; without one it reads all rows, the newest first, and appends them.
So all rows can only be read into a list that has nothing newer to come, and
`recent_warns_ok` says when a run of such calls keeps the list in order.

## Implementation notes

`InitHashTable_NoList` takes the largest prime up to `WARN_INFO_HASH_NODE_COUNT`, which is
9973. `none` stands for the use of a node index outside the table. `warnList` is the walk
of the pages that show the list; it passes `bLastWarnCount` nodes.
-/

namespace XrkMonitor.Config

open Library SharedHash

/-- The rows of the warning table. -/
def warnRows : List Nat := List.replicate STATIC_HASH_ROW_MAX 9973

def warnNodes : Nat := warnRows.sum

def MAX_WARN_INFO_IN_SHM_PER_USER : Nat := 200

/-- The fields of `TWarnInfo` besides its id and links. -/
structure TWarnInfo where
  iWarnTypeId : Int
  iAttrId : Int
  dwWarnTime : Nat
  dwWarnFlag : Nat
  dwWarnVal : Nat
  dwWarnConfVal : Nat
  iWarnTimes : Int
  iDealStatus : Int
  dwLastWarnTime : Nat
  dwLastUpdateTime : Nat

/-- The warning nodes with their list in `MtSystemConfig`. -/
structure WarnShm where
  id : Nat → Int
  node : Nat → TWarnInfo
  links : ILinks
  bLastWarnCount : Nat

/-- A row of `mt_warn_info`. -/
structure WarnRow where
  wid : Int
  xrk_status : Int
  update_time : Nat
  warn_id : Int
  attr_id : Int
  warn_time_utc : Nat
  warn_flag : Nat
  warn_val : Nat
  warn_config_val : Nat
  warn_times : Int
  deal_status : Int
  last_warn_time_utc : Nat
  wid_pos : 0 < wid

/-- All rows: `wid` is the primary key, and the newest row comes first. -/
structure WarnTable where
  rows : List WarnRow
  nodup : (rows.map WarnRow.wid).Nodup
  sorted : rows.Pairwise fun r r' => r'.last_warn_time_utc ≤ r.last_warn_time_utc

/-- Zeroed memory. -/
def emptyWarns : WarnShm where
  id := fun _ => 0
  node := fun _ =>
    { iWarnTypeId := 0
      iAttrId := 0
      dwWarnTime := 0
      dwWarnFlag := 0
      dwWarnVal := 0
      dwWarnConfVal := 0
      iWarnTimes := 0
      iDealStatus := 0
      dwLastWarnTime := 0
      dwLastUpdateTime := 0 }
  links := ILinks.zero
  bLastWarnCount := 0

def getWarnInfo (s : WarnShm) (id : Int) : Bool × Option Nat := searchEx warnRows s.id id

/-- The node of a new warning. -/
def newWarn (row : WarnRow) : TWarnInfo where
  iWarnTypeId := row.warn_id
  iAttrId := row.attr_id
  dwWarnTime := row.warn_time_utc
  dwWarnFlag := row.warn_flag
  dwWarnVal := row.warn_val
  dwWarnConfVal := row.warn_config_val
  iWarnTimes := row.warn_times
  iDealStatus := row.deal_status
  dwLastWarnTime := row.last_warn_time_utc
  dwLastUpdateTime := row.update_time

/-- The node of a warning whose row has changed. -/
def updateWarn (row : WarnRow) (stored : TWarnInfo) : TWarnInfo :=
  { stored with
    dwLastUpdateTime := row.update_time
    iWarnTimes := row.warn_times
    dwLastWarnTime := row.last_warn_time_utc
    iDealStatus := row.deal_status
    dwWarnVal := row.warn_val }

/-- The last node of the list is freed. -/
def dropOldest (s : WarnShm) : Option WarnShm := do
  let pInfoLast ← slotRef warnNodes s.links.iIndexEnd
  let pPrev ← slotLink warnNodes (s.links.iPreIndex pInfoLast)
  some
    { s with
      id := Function.update s.id pInfoLast.toNat 0
      links := ilinkDeleteNode s.links pInfoLast pPrev none
      bLastWarnCount := wordDec 8 s.bLastWarnCount }

/-- A node that is not in the list goes behind it or, for a single row, in front of it. -/
def relinkWarn (uid : Int) (s : WarnShm) (iHashIndex : Nat) : Option WarnShm :=
  if uid = 0 then do
    let pWarnInfoLast ← slotRef warnNodes s.links.iIndexEnd
    some
      { s with
        links := ilinkInsertLast s.links pWarnInfoLast iHashIndex
        bLastWarnCount := wordInc 8 s.bLastWarnCount }
  else do
    let pWarnInfoFirst ← slotRef warnNodes s.links.iIndexStart
    some
      { s with
        links := ilinkInsertFirst s.links pWarnInfoFirst iHashIndex
        bLastWarnCount := wordInc 8 s.bLastWarnCount }

def linkWarn (uid : Int) (s : WarnShm) (iHashIndex : Nat) : Option WarnShm :=
  if s.bLastWarnCount = 0 ∨ s.links.iIndexStart < 0 then
    some
      { s with
        links := ilinkSetFirst s.links iHashIndex
        bLastWarnCount := 1 }
  else relinkWarn uid s iHashIndex

/-- A new warning; while all rows are read, a full list takes no more. -/
def addWarn (uid : Int) (s : WarnShm) (row : WarnRow) (pInfo : Nat) : Option WarnShm :=
  if MAX_WARN_INFO_IN_SHM_PER_USER ≤ s.bLastWarnCount ∧ uid = 0 then some s
  else do
    let s₁ ← if MAX_WARN_INFO_IN_SHM_PER_USER ≤ s.bLastWarnCount then dropOldest s else some s
    let s₂ ← linkWarn uid s₁ pInfo
    some
      { s₂ with
        id := Function.update s₂.id pInfo row.wid
        node := Function.update s₂.node pInfo (newWarn row) }

/-- A node that changed its time leaves its place in the list, unless it is the first one. -/
def moveWarn (uid : Int) (s : WarnShm) (iHashIndex : Nat) : Option WarnShm :=
  if s.links.iIndexStart = iHashIndex then some s
  else do
    let links ← ilinkUnlink warnNodes s.links iHashIndex
    relinkWarn uid
      { s with
        links := links
        bLastWarnCount := wordDec 8 s.bLastWarnCount } iHashIndex

/-- The row of a warning that is there has changed. -/
def changeWarn (uid : Int) (s : WarnShm) (row : WarnRow) (pInfo : Nat) : Option WarnShm :=
  let s' := { s with node := Function.update s.node pInfo (updateWarn row (s.node pInfo)) }
  if (s.node pInfo).dwLastWarnTime = row.last_warn_time_utc then some s' else moveWarn uid s' pInfo

/-- A warning leaves its node and the list. -/
def deleteWarn (s : WarnShm) (pInfo : Nat) : Option WarnShm := do
  let links ← ilinkUnlink warnNodes s.links pInfo
  some
    { s with
      id := Function.update s.id pInfo 0
      links := links
      bLastWarnCount := wordDec 8 s.bLastWarnCount }

/-- One row of `ReadTableWarnInfo`; `uid` is `0` while all rows are read. -/
def readWarnRow (uid : Int) (s : WarnShm) (row : WarnRow) : Option WarnShm :=
  if row.xrk_status = RECORD_STATUS_USE then
    match getWarnInfo s row.wid with
    | (_, none) => some s
    | (false, some pInfo) => addWarn uid s row pInfo
    | (true, some pInfo) =>
      if (s.node pInfo).dwLastUpdateTime = row.update_time then some s
      else changeWarn uid s row pInfo
  else
    match getWarnInfo s row.wid with
    | (true, some pInfo) => deleteWarn s pInfo
    | _ => some s

/-- A call of `ReadTableWarnInfo`, with the rows that the database gives it. -/
inductive WarnCall
  | all (table : WarnTable)
  | one (row : WarnRow)

/-- One call; its output is the memory it leaves. -/
def warnStep (s : WarnShm) : WarnCall → Option (WarnShm × WarnShm)
  | .all table => (table.rows.foldlM (readWarnRow 0) s).map fun s' => (s', s')
  | .one row => (readWarnRow row.wid s row).map fun s' => (s', s')

/-- The nodes that a reader of the list passes. -/
def warnList (s : WarnShm) : List Int :=
  List.iterate s.links.iNextIndex s.links.iIndexStart s.bLastWarnCount

/-- The warnings in the table besides that of the row are not older than it. -/
def OldestOf (s : WarnShm) (row : WarnRow) : Prop :=
  ∀ c, UsedNode warnRows s.id c → s.id c ≠ row.wid →
    row.last_warn_time_utc ≤ (s.node c).dwLastWarnTime

/-- The warnings in the table besides that of the row are not newer than it. -/
def NewestOf (s : WarnShm) (row : WarnRow) : Prop :=
  ∀ c, UsedNode warnRows s.id c → s.id c ≠ row.wid →
    (s.node c).dwLastWarnTime ≤ row.last_warn_time_utc

/-- The row changes the time of the warning in node `c`. -/
def ChangesTime (s : WarnShm) (row : WarnRow) (c : Nat) : Prop :=
  getWarnInfo s row.wid = (true, some c) ∧ (s.node c).dwLastUpdateTime ≠ row.update_time ∧
    (s.node c).dwLastWarnTime ≠ row.last_warn_time_utc

/-- What a row must meet while all rows are read; `skipped` are the times of the rows that did
not get in because the list was full. A new row finds a node and nothing older in the list, a
changed time fits the place the node gets, and no warning leaves once a row was skipped. -/
structure AllRowOk (s : WarnShm) (skipped : List Nat) (row : WarnRow) : Prop where
  new : row.xrk_status = RECORD_STATUS_USE → (getWarnInfo s row.wid).1 = false →
    (getWarnInfo s row.wid).2.isSome = true ∧ OldestOf s row
  changed : row.xrk_status = RECORD_STATUS_USE → ∀ c, ChangesTime s row c →
    (if s.links.iIndexStart = c then NewestOf s row else OldestOf s row) ∧
      ∀ time ∈ skipped, time ≤ row.last_warn_time_utc
  deleted : row.xrk_status ≠ RECORD_STATUS_USE → (getWarnInfo s row.wid).1 = true → skipped = []

/-- The times of the rows that were not stored because the list was full. -/
def skippedAfter (s : WarnShm) (skipped : List Nat) (row : WarnRow) : List Nat :=
  if row.xrk_status = RECORD_STATUS_USE ∧ (getWarnInfo s row.wid).1 = false ∧
      MAX_WARN_INFO_IN_SHM_PER_USER ≤ s.bLastWarnCount then
    row.last_warn_time_utc :: skipped
  else skipped

/-- Every row meets the condition in the memory it finds. -/
def AllRowsOk : WarnShm → List Nat → List WarnRow → Prop
  | _, _, [] => True
  | s, skipped, row :: rows =>
    AllRowOk s skipped row ∧
      ∀ s', readWarnRow 0 s row = some s' → AllRowsOk s' (skippedAfter s skipped row) rows

/-- A single row that is stored, or whose time changed, is the newest. -/
def OneRowOk (s : WarnShm) (row : WarnRow) : Prop :=
  row.xrk_status = RECORD_STATUS_USE →
    ((getWarnInfo s row.wid).1 = false ∨ ∃ c, ChangesTime s row c) → NewestOf s row

def WarnCallOk (s : WarnShm) : WarnCall → Prop
  | .all table => AllRowsOk s [] table.rows
  | .one row => OneRowOk s row

/-- The walk over the list passes exactly the nodes in use, each once, at most
`MAX_WARN_INFO_IN_SHM_PER_USER` of them, the newest warning first. -/
structure RecentFirst (s : WarnShm) (l : List Nat) : Prop where
  walk : warnList s = l.map Nat.cast
  count : s.bLastWarnCount = l.length
  le : l.length ≤ MAX_WARN_INFO_IN_SHM_PER_USER
  nodup : l.Nodup
  mem : ∀ c, c ∈ l ↔ UsedNode warnRows s.id c
  sorted : l.Pairwise fun c d => (s.node d).dwLastWarnTime ≤ (s.node c).dwLastWarnTime

/-- A row in use is in the table, unless the list is full of warnings that are not older. -/
def HoldsNewest (s : WarnShm) (rows : List WarnRow) : Prop :=
  ∀ row ∈ rows, row.xrk_status = RECORD_STATUS_USE →
    (∃ c, UsedNode warnRows s.id c ∧ s.id c = row.wid) ∨
      s.bLastWarnCount = MAX_WARN_INFO_IN_SHM_PER_USER ∧
        ∀ c, UsedNode warnRows s.id c → row.last_warn_time_utc ≤ (s.node c).dwLastWarnTime

/-- What a call must leave. -/
def WarnsOk (call : WarnCall) (s : WarnShm) : Prop :=
  (∃ l, RecentFirst s l) ∧
    match call with
    | .all table => HoldsNewest s table.rows
    | .one _ => True

end XrkMonitor.Config
