import Mathlib.Data.List.Sort
import XrkMonitor.WarnAttr.Check

/-!
# The scan of the warning checker

Once in a minute the warning checker goes over the report table. It checks each machine
against its own configuration, adds the values of the machines to the configurations of
the views they are bound to, checks these, and at last goes over the configurations
themselves for those without reports.

## Implementation notes

The configurations are a list with unique keys and identifiers, as the hash and the
database keep them; a pointer into the hash is the key. The bindings of a machine have
no duplicates, which the configuration server checks when it adds one. What becomes of
the warnings (merging them in the database, sending them) is left out.
-/

namespace XrkMonitor.WarnAttr

open Library

def ATTR_WARN_FLAG_MAX : Nat := 1
def ATTR_WARN_FLAG_MIN : Nat := 2
def ATTR_WARN_FLAG_WAVE : Nat := 4
def ATTR_WARN_FLAG_TYPE_MACHINE : Nat := 8
def ATTR_WARN_FLAG_TYPE_VIEW : Nat := 16
def ATTR_WARN_FLAG_MASK_WARN : Nat := 32
def ATTR_WARN_FLAG_EXCEPTION : Nat := 64
def MACH_WARN_DENY_ALL : Nat := 2
def MACH_WARN_DENY_BASIC : Nat := 3
def MACH_WARN_DENY_EXCEPT : Nat := 4

/-- A node of the report table: the window of an attribute and a machine. -/
structure AttrNode extends TWarnAttrReportInfo where
  iAttrId : Int
  iMachineId : Int
deriving Repr, DecidableEq

/-- `TWarnConfig`; the reserved fields hold the values of a view and the time they were added. -/
structure TWarnConfig where
  iWarnId : Int
  iAttrId : Int
  iWarnMax : Int32
  iWarnMin : Int32
  iWarnWave : Int32
  iWarnConfigFlag : Nat
  iWarnConfigId : Int
  dwReserved1 : UInt32
  dwReserved2 : UInt32
  dwReserved3 : Nat
deriving DecidableEq

/-- `TAttrWarnInfo`. -/
structure TAttrWarnInfo where
  iWarnFlag : Nat
  iWarnId : Int
  iAttrId : Int
  iWarnConfigValue : Int32
  dwWarnValue : UInt32
  dwWarnTimeSec : Nat
deriving DecidableEq

/-- What a scan reads: the report table, the machines with their warning flags, and the views a
machine and an attribute are bound to. -/
structure ScanTables where
  nodes : List AttrNode
  machineInfo : Int → Option Nat
  machineViews : Int → Option (List Int)
  attrViews : Int → Option (List Int)
  nodesNodup : (nodes.map fun n => (n.iMachineId, n.iAttrId)).Nodup
  viewsNodup : ∀ m, ∀ vs ∈ machineViews m, vs.Nodup

/-- The key of a configuration in the hash. -/
def TWarnConfig.key (c : TWarnConfig) : Int × Int := (c.iWarnId, c.iAttrId)

/-- The configurations, with unique keys and identifiers. -/
structure WarnConfigs where
  configs : List TWarnConfig
  keysNodup : (configs.map TWarnConfig.key).Nodup
  idsNodup : (configs.map TWarnConfig.iWarnConfigId).Nodup

section Warnings

def hasFlag (flags bit : Nat) : Bool := flags &&& bit ≠ 0

def isBasicAttr (_iAttrId : Int) : Bool := false

/-- The warning is masked by the configuration or by the machine. -/
def warnMasked (bWarnFlag iWarnConfigFlag : Nat) (iAttrId : Int) : Bool :=
  hasFlag iWarnConfigFlag ATTR_WARN_FLAG_MASK_WARN || hasFlag bWarnFlag MACH_WARN_DENY_ALL ||
    (hasFlag bWarnFlag MACH_WARN_DENY_EXCEPT && hasFlag iWarnConfigFlag ATTR_WARN_FLAG_EXCEPTION) ||
    (hasFlag bWarnFlag MACH_WARN_DENY_BASIC && isBasicAttr iAttrId)

def maskFlag (flags : Nat) (masked : Bool) : Nat :=
  if masked then flags ||| ATTR_WARN_FLAG_MASK_WARN else flags

/-- The change between two values in percent, in 32-bit arithmetic. -/
def waveOf (dwLastVal dwPreLastVal : UInt32) : Int32 :=
  (((dwLastVal - dwPreLastVal).toInt32.abs * 100).toUInt32 / dwPreLastVal).toInt32

/-- The three checks of a value against a configuration. -/
def checkValues (c : TWarnConfig) (typeFlag : Nat) (masked : Bool) (iWarnId iAttrId : Int)
    (dwLastVal dwPreLastVal : UInt32) (now : Nat) : List TAttrWarnInfo :=
  (if hasFlag c.iWarnConfigFlag ATTR_WARN_FLAG_MIN ∧ dwLastVal < c.iWarnMin.toUInt32 then
    [{ iWarnFlag := maskFlag (ATTR_WARN_FLAG_MIN ||| typeFlag) masked
       iWarnId := iWarnId
       iAttrId := iAttrId
       iWarnConfigValue := c.iWarnMin
       dwWarnValue := dwLastVal
       dwWarnTimeSec := now }]
  else []) ++
  (if hasFlag c.iWarnConfigFlag ATTR_WARN_FLAG_MAX ∧ c.iWarnMax.toUInt32 < dwLastVal then
    [{ iWarnFlag := maskFlag (ATTR_WARN_FLAG_MAX ||| typeFlag) masked
       iWarnId := iWarnId
       iAttrId := iAttrId
       iWarnConfigValue := c.iWarnMax
       dwWarnValue := dwLastVal
       dwWarnTimeSec := now }]
  else []) ++
  (if hasFlag c.iWarnConfigFlag ATTR_WARN_FLAG_WAVE ∧ 0 < dwPreLastVal ∧
      c.iWarnWave < waveOf dwLastVal dwPreLastVal then
    [{ iWarnFlag := maskFlag (ATTR_WARN_FLAG_WAVE ||| typeFlag) masked
       iWarnId := iWarnId
       iAttrId := iAttrId
       iWarnConfigValue := c.iWarnWave
       dwWarnValue := (waveOf dwLastVal dwPreLastVal).toUInt32
       dwWarnTimeSec := now }]
  else [])

/-- `CheckViewWarn`. -/
def checkViewWarn (c : TWarnConfig) (now : Nat) : List TAttrWarnInfo :=
  checkValues c ATTR_WARN_FLAG_TYPE_VIEW (hasFlag c.iWarnConfigFlag ATTR_WARN_FLAG_MASK_WARN)
    c.iWarnId c.iAttrId c.dwReserved2 c.dwReserved1 now

/-- `CheckMachineWarn`. -/
def checkMachineWarn (bWarnFlag : Nat) (c : TWarnConfig) (node : AttrNode)
    (now iDayMinIdx : Nat) : List TAttrWarnInfo :=
  let (dwLastVal, dwPreLastVal) := adaptReportValue node.toTWarnAttrReportInfo now iDayMinIdx
  checkValues c ATTR_WARN_FLAG_TYPE_MACHINE (warnMasked bWarnFlag c.iWarnConfigFlag node.iAttrId)
    node.iMachineId node.iAttrId dwLastVal dwPreLastVal now

/-- The check of an exception attribute. -/
def checkException (bWarnFlag : Nat) (c : TWarnConfig) (node : AttrNode)
    (now iDayMinIdx : Nat) : List TAttrWarnInfo :=
  let (dwLastVal, _) := adaptReportValue node.toTWarnAttrReportInfo now iDayMinIdx
  if 0 < dwLastVal then
    [{ iWarnFlag := maskFlag (ATTR_WARN_FLAG_TYPE_MACHINE ||| ATTR_WARN_FLAG_EXCEPTION)
         (warnMasked bWarnFlag c.iWarnConfigFlag node.iAttrId)
       iWarnId := node.iMachineId
       iAttrId := node.iAttrId
       iWarnConfigValue := 0
       dwWarnValue := dwLastVal
       dwWarnTimeSec := now }]
  else []

end Warnings

section Views

/-- The values of the view are at least a day old. -/
def viewIsOld (c : TWarnConfig) (now : Nat) : Bool :=
  (1440 * 60 + c.dwReserved3) % 2 ^ 32 ≤ now

/-- The stored values of a view, the one before the last first, when the clock has moved on. -/
def adaptedViewValues (tz : Nat) (c : TWarnConfig) (now iDayMinIdx : Nat) : UInt32 × UInt32 :=
  let iDayMinIdxView := checkDayOfMin tz c.dwReserved3
  if viewIsOld c now then
    (0, 0)
  else if iDayMinIdxView ≠ iDayMinIdx then
    if (iDayMinIdxView + 1) % 1440 = iDayMinIdx then (c.dwReserved2, 0) else (0, 0)
  else
    (c.dwReserved1, c.dwReserved2)

/-- `AdaptViewReportValue`. -/
def adaptViewReportValue (tz : Nat) (c : TWarnConfig) (now iDayMinIdx : Nat) : TWarnConfig :=
  { c with
    dwReserved1 := (adaptedViewValues tz c now iDayMinIdx).1
    dwReserved2 := (adaptedViewValues tz c now iDayMinIdx).2
    dwReserved3 := now }

/-- `AddReportValForViewWarn`. -/
def addReportValForViewWarn (c : TWarnConfig) (node : AttrNode) (now iDayMinIdx : Nat) :
    TWarnConfig :=
  let (dwLastVal, dwPreLastVal) := adaptReportValue node.toTWarnAttrReportInfo now iDayMinIdx
  { c with
    dwReserved1 := c.dwReserved1 + dwPreLastVal
    dwReserved2 := c.dwReserved2 + dwLastVal }

/-- `GetReportViews`: the views that have both the machine and the attribute. -/
def getReportViews (t : ScanTables) (node : AttrNode) : List Int :=
  match t.machineViews node.iMachineId, t.attrViews node.iAttrId with
  | some mv, some av => mv.filter fun v => v ∈ av
  | _, _ => []

end Views

section Scan

/-- `GetWarnConfigInfo`. -/
def getWarnConfigInfo (configs : List TWarnConfig) (iWarnId iAttrId : Int) : Option TWarnConfig :=
  configs.find? fun c => c.key = (iWarnId, iAttrId)

/-- The configuration of a key is replaced. -/
def setConfig (configs : List TWarnConfig) (c : TWarnConfig) : List TWarnConfig :=
  configs.map fun c' => if c'.key = c.key then c else c'

/-- `GetWarnAttrInfo` finds a node. -/
def hasReport (t : ScanTables) (iAttrId iMachineId : Int) : Bool :=
  t.nodes.any fun n => n.iAttrId = iAttrId ∧ n.iMachineId = iMachineId

/-- The configurations, the identifiers in `mapViewWarnCfgs`, and the warnings of a scan. -/
structure ScanAcc where
  configs : List TWarnConfig
  mapViewWarnCfgs : List Int
  listWarn : List TAttrWarnInfo

/-- The value of a node is added to the configuration of a view. -/
def addView (tz now iDayMinIdx : Nat) (node : AttrNode) (acc : ScanAcc) (view : Int) : ScanAcc :=
  match getWarnConfigInfo acc.configs view node.iAttrId with
  | none => acc
  | some c =>
    if c.iWarnConfigId ∈ acc.mapViewWarnCfgs then
      { acc with
        configs := setConfig acc.configs (addReportValForViewWarn c node now iDayMinIdx) }
    else
      { acc with
        configs := setConfig acc.configs
          (addReportValForViewWarn (adaptViewReportValue tz c now iDayMinIdx) node now iDayMinIdx)
        mapViewWarnCfgs := acc.mapViewWarnCfgs ++ [c.iWarnConfigId] }

/-- The warnings of an exception attribute, whose configuration has no identifier. -/
def exceptionWarns (configs : List TWarnConfig) (bWarnFlag : Nat) (node : AttrNode)
    (now iDayMinIdx : Nat) : List TAttrWarnInfo :=
  if node.bAttrDataType = .EX_REPORT then
    match getWarnConfigInfo configs 0 node.iAttrId with
    | none => []
    | some c => checkException bWarnFlag c node now iDayMinIdx
  else []

/-- The warnings of the machine itself. -/
def nodeWarns (configs : List TWarnConfig) (bWarnFlag : Nat) (node : AttrNode)
    (now iDayMinIdx : Nat) : List TAttrWarnInfo :=
  (match getWarnConfigInfo configs node.iMachineId node.iAttrId with
    | none => []
    | some c => checkMachineWarn bWarnFlag c node now iDayMinIdx) ++
  exceptionWarns configs bWarnFlag node now iDayMinIdx

/-- The body of the loop over the report table. -/
def scanNode (tz : Nat) (t : ScanTables) (now iDayMinIdx : Nat) (acc : ScanAcc) (node : AttrNode) :
    ScanAcc :=
  match t.machineInfo node.iMachineId with
  | none => acc
  | some bWarnFlag =>
    (getReportViews t node).foldl (addView tz now iDayMinIdx node)
      { acc with
        listWarn := acc.listWarn ++ nodeWarns acc.configs bWarnFlag node now iDayMinIdx }

/-- One round of the loop in `CheckWarnConfig`. -/
def checkWithoutReport (t : ScanTables) (now : Nat) (c : TWarnConfig) : List TAttrWarnInfo :=
  if hasFlag c.iWarnConfigFlag ATTR_WARN_FLAG_MIN = false ∨ hasReport t c.iAttrId c.iWarnId then []
  else
    if hasFlag c.iWarnConfigFlag ATTR_WARN_FLAG_TYPE_MACHINE then
      match t.machineInfo c.iWarnId with
      | none => []
      | some bWarnFlag =>
        [{ iWarnFlag := maskFlag (ATTR_WARN_FLAG_MIN ||| ATTR_WARN_FLAG_TYPE_MACHINE)
             (warnMasked bWarnFlag c.iWarnConfigFlag c.iAttrId)
           iWarnId := c.iWarnId
           iAttrId := c.iAttrId
           iWarnConfigValue := c.iWarnMin
           dwWarnValue := 0
           dwWarnTimeSec := now }]
    else
      [{ iWarnFlag := maskFlag (ATTR_WARN_FLAG_MIN ||| ATTR_WARN_FLAG_TYPE_VIEW)
           (hasFlag c.iWarnConfigFlag ATTR_WARN_FLAG_MASK_WARN)
         iWarnId := c.iWarnId
         iAttrId := c.iAttrId
         iWarnConfigValue := c.iWarnMin
         dwWarnValue := 0
         dwWarnTimeSec := now }]

/-- `CheckWarnConfig`. -/
def checkWarnConfig (t : ScanTables) (now : Nat) (configs : List TWarnConfig) :
    List TAttrWarnInfo :=
  configs.flatMap (checkWithoutReport t now)

/-- The loop over the report table. -/
def scanNodes (tz : Nat) (t : ScanTables) (configs : List TWarnConfig) (now iDayMinIdx : Nat) :
    ScanAcc :=
  t.nodes.foldl (scanNode tz t now iDayMinIdx) ⟨configs, [], []⟩

/-- The configurations that `CheckViewWarn` is called with, in the order of the map. -/
def viewConfigs (acc : ScanAcc) : List TWarnConfig :=
  (acc.mapViewWarnCfgs.insertionSort (· ≤ ·)).filterMap fun i =>
    acc.configs.find? fun c => c.iWarnConfigId = i

/-- The scan of `CheckAttrWarn`, up to the list of warnings. -/
def scanWarns (tz : Nat) (t : ScanTables) (configs : List TWarnConfig) (now iDayMinIdx : Nat) :
    List TAttrWarnInfo :=
  let acc := scanNodes tz t configs now iDayMinIdx
  acc.listWarn ++ (viewConfigs acc).flatMap (fun c => checkViewWarn c now) ++
    checkWarnConfig t now acc.configs

end Scan

end XrkMonitor.WarnAttr
