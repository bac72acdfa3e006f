import Mathlib.Data.List.Sort
import XrkMonitor.Library.IndexPath
import XrkMonitor.Library.MachineWord
import XrkMonitor.Library.Run

/-!
# The nodes of string attributes

The strings reported for an attribute and a machine are kept in nodes of one array that
all pairs share. The nodes of a pair are chained by index, a node without a positive
value is free, and a write index goes round the array to find one. A chain that is full
gives up the nodes with the smallest values. Chains are cleared when the day changes.

## Implementation notes

Array indices are integers, as in the source, where a negative one ends a chain. A
string is the text up to its end, so that `strcmp` is equality and `strncpy` cuts it
off. A loop over a chain without an end, and reading the iterator behind the last one,
have no result. The multimap is a list that is sorted by value with equal values in the
order of their insertion. The caller of `AddStrAttrReportToShm` sets the time of the
report; the other fields of a pair are left out.
-/

namespace XrkMonitor.StrAttr

open Library

def MAX_STR_ATTR_ARRY_NODE_VAL_COUNT : Nat := 15000
def MAX_STR_ATTR_STR_COUNT : Nat := 20
def STR_ATTR_COUNT_FOR_SELECT_STR : Nat := 8

/-- A text without its end mark. -/
abbrev CStr : Type := List UInt8

/-- `StrAttrNodeVal`. -/
structure StrAttrNodeVal where
  szStrInfo : CStr
  iStrVal : Int
  iNextStrAttr : Int
deriving Repr, DecidableEq

/-- `StrAttrNodeValShmInfo`. -/
structure StrAttrNodeValShmInfo where
  iNodeUse : Int
  iWriteIdx : Int
  stInfo : Int → StrAttrNodeVal

/-- `TStrAttrReportInfo`. -/
structure TStrAttrReportInfo where
  iAttrId : Int
  iMachineId : Int
  dwLastReportTime : Nat
  bStrCount : Nat
  iReportIdx : Int
  bLastReportDayOfMonth : Nat
deriving Repr, DecidableEq

/-- An index of the array. -/
def validIdx (idx : Int) : Prop := 0 ≤ idx ∧ idx < MAX_STR_ATTR_ARRY_NODE_VAL_COUNT

instance (idx : Int) : Decidable (validIdx idx) := inferInstanceAs (Decidable (_ ∧ _))

/-- The value that an `int` keeps of a number. -/
def toInt32 (x : Int) : Int := x.bmod (2 ^ 32)

section Clear

/-- The loop that frees a chain. -/
def clearNodes : Nat → (Int → StrAttrNodeVal) → Int → Option (Int → StrAttrNodeVal)
  | 0, _, _ => none
  | fuel + 1, stInfo, idx =>
    if validIdx idx then
      clearNodes fuel
        (Function.update stInfo idx
          { stInfo idx with
            iStrVal := -1 })
        (stInfo idx).iNextStrAttr
    else some stInfo

/-- A day has passed since the last report. -/
def dayChanged (e : TStrAttrReportInfo) (now mday : Nat) : Bool :=
  (24 * 3600 + e.dwLastReportTime) % 2 ^ 32 < now || e.bLastReportDayOfMonth ≠ mday

/-- `CheckClearStrAttrNodeShm`. -/
def checkClearStrAttrNodeShm (p : StrAttrNodeValShmInfo) (e : TStrAttrReportInfo)
    (now mday : Nat) : Option (StrAttrNodeValShmInfo × TStrAttrReportInfo) :=
  if dayChanged e now mday ∧ 0 < e.bStrCount then do
    let stInfo ← clearNodes (MAX_STR_ATTR_ARRY_NODE_VAL_COUNT + 1) p.stInfo e.iReportIdx
    some
      ({ p with
          iNodeUse := p.iNodeUse - e.bStrCount
          stInfo := stInfo },
        { e with
          bStrCount := 0
          iReportIdx := -1 })
  else some (p, e)

end Clear

section Add

/-- The search for a string in a chain. -/
inductive StrSearch
  | found (idx : Int)
  | last (iLastIdx : Int)
  | invalid
deriving Repr, DecidableEq

/-- The loop over the strings of a chain; `n` rounds are left. -/
def searchStr (stInfo : Int → StrAttrNodeVal) (pstr : CStr) : Nat → Int → StrSearch
  | 0, _ => .last (-1)
  | n + 1, idx =>
    if ¬ validIdx idx then .invalid
    else if (stInfo idx).szStrInfo = pstr then .found idx
    else if n = 0 then .last idx
    else searchStr stInfo pstr n (stInfo idx).iNextStrAttr

/-- The loop that fills the multimap with the values and indices of a chain. -/
def collectNodes (stInfo : Int → StrAttrNodeVal) : Nat → Int → List (Int × Int)
  | 0, _ => []
  | n + 1, idx =>
    if 0 < idx ∧ idx < MAX_STR_ATTR_ARRY_NODE_VAL_COUNT then
      ((stInfo idx).iStrVal, idx) :: collectNodes stInfo n (stInfo idx).iNextStrAttr
    else []

/-- The nodes that are removed become free. -/
def freeNodes (stInfo : Int → StrAttrNodeVal) : List Int → Int → StrAttrNodeVal
  | [] => stInfo
  | idx :: idxs =>
    freeNodes
      (Function.update stInfo idx
        { stInfo idx with
          iStrVal := -1
          iNextStrAttr := -1 })
      idxs

/-- The nodes that are kept are chained in the order of the multimap; the last one ends the
chain. -/
def relinkNodes (stInfo : Int → StrAttrNodeVal) (idx : Int) :
    List Int → (Int → StrAttrNodeVal) × Int
  | [] =>
    (Function.update stInfo idx
      { stInfo idx with
        iNextStrAttr := -1 }, idx)
  | idx' :: idxs =>
    relinkNodes
      (Function.update stInfo idx
        { stInfo idx with
          iNextStrAttr := idx' })
      idx' idxs

/-- The multimap of a full chain, in its order. -/
def repMap (stInfo : Int → StrAttrNodeVal) (e : TStrAttrReportInfo) : List (Int × Int) :=
  (collectNodes stInfo e.bStrCount e.iReportIdx).insertionSort fun a b => a.1 ≤ b.1

/-- The nodes with the smallest values are removed from a full chain. -/
def evictNodes (p : StrAttrNodeValShmInfo) (e : TStrAttrReportInfo) :
    Option (StrAttrNodeValShmInfo × TStrAttrReportInfo × Int) :=
  let stMapRep := repMap p.stInfo e
  let removed := (stMapRep.take STR_ATTR_COUNT_FOR_SELECT_STR).map Prod.snd
  match (stMapRep.drop STR_ATTR_COUNT_FOR_SELECT_STR).map Prod.snd with
  | [] => none
  | idx :: idxs =>
    let (stInfo, iLastIdx) := relinkNodes (freeNodes p.stInfo removed) idx idxs
    some
      ({ p with
          iNodeUse := p.iNodeUse - STR_ATTR_COUNT_FOR_SELECT_STR
          stInfo := stInfo },
        { e with
          iReportIdx := idx
          bStrCount := (e.bStrCount + (256 - STR_ATTR_COUNT_FOR_SELECT_STR)) % 256 },
        iLastIdx)

/-- The write index moves on, round the array. -/
def nextWriteIdx (iWriteIdx : Int) : Int :=
  if (MAX_STR_ATTR_ARRY_NODE_VAL_COUNT : Int) ≤ iWriteIdx + 1 then 0 else iWriteIdx + 1

/-- The loop that looks for a free node, and the write index after it. -/
def findFree (stInfo : Int → StrAttrNodeVal) : Nat → Int → Option Int × Int
  | 0, iWriteIdx => (none, iWriteIdx)
  | n + 1, iWriteIdx =>
    if (stInfo iWriteIdx).iStrVal ≤ 0 then (some iWriteIdx, nextWriteIdx iWriteIdx)
    else findFree stInfo n (nextWriteIdx iWriteIdx)

/-- The new string is stored in a free node behind the last one of the chain. -/
def storeStr (p : StrAttrNodeValShmInfo) (e : TStrAttrReportInfo) (iLastIdx : Int) (pstr : CStr)
    (val : Nat) (mday : Nat) : StrAttrNodeValShmInfo × TStrAttrReportInfo :=
  match findFree p.stInfo MAX_STR_ATTR_ARRY_NODE_VAL_COUNT p.iWriteIdx with
  | (none, iWriteIdx) =>
    ({ p with
        iWriteIdx := iWriteIdx }, e)
  | (some idx, iWriteIdx) =>
    let stored := Function.update p.stInfo idx ⟨pstr.take 64, toInt32 val, -1⟩
    if validIdx iLastIdx then
      ({ iNodeUse := p.iNodeUse + 1
         iWriteIdx := iWriteIdx
         stInfo := Function.update stored iLastIdx
           { stored iLastIdx with
             iNextStrAttr := idx } },
        { e with
          bStrCount := wordInc 8 e.bStrCount
          bLastReportDayOfMonth := mday })
    else
      ({ iNodeUse := p.iNodeUse + 1
         iWriteIdx := iWriteIdx
         stInfo := stored },
        { e with
          iReportIdx := idx
          bStrCount := 1
          bLastReportDayOfMonth := mday })

/-- `AddStrAttrReportToShm` behind the clearing of the chain. -/
def addStr (p : StrAttrNodeValShmInfo) (e : TStrAttrReportInfo) (pstr : CStr) (val mday : Nat) :
    Option (StrAttrNodeValShmInfo × TStrAttrReportInfo) :=
  match searchStr p.stInfo pstr e.bStrCount e.iReportIdx with
  | .invalid => some (p, e)
  | .found idx =>
    some
      ({ p with
          stInfo := Function.update p.stInfo idx
            { p.stInfo idx with
              iStrVal := toInt32 ((p.stInfo idx).iStrVal + val) } },
        { e with
          bLastReportDayOfMonth := mday })
  | .last iLastIdx =>
    if STR_ATTR_COUNT_FOR_SELECT_STR + MAX_STR_ATTR_STR_COUNT ≤ e.bStrCount then do
      let (p, e, iLastIdx) ← evictNodes p e
      some (storeStr p e iLastIdx pstr val mday)
    else some (storeStr p e iLastIdx pstr val mday)

/-- `AddStrAttrReportToShm` on the pair that `GetStrAttrShmInfo` gives; `dwIsFind` tells whether it
was in use. -/
def addStrAttrReportToShm (p : StrAttrNodeValShmInfo) (e : TStrAttrReportInfo) (dwIsFind : Bool)
    (pstr : CStr) (val now mday : Nat) :
    Option (StrAttrNodeValShmInfo × TStrAttrReportInfo) := do
  let (p, e) ← checkClearStrAttrNodeShm p e now mday
  let e :=
    if dwIsFind then e
    else
      { e with
        bStrCount := 0
        iReportIdx := -1 }
  addStr p e pstr val mday

end Add

end XrkMonitor.StrAttr
