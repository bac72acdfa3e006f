import Mathlib.Data.List.Basic
import Mathlib.Logic.Function.Basic
import XrkMonitor.Library.MachineWord

/-!
# The shared-memory hash table of the client library

One table is a head, an array of cells and the state one process keeps about
it. Each cell has a node head with its links and the node data the caller
stores. Used cells are threaded into one doubly linked list by cell index; the
index `dwRealNodeCount` ends the list in both directions. Three operations
change that list: `insertHashNode` appends, `insertHashNodeSort` inserts by
the table's comparator and `removeHashNode` unlinks.

## Implementation notes

A pointer to a node is its cell index. The comparator and the node data stay
generic. Reports that the table functions make through `MtReport_Attr_Spec`
act on another shared structure, so the table records their attribute ids in
`attrSpec` for the caller. A flag held by another process is an input of each
operation (`LockEnv`). The sort scan walks the list backwards without a bound
of its own; `none` stands for a scan that outlives every cell of the table.
-/

namespace XrkMonitor.SharedHash

open Library

def STATIC_HASH_ROW_MAX : Nat := 10

/-- `_HashNodeHead`, stored in front of every node. -/
structure HashNodeHead where
  bIsUsed : Bool
  dwNodePreIndex : Nat
  dwNodeNextIndex : Nat
deriving Repr, DecidableEq

/-- `_HashTableHead`, stored in front of the cells. -/
structure HashTableHead where
  dwNodeStartIndex : Nat
  dwNodeEndIndex : Nat
  dwNodeUseCount : Nat
  dwWriteProcessId : Nat
  dwLastUseTimeSec : Nat
  bHashUseFlag : Bool
deriving Repr, DecidableEq

/-- `SharedHashTable` together with the shared memory behind `pHash`. -/
structure SharedHashTable (α : Type*) where
  dwNodeSize : Nat
  dwRealNodeCount : Nat
  dwShareMemBytes : Nat
  dwNodeNums : List Nat
  bInitSuccess : Bool
  bAccessCheck : Bool
  dwCurIndex : Nat
  dwCurIndexRevers : Nat
  funCmp : α → α → Int
  head : HashTableHead
  nodeHead : Nat → HashNodeHead
  node : Nat → α
  attrSpec : List Nat

/-- What an operation meets outside the table: whether try `i` finds the flag
held by another process, the clock, and the calling process. -/
structure LockEnv where
  busy : Nat → Bool
  now : Nat
  pid : Nat

namespace SharedHashTable

variable {α : Type*}

def next (t : SharedHashTable α) (i : Nat) : Nat := (t.nodeHead i).dwNodeNextIndex

def pre (t : SharedHashTable α) (i : Nat) : Nat := (t.nodeHead i).dwNodePreIndex

def used (t : SharedHashTable α) (i : Nat) : Bool := (t.nodeHead i).bIsUsed

def setHead (t : SharedHashTable α) (h : HashTableHead) : SharedHashTable α :=
  { t with head := h }

def setNext (t : SharedHashTable α) (i v : Nat) : SharedHashTable α :=
  { t with
    nodeHead := Function.update t.nodeHead i ({ t.nodeHead i with dwNodeNextIndex := v }) }

def setPre (t : SharedHashTable α) (i v : Nat) : SharedHashTable α :=
  { t with
    nodeHead := Function.update t.nodeHead i ({ t.nodeHead i with dwNodePreIndex := v }) }

def setUsed (t : SharedHashTable α) (i : Nat) (b : Bool) : SharedHashTable α :=
  { t with
    nodeHead := Function.update t.nodeHead i ({ t.nodeHead i with bIsUsed := b }) }

def setNode (t : SharedHashTable α) (i : Nat) (a : α) : SharedHashTable α :=
  { t with node := Function.update t.node i a }

def setStart (t : SharedHashTable α) (v : Nat) : SharedHashTable α :=
  t.setHead { t.head with dwNodeStartIndex := v }

def setEnd (t : SharedHashTable α) (v : Nat) : SharedHashTable α :=
  t.setHead { t.head with dwNodeEndIndex := v }

def setUseCount (t : SharedHashTable α) (v : Nat) : SharedHashTable α :=
  t.setHead { t.head with dwNodeUseCount := v }

/-- `bHashUseFlag = 0; dwLastUseTimeSec = 0`, the end of every operation. -/
def unlock (t : SharedHashTable α) : SharedHashTable α :=
  t.setHead { t.head with bHashUseFlag := false, dwLastUseTimeSec := 0 }

/-- `MtReport_Attr_Spec(attr, 1)` called from inside the table functions. -/
def report (t : SharedHashTable α) (attr : Nat) : SharedHashTable α :=
  { t with attrSpec := t.attrSpec ++ [attr] }

section Fields

variable (t : SharedHashTable α) (i v : Nat) (b : Bool) (a : α) (h : HashTableHead)

@[simp] theorem next_setNext :
    (t.setNext i v).next = Function.update t.next i v := by
  funext j
  by_cases hj : j = i
  · subst j
    simp [next, setNext]
  · simp [next, setNext, hj]

@[simp] theorem pre_setNext : (t.setNext i v).pre = t.pre := by
  funext j
  by_cases hj : j = i
  · subst j
    simp [pre, setNext]
  · simp [pre, setNext, hj]

@[simp] theorem used_setNext : (t.setNext i v).used = t.used := by
  funext j
  by_cases hj : j = i
  · subst j
    simp [used, setNext]
  · simp [used, setNext, hj]

@[simp] theorem head_setNext : (t.setNext i v).head = t.head := rfl

@[simp] theorem node_setNext : (t.setNext i v).node = t.node := rfl

@[simp] theorem dwRealNodeCount_setNext : (t.setNext i v).dwRealNodeCount = t.dwRealNodeCount := rfl

@[simp] theorem bInitSuccess_setNext : (t.setNext i v).bInitSuccess = t.bInitSuccess := rfl

@[simp] theorem funCmp_setNext : (t.setNext i v).funCmp = t.funCmp := rfl

@[simp] theorem next_setPre : (t.setPre i v).next = t.next := by
  funext j
  by_cases hj : j = i
  · subst j
    simp [next, setPre]
  · simp [next, setPre, hj]

@[simp] theorem pre_setPre :
    (t.setPre i v).pre = Function.update t.pre i v := by
  funext j
  by_cases hj : j = i
  · subst j
    simp [pre, setPre]
  · simp [pre, setPre, hj]

@[simp] theorem used_setPre : (t.setPre i v).used = t.used := by
  funext j
  by_cases hj : j = i
  · subst j
    simp [used, setPre]
  · simp [used, setPre, hj]

@[simp] theorem head_setPre : (t.setPre i v).head = t.head := rfl

@[simp] theorem node_setPre : (t.setPre i v).node = t.node := rfl

@[simp] theorem dwRealNodeCount_setPre : (t.setPre i v).dwRealNodeCount = t.dwRealNodeCount := rfl

@[simp] theorem bInitSuccess_setPre : (t.setPre i v).bInitSuccess = t.bInitSuccess := rfl

@[simp] theorem funCmp_setPre : (t.setPre i v).funCmp = t.funCmp := rfl

@[simp] theorem next_setUsed : (t.setUsed i b).next = t.next := by
  funext j
  by_cases hj : j = i
  · subst j
    simp [next, setUsed]
  · simp [next, setUsed, hj]

@[simp] theorem pre_setUsed : (t.setUsed i b).pre = t.pre := by
  funext j
  by_cases hj : j = i
  · subst j
    simp [pre, setUsed]
  · simp [pre, setUsed, hj]

@[simp] theorem used_setUsed :
    (t.setUsed i b).used = Function.update t.used i b := by
  funext j
  by_cases hj : j = i
  · subst j
    simp [used, setUsed]
  · simp [used, setUsed, hj]

@[simp] theorem head_setUsed : (t.setUsed i b).head = t.head := rfl

@[simp] theorem node_setUsed : (t.setUsed i b).node = t.node := rfl

@[simp] theorem dwRealNodeCount_setUsed : (t.setUsed i b).dwRealNodeCount = t.dwRealNodeCount := rfl

@[simp] theorem bInitSuccess_setUsed : (t.setUsed i b).bInitSuccess = t.bInitSuccess := rfl

@[simp] theorem funCmp_setUsed : (t.setUsed i b).funCmp = t.funCmp := rfl

@[simp] theorem next_setHead : (t.setHead h).next = t.next := rfl

@[simp] theorem pre_setHead : (t.setHead h).pre = t.pre := rfl

@[simp] theorem used_setHead : (t.setHead h).used = t.used := rfl

@[simp] theorem head_setHead : (t.setHead h).head = h := rfl

@[simp] theorem node_setHead : (t.setHead h).node = t.node := rfl

@[simp] theorem dwRealNodeCount_setHead : (t.setHead h).dwRealNodeCount = t.dwRealNodeCount := rfl

@[simp] theorem bInitSuccess_setHead : (t.setHead h).bInitSuccess = t.bInitSuccess := rfl

@[simp] theorem funCmp_setHead : (t.setHead h).funCmp = t.funCmp := rfl

@[simp] theorem next_setNode : (t.setNode i a).next = t.next := rfl

@[simp] theorem pre_setNode : (t.setNode i a).pre = t.pre := rfl

@[simp] theorem used_setNode : (t.setNode i a).used = t.used := rfl

@[simp] theorem head_setNode : (t.setNode i a).head = t.head := rfl

@[simp] theorem node_setNode : (t.setNode i a).node = Function.update t.node i a := rfl

@[simp] theorem dwRealNodeCount_setNode : (t.setNode i a).dwRealNodeCount = t.dwRealNodeCount := rfl

@[simp] theorem bInitSuccess_setNode : (t.setNode i a).bInitSuccess = t.bInitSuccess := rfl

@[simp] theorem funCmp_setNode : (t.setNode i a).funCmp = t.funCmp := rfl

@[simp] theorem next_report : (t.report v).next = t.next := rfl

@[simp] theorem pre_report : (t.report v).pre = t.pre := rfl

@[simp] theorem used_report : (t.report v).used = t.used := rfl

@[simp] theorem head_report : (t.report v).head = t.head := rfl

@[simp] theorem node_report : (t.report v).node = t.node := rfl

@[simp] theorem dwRealNodeCount_report : (t.report v).dwRealNodeCount = t.dwRealNodeCount := rfl

@[simp] theorem bInitSuccess_report : (t.report v).bInitSuccess = t.bInitSuccess := rfl

@[simp] theorem funCmp_report : (t.report v).funCmp = t.funCmp := rfl

theorem setPre_setNext (j w : Nat) :
    (t.setNext i v).setPre j w = (t.setPre j w).setNext i v := by
  have hcells : ((t.setNext i v).setPre j w).nodeHead = ((t.setPre j w).setNext i v).nodeHead := by
    funext k
    by_cases hi : k = i
    · subst hi
      by_cases hj : k = j
      · subst hj
        simp [setPre, setNext]
      · simp [setPre, setNext, hj]
    · by_cases hj : k = j
      · subst hj
        simp [setPre, setNext, hi]
      · simp [setPre, setNext, hi, hj]
  simpa [setPre, setNext] using hcells

end Fields

end SharedHashTable

variable {α : Type*}

/-- The number of cells that `ResetHashTable` clears: the shared memory after
the 29-byte table head, in cells of a 9-byte node head and the node. -/
def resetCells (t : SharedHashTable α) : Nat :=
  (t.dwShareMemBytes - 29) / (t.dwNodeSize + 9)

/-- `ResetHashTable`. Its lock loop ends holding the flag, which it clears by
force after two seconds. -/
def resetHashTable [Inhabited α] (t : SharedHashTable α) : SharedHashTable α :=
  if t.bInitSuccess then
    SharedHashTable.report
      { t with
        nodeHead := fun i => if i < resetCells t then ⟨false, 0, 0⟩ else t.nodeHead i
        node := fun i => if i < resetCells t then default else t.node i
        head := { t.head with
          dwNodeStartIndex := t.dwRealNodeCount
          dwNodeEndIndex := t.dwRealNodeCount
          dwNodeUseCount := 0
          dwLastUseTimeSec := 0
          bHashUseFlag := false } } 239
  else t

/-- `SHARED_HASH_ACCESS_CHECK_FAILED`. -/
def accessCheckFailed [Inhabited α] (t : SharedHashTable α) : SharedHashTable α :=
  resetHashTable (t.setHead { t.head with bHashUseFlag := false })

/-- Ten compare-and-swap tries on `bHashUseFlag`. -/
def lockLoop (env : LockEnv) (flag : Bool) : Bool :=
  (List.range 10).any fun i => !env.busy i && !flag

/-- The common entry of the three list operations. The first component tells
whether the operation goes on; otherwise it returns `-33`. -/
def enterWrite [Inhabited α] (env : LockEnv) (t : SharedHashTable α) :
    Bool × SharedHashTable α :=
  if t.head.dwWriteProcessId ≠ 0 then
    (true, if env.pid = t.head.dwWriteProcessId then t else accessCheckFailed t)
  else if lockLoop env t.head.bHashUseFlag then
    (true, t.setHead { t.head with bHashUseFlag := true, dwLastUseTimeSec := env.now })
  else
    let t := if (t.head.dwLastUseTimeSec + 2) % 2 ^ 32 < env.now then
      t.setHead { t.head with bHashUseFlag := false } else t
    (false, t.report 237)

/-- The linking part of `InsertHashNode`: append after the end index. -/
def linkLast (t : SharedHashTable α) (dwNodeIndex : Nat) : SharedHashTable α :=
  if 0 < t.head.dwNodeUseCount then
    let t := t.setUseCount (wordInc 32 t.head.dwNodeUseCount)
    let t := t.setNext t.head.dwNodeEndIndex dwNodeIndex
    let t := t.setPre dwNodeIndex t.head.dwNodeEndIndex
    let t := t.setNext dwNodeIndex t.dwRealNodeCount
    t.setEnd dwNodeIndex
  else
    let t := t.setUseCount 1
    let t := t.setPre dwNodeIndex t.dwRealNodeCount
    let t := t.setNext dwNodeIndex t.dwRealNodeCount
    let t := t.setEnd dwNodeIndex
    t.setStart dwNodeIndex

/-- `InsertHashNode`. -/
def insertHashNode [Inhabited α] (env : LockEnv) (t : SharedHashTable α)
    (dwNodeIndex : Nat) : Int × SharedHashTable α :=
  if !t.bInitSuccess then (-1, t)
  else
    match enterWrite env t with
    | (false, t) => (-33, t)
    | (true, t) => (0, ((linkLast t dwNodeIndex).setUsed dwNodeIndex true).unlock)

/-- The backward scan of `InsertHashNodeSort`. The flag is `false` when the
scan passed the first node, the C code's `pNodeInsert == NULL`. -/
def sortScan (t : SharedHashTable α) (dwNodeIndex : Nat) : Nat → Nat → Option (Nat × Bool)
  | 0, _ => none
  | fuel + 1, last =>
    if ¬ t.funCmp (t.node last) (t.node dwNodeIndex) > 0 then some (last, true)
    else if t.pre last = t.dwRealNodeCount then some (last, false)
    else sortScan t dwNodeIndex fuel (t.pre last)

/-- The linking part of `InsertHashNodeSort` on a non-empty list, after the
scan stopped at `last`. -/
def linkSorted [Inhabited α] (t : SharedHashTable α) (dwNodeIndex last : Nat)
    (found : Bool) : Int × SharedHashTable α :=
  if !found then
    if t.head.dwNodeStartIndex ≠ last then
      let t := accessCheckFailed t
      (-3, resetHashTable (t.setHead { t.head with bHashUseFlag := false }))
    else
      let t := t.setPre last dwNodeIndex
      let t := t.setPre dwNodeIndex t.dwRealNodeCount
      let t := t.setNext dwNodeIndex t.head.dwNodeStartIndex
      (0, t.setStart dwNodeIndex)
  else if t.next last = t.dwRealNodeCount then
    if t.head.dwNodeEndIndex ≠ last then
      let t := accessCheckFailed t
      (-4, resetHashTable (t.setHead { t.head with bHashUseFlag := false }))
    else
      let t := t.setNext last dwNodeIndex
      let t := t.setNext dwNodeIndex t.dwRealNodeCount
      let t := t.setPre dwNodeIndex t.head.dwNodeEndIndex
      (0, t.setEnd dwNodeIndex)
  else
    let t := t.setNext dwNodeIndex (t.next last)
    let t := t.setPre dwNodeIndex last
    let t := t.setPre (t.next last) dwNodeIndex
    (0, t.setNext last dwNodeIndex)

/-- `InsertHashNodeSort`. -/
def insertHashNodeSort [Inhabited α] (env : LockEnv) (t : SharedHashTable α)
    (dwNodeIndex : Nat) : Option (Int × SharedHashTable α) :=
  if !t.bInitSuccess then some (-1, t)
  else
    match enterWrite env t with
    | (false, t) => some (-33, t)
    | (true, t) =>
      if 0 < t.head.dwNodeUseCount then
        let t := t.setUseCount (wordInc 32 t.head.dwNodeUseCount)
        (sortScan t dwNodeIndex (t.dwRealNodeCount + 1) t.head.dwNodeEndIndex).map
          fun stop =>
            let r := linkSorted t dwNodeIndex stop.1 stop.2
            if r.1 = 0 then (0, (r.2.setUsed dwNodeIndex true).unlock) else r
      else
        let t := t.setUseCount 1
        let t := t.setPre dwNodeIndex t.dwRealNodeCount
        let t := t.setNext dwNodeIndex t.dwRealNodeCount
        let t := t.setEnd dwNodeIndex
        let t := t.setStart dwNodeIndex
        some (0, (t.setUsed dwNodeIndex true).unlock)

/-- `GetNextNode` without its result: it moves `dwCurIndex` one node on. -/
def getNextNode [Inhabited α] (t : SharedHashTable α) : SharedHashTable α :=
  if t.dwCurIndex = t.dwRealNodeCount then t
  else
    let old := t.dwCurIndex
    let t := { t with dwCurIndex := t.next old }
    if t.dwCurIndex = t.dwRealNodeCount then t
    else if t.bAccessCheck && (!t.used old || !t.used t.dwCurIndex) then accessCheckFailed t
    else t

/-- `GetNextNodeRevers` without its result. -/
def getNextNodeRevers [Inhabited α] (t : SharedHashTable α) : SharedHashTable α :=
  if t.dwCurIndexRevers = t.dwRealNodeCount then t
  else
    let old := t.dwCurIndexRevers
    let t := { t with dwCurIndexRevers := t.pre old }
    if t.dwCurIndexRevers = t.dwRealNodeCount then t
    else if t.bAccessCheck && (!t.used old || !t.used t.dwCurIndexRevers) then
      accessCheckFailed t
    else t

/-- Both cursors of the calling process step off the node being removed. -/
def moveCursors [Inhabited α] (t : SharedHashTable α) (dwIndex : Nat) :
    SharedHashTable α :=
  let t := if t.dwCurIndex = dwIndex then getNextNode t else t
  if t.dwCurIndexRevers = dwIndex then getNextNodeRevers t else t

/-- The unlinking part of `RemoveHashNode`. -/
def unlinkNode [Inhabited α] (t : SharedHashTable α) (dwIndex : Nat) :
    Int × SharedHashTable α :=
  let t := t.setUseCount (wordDec 32 t.head.dwNodeUseCount)
  if t.head.dwNodeUseCount ≤ 0 then
    (0, (t.setStart t.dwRealNodeCount).setEnd t.dwRealNodeCount)
  else if t.next dwIndex = t.dwRealNodeCount then
    if !t.used (t.pre dwIndex) then (-2, accessCheckFailed t)
    else (0, (t.setNext (t.pre dwIndex) t.dwRealNodeCount).setEnd (t.pre dwIndex))
  else if t.pre dwIndex = t.dwRealNodeCount then
    if !t.used (t.next dwIndex) then (-3, accessCheckFailed t)
    else (0, (t.setPre (t.next dwIndex) t.dwRealNodeCount).setStart (t.next dwIndex))
  else
    if !t.used (t.pre dwIndex) || !t.used (t.next dwIndex) then (-4, accessCheckFailed t)
    else (0, (t.setNext (t.pre dwIndex) (t.next dwIndex)).setPre
      (t.next dwIndex) (t.pre dwIndex))

/-- `RemoveHashNode`. -/
def removeHashNode [Inhabited α] (env : LockEnv) (t : SharedHashTable α)
    (dwIndex : Nat) : Int × SharedHashTable α :=
  if !t.bInitSuccess then (-1, t)
  else
    match enterWrite env t with
    | (false, t) => (-33, t)
    | (true, t) =>
      let r := unlinkNode (moveCursors t dwIndex) dwIndex
      if r.1 = 0 then
        let t := r.2.setUsed dwIndex false
        let t := t.setNext dwIndex t.dwRealNodeCount
        let t := t.setPre dwIndex t.dwRealNodeCount
        (0, t.unlock)
      else r

end XrkMonitor.SharedHash
