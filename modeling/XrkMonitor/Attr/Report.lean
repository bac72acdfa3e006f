import Mathlib.Algebra.BigOperators.Group.List.Basic
import XrkMonitor.Library.BinarySearch
import XrkMonitor.SharedHash.Cursor

/-!
# Attribute counters from the client library to the agent

`MtReport_Attr_Add` adds a value to the counter of an attribute in one of the
shared hash tables, or in the special list when no table has a cell for it.
`ReadAttr` takes the counters out in batches: first the special list, then node
by node through the tables, merging equal attributes by binary search.

## Implementation notes

A call of `MtReport_Attr_Add` is one step; a `ReadAttr` goes on in steps of one
node, so calls fall between its nodes. Whether a compare-and-swap on a table
flag finds the flag held is an input. A report that a table function makes
through `MtReport_Attr_Spec` is carried out after the step (`flushSpec`). The
counters of calls that nothing reads back are left out.
-/

namespace XrkMonitor.Attr

open Library SharedHash SharedHashTable

def MTATTR_HASH_NODE : Nat := 2000
def MTATTR_SPECIAL_COUNT : Nat := 200
def MAX_ATTR_READ_PER_EACH : Nat := 120

/-- A value as an `int32_t` holds it. -/
def int32 (x : Int) : Int := Int.bmod x (2 ^ 32)

structure AttrNode where
  bSyncProcess : Nat
  iAttrID : Int
  iCurValue : Int
deriving Repr, DecidableEq

/-- A node after `memset`. -/
instance : Inhabited AttrNode := ⟨⟨0, 0, 0⟩⟩

/-- `mtreport_attr_cmp`. -/
def mtreportAttrCmp (pKey pNode : AttrNode) : Int := if pKey.iAttrID = pNode.iAttrID then 0 else 1

/-- The attribute tables and the special list of the shared memory. -/
structure AttrShm where
  stAttrHash : List (SharedHashTable AttrNode)
  iAttrSpecialCount : Nat
  sArrtListSpec : Nat → AttrNode

def AttrShm.setTable (s : AttrShm) (i : Nat) (t : SharedHashTable AttrNode) : AttrShm :=
  { s with stAttrHash := s.stAttrHash.set i t }

section Add

/-- The place of an attribute in the special list. -/
def specIndex (s : AttrShm) (attr : Int) : Option Nat :=
  (List.range s.iAttrSpecialCount).find? fun i => (s.sArrtListSpec i).iAttrID == attr

/-- `MtReport_Attr_Spec`. -/
def mtReportAttrSpec (s : AttrShm) (attr iValue : Int) : Int × AttrShm :=
  if attr ≤ 0 ∨ iValue ≤ 0 then (-1, s)
  else
    match specIndex s attr with
    | some i =>
      let node := s.sArrtListSpec i
      (0,
        { s with
          sArrtListSpec := Function.update s.sArrtListSpec i
            { node with iCurValue := int32 (node.iCurValue + iValue) } })
    | none =>
      let i := s.iAttrSpecialCount
      let s := { s with iAttrSpecialCount := s.iAttrSpecialCount + 1 }
      if MTATTR_SPECIAL_COUNT ≤ i then (-1, s)
      else
        (0,
          { s with
            sArrtListSpec := Function.update s.sArrtListSpec i
              { s.sArrtListSpec i with iAttrID := attr, iCurValue := iValue } })

/-- The reports that the table functions have made. -/
def flushSpec (s : AttrShm) : AttrShm :=
  (s.stAttrHash.flatMap (·.attrSpec)).foldl
    (fun s (attr : Nat) => (mtReportAttrSpec s attr 1).2)
    { s with stAttrHash := s.stAttrHash.map fun t => { t with attrSpec := [] } }

/-- How the loop of `MtReport_Attr_Add` over the tables ends. -/
inductive AddEnd
  | stored
  | noTable
  | gaveUp
deriving Repr, DecidableEq

/-- A table that is passed on the way to the next one. -/
def passTable (t : SharedHashTable AttrNode)
    (r : AddEnd × List (SharedHashTable AttrNode)) : AddEnd × List (SharedHashTable AttrNode) :=
  (r.1, t :: r.2)

/-- The loop of `MtReport_Attr_Add` over the tables that are left. -/
def attrAddLoop (env : LockEnv) (attr iValue : Int) :
    Nat → List (SharedHashTable AttrNode) → AddEnd × List (SharedHashTable AttrNode)
  | _, [] => (.noTable, [])
  | bCheckCount, t :: ts =>
    match hashTableSearchEx t ⟨0, attr, 0⟩ attr.toNat with
    | (true, some c) =>
      let node := t.node c
      (.stored, t.setNode c { node with iCurValue := int32 (node.iCurValue + iValue) } :: ts)
    | (false, some c) =>
      let node := t.node c
      if node.bSyncProcess = 0 ∨ 10 ≤ node.bSyncProcess then
        let bSyncProcess := if node.bSyncProcess = 0 then 1 else node.bSyncProcess
        (.stored, (insertHashNode env (t.setNode c ⟨bSyncProcess, attr, iValue⟩) c).2 :: ts)
      else
        let t := t.setNode c { node with bSyncProcess := node.bSyncProcess + 1 }
        if 10 < bCheckCount + 1 then (.gaveUp, t :: ts)
        else passTable t (attrAddLoop env attr iValue (bCheckCount + 1) ts)
    | (_, none) => passTable t (attrAddLoop env attr iValue bCheckCount ts)

/-- `MtReport_Attr_Add`. -/
def mtReportAttrAdd (env : LockEnv) (s : AttrShm) (attr iValue : Int) : Int × AttrShm :=
  if attr ≤ 0 ∨ iValue ≤ 0 then (-1, s)
  else
    match attrAddLoop env attr iValue 0 s.stAttrHash with
    | (.stored, ts) => (0, flushSpec { s with stAttrHash := ts })
    | (.gaveUp, ts) => (-2, (mtReportAttrSpec (flushSpec { s with stAttrHash := ts }) 238 1).2)
    | (.noTable, ts) => mtReportAttrSpec (flushSpec { s with stAttrHash := ts }) attr iValue

end Add

section Read

/-- `qsort` of a batch by `attr_cmp`. -/
def sortAttr (stAttrRead : List AttrNode) : List AttrNode :=
  stAttrRead.insertionSort fun a b => a.iAttrID - b.iAttrID ≤ 0

/-- One node goes into the batch of `ReadAttr`. -/
def mergeAttr (stAttrRead : List AttrNode) (node : AttrNode) : List AttrNode :=
  match bsearch (fun x => node.iAttrID - x.iAttrID) stAttrRead with
  | some i =>
    stAttrRead.modify i fun x => { x with iCurValue := int32 (x.iCurValue + node.iCurValue) }
  | none => if 0 < node.iCurValue then sortAttr (stAttrRead ++ [node]) else stAttrRead

/-- The local variables of a `ReadAttr` in the loop over table `i`. -/
structure ReadState where
  i : Nat
  bReverse : Bool
  pNode : Option Nat
  j : Nat
  stAttrRead : List AttrNode
deriving Repr, DecidableEq

/-- The start of the loop over table `i`; there is no state behind the last table. -/
def beginTable (s : AttrShm) (i : Nat) (stAttrRead : List AttrNode) :
    Option ReadState × AttrShm :=
  match s.stAttrHash[i]? with
  | none => (none, s)
  | some t =>
    let (pNode, t) := getFirstNode t
    if pNode.isNone && decide (0 < t.head.dwNodeUseCount) then
      let (pNode, t) := getFirstNodeRevers t
      (some ⟨i, true, pNode, 0, stAttrRead⟩, s.setTable i t)
    else (some ⟨i, false, pNode, 0, stAttrRead⟩, s.setTable i t)

/-- The entries of the special list. -/
def specNodes (s : AttrShm) : List AttrNode :=
  (List.range s.iAttrSpecialCount).map s.sArrtListSpec

/-- The start of `ReadAttr`: the batch so far, and the state of the loop or none if it returns. -/
def readBegin (s : AttrShm) : List AttrNode × Option ReadState × AttrShm :=
  if 0 < s.iAttrSpecialCount ∧ s.iAttrSpecialCount ≤ MAX_ATTR_READ_PER_EACH then
    let stAttrRead := sortAttr (specNodes s)
    (stAttrRead, beginTable { s with iAttrSpecialCount := 0 } 0 stAttrRead)
  else if MAX_ATTR_READ_PER_EACH < s.iAttrSpecialCount then
    ((List.range MAX_ATTR_READ_PER_EACH).map s.sArrtListSpec, none,
      { s with
        iAttrSpecialCount := s.iAttrSpecialCount - MAX_ATTR_READ_PER_EACH
        sArrtListSpec := fun i =>
          if i < s.iAttrSpecialCount - MAX_ATTR_READ_PER_EACH
          then s.sArrtListSpec (i + MAX_ATTR_READ_PER_EACH) else s.sArrtListSpec i })
  else ([], beginTable s 0 [])

/-- The end of the loop over a table. -/
def endTable (bReverse : Bool) (t : SharedHashTable AttrNode) : SharedHashTable AttrNode :=
  if bReverse && decide (t.head.dwNodeUseCount ≤ 1) then
    { resetHashTable t with bAccessCheck := true }
  else if !bReverse && decide (t.head.dwNodeUseCount ≤ 0) then { t with bAccessCheck := false }
  else t

/-- The node of one round of the loop is merged, removed and cleared. -/
def takeNode (env : LockEnv) (t : SharedHashTable AttrNode) (c : Nat) (bReverse : Bool) :
    Option Nat × SharedHashTable AttrNode :=
  let t := (removeHashNode env t c).2.setNode c default
  if bReverse then getCurNodeRevers t else getCurNode t

/-- One round of the loop over a table, or the end of that loop. -/
def readStep (env : LockEnv) (s : AttrShm) (r : ReadState) :
    List AttrNode × Option ReadState × AttrShm :=
  match s.stAttrHash[r.i]? with
  | none => (r.stAttrRead, none, s)
  | some t =>
    match r.pNode with
    | some c =>
      if r.j < MTATTR_HASH_NODE * STATIC_HASH_ROW_MAX ∧
          r.stAttrRead.length < MAX_ATTR_READ_PER_EACH then
        let stAttrRead := mergeAttr r.stAttrRead (t.node c)
        let (pNode, t) := takeNode env t c r.bReverse
        (stAttrRead, some { r with pNode := pNode, j := r.j + 1, stAttrRead := stAttrRead },
          flushSpec (s.setTable r.i t))
      else leave t
    | none => leave t
where
  leave (t : SharedHashTable AttrNode) : List AttrNode × Option ReadState × AttrShm :=
    let s := flushSpec (s.setTable r.i (endTable r.bReverse t))
    if MAX_ATTR_READ_PER_EACH ≤ r.stAttrRead.length then (r.stAttrRead, none, s)
    else (r.stAttrRead, beginTable s (r.i + 1) r.stAttrRead)

end Read

/-- The sum of the values of an attribute. -/
def sumOf (attr : Int) (nodes : List AttrNode) : Int :=
  (nodes.map fun n => if n.iAttrID = attr then n.iCurValue else 0).sum

/-- The nodes in use in a table. -/
def usedNodes (t : SharedHashTable AttrNode) : List AttrNode :=
  ((List.range t.dwRealNodeCount).filter t.used).map t.node

/-- What is pending of an attribute in the tables and the special list. -/
def pendingOf (s : AttrShm) (attr : Int) : Int :=
  (s.stAttrHash.map fun t => sumOf attr (usedNodes t)).sum + sumOf attr (specNodes s)

end XrkMonitor.Attr
