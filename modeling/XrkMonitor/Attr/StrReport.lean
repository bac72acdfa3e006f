import XrkMonitor.Attr.Report
import XrkMonitor.Library.Bytes
import XrkMonitor.SharedHash.Counters

/-!
# String attribute counters from the client library to the agent

`MtReport_Str_Attr_Add` adds a value to the counter of an attribute and a string
in one shared hash table. `ReadStrAttr` takes at most fifteen counters out in a
batch. It sorts the batch with `attr_cmp`, which reads the first four characters
of the string where an `AttrNode` has its attribute, and searches it with
`str_attr_cmp`, which compares the attribute and then the string.

## Implementation notes

A try of `MtReport_Str_Attr_Add` is one step; between two tries the call sleeps,
and other steps may fall there. A `ReadStrAttr` goes on in steps of one node.
`contend` gives an unused cell any `bSyncProcess`, as a process does that stops
before `InsertHashNode`. The reports of the table functions and of a call that
gives up are recorded in the table. The counters of calls that nothing reads
back are left out.
-/

namespace XrkMonitor.Attr

open Library SharedHash SharedHashTable

def MAX_STR_ATTR_READ_PER_EACH : Nat := 15

structure StrAttrNode where
  bSyncProcess : Nat
  szStrInfo : CharBuf 65
  iStrAttrId : Int
  iStrVal : Int
deriving DecidableEq

/-- A node after `memset`. -/
instance : Inhabited StrAttrNode := ⟨⟨0, CharBuf.zero 65, 0, 0⟩⟩

/-- The attribute and the string of a node. -/
def StrAttrNode.key (n : StrAttrNode) : Int × List UInt8 := (n.iStrAttrId, n.szStrInfo.str)

/-- The sign of `strcmp`. -/
def strcmp : List UInt8 → List UInt8 → Int
  | [], [] => 0
  | [], _ :: _ => -1
  | _ :: _, [] => 1
  | a :: as, b :: bs => if a < b then -1 else if b < a then 1 else strcmp as bs

/-- `mtreport_str_attr_cmp`. -/
def mtreportStrAttrCmp (pKey pNode : StrAttrNode) : Int :=
  if pKey.iStrAttrId = pNode.iStrAttrId ∧ strcmp pKey.szStrInfo.str pNode.szStrInfo.str = 0 then 0
  else 1

/-- `str_attr_cmp`. -/
def strAttrCmp (pKey pNode : StrAttrNode) : Int :=
  if pKey.iStrAttrId = pNode.iStrAttrId ∧ strcmp pKey.szStrInfo.str pNode.szStrInfo.str = 0 then 0
  else if pNode.iStrAttrId < pKey.iStrAttrId ∨
      pKey.iStrAttrId = pNode.iStrAttrId ∧ 0 < strcmp pKey.szStrInfo.str pNode.szStrInfo.str then 1
  else -1

/-- The `iAttrID` of an `AttrNode` at the place of a `StrAttrNode`. -/
def castAttrID (n : StrAttrNode) : Int := int32 (ofBytes (n.szStrInfo.front.take 4).reverse)

/-- `attr_cmp` of two string nodes. -/
def attrCmpStr (a b : StrAttrNode) : Int := int32 (castAttrID a - castAttrID b)

/-- A `char` as the `uint32_t` sum takes it. -/
def signedChar (b : UInt8) : Int := if b.toNat < 128 then b.toNat else b.toNat - 256

/-- `GetShortKeyByStr`: words of four characters while more than four are left, then characters. -/
def getShortKeyByStr : List UInt8 → Int
  | a :: b :: c :: d :: e :: rest => ofBytes [d, c, b, a] + getShortKeyByStr (e :: rest)
  | short => (short.map signedChar).sum

section Add

/-- A call of `MtReport_Str_Attr_Add` between two of its tries. -/
structure StrAdd where
  attr : Int
  pstr : List UInt8
  iValue : Int
  bCheckCount : Nat
deriving DecidableEq

namespace StrAdd

/-- `stRecord`. -/
def stRecord (a : StrAdd) : StrAttrNode := ⟨0, CharBuf.strncpy 65 a.pstr, a.attr, 0⟩

def dwShortKey (a : StrAdd) : Nat :=
  ((a.attr + getShortKeyByStr a.stRecord.szStrInfo.str) % 2 ^ 32).toNat

/-- The cell that a try finds. -/
def search (a : StrAdd) (t : SharedHashTable StrAttrNode) : Bool × Option Nat :=
  hashTableSearchEx t a.stRecord a.dwShortKey

end StrAdd

/-- One try of `MtReport_Str_Attr_Add`; without a return value the call sleeps and tries again. -/
def strAddTry (env : LockEnv) (t : SharedHashTable StrAttrNode) (a : StrAdd) :
    Option Int × SharedHashTable StrAttrNode :=
  if 10 < a.bCheckCount then (some (-2), t.report 238)
  else
    match a.search t with
    | (true, some c) =>
      let node := t.node c
      (some 0, t.setNode c { node with iStrVal := int32 (node.iStrVal + a.iValue) })
    | (false, some c) =>
      let node := t.node c
      if node.bSyncProcess = 0 ∨ 10 ≤ node.bSyncProcess then
        let bSyncProcess := if node.bSyncProcess = 0 then 1 else node.bSyncProcess
        (some 0,
          (insertHashNode env
            (t.setNode c ⟨bSyncProcess, CharBuf.strncpy 65 a.pstr, a.attr, a.iValue⟩) c).2)
      else (none, t.setNode c { node with bSyncProcess := node.bSyncProcess + 1 })
    | (_, none) => (some 0, t)

end Add

section Read

/-- `qsort` of a batch by `attr_cmp`. -/
def sortStrAttr (stStrAttrRead : List StrAttrNode) : List StrAttrNode :=
  stStrAttrRead.insertionSort fun a b => attrCmpStr a b ≤ 0

/-- One node goes into the batch of `ReadStrAttr`. -/
def mergeStrAttr (stStrAttrRead : List StrAttrNode) (node : StrAttrNode) : List StrAttrNode :=
  match bsearch (strAttrCmp node) stStrAttrRead with
  | some i => stStrAttrRead.modify i fun x => { x with iStrVal := int32 (x.iStrVal + node.iStrVal) }
  | none => if 0 < node.iStrVal then sortStrAttr (stStrAttrRead ++ [node]) else stStrAttrRead

/-- The local variables of a `ReadStrAttr` and its batch. -/
structure StrRead where
  bReverse : Bool
  pNode : Option Nat
  j : Nat
  stStrAttrRead : List StrAttrNode
deriving DecidableEq

/-- The start of `ReadStrAttr`. -/
def strReadBegin (t : SharedHashTable StrAttrNode) : StrRead × SharedHashTable StrAttrNode :=
  let (bReverse, pNode, t) := drainFirst t
  (⟨bReverse, pNode, 0, []⟩, t)

/-- One round of the loop of `ReadStrAttr`, or its end. -/
def strReadStep (env : LockEnv) (t : SharedHashTable StrAttrNode) (r : StrRead) :
    Option StrRead × SharedHashTable StrAttrNode :=
  match r.pNode with
  | some c =>
    if r.j < MTATTR_HASH_NODE * STATIC_HASH_ROW_MAX ∧
        r.stStrAttrRead.length < MAX_STR_ATTR_READ_PER_EACH then
      let stStrAttrRead := mergeStrAttr r.stStrAttrRead (t.node c)
      let (pNode, t) := drainNode env t c r.bReverse
      (some { r with pNode := pNode, j := r.j + 1, stStrAttrRead := stStrAttrRead }, t)
    else (none, drainEnd r.bReverse t)
  | none => (none, drainEnd r.bReverse t)

end Read

/-- The table, the sleeping calls, the running drain, and the history of calls that returned `0` and
of batches. -/
structure StrRun where
  table : SharedHashTable StrAttrNode
  sleeping : List StrAdd
  reading : Option StrRead
  added : List StrAdd
  drained : List (List StrAttrNode)

/-- A call, the next try of a sleeping call, a round of a drain, or another process. -/
inductive StrCall
  | add (env : LockEnv) (attr : Int) (pstr : List UInt8) (iValue : Int)
  | tryAgain (env : LockEnv) (i : Nat)
  | readBegin
  | readStep (env : LockEnv)
  | contend (c bSyncProcess : Nat)

/-- A try of the call `a`, when the calls `sleeping` are left beside it. -/
def StrRun.tryAdd (r : StrRun) (env : LockEnv) (a : StrAdd) (sleeping : List StrAdd) :
    Option Int × StrRun :=
  let x := strAddTry env r.table a
  (x.1,
    { r with
      table := x.2
      sleeping := if x.1.isNone then { a with bCheckCount := a.bCheckCount + 1 } :: sleeping
        else sleeping
      added := if x.1 = some 0 then a :: r.added else r.added })

/-- The state after a step; a call that ends gives its return value. -/
def strStep (r : StrRun) : StrCall → Option (Option Int × StrRun)
  | .add env attr pstr iValue =>
    if attr ≤ 0 ∨ iValue ≤ 0 then some (some (-1), r)
    else some (r.tryAdd env ⟨attr, pstr, iValue, 0⟩ r.sleeping)
  | .tryAgain env i => r.sleeping[i]?.map fun a => r.tryAdd env a (r.sleeping.eraseIdx i)
  | .readBegin =>
    if r.reading.isSome then none
    else
      let x := strReadBegin r.table
      some (none, { r with table := x.2, reading := some x.1 })
  | .readStep env =>
    r.reading.map fun rd =>
      let x := strReadStep env r.table rd
      (none,
        { r with
          table := x.2
          reading := x.1
          drained := if x.1.isNone then rd.stStrAttrRead :: r.drained else r.drained })
  | .contend c bSyncProcess =>
    some (none,
      { r with table := r.table.setNode c { r.table.node c with bSyncProcess := bSyncProcess } })

/-- The sum of the values of a key over nodes. -/
def strSumOf (k : Int × List UInt8) (nodes : List StrAttrNode) : Int :=
  keyedSum StrAttrNode.key StrAttrNode.iStrVal k nodes

/-- What was added of a key by calls that returned `0`. -/
def strAddedOf (k : Int × List UInt8) (added : List StrAdd) : Int :=
  keyedSum (fun a => (a.attr, a.pstr)) StrAdd.iValue k added

/-- What was drained of a key. -/
def strDrainedOf (k : Int × List UInt8) (drained : List (List StrAttrNode)) : Int :=
  (drained.map (strSumOf k)).sum

/-- The batch of the running drain. -/
def StrRun.inFlight (r : StrRun) : List StrAttrNode :=
  match r.reading with
  | none => []
  | some rd => rd.stStrAttrRead

end XrkMonitor.Attr
