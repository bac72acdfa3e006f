import XrkMonitor.Library.CircularList
import XrkMonitor.Library.MachineWord

/-!
# The timer wheel of the agent

`sv_timer.cpp`: timer nodes live in a hash of 10 rows and are linked into the
slots of five wheels. `CheckTimer` walks the slots of `tv1` tick by tick, calls
back the nodes it finds there, and cascades a slot of an upper wheel whenever
the wheel below has gone round.

## Implementation notes

A run of `RunTimerList` stops at each callback, which may call the timer again,
and `resumeTimerList` goes on behind it. The time of `SetCurTime` and the answer
of `malloc` are inputs. Microsecond times are 64 bits wide and do not wrap;
ticks and counters are 32 bits wide. A pointer that is no timer node is not
read as one, and a loop that does not end has no result. The fields of a node
that only log lines read are left out.
-/

namespace XrkMonitor.Timer

open Library

def TVN_SIZE : Nat := 64
def TVR_SIZE : Nat := 256
def MT_TIMER_CHECK_INTVALUS : Nat := 100000
def MAX_TIMER_NODE_PER_TRY : Nat := 10
def TIMER_NODE_SESS_DATA_LEN : Nat := 48
def TIMER_HASH_NODE_COUNT : Nat := 1117
def STATIC_HASH_ROW_MAX : Nat := 10

/-- `TIME_MS_TO_US` on an unsigned argument. -/
def timeMsToUs (ms : Nat) : Nat := ms * 1000 % 2 ^ 32

/-- What a link points to: a slot head of a wheel, a timer node, or nothing. -/
inductive Ptr
  | null
  | head (level pos : Nat)
  | node (cell : Nat)
deriving Repr, DecidableEq

structure TimerNode where
  uiKey : Nat
  pDataPtr : Option (List UInt8)
  uiExpire : Nat
  uiTimeOut : Nat
  qwExpireTime : Nat
  uiDataLen : Nat
  onExpire : Option Nat
  iSessDataLen : Nat
  dwProcessId : Nat
  sSessData : List UInt8
deriving Repr, DecidableEq

/-- A node after `memset`. -/
def TimerNode.zero : TimerNode where
  uiKey := 0
  pDataPtr := none
  uiExpire := 0
  uiTimeOut := 0
  qwExpireTime := 0
  uiDataLen := 0
  onExpire := none
  iSessDataLen := 0
  dwProcessId := 0
  sSessData := List.replicate TIMER_NODE_SESS_DATA_LEN 0

/-- `g_mtTimer` with the clock, the process id and the run flag of `stConfig`.
`index n` is `tvecs[n]->index`, and `list` holds the links of heads and nodes. -/
structure MtReportTimer where
  index : Nat → Nat
  list : ListHeap Ptr
  qwBaseTime : Nat
  uiCheckTime : Nat
  uiCount : Nat
  uiMaxCount : Nat
  stHash : Nat → TimerNode
  qwCurTime : Nat
  dwProcessId : Nat
  cIsAgentRun : Nat

/-- `InitTimer` at time `now`. -/
def initTimer (now dwProcessId : Nat) : MtReportTimer where
  index := fun _ => 0
  list :=
    { next := fun p => match p with | .head n i => .head n i | _ => .null
      prev := fun p => match p with | .head n i => .head n i | _ => .null }
  qwBaseTime := now
  uiCheckTime := 0
  uiCount := 0
  uiMaxCount := 0
  stHash := fun _ => TimerNode.zero
  qwCurTime := now
  dwProcessId := dwProcessId
  cIsAgentRun := 1

/-- `SetCurTime` at time `now`. -/
def setCurTime (t : MtReportTimer) (now : Nat) : MtReportTimer := { t with qwCurTime := now }

def setNode (t : MtReportTimer) (cell : Nat) (node : TimerNode) : MtReportTimer :=
  { t with stHash := Function.update t.stHash cell node }

section Hash

/-- The cell of a key in a row of the hash. -/
def hashCell (row uiKey : Nat) : Nat :=
  row * TIMER_HASH_NODE_COUNT + uiKey % TIMER_HASH_NODE_COUNT

/-- The node belongs to another process, or it expired more than five minutes ago. -/
def Abandoned (t : MtReportTimer) (cell : Nat) : Prop :=
  (t.stHash cell).dwProcessId ≠ t.dwProcessId ∨
    (t.stHash cell).qwExpireTime + 5 * 60 * 1000 * 1000 < t.qwCurTime

instance (t : MtReportTimer) (cell : Nat) : Decidable (Abandoned t cell) :=
  inferInstanceAs (Decidable (_ ∨ _))

/-- `TimerHashCmpFun`: the key of an abandoned node is cleared before it is compared. -/
def timerHashCmpFun (t : MtReportTimer) (uiKey cell : Nat) : Bool × MtReportTimer :=
  let t := if Abandoned t cell then setNode t cell { t.stHash cell with uiKey := 0 } else t
  (uiKey == (t.stHash cell).uiKey, t)

/-- `HashTableSearch_NoList` over the rows that are left. -/
def hashTableSearchNoList (uiKey : Nat) : List Nat → MtReportTimer → Option Nat × MtReportTimer
  | [], t => (none, t)
  | row :: rows, t =>
    let (isEqual, t) := timerHashCmpFun t uiKey (hashCell row uiKey)
    if isEqual then (some (hashCell row uiKey), t)
    else hashTableSearchNoList uiKey rows t

/-- `HashTableSearchEx_NoList` over the rows that are left: whether the key was
found, and its node or else the first empty one. -/
def hashTableSearchExNoList (uiKey : Nat) :
    List Nat → Option Nat → MtReportTimer → Bool × Option Nat × MtReportTimer
  | [], pEmptyNode, t => (false, pEmptyNode, t)
  | row :: rows, pEmptyNode, t =>
    let (isEqual, t) := timerHashCmpFun t uiKey (hashCell row uiKey)
    if isEqual then (true, some (hashCell row uiKey), t)
    else if pEmptyNode.isNone then
      let (isEmpty, t) := timerHashCmpFun t 0 (hashCell row uiKey)
      hashTableSearchExNoList uiKey rows
        (if isEmpty then some (hashCell row uiKey) else none) t
    else hashTableSearchExNoList uiKey rows pEmptyNode t

end Hash

section Calls

/-- The slot that `InternalAddTimer` chooses for an expiry. -/
def vecOf (t : MtReportTimer) (expires : Nat) : Ptr :=
  let idx := (expires + 2 ^ 32 - t.uiCheckTime) % 2 ^ 32
  if idx < 256 then .head 0 (expires % 256)
  else if idx < 2 ^ 14 then .head 1 (expires / 2 ^ 8 % 64)
  else if idx < 2 ^ 20 then .head 2 (expires / 2 ^ 14 % 64)
  else if idx < 2 ^ 26 then .head 3 (expires / 2 ^ 20 % 64)
  else if 2 ^ 31 ≤ idx then .head 0 (t.index 0)
  else .head 4 (expires / 2 ^ 26 % 64)

def internalAddTimer (t : MtReportTimer) (cell : Nat) : MtReportTimer :=
  let vec := vecOf t (t.stHash cell).uiExpire
  let t := setNode t cell { t.stHash cell with dwProcessId := t.dwProcessId }
  { t with list := listAdd t.list (.node cell) (t.list.prev vec) }

/-- `uiCount++` with its historical maximum. -/
def countTimer (t : MtReportTimer) : MtReportTimer :=
  let uiCount := wordInc 32 t.uiCount
  { t with uiCount := uiCount, uiMaxCount := max t.uiMaxCount uiCount }

/-- The copy that `malloc` and `memcpy` make of the data of a call. -/
def copyData (sData : List UInt8) : Option (List UInt8) :=
  if 0 < sData.length then some sData else none

/-- The expiry tick of a timeout that starts now. -/
def expireTick (t : MtReportTimer) (uiTimeOut : Nat) : Nat :=
  (t.qwCurTime - t.qwBaseTime + timeMsToUs uiTimeOut) / MT_TIMER_CHECK_INTVALUS % 2 ^ 32

/-- `UpdateTimer` at time `now`. The caller has set `uiTimeOut` in the node. -/
def updateTimer (t : MtReportTimer) (cell : Nat) (sData : List UInt8) (now : Nat)
    (isMalloc : Bool) : Int × MtReportTimer :=
  if 0 < sData.length ∧ ¬ isMalloc then
    (-1011, setNode t cell { t.stHash cell with pDataPtr := none })
  else
    let uiTimeOut := max (t.stHash cell).uiTimeOut 1000
    let t := setCurTime t now
    let t := setNode t cell
      { t.stHash cell with
        pDataPtr := copyData sData
        uiTimeOut := uiTimeOut
        qwExpireTime := timeMsToUs uiTimeOut + t.qwCurTime
        uiExpire := expireTick t uiTimeOut }
    (0, countTimer (internalAddTimer t cell))

/-- The arguments of `AddTimer`. -/
structure TimerCall where
  uiKey : Nat
  uiTimeOut : Nat
  onExpire : Option Nat
  pSessShmData : List UInt8
  sData : List UInt8
deriving Repr, DecidableEq

/-- The node that `AddTimer` fills in over an empty one. -/
def TimerCall.node (call : TimerCall) (t : MtReportTimer) (node : TimerNode) : TimerNode :=
  let uiTimeOut := max call.uiTimeOut 1000
  { node with
    pDataPtr := copyData call.sData
    uiExpire := expireTick t uiTimeOut
    qwExpireTime := timeMsToUs uiTimeOut + t.qwCurTime
    onExpire := call.onExpire
    uiDataLen := call.sData.length
    uiTimeOut := uiTimeOut
    uiKey := call.uiKey
    sSessData := call.pSessShmData ++ node.sSessData.drop call.pSessShmData.length
    iSessDataLen := call.pSessShmData.length }

/-- `AddTimer` at time `now`, with the node it took. -/
def addTimer (t : MtReportTimer) (call : TimerCall) (now : Nat) (isMalloc : Bool) :
    Int × Option Nat × MtReportTimer :=
  if TIMER_NODE_SESS_DATA_LEN < call.pSessShmData.length then (-5, none, t)
  else
    match hashTableSearchExNoList call.uiKey (List.range STATIC_HASH_ROW_MAX) none t with
    | (true, _, t) => (-4, none, t)
    | (false, none, t) => (-2, none, t)
    | (false, some cell, t) =>
      if 0 < call.sData.length ∧ ¬ isMalloc then
        (-1011, none, setNode t cell { t.stHash cell with pDataPtr := none })
      else
        let t := setCurTime t now
        let t := setNode t cell (call.node t (t.stHash cell))
        (0, some cell, countTimer (internalAddTimer t cell))

/-- What `GetTimer` hands out: its return, and what it writes through its pointers. -/
structure TimerReply where
  iRet : Int
  pNode : Option Nat
  uiDataLen : Nat
  psData : List UInt8
deriving Repr, DecidableEq

/-- The data of a node, which is freed when it is handed out. -/
def takeData (node : TimerNode) : Nat × List UInt8 :=
  match node.pDataPtr with
  | some sData => (node.uiDataLen, sData.take node.uiDataLen)
  | none => (0, [])

/-- `LIST_DEL` of a node, and `uiCount--`. -/
def unlinkTimer (t : MtReportTimer) (cell : Nat) : MtReportTimer :=
  { t with list := listDel t.list (.node cell), uiCount := wordDec 32 t.uiCount }

def getTimer (t : MtReportTimer) (uiKey : Nat) : TimerReply × MtReportTimer :=
  match hashTableSearchNoList uiKey (List.range STATIC_HASH_ROW_MAX) t with
  | (none, t) => (⟨-2, none, 0, []⟩, t)
  | (some cell, t) =>
    let t := unlinkTimer t cell
    let node := t.stHash cell
    let (uiDataLen, psData) := takeData node
    let t := setNode t cell { node with pDataPtr := none }
    (⟨if uiDataLen ≠ node.uiDataLen then -4 else 0, some cell, uiDataLen, psData⟩, t)

/-- The caller of `GetTimer` gives the node back. -/
def releaseTimer (t : MtReportTimer) (cell : Nat) : MtReportTimer :=
  setNode t cell { t.stHash cell with uiKey := 0 }

/-- The caller of `UpdateTimer` sets the timeout of the node. -/
def setTimeOut (t : MtReportTimer) (cell uiTimeOut : Nat) : MtReportTimer :=
  setNode t cell { t.stHash cell with uiTimeOut := uiTimeOut }

/-- `GetTimerData`, with the length and the data it hands out. -/
def getTimerData (t : MtReportTimer) (uiKey : Nat) : Int × (Nat × List UInt8) × MtReportTimer :=
  match hashTableSearchNoList uiKey (List.range STATIC_HASH_ROW_MAX) t with
  | (none, t) => (-2, (0, []), t)
  | (some cell, t) =>
    (0, takeData (t.stHash cell),
      setNode t cell { t.stHash cell with pDataPtr := none })

end Calls

section Check

/-- The walk of `CascadeTimers` from `pstCurr`, with `left` more nodes before the
limit of 10000: whether the walk came back to the head. -/
def cascadeWalk (pstHead : Ptr) :
    Nat → MtReportTimer → Ptr → Option (Bool × MtReportTimer)
  | left, t, pstCurr =>
    if pstCurr = pstHead then some (true, t)
    else
      match pstCurr with
      | .node cell =>
        let pstNext := t.list.next pstCurr
        let t := internalAddTimer t cell
        match left with
        | 0 => some (false, { t with cIsAgentRun := 2 })
        | left + 1 => cascadeWalk pstHead left t pstNext
      | _ => none

/-- `CascadeTimers` on wheel `n`: whether it returned 0. -/
def cascadeTimers (t : MtReportTimer) (n : Nat) : Option (Bool × MtReportTimer) :=
  let pstHead := Ptr.head n (t.index n)
  match cascadeWalk pstHead 10000 t (t.list.next pstHead) with
  | none => none
  | some (false, t) => some (false, t)
  | some (true, t) =>
    some (true,
      { t with
        list := initListHead t.list pstHead
        index := Function.update t.index n ((t.index n + 1) % TVN_SIZE) })

/-- The loop over the upper wheels in `RunTimerList`. -/
def cascadeLevels : List Nat → MtReportTimer → Option (Bool × MtReportTimer)
  | [], t => some (true, t)
  | n :: ns, t =>
    match cascadeTimers t n with
    | none => none
    | some (false, t) => some (false, t)
    | some (true, t) => if t.index n = 1 then cascadeLevels ns t else some (true, t)

/-- The cascade at the start of a tick. -/
def cascadeTick (t : MtReportTimer) : Option (Bool × MtReportTimer) :=
  if t.index 0 = 0 then cascadeLevels [1, 2, 3, 4] t else some (true, t)

/-- Where `RunTimerList` stands: it has returned, or it waits for a callback, which was given the
length and the data of its node. -/
inductive Phase
  | idle
  | callback (cell : Nat) (onExpire : Option Nat) (data : Nat × List UInt8)
      (uiCurTime iCheckNodeCount : Nat)
deriving Repr, DecidableEq

/-- `uiCheckTime++` and the step of `tv1.index`. -/
def nextTick (t : MtReportTimer) : MtReportTimer :=
  { t with
    uiCheckTime := wordInc 32 t.uiCheckTime
    index := Function.update t.index 0 ((t.index 0 + 1) % TVR_SIZE) }

/-- `cIsAgentRun = 2`. -/
def restartAgent (t : MtReportTimer) : MtReportTimer := { t with cIsAgentRun := 2 }

/-- `RunTimerList` from the label `repeat`; `next` is the rest of the loop. -/
def repeatSlot (t : MtReportTimer) (uiCurTime iCheckNodeCount : Nat)
    (next : MtReportTimer → Option (Phase × MtReportTimer)) : Option (Phase × MtReportTimer) :=
  let pstHead := Ptr.head 0 (t.index 0)
  let pstCurr := t.list.next pstHead
  if pstCurr = pstHead then next (nextTick t)
  else
    match pstCurr with
    | .node cell =>
      let t := unlinkTimer t cell
      let node := t.stHash cell
      if t.qwCurTime < node.qwExpireTime ∧
          MT_TIMER_CHECK_INTVALUS < node.qwExpireTime - t.qwCurTime then
        some (.idle, restartAgent t)
      else
        match getTimerData t node.uiKey with
        | (iRet, data, t) =>
          if iRet < 0 then some (.idle, restartAgent t)
          else some (.callback cell node.onExpire data uiCurTime (iCheckNodeCount + 1), t)
    | _ => none

/-- The loop of `RunTimerList`. -/
def runTimerList (uiCurTime iCheckNodeCount : Nat) :
    Nat → MtReportTimer → Option (Phase × MtReportTimer)
  | 0, _ => none
  | fuel + 1, t =>
    if t.uiCheckTime ≤ uiCurTime ∧ 0 < t.uiCount then
      match cascadeTick t with
      | none => none
      | some (false, t) => some (.idle, t)
      | some (true, t) =>
        repeatSlot t uiCurTime iCheckNodeCount (runTimerList uiCurTime iCheckNodeCount fuel)
    else some (.idle, t)

/-- The ticks up to `uiCurTime` bound the loop. -/
def loopFuel (t : MtReportTimer) (uiCurTime : Nat) : Nat := uiCurTime + 2 - t.uiCheckTime

/-- `memset` of the node of a callback, unless the callback linked it again. -/
def endCallback (t : MtReportTimer) (cell : Nat) (iRet : Int) : MtReportTimer :=
  if iRet ≠ 1 then
    { setNode t cell TimerNode.zero with
      list :=
        { next := Function.update t.list.next (.node cell) .null
          prev := Function.update t.list.prev (.node cell) .null } }
  else t

/-- `RunTimerList` behind a callback: it stops at the limit, or goes back to `repeat`. -/
def repeatOrStop (t : MtReportTimer) (uiCurTime iCheckNodeCount : Nat) :
    Option (Phase × MtReportTimer) :=
  if MAX_TIMER_NODE_PER_TRY ≤ iCheckNodeCount then some (.idle, t)
  else
    repeatSlot t uiCurTime iCheckNodeCount fun t =>
      runTimerList uiCurTime iCheckNodeCount (loopFuel t uiCurTime) t

/-- The return of a callback with `iRet`; a node without one counts as 0. -/
def resumeTimerList (t : MtReportTimer) (cell : Nat) (onExpire : Option Nat)
    (uiCurTime iCheckNodeCount : Nat) (iRet : Int) : Option (Phase × MtReportTimer) :=
  repeatOrStop (endCallback t cell (if onExpire.isSome then iRet else 0)) uiCurTime
    iCheckNodeCount

/-- The tick of the clock that `CheckTimer` computes. -/
def curTick (t : MtReportTimer) : Nat :=
  (t.qwCurTime - t.qwBaseTime) / MT_TIMER_CHECK_INTVALUS % 2 ^ 32

def checkTimer (t : MtReportTimer) : Option (Phase × MtReportTimer) :=
  if t.uiCheckTime ≤ curTick t then
    runTimerList (curTick t) 0 (loopFuel t (curTick t)) t
  else some (.idle, t)

end Check

end XrkMonitor.Timer
