import Mathlib.Data.List.Basic
import Mathlib.Logic.Function.Basic
import Mathlib.Logic.Function.Iterate
import XrkMonitor.Library.MachineWord

/-!
# The shared variable-length memory of the client library

Byte strings of 1 to 65000 bytes are cut into cells of one of five sizes. Each
size has five segments, and a segment is an array of cells whose first cell
holds the segment's own record. Free cells form a list through
`wNextNodeIndex`, and so do the cells of one stored string. A cell that is
freed while the segment is busy is only marked, with the link
`wNodeCount + 1`, and reclaimed later.

## Implementation notes

The outcome of every compare-and-swap on `bUseFlag` and every clock reading is
an input (`VmemEnv`), so the flag itself is not part of the state. The record
`VmemBufNodeFirst` lies over cell 0, and a link or length of cell 0 is read
from it. A cell buffer is a list of bytes; copying shorter data into it keeps
the bytes behind. The loops of `MtReport_GetFromVmem` and `MtReport_FreeVmem`
follow links without a bound of their own; `none` stands for a walk longer
than any segment.
-/

namespace XrkMonitor.Vmem

open Library

def VMEM_SHM_COUNT : Nat := 5

def VMEM_MAX_DATA_LEN : Nat := 65000

/-- The five cell sizes. -/
inductive VmemType where
  | v16 | v32 | v64 | v128 | v255
deriving Repr, DecidableEq

/-- The bytes one cell holds. -/
def VmemType.len : VmemType → Nat
  | .v16 => 16
  | .v32 => 32
  | .v64 => 64
  | .v128 => 128
  | .v255 => 255

/-- The cells of one segment. -/
def VmemType.nodeCount : VmemType → Nat
  | .v16 => 20000
  | .v32 => 20000
  | .v64 => 60000
  | .v128 => 20000
  | .v255 => 15000

/-- The size whose `len` is the middle byte of an index. -/
def VmemType.ofLen : Nat → Option VmemType
  | 16 => some .v16
  | 32 => some .v32
  | 64 => some .v64
  | 128 => some .v128
  | 255 => some .v255
  | _ => none

/-- `VmemBufNode16` and its siblings. -/
structure VmemBufNode where
  wNextNodeIndex : Nat
  bDataLen : Nat
  sDataBuf : List UInt8
deriving Repr, DecidableEq

/-- One segment: `VmemBufNodeFirst` and the cells. -/
structure VmemSegment where
  wNodeCount : Nat
  wNodeUsed : Nat
  wFreeNodeIndex : Nat
  wScanFreeIndex : Nat
  dwUseFlagStartTime : Nat
  node : Nat → VmemBufNode

/-- The segments by size and number, and whether `COMM_LIB_BUG` was reached. -/
structure VmemPools where
  cIsInit : Bool
  cIsVmemInit : Bool
  shm : VmemType → Nat → VmemSegment
  commLibBug : Bool

/-- The outcome of the compare-and-swap on a segment, with the cell for which
it is made (`0` where it is made once), and the clock readings. -/
structure VmemEnv where
  cas : VmemType → Nat → Nat → Bool
  clock : VmemType → Nat → Nat → Nat

namespace VmemSegment

/-- `pNode[i].wNextNodeIndex`; cell 0 is the segment's record. -/
def next (s : VmemSegment) (i : Nat) : Nat :=
  if i = 0 then s.wNodeCount else (s.node i).wNextNodeIndex

/-- `pNode[i].bDataLen`; cell 0 is the segment's record. -/
def dataLen (s : VmemSegment) (i : Nat) : Nat :=
  if i = 0 then s.wNodeUsed % 256 else (s.node i).bDataLen

def setNext (s : VmemSegment) (i v : Nat) : VmemSegment :=
  if i = 0 then { s with wNodeCount := v }
  else { s with node := Function.update s.node i ({ s.node i with wNextNodeIndex := v }) }

def setDataLen (s : VmemSegment) (i v : Nat) : VmemSegment :=
  if i = 0 then { s with wNodeUsed := s.wNodeUsed / 256 * 256 + v % 256 }
  else { s with node := Function.update s.node i ({ s.node i with bDataLen := v % 256 }) }

/-- `memcpy(pNode[i].sDataBuf, data, len)` with the length of `data`. -/
def copyIn (s : VmemSegment) (i : Nat) (data : List UInt8) : VmemSegment :=
  { s with
    node := Function.update s.node i
      ({ s.node i with sDataBuf := data ++ (s.node i).sDataBuf.drop data.length }) }

/-- The bytes that `MtReport_GetFromVmem` copies out of cell `i`. -/
def bytes (s : VmemSegment) (i : Nat) : List UInt8 := (s.node i).sDataBuf.take (s.dataLen i)

end VmemSegment

/-- `VMEM_CREATE_INIT_SHM` on zeroed shared memory. -/
def vmemCreateInitShm (n_count : Nat) : VmemSegment where
  wNodeCount := n_count
  wNodeUsed := 1
  wFreeNodeIndex := 1
  wScanFreeIndex := 0
  dwUseFlagStartTime := 0
  node := fun i => ⟨i + 1, 0, []⟩

/-- `MtReport_InitVmem` on zeroed shared memory. -/
def initVmem : VmemPools where
  cIsInit := true
  cIsVmemInit := true
  shm := fun type _ => vmemCreateInitShm type.nodeCount
  commLibBug := false

def VmemPools.setShm (p : VmemPools) (type : VmemType) (i : Nat) (s : VmemSegment) : VmemPools :=
  { p with shm := Function.update p.shm type (Function.update (p.shm type) i s) }

/-- `_MtReport_Flag_IsTimeout`. -/
def flagIsTimeout (s : VmemSegment) (now : Nat) : Bool :=
  (s.dwUseFlagStartTime + 2) % 2 ^ 32 < now

/-- `VMEM_MAKE_IDEX32`. -/
def vmemMakeIdex32 (len t_idx n_idx : Nat) : Nat := (t_idx * 2 ^ 8 + len) * 2 ^ 16 + n_idx

/-- `VMEM_PARSE_IDEX32`: the cell size, the segment and the cell of an index. -/
def vmemParseIdex32 (idx : Int) : Nat × Nat × Nat :=
  ((idx / 2 ^ 16 % 2 ^ 8).toNat, (idx / 2 ^ 24 % 2 ^ 8).toNat, (idx % 2 ^ 16).toNat)

/-- Put cell `i` in front of the free list. -/
def pushFree (s : VmemSegment) (i : Nat) : VmemSegment :=
  let s := s.setNext i s.wFreeNodeIndex
  { s with wFreeNodeIndex := i, wNodeUsed := wordDec 16 s.wNodeUsed }

/-- One round of `SCAN_FREE_NODE`. -/
def scanFreeNodeStep (s : VmemSegment) : VmemSegment :=
  let s := if s.next s.wScanFreeIndex = s.wNodeCount + 1 then pushFree s s.wScanFreeIndex else s
  if s.wScanFreeIndex + 1 < s.wNodeCount then { s with wScanFreeIndex := s.wScanFreeIndex + 1 }
  else { s with wScanFreeIndex := 1 }

/-- `SCAN_FREE_NODE`. -/
def scanFreeNode (s : VmemSegment) : VmemSegment := scanFreeNodeStep^[1000] s

/-- `VMEM_GET_FREE_NODE`. -/
def vmemGetFreeNode (s : VmemSegment) : Nat × VmemSegment :=
  (s.wFreeNodeIndex, { s with wFreeNodeIndex := s.next s.wFreeNodeIndex })

/-- The copy loop of a save: `wNeedCount` cells are to be filled, the first of
them is `wFreeIndex`, and `pdata` is what is left to store. -/
def saveCells (len : Nat) : Nat → VmemSegment → Nat → List UInt8 → VmemSegment
  | wNeedCount + 2, s, wFreeIndex, pdata =>
    let s := s.copyIn wFreeIndex (pdata.take len)
    let s := s.setDataLen wFreeIndex len
    let wPreIndex := wFreeIndex
    let (wFreeIndex, s) := vmemGetFreeNode s
    let s := s.setNext wPreIndex wFreeIndex
    saveCells len (wNeedCount + 1) s wFreeIndex (pdata.drop len)
  | _, s, wFreeIndex, pdata =>
    let s := s.setNext wFreeIndex s.wNodeCount
    let s := s.copyIn wFreeIndex pdata
    s.setDataLen wFreeIndex pdata.length

/-- The cells a string of `iDataLen` bytes needs. -/
def needCount (len iDataLen : Nat) : Nat :=
  (iDataLen / len + if iDataLen % len ≠ 0 then 1 else 0) % 2 ^ 16

/-- The part of a save after the scan: take the cells and fill them. -/
def saveScanned (len : Nat) (s : VmemSegment) (pdata : List UInt8) : Nat × VmemSegment :=
  let wNeedCount := needCount len pdata.length
  let (wFreeIndex, s) := vmemGetFreeNode s
  let s := { s with wNodeUsed := (s.wNodeUsed + wNeedCount) % 2 ^ 16 }
  (wFreeIndex, saveCells len wNeedCount s wFreeIndex pdata)

/-- The part of a save that runs with the segment held and room enough. -/
def saveInSegment (len : Nat) (s : VmemSegment) (pdata : List UInt8) : Nat × VmemSegment :=
  saveScanned len (scanFreeNode s) pdata

/-- `__SAVE_DATA_TO_VMEM` over the segments still to be tried. -/
def saveDataLoop (env : VmemEnv) (type : VmemType) (pdata : List UInt8) :
    List Nat → VmemPools → Int × VmemPools
  | [], p => (-101, p)
  | i :: is, p =>
    if !env.cas type i 0 && !flagIsTimeout (p.shm type i) (env.clock type i 0) then
      saveDataLoop env type pdata is p
    else
      let s := { p.shm type i with dwUseFlagStartTime := env.clock type i 1 % 2 ^ 32 }
      if s.wNodeCount < s.wNodeUsed + needCount type.len pdata.length then
        saveDataLoop env type pdata is (p.setShm type i s)
      else
        let r := saveInSegment type.len s pdata
        (vmemMakeIdex32 type.len i r.1, p.setShm type i r.2)

/-- `_SaveToVmem16` and its siblings. -/
def saveDataToVmem (env : VmemEnv) (p : VmemPools) (type : VmemType) (pdata : List UInt8) :
    Int × VmemPools :=
  saveDataLoop env type pdata (List.range VMEM_SHM_COUNT) p

/-- The variables of `MtReport_SaveToVmem`; `iCheckFlag` is the sizes tried. -/
structure SaveState where
  iRet : Int
  iCheckFlag : List VmemType
  pools : VmemPools

/-- One `if` of the first part, which tries the sizes that the data fills. -/
def tryBest (env : VmemEnv) (pdata : List UInt8) (st : SaveState) (type : VmemType) : SaveState :=
  if st.iRet < 0 ∧ type.len ≤ pdata.length then
    let r := saveDataToVmem env st.pools type pdata
    ⟨r.1, type :: st.iCheckFlag, r.2⟩
  else st

/-- One `if` of the second part, which tries the sizes left. -/
def tryRest (env : VmemEnv) (pdata : List UInt8) (st : SaveState) (type : VmemType) : SaveState :=
  if st.iRet < 0 ∧ type ∉ st.iCheckFlag then
    let r := saveDataToVmem env st.pools type pdata
    ⟨r.1, type :: st.iCheckFlag, r.2⟩
  else st

/-- `MtReport_SaveToVmem`. -/
def saveToVmem (env : VmemEnv) (p : VmemPools) (pdata : List UInt8) : Int × VmemPools :=
  if !p.cIsInit then (-101, p)
  else if pdata.length ≤ 0 ∨ VMEM_MAX_DATA_LEN < pdata.length then (-1, p)
  else
    let st := [.v255, .v128, .v64, .v32, .v16].foldl (tryBest env pdata) ⟨-1, [], p⟩
    let st := [.v16, .v32, .v64, .v128, .v255].foldl (tryRest env pdata) st
    (st.iRet, st.pools)

/-- More cells than any segment has: `wNextNodeIndex` has 16 bits. -/
def walkBound : Nat := 2 ^ 16

/-- The copy loop of `VMEM_GET_DATA`. -/
def getLoop (s : VmemSegment) : Nat → Nat → Int → List UInt8 → Option (Int × List UInt8)
  | 0, _, _, _ => none
  | fuel + 1, nIdx, iBufLen, pbuf =>
    if iBufLen < s.dataLen nIdx then some (-4, pbuf)
    else
      let pbuf := pbuf ++ s.bytes nIdx
      let iBufLen := iBufLen - s.dataLen nIdx
      if s.next nIdx < s.wNodeCount then getLoop s fuel (s.next nIdx) iBufLen pbuf
      else some (0, pbuf)

/-- `MtReport_GetFromVmem`: the return code and the bytes written to the
buffer. -/
def getFromVmem (p : VmemPools) (index : Int) (iBufLen : Int) : Option (Int × List UInt8) :=
  if !p.cIsInit then some (-101, [])
  else
    let (len, tIdx, nIdx) := vmemParseIdex32 index
    if VMEM_SHM_COUNT < tIdx then some (-1, [])
    else
      match VmemType.ofLen len with
      | none => some (-3, [])
      | some type =>
        let s := p.shm type tIdx
        if s.wNodeCount ≤ nIdx then some (-2, []) else getLoop s walkBound nIdx iBufLen []

/-- The loop of `VMEM_FREE_NODE`. The flag in the result tells whether
`COMM_LIB_BUG` was reached. -/
def freeLoop (bUseFlagGet : Bool) : Nat → VmemSegment → Nat → Bool → Option (VmemSegment × Bool)
  | 0, _, _, _ => none
  | fuel + 1, s, nIdx, bug =>
    let iNextSave := s.next nIdx
    let s := s.setDataLen nIdx 0
    let (s, bug) :=
      if bUseFlagGet then
        let s := pushFree s nIdx
        (s, bug || decide (s.wNodeUsed ≤ 0))
      else (s.setNext nIdx (s.wNodeCount + 1), bug)
    if iNextSave < s.wNodeCount then freeLoop bUseFlagGet fuel s iNextSave bug
    else some (s, bug)

/-- `MtReport_FreeVmem`. -/
def freeVmem (env : VmemEnv) (p : VmemPools) (index : Int) : Option (Int × VmemPools) :=
  if !p.cIsInit then some (-101, p)
  else
    let (len, tIdx, nIdx) := vmemParseIdex32 index
    if VMEM_SHM_COUNT ≤ tIdx then some (-1, p)
    else
      match VmemType.ofLen len with
      | none => some (-3, p)
      | some type =>
        let s := p.shm type tIdx
        if s.wNodeCount ≤ nIdx then some (-2, p)
        else
          let bUseFlagGet := env.cas type tIdx 0 || flagIsTimeout s (env.clock type tIdx 0)
          let s := if bUseFlagGet then
            { s with dwUseFlagStartTime := env.clock type tIdx 1 % 2 ^ 32 } else s
          (freeLoop bUseFlagGet walkBound s nIdx p.commLibBug).map fun r =>
            (0, { p.setShm type tIdx r.1 with commLibBug := r.2 })

/-- The inner loop of `CHECK_VMEM_FREE_NODE` over the cells still to be
visited, with the cells reclaimed so far. -/
def checkCells (cas : Nat → Bool) : List Nat → VmemSegment → Bool → Nat →
    VmemSegment × Bool × Nat
  | [], s, bug, iCheckFreeCount => (s, bug, iCheckFreeCount)
  | i :: is, s, bug, iCheckFreeCount =>
    if s.dataLen i = 0 ∧ s.next i = s.wNodeCount + 1 then
      if cas i then
        let s := pushFree s i
        checkCells cas is s (bug || decide (s.wNodeUsed ≤ 0)) (iCheckFreeCount + 1)
      else (s, bug, iCheckFreeCount)
    else checkCells cas is s bug iCheckFreeCount

/-- `CHECK_VMEM_FREE_NODE` on one segment. -/
def checkSegment (env : VmemEnv) (r : Nat × VmemPools) (seg : VmemType × Nat) : Nat × VmemPools :=
  let s := r.2.shm seg.1 seg.2
  let c := checkCells (env.cas seg.1 seg.2) (List.range' 1 (s.wNodeCount - 1)) s r.2.commLibBug r.1
  (c.2.2, { r.2.setShm seg.1 seg.2 c.1 with commLibBug := c.2.1 })

/-- The segments in the order in which `MtReport_CheckVmem` visits them. -/
def allSegments : List (VmemType × Nat) :=
  [.v16, .v32, .v64, .v128, .v255].flatMap fun type =>
    (List.range VMEM_SHM_COUNT).map fun j => (type, j)

/-- `MtReport_CheckVmem`. -/
def checkVmem (env : VmemEnv) (p : VmemPools) : Int × VmemPools :=
  if !p.cIsInit || !p.cIsVmemInit then (-101, p)
  else
    let r := allSegments.foldl (checkSegment env) (0, p)
    (r.1, r.2)

end XrkMonitor.Vmem
