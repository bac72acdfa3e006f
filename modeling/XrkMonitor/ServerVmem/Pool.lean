import XrkMonitor.Vmem.Calls

/-!
# The shared variable-length memory of the server library

The server's copy of the allocator keeps the cells, links and indices of the
client's one. It has ten segments of each size, prefers a size that takes the
whole string in one cell, scans ten cells in front of a save, and hands out a
string of one cell without copying it. `MtReport_GetFromVmem` copies in any case.

## Implementation notes

The copy loop of a save is the client's, so `saveScanned` is used for it. As
there, the outcomes of the compare-and-swap and the clock readings are an
input, one `VmemEnv` for each attempt of a save. The counter `wDelayFree` is
only printed and left out. `none` stands for a walk that does not end.
-/

namespace XrkMonitor.ServerVmem

open Library Vmem

def VMEM_SHM_COUNT : Nat := 10

/-- The cells of one segment. -/
def nodeCount : VmemType → Nat
  | .v16 => 30000
  | .v32 => 30000
  | .v64 => 40000
  | .v128 => 40000
  | .v255 => 10000

/-- `g_mtReportVmem`. -/
structure VmemBuf where
  cIsInit : Bool
  shm : VmemType → Nat → VmemSegment

/-- `MtReport_InitVmem_ByFlag` on zeroed shared memory. -/
def initVmem : VmemBuf where
  cIsInit := true
  shm := fun type _ => vmemCreateInitShm (nodeCount type)

def VmemBuf.setShm (b : VmemBuf) (type : VmemType) (i : Nat) (s : VmemSegment) : VmemBuf :=
  { b with shm := Function.update b.shm type (Function.update (b.shm type) i s) }

/-- One round of `SCAN_FREE_NODE`. -/
def scanFreeNodeRound (s : VmemSegment) : VmemSegment :=
  let s := if s.wNodeCount ≤ s.wScanFreeIndex then { s with wScanFreeIndex := 1 } else s
  let s := if s.next s.wScanFreeIndex = s.wNodeCount + 1 then pushFree s s.wScanFreeIndex else s
  { s with wScanFreeIndex := wordInc 16 s.wScanFreeIndex }

/-- `SCAN_FREE_NODE`. -/
def scanFreeNode (s : VmemSegment) : VmemSegment := scanFreeNodeRound^[10] s

/-- `__SAVE_DATA_TO_VMEM` over the segments still to be tried. -/
def saveDataLoop (env : VmemEnv) (type : VmemType) (pdata : List UInt8) :
    List Nat → VmemBuf → Int × VmemBuf
  | [], b => (-1, b)
  | i :: is, b =>
    if !env.cas type i 0 && !flagIsTimeout (b.shm type i) (env.clock type i 0) then
      saveDataLoop env type pdata is b
    else
      let s := { b.shm type i with dwUseFlagStartTime := env.clock type i 1 % 2 ^ 32 }
      if s.wNodeCount < s.wNodeUsed + needCount type.len pdata.length then
        saveDataLoop env type pdata is (b.setShm type i s)
      else
        let r := saveScanned type.len (scanFreeNode s) pdata
        (vmemMakeIdex32 type.len i r.1, b.setShm type i r.2)

/-- `_SaveToVmem16` and its siblings. -/
def saveDataToVmem (env : VmemEnv) (b : VmemBuf) (type : VmemType) (pdata : List UInt8) :
    Int × VmemBuf :=
  saveDataLoop env type pdata (List.range VMEM_SHM_COUNT) b

/-- The `if`s of `MtReport_SaveToVmem` in their order: the test on the length
and the size that is tried. -/
def saveAttempts (iDataLen : Nat) : List (Bool × VmemType) :=
  [(iDataLen ≤ 16, .v16), (iDataLen ≤ 32, .v32), (iDataLen ≤ 32, .v32), (iDataLen ≤ 64, .v64),
    (iDataLen ≤ 128, .v128), (iDataLen ≤ 255, .v255), (255 ≤ iDataLen, .v255),
    (128 ≤ iDataLen, .v128), (64 ≤ iDataLen, .v64), (32 ≤ iDataLen, .v32), (16 ≤ iDataLen, .v16)]

/-- One `if` of `MtReport_SaveToVmem`; `attempt.2` is its number. -/
def trySave (env : Nat → VmemEnv) (pdata : List UInt8) (st : Int × VmemBuf)
    (attempt : (Bool × VmemType) × Nat) : Int × VmemBuf :=
  if st.1 < 0 ∧ attempt.1.1 = true then
    saveDataToVmem (env attempt.2) st.2 attempt.1.2 pdata
  else st

/-- `MtReport_SaveToVmem`. -/
def saveToVmem (env : Nat → VmemEnv) (b : VmemBuf) (pdata : List UInt8) : Int × VmemBuf :=
  if !b.cIsInit then (-101, b)
  else if pdata.length ≤ 0 ∨ VMEM_MAX_DATA_LEN < pdata.length then (-1, b)
  else (saveAttempts pdata.length).zipIdx.foldl (trySave env pdata) (-1, b)

/-- The copy loop of `VMEM_GET_DATA_ZERO_CP`: the error code or the bytes
copied. -/
def zeroCpLoop (s : VmemSegment) : Nat → Nat → Nat → List UInt8 → Option (Except Int (List UInt8))
  | 0, _, _, _ => none
  | fuel + 1, nIdx, iBufLen, pbuf =>
    if iBufLen < s.dataLen nIdx then some (.error (-4))
    else if s.dataLen nIdx ≤ 0 then some (.error (-5))
    else
      let pbuf := pbuf ++ s.bytes nIdx
      let iBufLen := iBufLen - s.dataLen nIdx
      if s.next nIdx < s.wNodeCount ∧ 0 < iBufLen then
        zeroCpLoop s fuel (s.next nIdx) iBufLen pbuf
      else some (.ok pbuf)

/-- `VMEM_GET_DATA_ZERO_CP` with the cell in range: a string of one cell is not
copied. -/
def zeroCpRead (len : Nat) (s : VmemSegment) (nIdx iBufLen : Nat) :
    Option (Except Int (List UInt8)) :=
  if s.dataLen nIdx < len ∨ s.wNodeCount ≤ s.next nIdx then some (.ok (s.bytes nIdx))
  else zeroCpLoop s (iBufLen + 1) nIdx iBufLen []

/-- `MtReport_GetFromVmemZeroCp`: `*piBufLen` where `NULL` is returned, else
the bytes behind the pointer. -/
def getFromVmemZeroCp (b : VmemBuf) (index : Int) (iBufLen : Nat) :
    Option (Except Int (List UInt8)) :=
  if !b.cIsInit ∨ index ≤ 0 then some (.error (-101))
  else
    let (len, tIdx, nIdx) := vmemParseIdex32 index
    if VMEM_SHM_COUNT ≤ tIdx then some (.error (-1))
    else
      match VmemType.ofLen len with
      | none => some (.error (-2))
      | some type =>
        let s := b.shm type tIdx
        if s.wNodeCount ≤ nIdx then some (.error (-3))
        else zeroCpRead len s nIdx iBufLen

/-- `MtReport_GetFromVmem`: the error code, or the bytes that are copied to the buffer. -/
def getFromVmem (b : VmemBuf) (index : Int) (iBufLen : Nat) : Option (Except Int (List UInt8)) :=
  if !b.cIsInit ∨ index ≤ 0 then some (.error (-101))
  else
    let (len, tIdx, nIdx) := vmemParseIdex32 index
    if VMEM_SHM_COUNT ≤ tIdx then some (.error (-1))
    else
      match VmemType.ofLen len with
      | none => some (.error (-3))
      | some type =>
        let s := b.shm type tIdx
        if s.wNodeCount ≤ nIdx then some (.error (-2))
        else zeroCpLoop s (iBufLen + 1) nIdx iBufLen []

/-- The loop of `VMEM_FREE_NODE`. -/
def freeLoop (bUseFlagGet : Bool) : Nat → VmemSegment → Nat → Option VmemSegment
  | 0, _, _ => none
  | fuel + 1, s, nIdx =>
    let iNextSave := s.next nIdx
    if s.dataLen nIdx ≤ 0 then some s
    else
      let s := s.setDataLen nIdx 0
      let s := if bUseFlagGet then pushFree s nIdx else s.setNext nIdx (s.wNodeCount + 1)
      if iNextSave < s.wNodeCount then freeLoop bUseFlagGet fuel s iNextSave else some s

/-- `MtReport_FreeVmem`. -/
def freeVmem (env : VmemEnv) (b : VmemBuf) (index : Int) : Option (Int × VmemBuf) :=
  if !b.cIsInit ∨ index ≤ 0 then some (-101, b)
  else
    let (len, tIdx, nIdx) := vmemParseIdex32 index
    if VMEM_SHM_COUNT ≤ tIdx then some (-1, b)
    else
      match VmemType.ofLen len with
      | none => some (-3, b)
      | some type =>
        let s := b.shm type tIdx
        if s.wNodeCount ≤ nIdx then some (-2, b)
        else
          let bUseFlagGet := env.cas type tIdx 0 || flagIsTimeout s (env.clock type tIdx 0)
          let s := if bUseFlagGet then
            { s with dwUseFlagStartTime := env.clock type tIdx 1 % 2 ^ 32 } else s
          (freeLoop bUseFlagGet walkBound s nIdx).map fun s => (0, b.setShm type tIdx s)

end XrkMonitor.ServerVmem
