import Mathlib.Data.List.Basic
import XrkMonitor.Library.MachineWord
import XrkMonitor.Library.RingIndex
import XrkMonitor.Library.Run

/-!
# The log ring of the server

Writers put logs into a ring in shared memory and one reader takes them out. A write
reserves a cell under the lock, fills it and publishes it by its sequence number, and
then sets the start index if it finds the ring empty. The reader takes the log at the
start index and moves the index on under the lock. A start index of -1 stands for an
empty ring.

## Implementation notes

One step is what is done in one go: the work under the lock, or one access without it.
A step that is not the next one of its call does nothing, so every list of steps is an
interleaving. The writes are numbered in the order of their reservations. What is
delivered, and the writes that are over, are kept for the statements; the code does not
have them. The lock is always got. The text of a log is one of its fields, also where the
code continues it in the variable-length memory. The custom fields are left out: they are
the matter of `ServerLog.Cust`.
-/

namespace XrkMonitor.ServerRing

open Library

variable {F : Type}

/-- A cell `TSLog`: the sequence number, and the fields that every write sets. -/
structure TSLog (F : Type) where
  dwLogSeq : Nat
  fields : F
deriving Repr, DecidableEq

/-- The part of `TSLogShm` that the ring works with. -/
structure TSLogShm (F : Type) where
  iLogMaxCount : Nat
  iLogStarIndex : Int
  iWriteIndex : Nat
  dwLogSeq : Nat
  sLogList : Nat → TSLog F

/-- How far a write has come: its cell is reserved, its log is published, it has found the ring
empty, or it is over. -/
inductive WritePhase
  | reserved
  | published
  | starting
  | done
deriving Repr, DecidableEq

/-- A call of `WriteAppLogToShm` or `RemoteShmLog` that got a cell. -/
structure LogWrite (F : Type) where
  iIndex : Nat
  dwSeq : Nat
  log : F
  phase : WritePhase
deriving Repr, DecidableEq

/-- How far the reader has come with the cell it is at. -/
inductive ReadPhase
  | idle
  | reading (iLast : Nat)
  | written (iLast : Nat)
  | advancing (iLast : Nat)
deriving Repr, DecidableEq

/-- The two readers. -/
inductive Reader
  | writeFile
  | getLog
deriving Repr, DecidableEq

/-- The ring, the writes that got a cell in the order in which they got it, the reader, and the logs
that were delivered. -/
structure RingState (F : Type) where
  shm : TSLogShm F
  writes : List (LogWrite F)
  reader : ReadPhase
  delivered : List F

/-- A step of a write or of the reader. -/
inductive RingStep (F : Type)
  | reserve (log : F)
  | publish (k : Nat)
  | check (k : Nat)
  | start (k : Nat)
  | readStart
  | readLog (stale : Bool)
  | compare
  | advance (more : Bool)
deriving Repr, DecidableEq

section Steps

/-- The number of logs that the reader has left behind. -/
def RingState.left (s : RingState F) : Nat :=
  match s.reader with
  | .written _ | .advancing _ => s.delivered.length - 1
  | _ => s.delivered.length

/-- The number of cells that are held. -/
def RingState.held (s : RingState F) : Nat := s.writes.length - s.left

/-- The sequence number of a log, and the counter after it. -/
def takeSeq (dwLogSeq : Nat) : Nat × Nat :=
  if dwLogSeq = 0 then (1, 2) else (dwLogSeq, wordInc 32 dwLogSeq)

/-- A write is set to a phase. -/
def RingState.setPhase (s : RingState F) (k : Nat) (phase : WritePhase) : RingState F :=
  { s with
    writes := s.writes.modify k fun w =>
      { w with
        phase := phase } }

/-- What `ModifyLogStartIndexCmpAndSwap` does under the lock. -/
def swapStart (shm : TSLogShm F) (iNew : Nat) : Int :=
  if shm.iLogStarIndex < 0 then iNew
  else if iNew = shm.iWriteIndex then -1
  else iNew

/-- What a reader does to the start index under the lock. -/
def advanceStart (kind : Reader) (shm : TSLogShm F) (iNext : Nat) : Int :=
  match kind with
  | .writeFile => if iNext = shm.iWriteIndex then -1 else iNext
  | .getLog => swapStart shm iNext

/-- A cell is reserved, or the write is refused. -/
def reserve (s : RingState F) (log : F) : Bool × RingState F :=
  let iIndex := s.shm.iWriteIndex
  if (iIndex : Int) = s.shm.iLogStarIndex then (true, s)
  else
    let (dwSeq, dwLogSeq) := takeSeq s.shm.dwLogSeq
    (false,
      { s with
        shm :=
          { s.shm with
            iWriteIndex := ringNext s.shm.iLogMaxCount iIndex
            dwLogSeq := dwLogSeq
            sLogList := Function.update s.shm.sLogList iIndex
              { s.shm.sLogList iIndex with
                dwLogSeq := 0 } }
        writes := s.writes ++ [⟨iIndex, dwSeq, log, .reserved⟩] })

/-- A step of write `k`. -/
def writeStep (s : RingState F) (k : Nat) (phase : WritePhase)
    (act : LogWrite F → RingState F) : RingState F :=
  match s.writes[k]? with
  | some w => if w.phase = phase then act w else s
  | none => s

/-- The reader takes the start index. -/
def readStart (s : RingState F) : RingState F :=
  match s.reader with
  | .idle =>
    if s.shm.iLogStarIndex < 0 then s
    else
      { s with
        reader := .reading s.shm.iLogStarIndex.toNat }
  | _ => s

/-- The reader delivers the log in its cell. A cell that is not published it leaves, or skips if the
write is `stale`. -/
def readLog (s : RingState F) (stale : Bool) : RingState F :=
  match s.reader with
  | .reading iLast =>
    if (s.shm.sLogList iLast).dwLogSeq = 0 then
      { s with
        reader := if stale then .written iLast else .idle }
    else
      { s with
        reader := .written iLast
        delivered := s.delivered ++ [(s.shm.sLogList iLast).fields] }
  | _ => s

/-- The reader goes on if the start index is still at its cell. -/
def compareStart (s : RingState F) : RingState F :=
  match s.reader with
  | .written iLast =>
    { s with
      reader := if (iLast : Int) = s.shm.iLogStarIndex then .advancing iLast else .idle }
  | _ => s

/-- The reader moves the start index on; `WriteFile` may go on with the next cell. -/
def advance (kind : Reader) (s : RingState F) (more : Bool) : RingState F :=
  match s.reader with
  | .advancing iLast =>
    let iNext := ringNext s.shm.iLogMaxCount iLast
    let iLogStarIndex := advanceStart kind s.shm iNext
    { s with
      shm :=
        { s.shm with
          iLogStarIndex := iLogStarIndex }
      reader :=
        if kind = .writeFile ∧ more = true ∧ iLogStarIndex ≠ -1 then .reading iNext
        else .idle }
  | _ => s

/-- One step, and whether it refused a write. -/
def ringStep (kind : Reader) (s : RingState F) : RingStep F → Bool × RingState F
  | .reserve log => reserve s log
  | .publish k =>
    (false, writeStep s k .reserved fun w =>
      RingState.setPhase
        { s with
          shm :=
            { s.shm with
              sLogList := Function.update s.shm.sLogList w.iIndex ⟨w.dwSeq, w.log⟩ } }
        k .published)
  | .check k =>
    (false, writeStep s k .published fun _ =>
      s.setPhase k (if s.shm.iLogStarIndex = -1 then .starting else .done))
  | .start k =>
    (false, writeStep s k .starting fun w =>
      RingState.setPhase
        { s with
          shm :=
            { s.shm with
              iLogStarIndex := swapStart s.shm w.iIndex } }
        k .done)
  | .readStart => (false, readStart s)
  | .readLog stale => (false, readLog s stale)
  | .compare => (false, compareStart s)
  | .advance more => (false, advance kind s more)

/-- One step of a run; the output is whether a write was refused. -/
def ringRun (kind : Reader) (s : RingState F) (a : RingStep F) : Option (Bool × RingState F) :=
  some (ringStep kind s a)

/-- The empty ring. -/
def emptyRing (iLogMaxCount dwLogSeq : Nat) (cells : Nat → TSLog F) : RingState F where
  shm := ⟨iLogMaxCount, -1, 0, dwLogSeq, cells⟩
  writes := []
  reader := .idle
  delivered := []

end Steps

end XrkMonitor.ServerRing
