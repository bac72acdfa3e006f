import Mathlib.Algebra.Ring.Nat
import Mathlib.Logic.Function.Basic
import Mathlib.Data.List.Basic

/-!
# Dispatch of apps to the log writer processes

`slog_write` runs one dispatcher and several writer processes. The dispatcher
hands an app with unwritten logs to a writer through a record in shared memory
(`TryDispatchAppWrite`); the writer takes it over at the end of a pass of its
write loop (`TryAcceptDispatchApp`) and writes the logs of all its apps in every
pass. Nothing but the time of the last write try says that an app has an owner.

## Implementation notes

A step is one access that other processes can come between: `iAppId` and
`iAppShmIndex` of a record are two writes, and a `WriteFile` call starts with
the time stamp and takes time after that. A step that is not possible in a
state leaves it as it is. The dispatcher may visit the apps of a scan in any
order. A tick of the clock keeps the two timing assumptions: scans at most ten
seconds apart, and each `WriteFile` call shorter than ten seconds.
`State.given` is history: the dispatches to writers that are still running.
-/

namespace XrkMonitor.LogWrite

def maxSlogShmFilePerProcess : Nat := 1000

/-- The settings read by `Init`, which raises a small check time to 300. -/
structure Config where
  iProcessCount : Nat
  iCheckWriteProcessTime : Nat
  check_ge : 300 ≤ iCheckWriteProcessTime
  check_lt : iCheckWriteProcessTime < 2 ^ 31

/-- The fields of `AppInfo` that the dispatch reads and writes. -/
structure App where
  iAppId : Nat
  dwLastTryWriteLogTime : Nat
  logWrited : Bool
  bReadLogStatInfo : Bool
deriving Repr, DecidableEq

/-- Where a writer stands in its main loop. -/
inductive Phase
  | start
  | loop (i : Nat)
  | calling (i since : Nat)
  | tail
deriving Repr, DecidableEq

/-- A writer process with its record `TAddWriteAppLog`. -/
structure Child where
  iAppId : Nat
  iAppShmIndex : Nat
  iAppWriteTotal : Nat
  dwWriteRecordsPer : Nat
  pstLogFile : List Nat
  tmTmp : Nat
  phase : Phase
  running : Bool
deriving Repr, DecidableEq

/-- The clock, the dispatcher, the app table and the writers. -/
structure State where
  now : Nat
  tmTmp : Nat
  placing : Option (Nat × Nat)
  apps : Nat → App
  childs : Nat → Child
  given : List (Nat × Nat)
  bug : Bool

/-- The writers have cleared their records and own no app. -/
def initState (cfg : Config) (t₀ : Nat) (apps : Nat → App) : State where
  now := t₀
  tmTmp := t₀
  placing := none
  apps := apps
  childs := fun c => ⟨0, 0, 0, 0, [], t₀, .start, decide (c < cfg.iProcessCount - 1)⟩
  given := []
  bug := false

inductive Action
  | tick (d : Nat)
  | report (j : Nat)
  | scan
  | clearPer
  | visit (j : Nat)
  | place
  | run (c : Nat)
  | write (c : Nat)
  | wrote (c iRet : Nat)
  | accept (c : Nat)
  | crash (c : Nat)
  | leave (c : Nat)
deriving Repr, DecidableEq

def State.setApp (s : State) (j : Nat) (a : App) : State :=
  { s with apps := Function.update s.apps j a }

def State.setChild (s : State) (c : Nat) (ch : Child) : State :=
  { s with childs := Function.update s.childs c ch }

/-- The time stamp of app `j` is set. -/
def State.stamp (s : State) (j t : Nat) : State :=
  s.setApp j { s.apps j with dwLastTryWriteLogTime := t }

/-- The first test of `TryDispatchAppWrite`, in `uint32_t` arithmetic: the app
has logs to write and its last write try has expired. -/
def needsDispatch (cfg : Config) (s : State) (j : Nat) : Bool :=
  (s.apps j).logWrited &&
    !decide ((s.tmTmp + 2 ^ 32 - cfg.iCheckWriteProcessTime) % 2 ^ 32
      < (s.apps j).dwLastTryWriteLogTime)

/-- One round of the search for an idle writer. -/
def searchStep (childs : Nat → Child) (kk : Option Nat) (jj : Nat) : Option Nat :=
  if (childs jj).iAppId = 0 then
    match kk with
    | some k =>
      if (childs jj).iAppWriteTotal < maxSlogShmFilePerProcess
          ∧ (childs jj).dwWriteRecordsPer < (childs k).dwWriteRecordsPer then some jj
      else some k
    | none => some jj
  else kk

/-- The writer the search of `TryDispatchAppWrite` ends with. -/
def search (cfg : Config) (childs : Nat → Child) : Option Nat :=
  (List.range (cfg.iProcessCount - 1)).foldl (searchStep childs) none

/-- `TryDispatchAppWrite` up to the write of `iAppId`. -/
def tryDispatchAppWrite (cfg : Config) (s : State) (j : Nat) : State :=
  if needsDispatch cfg s j then
    match search cfg s.childs with
    | some kk =>
      { s with
        placing := some (j, kk)
        childs := Function.update s.childs kk { s.childs kk with iAppId := (s.apps j).iAppId }
        given := if (s.childs kk).running then (j, kk) :: s.given else s.given }
    | none => s
  else if (s.apps j).bReadLogStatInfo then s
  else s.setApp j { s.apps j with dwLastTryWriteLogTime := s.now, bReadLogStatInfo := true }

/-- The rest of `TryDispatchAppWrite`. -/
def placeApp (s : State) (j kk : Nat) : State :=
  { s with
    placing := none
    childs := Function.update s.childs kk { s.childs kk with iAppShmIndex := j }
    apps := Function.update s.apps j
      { s.apps j with dwLastTryWriteLogTime := s.tmTmp, logWrited := false } }

/-- Writer `c` is gone, and with it what was dispatched to it. -/
def State.stop (s : State) (c : Nat) : State :=
  { s with
    childs := Function.update s.childs c { s.childs c with running := false }
    given := s.given.filter fun p => p.2 ≠ c }

/-- `TryAcceptDispatchApp`, the last call of a pass. -/
def tryAcceptDispatchApp (s : State) (c : Nat) : State :=
  let ch := s.childs c
  if ch.iAppId = 0 then s.setChild c { ch with phase := .start }
  else if maxSlogShmFilePerProcess ≤ ch.pstLogFile.length then { s.stop c with bug := true }
  else
    (s.stamp ch.iAppShmIndex s.now).setChild c
      { ch with
        pstLogFile := ch.pstLogFile ++ [ch.iAppShmIndex]
        iAppWriteTotal := ch.iAppWriteTotal + 1
        iAppId := 0
        phase := .start }

/-- The write loop of a pass at its next app, or at its end. -/
def writeNext (s : State) (c i : Nat) : State :=
  let ch := s.childs c
  match ch.pstLogFile[i]? with
  | some j => (s.stamp j ch.tmTmp).setChild c { ch with phase := .calling i s.now }
  | none => s.setChild c { ch with phase := .tail }

/-- A `WriteFile` call of the loop has returned. -/
def writeDone (cfg : Config) (s : State) (c i iRet : Nat) : State :=
  let ch := s.childs c
  s.setChild c
    { ch with
      dwWriteRecordsPer := ch.dwWriteRecordsPer + iRet
      phase := if ch.tmTmp + cfg.iCheckWriteProcessTime - 10 < s.now then .tail
        else .loop (i + 1) }

/-- No `WriteFile` call of `ch` gets as long as ten seconds by time `t`. -/
def callShort (ch : Child) (t : Nat) : Bool :=
  match ch.running, ch.phase with
  | true, .calling _ since => decide (t < since + 10)
  | _, _ => true

/-- The clock may go on to time `t`. -/
def tickOk (cfg : Config) (s : State) (t : Nat) : Bool :=
  decide (t ≤ s.tmTmp + 10) &&
    (List.range (cfg.iProcessCount - 1)).all fun c => callShort (s.childs c) t

def step (cfg : Config) (s : State) : Action → State
  | .tick d => if tickOk cfg s (s.now + d) then { s with now := s.now + d } else s
  | .report j => s.setApp j { s.apps j with logWrited := true }
  | .scan => if s.placing = none then { s with tmTmp := s.now } else s
  | .clearPer => { s with childs := fun c => { s.childs c with dwWriteRecordsPer := 0 } }
  | .visit j =>
    if s.placing = none ∧ (s.apps j).iAppId ≠ 0 then tryDispatchAppWrite cfg s j else s
  | .place =>
    match s.placing with
    | some (j, kk) => placeApp s j kk
    | none => s
  | .run c =>
    if (s.childs c).running ∧ (s.childs c).phase = .start then
      s.setChild c { s.childs c with tmTmp := s.now, phase := .loop 0 }
    else s
  | .write c =>
    match (s.childs c).running, (s.childs c).phase with
    | true, .loop i => writeNext s c i
    | _, _ => s
  | .wrote c iRet =>
    match (s.childs c).running, (s.childs c).phase with
    | true, .calling i _ => writeDone cfg s c i iRet
    | _, _ => s
  | .accept c =>
    if (s.childs c).running ∧ (s.childs c).phase = .tail then tryAcceptDispatchApp s c else s
  | .crash c => s.stop c
  | .leave c =>
    if (s.childs c).running ∧ (s.childs c).phase = .start then
      { s.stop c with apps := fun j => { s.apps j with dwLastTryWriteLogTime := 0 } }
    else s

/-- The state a schedule leads to. -/
def run (cfg : Config) (s : State) (as : List Action) : State := as.foldl (step cfg) s

/-- No app is given to two running writers. -/
def OneWriter (s : State) : Prop :=
  ∀ j c c', (j, c) ∈ s.given → (j, c') ∈ s.given → c = c'

/-- No app waits for a writer that has no room, and no writer met one. -/
def RoomLeft (s : State) : Prop :=
  (∀ c, (s.childs c).iAppId ≠ 0 → (s.childs c).pstLogFile.length < maxSlogShmFilePerProcess) ∧
    s.bug = false

end XrkMonitor.LogWrite
