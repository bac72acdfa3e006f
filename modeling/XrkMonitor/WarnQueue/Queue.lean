import Mathlib.Algebra.Ring.Nat
import Mathlib.Logic.Function.Basic
import Mathlib.Data.List.Basic

/-!
# The queue of warnings to send

`slog_check_warn` puts warnings into a slot array in shared memory
(`AddSendWarnToShm`); the processes of `slog_deal_warn` scan the array, send the
warnings whose id falls to them and clear the slots (`ScanSendWarnShm`). There is
no lock.

## Implementation notes

The adder and each sender carry the local variables of their function and a
program counter; a step is one look at a slot or one write to it, and the steps
of all processes may come in any order. `dwWarnId == 0` marks a free slot. The
fields of a slot that neither function reads are left out, and `memset` of a
slot is one write. `tag` is history: which of the `added` warnings the id of a
slot came from. `sent` lists what each sender has sent.
-/

namespace XrkMonitor.WarnQueue

def maxWarnSendNodeShm : Nat := 10000

structure Config where
  iProcessCount : Nat
  iValidSendWarnTimeSec : Nat
  iSkipSendWarn : Bool
deriving Repr, DecidableEq

/-- A slot of the array; `stWarn` is the content of a warning. -/
structure TWarnSendInfo (ω : Type) where
  dwWarnId : Nat
  dwWarnAddTime : Nat
  stWarn : ω
  tag : Nat
deriving Repr, DecidableEq

inductive AddPc
  | idle
  | scan
  | copy
  | time
  | name
deriving Repr, DecidableEq

/-- The arguments and local variables of `AddSendWarnToShm`. -/
structure Adder (ω : Type) where
  pc : AddPc
  warn : ω
  dwWarnId : Nat
  dwTimeNow : Nat
  i : Nat
  j : Nat
  pTimeoutNode : Option Nat
  pSendNode : Nat
deriving Repr, DecidableEq

inductive SendPc
  | idle
  | look
  | expire
  | send
  | clear
deriving Repr, DecidableEq

/-- The local variables of `ScanSendWarnShm`. -/
structure Sender where
  pc : SendPc
  dwTimeNow : Nat
  j : Nat
deriving Repr, DecidableEq

/-- A warning as it was added. -/
structure Added (ω : Type) where
  dwWarnId : Nat
  dwWarnAddTime : Nat
  stWarn : ω
deriving Repr, DecidableEq

/-- What process `m_iProcessId` has sent from a slot. -/
structure Sent (ω : Type) where
  m_iProcessId : Nat
  dwWarnId : Nat
  stWarn : ω
  tag : Nat
deriving Repr, DecidableEq

structure State (ω : Type) where
  now : Nat
  slots : Nat → TWarnSendInfo ω
  s_iLastShmNodeIdx : Nat
  adder : Adder ω
  senders : Nat → Sender
  added : List (Added ω)
  sent : List (Sent ω)

inductive Action (ω : Type)
  | tick (d : Nat)
  | add (warn : ω) (dwWarnId dwTimeNow : Nat)
  | adder
  | scan (p dwTimeNow : Nat)
  | sender (p : Nat)
deriving Repr, DecidableEq

variable {ω : Type}

/-- A slot after `memset`. -/
def emptySlot [Inhabited ω] : TWarnSendInfo ω := ⟨0, 0, default, 0⟩

def initState [Inhabited ω] (t₀ : Nat) : State ω where
  now := t₀
  slots := fun _ => emptySlot
  s_iLastShmNodeIdx := 0
  adder := ⟨.idle, default, 0, 0, 0, 0, none, 0⟩
  senders := fun _ => ⟨.idle, 0, 0⟩
  added := []
  sent := []

/-- `dwWarnAddTime+iValidSendWarnTimeSec`, a 32-bit number. -/
def deadline (cfg : Config) (slot : TWarnSendInfo ω) : Nat :=
  (slot.dwWarnAddTime + cfg.iValidSendWarnTimeSec) % 2 ^ 32

/-- The next index of the array, round its end. -/
def nextIdx (i : Nat) : Nat := if maxWarnSendNodeShm ≤ i + 1 then 0 else i + 1

def State.setSlot (s : State ω) (k : Nat) (slot : TWarnSendInfo ω) : State ω :=
  { s with slots := Function.update s.slots k slot }

def State.setSender (s : State ω) (p : Nat) (x : Sender) : State ω :=
  { s with senders := Function.update s.senders p x }

@[simp]
theorem setSlot_self (s : State ω) (k : Nat) (slot : TWarnSendInfo ω) :
    (s.setSlot k slot).slots k = slot := Function.update_self _ _ _

theorem setSlot_of_ne (s : State ω) {k k' : Nat} (h : k' ≠ k) (slot : TWarnSendInfo ω) :
    (s.setSlot k slot).slots k' = s.slots k' := Function.update_of_ne h _ _

@[simp]
theorem setSender_self (s : State ω) (p : Nat) (x : Sender) :
    (s.setSender p x).senders p = x := Function.update_self _ _ _

theorem setSender_of_ne (s : State ω) {p q : Nat} (h : q ≠ p) (x : Sender) :
    (s.setSender p x).senders q = s.senders q := Function.update_of_ne h _ _

/-- One round of the adder's search, and what follows it. -/
def adderScan (cfg : Config) (s : State ω) : State ω :=
  let a := s.adder
  if a.j < maxWarnSendNodeShm then
    if (s.slots a.i).dwWarnId = 0 then { s with adder := { a with pc := .copy, pSendNode := a.i } }
    else
      { s with
        adder :=
          { a with
            pTimeoutNode :=
              if a.pTimeoutNode = none ∧ deadline cfg (s.slots a.i) < a.dwTimeNow then some a.i
              else a.pTimeoutNode
            i := nextIdx a.i
            j := a.j + 1 } }
  else
    match a.pTimeoutNode with
    | some n => { s with adder := { a with pc := .copy, pSendNode := n } }
    | none => { s with adder := { a with pc := .idle } }

def adderStep (cfg : Config) (s : State ω) : State ω :=
  let a := s.adder
  let k := a.pSendNode
  match a.pc with
  | .idle => s
  | .scan => adderScan cfg s
  | .copy => { s.setSlot k { s.slots k with stWarn := a.warn } with adder := { a with pc := .time } }
  | .time =>
    { s.setSlot k { s.slots k with dwWarnAddTime := a.dwTimeNow } with
      adder := { a with pc := .name } }
  | .name =>
    { s.setSlot k { s.slots k with dwWarnId := a.dwWarnId, tag := s.added.length } with
      adder := { a with pc := .idle }
      s_iLastShmNodeIdx := nextIdx a.i
      added := s.added ++ [⟨a.dwWarnId, a.dwTimeNow, a.warn⟩] }

/-- What the sender does with a slot it looks at. -/
def senderLook (cfg : Config) (s : State ω) (p : Nat) : SendPc :=
  let slot := s.slots (s.senders p).j
  if slot.dwWarnId = 0 then .look
  else if deadline cfg slot ≤ (s.senders p).dwTimeNow then .expire
  else if slot.dwWarnId % cfg.iProcessCount ≠ p then .look
  else if cfg.iSkipSendWarn then .clear
  else .send

/-- The sender goes on to the next slot. -/
def Sender.next (x : Sender) : Sender := { x with pc := .look, j := x.j + 1 }

def senderStep [Inhabited ω] (cfg : Config) (s : State ω) (p : Nat) : State ω :=
  let x := s.senders p
  let k := x.j
  match x.pc with
  | .idle => s
  | .look =>
    if k < maxWarnSendNodeShm then
      match senderLook cfg s p with
      | .look => s.setSender p x.next
      | pc => s.setSender p { x with pc := pc }
    else s.setSender p { x with pc := .idle }
  | .expire => (s.setSlot k { s.slots k with dwWarnId := 0 }).setSender p x.next
  | .send =>
    { s.setSender p { x with pc := .clear } with
      sent := s.sent ++ [⟨p, (s.slots k).dwWarnId, (s.slots k).stWarn, (s.slots k).tag⟩] }
  | .clear => (s.setSlot k emptySlot).setSender p x.next

def step [Inhabited ω] (cfg : Config) (s : State ω) : Action ω → State ω
  | .tick d => { s with now := s.now + d }
  | .add warn dwWarnId dwTimeNow =>
    if s.adder.pc = .idle ∧ dwWarnId ≠ 0 ∧ dwTimeNow ≤ s.now then
      { s with
        adder := ⟨.scan, warn, dwWarnId, dwTimeNow, s.s_iLastShmNodeIdx, 0, none, 0⟩ }
    else s
  | .adder => adderStep cfg s
  | .scan p dwTimeNow =>
    if p < cfg.iProcessCount ∧ (s.senders p).pc = .idle ∧ dwTimeNow ≤ s.now then
      s.setSender p ⟨.look, dwTimeNow, 0⟩
    else s
  | .sender p => senderStep cfg s p

def run [Inhabited ω] (cfg : Config) (s : State ω) (as : List (Action ω)) : State ω :=
  as.foldl (step cfg) s

/-! ### The hand-over -/

/-- Everything sent was added with this id and content, by the process that has
the id; no added warning is sent twice. -/
def SentOk (cfg : Config) (s : State ω) : Prop :=
  (∀ r ∈ s.sent, r.dwWarnId % cfg.iProcessCount = r.m_iProcessId ∧
    ∃ t, s.added[r.tag]? = some ⟨r.dwWarnId, t, r.stWarn⟩) ∧
  (s.sent.map Sent.tag).Nodup

/-- Slot `k` holds the added warning its tag names. -/
def Holds (s : State ω) (k : Nat) : Prop :=
  (s.slots k).dwWarnId ≠ 0 ∧
    s.added[(s.slots k).tag]? =
      some ⟨(s.slots k).dwWarnId, (s.slots k).dwWarnAddTime, (s.slots k).stWarn⟩

/-- A step leaves every slot alone that holds a warning that has not expired and
was not sent. -/
def Kept (cfg : Config) (s s' : State ω) : Prop :=
  ∀ k, Holds s k → (s.slots k).tag ∉ s.sent.map Sent.tag → s.now < deadline cfg (s.slots k) →
    s'.slots k = s.slots k

/-- The next step of the adder gives the warning up. -/
def Refuses (s : State ω) : Prop :=
  s.adder.pc = .scan ∧ s.adder.j = maxWarnSendNodeShm ∧ s.adder.pTimeoutNode = none

/-- A warning is given up only when every slot holds one that has not expired. -/
def RefusedWhenFull (cfg : Config) (s : State ω) : Prop :=
  Refuses s → ∀ k < maxWarnSendNodeShm,
    (s.slots k).dwWarnId ≠ 0 ∧ s.adder.dwTimeNow ≤ deadline cfg (s.slots k)

end XrkMonitor.WarnQueue
