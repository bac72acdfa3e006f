import XrkMonitor.Timer.Runs

/-!
# The data of a timer

`AddTimer` stores the data of a timer and their length. `UpdateTimer` replaces the data and keeps
the length, and `GetTimer` and `GetTimerData` copy as many bytes as the length says. So a timer that
is armed anew hands out its data only if they are as long as those that it was added with.

## Implementation notes

A run is one of `Runs`, with the data that each node was given last beside it. A copy of the length
and the data of a node goes into a buffer of `TIMER_DATA_MAX_LENGTH` bytes, which is that of
`RunTimerList`, and no more than that of the caller of `GetTimer`.
-/

namespace XrkMonitor.Timer

open Library

def TIMER_DATA_MAX_LENGTH : Nat := 8192

/-- A timer, and the data that each node was given by the last `AddTimer` or `UpdateTimer`. -/
structure Fed where
  world : World
  given : Nat → List UInt8

/-- The data given after a step with its reply. -/
def feed (given : Nat → List UInt8) (op : Op) (reply : TimerReply) : Nat → List UInt8 :=
  match op, reply.pNode with
  | .add call _ _, some cell => Function.update given cell call.sData
  | .update _ _ sData _ _, some cell => Function.update given cell sData
  | _, _ => given

/-- A step of the timer with what it gives. -/
def fedStep (s : Fed) (op : Op) : Option (TimerReply × Fed) :=
  (step s.world op).map fun r => (r.1, ⟨r.2, feed s.given op r.1⟩)

/-- The data of a call fit into the buffers, and those of `UpdateTimer` are as long as the node says
that its data are. -/
def Op.DataFits (t : MtReportTimer) : Op → Prop
  | .add call _ _ => call.sData.length ≤ TIMER_DATA_MAX_LENGTH
  | .update cell _ sData _ _ => sData.length ≤ TIMER_DATA_MAX_LENGTH ∧
      sData.length = (t.stHash cell).uiDataLen
  | _ => True

/-- What a step has to meet so that the data come back as they were given. -/
def StepFed (s : Fed) (op : Op) : Prop := StepFits s.world op ∧ op.DataFits s.world.timer

/-- The copy of the data of a node stays inside them and inside the buffer. -/
def CopyInside (node : TimerNode) : Prop :=
  ∀ sData, node.pDataPtr = some sData →
    node.uiDataLen ≤ sData.length ∧ node.uiDataLen ≤ TIMER_DATA_MAX_LENGTH

/-- A step hands out of a node what the node was given, and reads and writes nothing else. -/
def Delivers (s : Fed) (op : Op) (reply : TimerReply) (w' : World) : Prop :=
  match op with
  | .get _ => ∀ cell, reply.pNode = some cell →
      reply.iRet = 0 ∧ (reply.uiDataLen, reply.psData) = ((s.given cell).length, s.given cell) ∧
        CopyInside (s.world.timer.stHash cell)
  | _ => ∀ cell onExpire data uiCurTime iCheckNodeCount, op.RunsLoop →
      w'.phase = .callback cell onExpire data uiCurTime iCheckNodeCount →
        data = ((s.given cell).length, s.given cell) ∧ CopyInside (s.world.timer.stHash cell)

/-- The node holds the data that it was given. -/
structure Holds (node : TimerNode) (sData : List UInt8) : Prop where
  ptr : node.pDataPtr = copyData sData
  length : node.uiDataLen = sData.length
  fits : sData.length ≤ TIMER_DATA_MAX_LENGTH

/-- The timer is right, and its linked nodes hold what they were given. -/
structure FedInv (s : Fed) : Prop where
  world : WorldInv s.world
  holds : ∀ c ∈ cellsOf s.world.pending, Holds (s.world.timer.stHash c) (s.given c)

section Steps

variable {node : TimerNode} {sData : List UInt8} {s : Fed} {op : Op} {reply : TimerReply} {w' : World}

theorem Holds.takeData (h : Holds node sData) : takeData node = (sData.length, sData) := by
  unfold Timer.takeData
  rw [h.ptr, h.length]
  cases sData with
  | nil => rfl
  | cons b bs => simp [copyData]

theorem Holds.copyInside (h : Holds node sData) : CopyInside node := by
  intro data hdata
  rw [h.ptr, copyData] at hdata
  split at hdata
  · obtain rfl := Option.some.inj hdata
    rw [h.length]
    exact ⟨le_rfl, h.fits⟩
  · cases hdata

theorem Outcome.delivers {t t' : MtReportTimer} {w : World} {given : Nat → List UInt8}
    {uiCurTime iCheckNodeCount : Nat} {ph : Phase}
    (hout : Outcome t w.pending uiCurTime iCheckNodeCount ph t')
    (hholds : ∀ c ∈ cellsOf w.pending, Holds (t.stHash c) (given c)) :
    (∀ c ∈ cellsOf (w.settle ph t').pending, Holds (t'.stHash c) (given c)) ∧
      ∀ cell onExpire data uiTick count, ph = .callback cell onExpire data uiTick count →
        cell ∈ cellsOf w.pending ∧ data = ((given cell).length, given cell) := by
  cases hout with
  | idle _ _ _ _ hsame =>
    refine ⟨fun c hc => ?_, fun cell onExpire data uiTick count hph => by cases hph⟩
    rw [hsame]
    exact hholds c hc
  | expire r onExpire hr _ _ _ _ _ _ hupdate _ =>
    have hmem : r.cell ∈ cellsOf w.pending := mem_cellsOf.mpr ⟨r, hr, rfl⟩
    constructor
    · intro c hc
      have hc : c ∈ cellsOf (dropCell r.cell w.pending) := hc
      rw [cellsOf_dropCell] at hc
      rw [hupdate, Function.update_of_ne hc.2]
      exact hholds c hc.1
    · intro cell onExpire' data uiTick count hph
      obtain ⟨rfl, -, rfl, -⟩ := Phase.callback.inj hph
      exact ⟨hmem, (hholds _ hmem).takeData⟩

theorem feed_of_loop (hloop : op.RunsLoop) (given : Nat → List UInt8)
    (reply : TimerReply) : feed given op reply = given := by
  cases op with
  | check => rfl
  | resume => rfl
  | _ => exact hloop.elim

theorem FedInv.loop (h : FedInv s) (hloop : op.RunsLoop) (hok : StepFits s.world op) :
    ∃ reply s', fedStep s op = some (reply, s') ∧ FedInv s' ∧
      ∀ cell onExpire data uiCurTime iCheckNodeCount,
        s'.world.phase = .callback cell onExpire data uiCurTime iCheckNodeCount →
          data = ((s.given cell).length, s.given cell) ∧
            CopyInside (s.world.timer.stHash cell) := by
  obtain ⟨reply, ph, t, t₁, hstep, hinv, -, hsame, hout⟩ := h.world.loop hloop hok
  refine ⟨reply, ⟨s.world.settle ph t, s.given⟩, ?_, ?_⟩
  · rw [fedStep, hstep, Option.map_some, feed_of_loop hloop]
  have hholds : ∀ c ∈ cellsOf s.world.pending, Holds (t₁.stHash c) (s.given c) := by
    intro c hc
    rw [hsame c hc]
    exact h.holds c hc
  rcases hout with ⟨_, hout⟩ | ⟨rfl, rfl⟩
  · obtain ⟨hleft, hcallback⟩ := hout.delivers hholds
    refine ⟨⟨hinv, ?_⟩, fun cell onExpire data uiCurTime iCheckNodeCount hphase => ?_⟩
    · rw [(settle_phase s.world ph t).2]
      exact hleft
    · rw [(settle_phase s.world ph t).1] at hphase
      obtain ⟨hcell, hgiven⟩ := hcallback _ _ _ _ _ hphase
      exact ⟨hgiven, (h.holds cell hcell).copyInside⟩
  · exact ⟨⟨hinv, hholds⟩, fun _ _ _ _ _ hphase => absurd hphase (by simp [World.settle])⟩

theorem FedInv.get (h : FedInv s) {uiKey : Nat} (hfits : StepFits s.world (.get uiKey))
    (hstep : Timer.step s.world (.get uiKey) = some (reply, w')) :
    Delivers s (.get uiKey) reply w' ∧
      ∀ d ∈ cellsOf w'.pending, Holds (w'.timer.stHash d) (s.given d) := by
  obtain ⟨K, ht, -⟩ := h.world.timer
  obtain ⟨hf, hlinked⟩ := hfits
  generalize hget : getTimer s.world.timer uiKey = result at hstep
  obtain ⟨r, t⟩ := result
  simp only [Timer.step, hget] at hstep
  cases hnode : r.pNode with
  | none =>
    rw [hnode] at hstep
    obtain ⟨rfl, rfl⟩ := by simpa using hstep
    refine ⟨fun cell hcell => absurd (hnode.symm.trans hcell) (by simp), ?_⟩
    rcases ht.getTimer hf hlinked with hnone | ⟨c, r', t', hres, hsome, -⟩
    · obtain rfl : s.world.timer = t := congrArg Prod.snd (hnone.symm.trans hget)
      exact h.holds
    · obtain rfl : r' = r := congrArg Prod.fst (hres.symm.trans hget)
      rw [hnode] at hsome
      cases hsome
  | some c =>
    rw [hnode] at hstep
    obtain ⟨rfl, rfl⟩ := by simpa using hstep
    obtain ⟨hkey, hreply, hret, hhash⟩ := ht.nodes.getTimer_found hf hget hnode
    have hholds := h.holds c (hlinked c hkey)
    refine ⟨fun cell hcell => ?_, fun d hd => ?_⟩
    · obtain rfl : c = cell := Option.some.inj (hnode.symm.trans hcell)
      refine ⟨?_, by rw [hreply, hholds.takeData], hholds.copyInside⟩
      rw [hret, hholds.takeData, hholds.length, if_neg (not_not.mpr rfl)]
    · have hd : d ∈ cellsOf (dropCell c s.world.pending) := hd
      rw [cellsOf_dropCell] at hd
      show Holds (t.stHash d) _
      rw [hhash, Function.update_of_ne hd.2]
      exact h.holds d hd.1

theorem FedInv.add (h : FedInv s) {call : TimerCall} {now : Nat} {isMalloc : Bool}
    (hfits : StepFits s.world (.add call now isMalloc))
    (hdata : call.sData.length ≤ TIMER_DATA_MAX_LENGTH)
    (hstep : Timer.step s.world (.add call now isMalloc) = some (reply, w')) :
    ∀ d ∈ cellsOf w'.pending,
      Holds (w'.timer.stHash d) (feed s.given (.add call now isMalloc) reply d) := by
  obtain ⟨K, ht, -⟩ := h.world.timer
  obtain ⟨hkey, harm, hf⟩ := hfits
  intro d hd
  generalize hadd : addTimer s.world.timer call now isMalloc = result at hstep
  obtain ⟨iRet, pNode, t⟩ := result
  simp only [Timer.step, hadd] at hstep
  cases pNode with
  | none =>
    obtain ⟨rfl, rfl⟩ := by simpa using hstep
    show Holds (t.stHash d) (s.given d)
    rw [ht.nodes.addTimer_refused hf hadd (ht.nodes.key d hd)]
    exact h.holds d hd
  | some c =>
    obtain ⟨rfl, rfl⟩ := by simpa using hstep
    obtain ⟨-, hzero, -, hhash⟩ := ht.nodes.addTimer_linked hf hadd
    have hd : d ∈ cellsOf (s.world.pending ++ [_]) := hd
    rw [cellsOf_concat] at hd
    show Holds (t.stHash d) (Function.update s.given c call.sData d)
    by_cases hdc : d = c
    · rw [hdc, hhash, Function.update_self, Function.update_self]
      exact ⟨rfl, rfl, hdata⟩
    · have hd := hd.resolve_left hdc
      rw [hhash, Function.update_of_ne hdc, Function.update_of_ne hdc]
      exact h.holds d hd

theorem FedInv.update (h : FedInv s) {c uiTimeOut now : Nat} {sData : List UInt8}
    {isMalloc : Bool} (hfits : StepFits s.world (.update c uiTimeOut sData now isMalloc))
    (hdata : (Op.update c uiTimeOut sData now isMalloc).DataFits s.world.timer)
    (hstep : Timer.step s.world (.update c uiTimeOut sData now isMalloc) = some (reply, w')) :
    ∀ d ∈ cellsOf w'.pending,
      Holds (w'.timer.stHash d) (feed s.given (.update c uiTimeOut sData now isMalloc) reply d) := by
  obtain ⟨hc, hkey, -⟩ := hfits
  intro d hd
  obtain ⟨hother, -, hset⟩ :=
    updateTimer_hash (setTimeOut s.world.timer c uiTimeOut) c sData now isMalloc
  have hlength : ((setTimeOut s.world.timer c uiTimeOut).stHash c).uiDataLen =
      (s.world.timer.stHash c).uiDataLen := by
    simp [setTimeOut, Timer.setNode]
  have hsame : ∀ d, d ≠ c →
      (setTimeOut s.world.timer c uiTimeOut).stHash d = s.world.timer.stHash d :=
    fun d hdc => Function.update_of_ne hdc _ _
  generalize hupdate : updateTimer (setTimeOut s.world.timer c uiTimeOut) c sData now isMalloc =
    result at hother hset
  obtain ⟨iRet, t⟩ := result
  dsimp only at hother hset
  simp only [Timer.step, hupdate] at hstep
  split at hstep
  case isFalse hne =>
    obtain ⟨rfl, rfl⟩ := by simpa using hstep
    have hdc : d ≠ c := by
      rintro rfl
      exact hc hd
    show Holds (t.stHash d) (s.given d)
    rw [hother d hdc, hsame d hdc]
    exact h.holds d hd
  case isTrue hzero =>
    obtain ⟨rfl, rfl⟩ := by simpa using hstep
    obtain ⟨hptr, hlen, -⟩ := hset hzero
    have hd : d ∈ cellsOf (s.world.pending ++ [_]) := hd
    rw [cellsOf_concat] at hd
    show Holds (t.stHash d) (Function.update s.given c sData d)
    by_cases hdc : d = c
    · rw [hdc, Function.update_self]
      exact ⟨hptr, by rw [hlen, hlength, hdata.2], hdata.1⟩
    · rw [Function.update_of_ne hdc, hother d hdc, hsame d hdc]
      exact h.holds d (hd.resolve_left hdc)

theorem FedInv.step (h : FedInv s) (hok : StepFed s op) :
    ∃ reply s', fedStep s op = some (reply, s') ∧ Delivers s op reply s'.world ∧ FedInv s' := by
  obtain ⟨hfits, hdata⟩ := hok
  obtain ⟨reply, w', hstep, -, hinv⟩ := WorldInv.step s.world op h.world hfits
  have hfed : fedStep s op = some (reply, ⟨w', feed s.given op reply⟩) := by
    rw [fedStep, hstep]
    rfl
  cases op with
  | setCurTime now =>
    refine ⟨reply, _, hfed, ?_⟩
    obtain ⟨-, rfl⟩ := by simpa [Timer.step] using hstep
    exact ⟨fun _ _ _ _ _ hloop => hloop.elim, hinv, h.holds⟩
  | release c =>
    refine ⟨reply, _, hfed, ?_⟩
    obtain ⟨hc, -⟩ := hfits
    obtain ⟨-, rfl⟩ := by simpa [Timer.step] using hstep
    refine ⟨fun _ _ _ _ _ hloop => hloop.elim, hinv, fun d hd => ?_⟩
    have hdc : d ≠ c := by
      rintro rfl
      exact hc hd
    have hsame : (releaseTimer s.world.timer c).stHash d = s.world.timer.stHash d :=
      Function.update_of_ne hdc _ _
    show Holds ((releaseTimer s.world.timer c).stHash d) _
    rw [hsame]
    exact h.holds d hd
  | get uiKey =>
    obtain ⟨hdelivers, hholds⟩ := h.get hfits hstep
    exact ⟨reply, _, hfed, hdelivers, hinv, hholds⟩
  | add call now isMalloc =>
    exact ⟨reply, _, hfed, fun _ _ _ _ _ hloop => hloop.elim, hinv, h.add hfits hdata hstep⟩
  | update c uiTimeOut sData now isMalloc =>
    exact ⟨reply, _, hfed, fun _ _ _ _ _ hloop => hloop.elim, hinv, h.update hfits hdata hstep⟩
  | check =>
    obtain ⟨reply, s', hstep, hinv, hgiven⟩ :=
      h.loop (show Op.check.RunsLoop from trivial) hfits
    exact ⟨reply, s', hstep, fun _ _ _ _ _ _ hphase => hgiven _ _ _ _ _ hphase, hinv⟩
  | resume iRet =>
    obtain ⟨reply, s', hstep, hinv, hgiven⟩ :=
      h.loop (show (Op.resume iRet).RunsLoop from trivial) hfits
    exact ⟨reply, s', hstep, fun _ _ _ _ _ _ hphase => hgiven _ _ _ _ _ hphase, hinv⟩

end Steps

section Run

/-- In every run whose steps meet their conditions the data come back as they were given, and every
copy stays inside them and inside the buffer. -/
theorem timer_data (now dwProcessId : Nat) (ops : List Op)
    (hops : Admissible fedStep StepFed ⟨initWorld now dwProcessId, fun _ => []⟩ ops) :
    ∃ replies s,
      runSteps fedStep ⟨initWorld now dwProcessId, fun _ => []⟩ ops = some (replies, s) ∧
      ∀ op, StepFed s op → ∃ reply s', fedStep s op = some (reply, s') ∧
        Delivers s op reply s'.world := by
  have hinit : FedInv ⟨initWorld now dwProcessId, fun _ => []⟩ :=
    ⟨initWorld_inv now dwProcessId, fun c hc => absurd hc (by simp [cellsOf, initWorld])⟩
  have hstep : ∀ (s : Fed) (op : Op), FedInv s → StepFed s op →
      ∃ reply s', fedStep s op = some (reply, s') ∧ True ∧ FedInv s' := by
    intro s op h hok
    obtain ⟨reply, s', hstep, -, hinv⟩ := h.step hok
    exact ⟨reply, s', hstep, trivial, hinv⟩
  obtain ⟨replies, s, hrun, -, hinv⟩ := run_invariant (O := fun _ _ => True) hstep ops _ hinit hops
  refine ⟨replies, s, hrun, fun op hok => ?_⟩
  obtain ⟨reply, s', hstep, hdelivers, -⟩ := hinv.step hok
  exact ⟨reply, s', hstep, hdelivers⟩

/-- After a timer with two bytes has started. -/
theorem timer_data_one_timer :
    ∃ replies s, runSteps fedStep ⟨initWorld 0 7, fun _ => []⟩
        [.add ⟨1, 1000, none, [], [1, 2]⟩ 0 true] = some (replies, s) ∧
      ∀ op, StepFed s op → ∃ reply s', fedStep s op = some (reply, s') ∧
        Delivers s op reply s'.world := by
  apply timer_data 0 7
  refine ⟨⟨⟨by decide, ⟨by decide, by decide⟩, fun c hc => absurd rfl hc⟩, ?_⟩,
    fun _ _ _ => trivial⟩
  exact (by decide : 2 ≤ TIMER_DATA_MAX_LENGTH)

/-- A timer with a byte is taken out and armed anew with three. -/
def longerRun : List Op :=
  [.add ⟨1, 1000, none, [], [1]⟩ 0 true, .get 1, .update 1 1000 [2, 3, 4] 0 true]

/-- `GetTimer` hands out the first of the three bytes. -/
theorem timer_data_cut :
    ∃ replies s reply s',
      runSteps fedStep ⟨initWorld 0 7, fun _ => []⟩ longerRun = some (replies, s) ∧
      s.given 1 = [2, 3, 4] ∧ fedStep s (.get 1) = some (reply, s') ∧ reply.psData = [2] ∧
      ¬ Delivers s (.get 1) reply s'.world := by
  have hrun : ((runSteps fedStep ⟨initWorld 0 7, fun _ => []⟩ longerRun).any fun r =>
      decide (r.2.given 1 = [2, 3, 4]) && (fedStep r.2 (.get 1)).any fun q =>
        decide (q.1.psData = [2] ∧ q.1.pNode = some 1)) = true := by
    decide +kernel
  obtain ⟨⟨replies, s⟩, hs, hrest⟩ := (Option.any_eq_true _ _).mp hrun
  obtain ⟨hgiven, hget⟩ := (Bool.and_eq_true _ _).mp hrest
  obtain ⟨⟨reply, s'⟩, hs', hreply⟩ := (Option.any_eq_true _ _).mp hget
  have hgiven : s.given 1 = [2, 3, 4] := of_decide_eq_true hgiven
  obtain ⟨hdata, hnode⟩ : reply.psData = [2] ∧ reply.pNode = some 1 := of_decide_eq_true hreply
  refine ⟨replies, s, reply, s', hs, hgiven, hs', hdata, fun h => ?_⟩
  obtain ⟨-, hsame, -⟩ := h 1 hnode
  have hsame : reply.psData = s.given 1 := congrArg Prod.snd hsame
  rw [hdata, hgiven] at hsame
  exact absurd hsame (by decide)

end Run

end XrkMonitor.Timer
