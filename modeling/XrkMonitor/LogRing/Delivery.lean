import XrkMonitor.Library.Run
import XrkMonitor.LogRing.Ring

/-!
# Delivery of logs through the ring

A run is any sequence of completed writes and reads of one ring. `written` and
`delivered` record its history. As long as no write fills the last free cell,
the delivered records are a front part of the written ones and a complete read
delivers the rest. A write that fills the ring makes it look empty to the
reader, which then forgets every record in it.
-/

namespace XrkMonitor.LogRing

open Library

/-- A ring with the history of what was written to it and delivered from it. -/
structure RingRun where
  ring : MTLogShm
  written : List MTLog
  delivered : List MTLog

/-- One completed call. -/
inductive RingCall where
  | write (call : LogCall)
  | read (env : ReadEnv)

/-- The state after a call; a read also tells how it ended. -/
def ringStep (r : RingRun) : RingCall → Option (Option ReadEnd × RingRun)
  | .write call =>
    some (none, ⟨mtReportLog r.ring call, r.written ++ [call.record], r.delivered⟩)
  | .read env =>
    (readAppLog env r.ring).map fun x => (x.1, ⟨x.2.1, r.written, r.delivered ++ x.2.2⟩)

/-- A write leaves a cell free: the ring is empty or the cell after the write
index is not the oldest record's. -/
def HasRoom (s : MTLogShm) : Prop :=
  s.iLogStarIndex < 0 ∨ (ringNext MTLOG_SHM_RECORDS_COUNT s.iWriteIndex : Int) ≠ s.iLogStarIndex

/-- Writes leave a cell free; reads are unrestricted. -/
def LeavesRoom (r : RingRun) : RingCall → Prop
  | .write _ => HasRoom r.ring
  | .read _ => True

/-- An empty ring with its write index at `base` and no history. -/
def emptyRing (base : Nat) (sLogList : Nat → MTLog) : RingRun :=
  ⟨⟨base, -1, sLogList, 0⟩, [], []⟩

/-- The ring holds the written records from position `d` on, and position `k`
lies in cell `(base + k) % N`. -/
structure Holds (base d : Nat) (s : MTLogShm) (written : List MTLog) : Prop where
  le : d ≤ written.length
  room : written.length < d + MTLOG_SHM_RECORDS_COUNT
  write : s.iWriteIndex = (base + written.length) % MTLOG_SHM_RECORDS_COUNT
  cell : ∀ k, d ≤ k → k < written.length →
    written[k]? = some (s.sLogList ((base + k) % MTLOG_SHM_RECORDS_COUNT))
  seq : ∀ log ∈ written, log.dwLogSeq ≠ 0

/-- Between two calls the start index is negative exactly when nothing is
pending. -/
structure RingInv (base : Nat) (r : RingRun) (d : Nat) : Prop where
  holds : Holds base d r.ring r.written
  delivered : r.delivered = r.written.take d
  start_empty : d = r.written.length → r.ring.iLogStarIndex = -1
  start_pending : d < r.written.length →
    r.ring.iLogStarIndex = ((base + d) % MTLOG_SHM_RECORDS_COUNT : Nat)

theorem count_pos : 0 < MTLOG_SHM_RECORDS_COUNT := by decide

theorem takeLogSeq_ne_zero (dwLogSeq : Nat) : takeLogSeq dwLogSeq ≠ 0 := by
  unfold takeLogSeq
  split <;> omega

variable {base d : Nat} {s : MTLogShm} {r : RingRun} {written : List MTLog}

theorem sLogList_mtReportLog (call : LogCall) :
    (mtReportLog s call).sLogList = Function.update s.sLogList s.iWriteIndex call.record := by
  simp [mtReportLog, reserve]

theorem Holds.mtReportLog (h : Holds base d s written)
    (hroom : written.length + 1 < d + MTLOG_SHM_RECORDS_COUNT) (call : LogCall) :
    Holds base d (mtReportLog s call) (written ++ [call.record]) where
  le := by
    have := h.le
    simp only [List.length_append, List.length_singleton]
    omega
  room := by simpa using hroom
  write := by
    change ringNext _ s.iWriteIndex = _
    rw [h.write, ringNext_mod count_pos]
    simp [Nat.add_assoc]
  cell := by
    intro k hdk hk
    rw [sLogList_mtReportLog, h.write]
    simp only [List.length_append, List.length_singleton] at hk
    by_cases hlast : k = written.length
    · subst hlast
      simp
    · have hk' : k < written.length := by omega
      have hne : (base + k) % MTLOG_SHM_RECORDS_COUNT ≠
          (base + written.length) % MTLOG_SHM_RECORDS_COUNT := by
        intro he
        have := ring_mod_inj (by omega) (by omega) he
        omega
      rw [Function.update_of_ne hne, List.getElem?_append_left hk']
      exact h.cell k hdk hk'
  seq := by
    intro log hlog
    rcases List.mem_append.mp hlog with hlog | hlog
    · exact h.seq log hlog
    · obtain rfl : log = call.record := by simpa using hlog
      exact takeLogSeq_ne_zero call.dwLogSeq

theorem RingInv.room (h : RingInv base r d) (hroom : HasRoom r.ring) :
    r.written.length + 1 < d + MTLOG_SHM_RECORDS_COUNT := by
  have hlt := h.holds.room
  have hle := h.holds.le
  have hN : 2 ≤ MTLOG_SHM_RECORDS_COUNT := by decide
  by_contra hfull
  have hlen : base + r.written.length + 1 = base + d + MTLOG_SHM_RECORDS_COUNT := by omega
  have hstart := h.start_pending (by omega)
  have hnext : ringNext MTLOG_SHM_RECORDS_COUNT r.ring.iWriteIndex =
      (base + d) % MTLOG_SHM_RECORDS_COUNT := by
    rw [h.holds.write, ringNext_mod count_pos, hlen, Nat.add_mod_right]
  rcases hroom with hneg | hne
  · rw [hstart] at hneg
    omega
  · rw [hstart, hnext] at hne
    exact hne rfl

theorem RingInv.hasRoom (h : RingInv base r d)
    (hroom : r.written.length + 1 < d + MTLOG_SHM_RECORDS_COUNT) : HasRoom r.ring := by
  have hle := h.holds.le
  by_cases hd : d = r.written.length
  · left
    rw [h.start_empty hd]
    decide
  · right
    rw [h.start_pending (by omega), h.holds.write, ringNext_mod count_pos]
    intro he
    have := ring_mod_inj (by omega) (by omega) (Nat.cast_inj.mp he).symm
    omega

theorem RingInv.write (h : RingInv base r d) (hroom : HasRoom r.ring) (call : LogCall) :
    RingInv base ⟨mtReportLog r.ring call, r.written ++ [call.record], r.delivered⟩ d := by
  have hle := h.holds.le
  refine ⟨h.holds.mtReportLog (h.room hroom) call, ?_, ?_, ?_⟩
  · rw [h.delivered, List.take_append_of_le_length hle]
  · intro hd
    simp only [List.length_append, List.length_singleton] at hd
    omega
  · intro _
    change (if r.ring.iLogStarIndex < 0 then (r.ring.iWriteIndex : Int)
      else r.ring.iLogStarIndex) = _
    by_cases hd : d = r.written.length
    · rw [h.start_empty hd, if_pos (by decide), h.holds.write, hd]
    · have hstart := h.start_pending (by omega)
      rw [hstart, if_neg (by omega)]

/-- The start index stands at position `d`. -/
def StartsAt (base d : Nat) (s : MTLogShm) : Prop :=
  s.iLogStarIndex = ((base + d) % MTLOG_SHM_RECORDS_COUNT : Nat)

theorem StartsAt.advance (h : StartsAt base d s) : StartsAt base (d + 1) (advanceStart s) := by
  unfold StartsAt at h ⊢
  change ((ringNext MTLOG_SHM_RECORDS_COUNT s.iLogStarIndex.toNat : Nat) : Int) = _
  rw [h, Int.toNat_natCast, ringNext_mod count_pos, Nat.add_assoc]

theorem Holds.advance (h : Holds base d s written) (hd : d < written.length) :
    Holds base (d + 1) (advanceStart s) written where
  le := hd
  room := by
    have := h.room
    omega
  write := h.write
  cell := fun k hk => h.cell k (by omega)
  seq := h.seq

theorem Holds.oldest (h : Holds base d s written) (hs : StartsAt base d s)
    (hd : d < written.length) :
    written[d]? = some (s.sLogList s.iLogStarIndex.toNat) ∧
      (s.sLogList s.iLogStarIndex.toNat).dwLogSeq ≠ 0 ∧
      (0 ≤ s.iLogStarIndex ∧ s.iLogStarIndex ≠ s.iWriteIndex) := by
  have hcell := h.cell d (le_refl d) hd
  have hroom := h.room
  rw [hs, Int.toNat_natCast]
  refine ⟨hcell, h.seq _ (List.mem_of_getElem? hcell), by omega, ?_⟩
  intro he
  rw [h.write, Nat.cast_inj] at he
  have := ring_mod_inj (by omega) (by omega) he
  omega

theorem readLoop_holds (env : ReadEnv) (n : Nat) (hn : written.length = d + n) (fuel : Nat)
    (hfuel : n < fuel) (out : List MTLog) (h : Holds base d s written)
    (hs : StartsAt base d s) :
    ∃ e s' d' more, readLoop env fuel s out = some (e, s', out ++ more) ∧
      written.take d ++ more = written.take d' ∧ Holds base d' s' written ∧
      StartsAt base d' s' ∧
      (e = .drained ∧ d' = written.length ∨
        e = .refused ∧ d' < written.length ∧ ∃ k, env.readAppLogToBuf k = false) := by
  induction n generalizing d s fuel out with
  | zero =>
    obtain ⟨fuel, rfl⟩ : ∃ k, fuel = k + 1 := ⟨fuel - 1, by omega⟩
    have hd : d = written.length := by omega
    have hstop : ¬ (0 ≤ s.iLogStarIndex ∧ s.iLogStarIndex ≠ s.iWriteIndex) := by
      rintro ⟨-, hne⟩
      apply hne
      rw [hs, h.write, hd]
    refine ⟨.drained, s, d, [], ?_, by simp, h, hs, Or.inl ⟨rfl, hd⟩⟩
    rw [readLoop, if_neg hstop, List.append_nil]
  | succ n ih =>
    obtain ⟨fuel, rfl⟩ : ∃ k, fuel = k + 1 := ⟨fuel - 1, by omega⟩
    have hd : d < written.length := by omega
    obtain ⟨hlog, hseq, hgo⟩ := h.oldest hs hd
    by_cases hbuf : env.readAppLogToBuf out.length = true
    · obtain ⟨e, s', d', more, hrun, hmore, h', hs', hend⟩ :=
        ih (by omega) fuel (by omega) (out ++ [s.sLogList s.iLogStarIndex.toNat])
          (h.advance hd) hs.advance
      refine ⟨e, s', d', s.sLogList s.iLogStarIndex.toNat :: more, ?_, ?_, h', hs', hend⟩
      · rw [readLoop, if_pos hgo]
        simp only [hseq, if_false, hbuf, if_true, hrun]
        simp
      · rw [← hmore, List.take_add_one, hlog]
        simp
    · refine ⟨.refused, s, d, [], ?_, by simp, h, hs, Or.inr ⟨rfl, hd, _, by simpa using hbuf⟩⟩
      rw [readLoop, if_pos hgo]
      simp [hseq, hbuf]

/-- A read of the ring delivers the next records in order; without a refusal
it delivers all of them. -/
theorem RingInv.read (h : RingInv base r d) (env : ReadEnv) :
    ∃ e r' d', ringStep r (.read env) = some (e, r') ∧ RingInv base r' d' ∧
      r'.written = r.written ∧
      (env.cas = true → (∀ k, env.readAppLogToBuf k = true) →
        e = some .drained ∧ d' = r.written.length) := by
  by_cases hcas : env.cas = true
  · by_cases hd : d = r.written.length
    · have hneg := h.start_empty hd
      have hloop : readLoop env (MTLOG_SHM_RECORDS_COUNT + 1) r.ring [] =
          some (.drained, r.ring, []) := by
        rw [readLoop, if_neg (by omega)]
      refine ⟨some .drained, r, d, ?_, h, rfl, fun _ _ => ⟨rfl, hd⟩⟩
      have hne : r.ring.iLogStarIndex ≠ r.ring.iWriteIndex := by omega
      simp [ringStep, readAppLog, hcas, hloop, hne]
    · have hlt : d < r.written.length := lt_of_le_of_ne h.holds.le hd
      have hroom := h.holds.room
      obtain ⟨e, s', d', more, hloop, hmore, h', hs', hend⟩ :=
        readLoop_holds env (r.written.length - d) (by omega) (MTLOG_SHM_RECORDS_COUNT + 1)
          (by omega) [] h.holds (h.start_pending hlt)
      rw [List.nil_append] at hloop
      have hdel : r.delivered ++ more = r.written.take d' := by rw [h.delivered, hmore]
      rcases hend with ⟨rfl, hd'⟩ | ⟨rfl, hd', k, hk⟩
      · have hend : s'.iLogStarIndex = s'.iWriteIndex := by
          rw [hs', h'.write, hd']
        refine ⟨some .drained, ⟨{ s' with iLogStarIndex := -1 }, r.written, r.delivered ++ more⟩,
          d', ?_, ⟨⟨h'.le, h'.room, h'.write, h'.cell, h'.seq⟩, hdel, fun _ => rfl, ?_⟩, rfl,
          fun _ _ => ⟨rfl, hd'⟩⟩
        · simp [ringStep, readAppLog, hcas, hloop, hend]
        · intro hlt'
          exact absurd hd' (Nat.ne_of_lt hlt')
      · refine ⟨some .refused, ⟨s', r.written, r.delivered ++ more⟩, d', ?_,
          ⟨h', hdel, ?_, fun _ => hs'⟩, rfl, ?_⟩
        · simp [ringStep, readAppLog, hcas, hloop]
        · intro he
          exact absurd he (Nat.ne_of_lt hd')
        · intro _ hall
          rw [hall k] at hk
          cases hk
  · refine ⟨none, ⟨r.ring, r.written, r.delivered⟩, d, ?_, h, rfl, ?_⟩
    · simp [ringStep, readAppLog, hcas]
    · intro hc
      exact absurd hc hcas

theorem RingInv.step (base : Nat) (r : RingRun) (call : RingCall)
    (h : ∃ d, RingInv base r d) (hok : LeavesRoom r call) :
    ∃ o r', ringStep r call = some (o, r') ∧ True ∧ ∃ d, RingInv base r' d := by
  obtain ⟨d, h⟩ := h
  cases call with
  | write call => exact ⟨none, _, rfl, trivial, d, h.write hok call⟩
  | read env =>
    obtain ⟨e, r', d', hstep, h', -⟩ := h.read env
    exact ⟨e, r', hstep, trivial, d', h'⟩

theorem emptyRing_inv (hbase : base < MTLOG_SHM_RECORDS_COUNT) (sLogList : Nat → MTLog) :
    RingInv base (emptyRing base sLogList) 0 where
  holds :=
    { le := le_refl 0
      room := by
        have := count_pos
        simpa [emptyRing] using this
      write := (Nat.mod_eq_of_lt hbase).symm
      cell := by
        intro k _ hk
        cases hk
      seq := by
        intro log hlog
        cases hlog }
  delivered := rfl
  start_empty := fun _ => rfl
  start_pending := by
    intro h
    cases h

/-- In every run whose writes leave a cell free, the delivered records are a
front part of the written ones in their order, and from every state reached a
complete read delivers all the rest. -/
theorem log_ring_delivery (hbase : base < MTLOG_SHM_RECORDS_COUNT) (sLogList : Nat → MTLog)
    (calls : List RingCall)
    (hcalls : Admissible ringStep LeavesRoom (emptyRing base sLogList) calls) :
    ∃ os r, runSteps ringStep (emptyRing base sLogList) calls = some (os, r) ∧
      (∃ pending, r.written = r.delivered ++ pending) ∧
      ∀ env : ReadEnv, env.cas = true → (∀ k, env.readAppLogToBuf k = true) →
        ∃ r', ringStep r (.read env) = some (some .drained, r') ∧
          r'.written = r.written ∧ r'.delivered = r.written := by
  obtain ⟨os, r, hrun, -, d, hinv⟩ := run_invariant (O := fun _ _ => True) (RingInv.step base)
    calls (emptyRing base sLogList) ⟨0, emptyRing_inv hbase sLogList⟩ hcalls
  refine ⟨os, r, hrun, ⟨r.written.drop d, ?_⟩, ?_⟩
  · rw [hinv.delivered, List.take_append_drop]
  · intro env hcas hbuf
    obtain ⟨e, r', d', hstep, hinv', hw, hall⟩ := hinv.read env
    obtain ⟨rfl, hd'⟩ := hall hcas hbuf
    refine ⟨r', hstep, hw, ?_⟩
    rw [hinv'.delivered, hw, hd', List.take_length]

def sampleCall : LogCall := ⟨1700000000000000, 7, 1, 2, 4, 9⟩

def blankLog : MTLog := ⟨0, 0, 0, 0, 0, 0⟩

/-- A read that gets the ring and finds room for every record. -/
def completeRead : ReadEnv := ⟨true, 1700000000, fun _ => true⟩

theorem log_ring_delivery_one_record :
    ∃ os r, runSteps ringStep (emptyRing 9999 fun _ => blankLog)
        [.write sampleCall, .read completeRead, .write sampleCall] = some (os, r) ∧
      (∃ pending, r.written = r.delivered ++ pending) ∧
      ∃ r', ringStep r (.read completeRead) = some (some .drained, r') ∧
        r'.delivered = r.written := by
  have hcalls : Admissible ringStep LeavesRoom (emptyRing 9999 fun _ => blankLog)
      [.write sampleCall, .read completeRead, .write sampleCall] := by
    refine ⟨Or.inl (by decide), ?_⟩
    intro o r hr
    obtain ⟨-, rfl⟩ := Prod.mk.inj (Option.some.inj hr)
    refine ⟨trivial, ?_⟩
    intro o r hr
    obtain ⟨-, rfl⟩ := Prod.mk.inj (Option.some.inj hr)
    exact ⟨Or.inl (by decide), fun _ _ _ => trivial⟩
  obtain ⟨os, r, hrun, hpending, hread⟩ :=
    log_ring_delivery (by decide) (fun _ => blankLog) _ hcalls
  obtain ⟨r', hstep, -, hdel⟩ := hread completeRead rfl fun _ => rfl
  exact ⟨os, r, hrun, hpending, r', hstep, hdel⟩

theorem full_ring_forgotten (hfull : ¬ HasRoom r.ring) (call : LogCall) (env : ReadEnv)
    (hcas : env.cas = true) :
    ∃ r', runSteps ringStep r [.write call, .read env] = some ([none, some .drained], r') ∧
      r'.written = r.written ++ [call.record] ∧ r'.delivered = r.delivered ∧
      r'.ring.iLogStarIndex = -1 := by
  rw [HasRoom, not_or, not_not] at hfull
  obtain ⟨hpos, hnext⟩ := hfull
  have hstart : (mtReportLog r.ring call).iLogStarIndex = r.ring.iLogStarIndex := by
    change (if r.ring.iLogStarIndex < 0 then _ else r.ring.iLogStarIndex) = _
    exact if_neg hpos
  have hwrite : (mtReportLog r.ring call).iLogStarIndex = (mtReportLog r.ring call).iWriteIndex := by
    rw [hstart, ← hnext]
    rfl
  have hloop : readLoop env (MTLOG_SHM_RECORDS_COUNT + 1) (mtReportLog r.ring call) [] =
      some (.drained, mtReportLog r.ring call, []) := by
    rw [readLoop, if_neg (fun hgo => hgo.2 hwrite)]
  refine ⟨⟨{ mtReportLog r.ring call with iLogStarIndex := -1 }, r.written ++ [call.record],
    r.delivered⟩, ?_, rfl, rfl, rfl⟩
  simp [runSteps, ringStep, readAppLog, hcas, hloop, hwrite]

theorem run_writes (h : RingInv base r 0) (call : LogCall) (k : Nat)
    (hk : r.written.length + k < MTLOG_SHM_RECORDS_COUNT) :
    ∃ os r', runSteps ringStep r (List.replicate k (.write call)) = some (os, r') ∧
      RingInv base r' 0 ∧ r'.written = r.written ++ List.replicate k call.record ∧
      r'.delivered = r.delivered := by
  induction k generalizing r with
  | zero => exact ⟨[], r, rfl, h, by simp, rfl⟩
  | succ k ih =>
    have hroom := h.hasRoom (by omega)
    obtain ⟨os, r', hrun, hinv, hw, hd⟩ := ih (h.write hroom call) (by
      simp only [List.length_append, List.length_singleton]
      omega)
    refine ⟨none :: os, r', ?_, hinv, ?_, hd⟩
    · simp [List.replicate_succ, runSteps, ringStep, hrun]
    · rw [hw, List.append_assoc, List.replicate_succ]
      rfl

def RingCall.isWrite : RingCall → Bool
  | .write _ => true
  | .read _ => false

/-- As many writes as the ring has cells, then a complete read: it reports the
ring as drained and delivers none of the records. -/
theorem log_ring_full_lost :
    ∃ calls os r, calls.countP RingCall.isWrite ≤ MTLOG_SHM_RECORDS_COUNT ∧
      runSteps ringStep (emptyRing 0 fun _ => blankLog) (calls ++ [.read completeRead]) =
        some (os ++ [some .drained], r) ∧
      r.written.length = 10000 ∧ r.delivered = [] ∧ r.ring.iLogStarIndex = -1 := by
  have hempty : RingInv 0 (emptyRing 0 fun _ => blankLog) 0 := emptyRing_inv (by decide) _
  obtain ⟨os, r, hrun, hinv, hw, hd⟩ := run_writes hempty sampleCall 9999 (by decide)
  have hlen : r.written.length = 9999 := by
    rw [hw, List.length_append, List.length_replicate]
    rfl
  have hfull : ¬ HasRoom r.ring := by
    intro hroom
    have := hinv.room hroom
    unfold MTLOG_SHM_RECORDS_COUNT at this
    omega
  obtain ⟨r', hlast, hw', hd', hs'⟩ := full_ring_forgotten hfull sampleCall completeRead rfl
  refine ⟨List.replicate 9999 (.write sampleCall) ++ [.write sampleCall], os ++ [none], r', ?_, ?_,
    ?_, ?_, hs'⟩
  · rw [List.countP_append, List.countP_replicate]
    decide
  · rw [List.append_assoc, List.singleton_append, runSteps_append hrun, hlast]
    simp
  · rw [hw', List.length_append, hlen]
    rfl
  · rw [hd', hd]
    rfl

end XrkMonitor.LogRing
