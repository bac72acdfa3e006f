import XrkMonitor.Library.Run
import XrkMonitor.LogSpec.Buffer

/-!
# The configs of special logs

A run is any sequence of writes, updates of the config table and reads. Every log is delivered at
most once and in the order of the writes, also where the buffer overflows. Its application and
module are those of its own config if the records that wait have none yet or have the right ones; a
record keeps those of the log that was in it before.
-/

namespace XrkMonitor.LogSpec

open Library

/-- A log that was delivered, with the config table of that moment. -/
structure Delivery where
  info : LogInfo
  table : List SLogConfig

/-- The buffer and the config table with the history of what was written and delivered. -/
structure SpecRun where
  shm : SpecShm
  stLogConfig : List SLogConfig
  written : List OwnLog
  delivered : List Delivery

/-- One completed call, or a new config table. -/
inductive SpecInput
  | write (call : SpecCall)
  | config (stLogConfig : List SLogConfig)
  | read (env : ReadEnv)

/-- The state after a call; a read also tells how it ended. -/
def specStep (r : SpecRun) : SpecInput → Option (Option SpecEnd × SpecRun)
  | .write call =>
    some (none, { r with
      shm := mtReportLogToSpec r.shm call
      written := r.written ++ [call.log] })
  | .config stLogConfig => some (none, { r with stLogConfig := stLogConfig })
  | .read env =>
    (readSpecLog env r.stLogConfig r.shm).map fun x =>
      (some x.1, { r with
        shm := x.2.1
        delivered := r.delivered ++ x.2.2.map fun info => ⟨info, r.stLogConfig⟩ })

/-- New shared memory. -/
def specStart : SpecRun := ⟨⟨0, -1, fun _ => ⟨0, 0, 0, 0, 0, 0, 0⟩⟩, [], [], []⟩

/-- An application and a module are those of the config with an id. -/
def NamedBy (stLogConfig : List SLogConfig) (dwCfgId : Nat) (iAppId iModuleId : Int) : Prop :=
  ∃ cfg, findConfig stLogConfig dwCfgId = some cfg ∧ iAppId = cfg.iAppId ∧ iModuleId = cfg.iModuleId

/-- A log is delivered with the application and module of its own config, and without custom
data, which it does not have. -/
structure RightInfo (stLogConfig : List SLogConfig) (info : LogInfo) : Prop where
  named : NamedBy stLogConfig info.log.dwLogConfigId info.iAppId info.iModuleId
  custData : info.custData = none

/-- The logs are delivered once, in the order of the writes, and each is right. -/
structure Attributed (r : SpecRun) : Prop where
  once : (r.delivered.map fun x => x.info.log).Sublist r.written
  right : ∀ x ∈ r.delivered, RightInfo x.table x.info

/-- The cells from the read index up to the write index. -/
def pendingCells (s : SpecShm) : List Nat :=
  if s.iLogSpecialReadIdx < 0 then []
  else
    (List.range ((s.iLogSpecialWriteIdx + MTLOG_LOG_SPECIAL_COUNT - s.iLogSpecialReadIdx.toNat) %
      MTLOG_LOG_SPECIAL_COUNT)).map fun k =>
        (s.iLogSpecialReadIdx.toNat + k) % MTLOG_LOG_SPECIAL_COUNT

/-- A record has no application yet, or those of its own config. -/
def RightSoFar (stLogConfig : List SLogConfig) (log : MTLog) : Prop :=
  log.iAppId = 0 ∨ NamedBy stLogConfig log.dwLogConfigId log.iAppId log.iModuleId

/-- A read finds only records that have no application yet, or those of their own configs. -/
def FindsRight (r : SpecRun) : SpecInput → Prop
  | .read _ => ∀ i ∈ pendingCells r.shm, RightSoFar r.stLogConfig (r.shm.sLogListSpec i)
  | _ => True

/-- The buffer holds the written logs from position `d` on, position `k` in cell `k % N`. -/
structure Holds (d : Nat) (s : SpecShm) (written : List OwnLog) : Prop where
  le : d ≤ written.length
  room : written.length < d + MTLOG_LOG_SPECIAL_COUNT
  write : s.iLogSpecialWriteIdx = written.length % MTLOG_LOG_SPECIAL_COUNT
  cell : ∀ k, d ≤ k → k < written.length →
    written[k]? = some (s.sLogListSpec (k % MTLOG_LOG_SPECIAL_COUNT)).own
  seq : ∀ log ∈ written, log.dwLogSeq ≠ 0
  cust : ∀ i, (s.sLogListSpec i).iCustVmemIndex ≤ 0

/-- The read index stands at position `d`. -/
def ReadsAt (d : Nat) (s : SpecShm) : Prop :=
  s.iLogSpecialReadIdx = (d % MTLOG_LOG_SPECIAL_COUNT : Nat)

/-- Between two calls the read index is negative only if nothing is pending. -/
structure SpecInv (r : SpecRun) (d : Nat) : Prop where
  holds : Holds d r.shm r.written
  reads : ReadsAt d r.shm ∨ r.shm.iLogSpecialReadIdx = -1 ∧ d = r.written.length
  once : (r.delivered.map fun x => x.info.log).Sublist (r.written.take d)
  right : ∀ x ∈ r.delivered, RightInfo x.table x.info

theorem count_pos : 0 < MTLOG_LOG_SPECIAL_COUNT := by decide

variable {d : Nat} {s : SpecShm} {r : SpecRun} {written : List OwnLog} {env : ReadEnv}
  {stLogConfig : List SLogConfig} {plog plog' : MTLog}

@[simp] theorem own_overwrite (log : MTLog) (new : OwnLog) : (log.overwrite new).own = new := rfl

@[simp] theorem iCustVmemIndex_overwrite (log : MTLog) (new : OwnLog) :
    (log.overwrite new).iCustVmemIndex = log.iCustVmemIndex := rfl

theorem log_seq_ne_zero (call : SpecCall) : call.log.dwLogSeq ≠ 0 := by
  change (if call.dwLogSeq = 0 then 1 else call.dwLogSeq) ≠ 0
  split_ifs with hzero
  · exact Nat.one_ne_zero
  · exact hzero

section Write

theorem sLogListSpec_write (h : Holds d s written) (call : SpecCall) :
    (mtReportLogToSpec s call).sLogListSpec =
      Function.update s.sLogListSpec (written.length % MTLOG_LOG_SPECIAL_COUNT)
        ((s.sLogListSpec (written.length % MTLOG_LOG_SPECIAL_COUNT)).overwrite call.log) := by
  have hlt := Nat.mod_lt written.length count_pos
  unfold mtReportLogToSpec
  dsimp only
  rw [h.write, if_neg (Nat.not_le.mpr hlt)]

theorem Holds.write_log (h : Holds d s written) (call : SpecCall) {d' : Nat} (hd : d ≤ d')
    (hle : d' ≤ written.length + 1) (hroom : written.length + 1 < d' + MTLOG_LOG_SPECIAL_COUNT) :
    Holds d' (mtReportLogToSpec s call) (written ++ [call.log]) := by
  have hlength : (written ++ [call.log]).length = written.length + 1 := List.length_append
  constructor
  · rw [hlength]
    exact hle
  · rw [hlength]
    exact hroom
  · change ringNext MTLOG_LOG_SPECIAL_COUNT s.iLogSpecialWriteIdx = _
    rw [h.write, ringNext_mod count_pos, hlength]
  · intro k hdk hk
    rw [hlength] at hk
    rw [sLogListSpec_write h]
    by_cases hlast : k = written.length
    · rw [hlast, Function.update_self, own_overwrite, List.getElem?_concat_length]
    · have hk' : k < written.length := by omega
      have hne : k % MTLOG_LOG_SPECIAL_COUNT ≠ written.length % MTLOG_LOG_SPECIAL_COUNT := by
        intro heq
        exact hlast (ring_mod_inj (Nat.le_of_lt hk') (by omega) heq)
      rw [Function.update_of_ne hne, List.getElem?_append_left hk']
      exact h.cell k (Nat.le_trans hd hdk) hk'
  · intro log hlog
    rcases List.mem_append.mp hlog with hlog | hlog
    · exact h.seq log hlog
    · rw [List.mem_singleton.mp hlog]
      exact log_seq_ne_zero call
  · intro i
    rw [sLogListSpec_write h]
    by_cases hi : i = written.length % MTLOG_LOG_SPECIAL_COUNT
    · subst hi
      rw [Function.update_self, iCustVmemIndex_overwrite]
      exact h.cust _
    · rw [Function.update_of_ne hi]
      exact h.cust i

theorem iLogSpecialReadIdx_write (s : SpecShm) (call : SpecCall) :
    (mtReportLogToSpec s call).iLogSpecialReadIdx =
      if s.iLogSpecialReadIdx < 0 then (s.iLogSpecialWriteIdx : Int)
      else s.iLogSpecialReadIdx := rfl

theorem SpecInv.write (h : SpecInv r d) (call : SpecCall) :
    ∃ d', SpecInv { r with
      shm := mtReportLogToSpec r.shm call
      written := r.written ++ [call.log] } d' := by
  have hle := h.holds.le
  have hroom := h.holds.room
  have hstart : ReadsAt d (mtReportLogToSpec r.shm call) := by
    unfold ReadsAt
    rw [iLogSpecialReadIdx_write]
    rcases h.reads with hreads | ⟨hneg, hd⟩
    · rw [if_neg (by rw [hreads]; omega)]
      exact hreads
    · rw [if_pos (by omega), h.holds.write, hd]
  by_cases hfull : r.written.length + 1 < d + MTLOG_LOG_SPECIAL_COUNT
  · refine ⟨d, h.holds.write_log call (Nat.le_refl d) (by omega) hfull, Or.inl hstart, ?_, h.right⟩
    rw [List.take_append_of_le_length hle]
    exact h.once
  · have hwrap : r.written.length + 1 = d + MTLOG_LOG_SPECIAL_COUNT := by omega
    refine ⟨r.written.length + 1, h.holds.write_log call (by omega) (Nat.le_refl _) ?_, Or.inl ?_,
      ?_, h.right⟩
    · have hpos := count_pos
      omega
    · unfold ReadsAt at hstart ⊢
      rw [hwrap, Nat.add_mod_right]
      exact hstart
    · rw [List.take_of_length_le (by rw [List.length_append]; exact Nat.le_refl _)]
      exact (h.once.trans (List.take_sublist d r.written)).trans (List.sublist_append_left _ _)

end Write

section Read

theorem Holds.advance (h : Holds d s written) (hd : d < written.length) :
    Holds (d + 1) (advanceRead s) written where
  le := hd
  room := by
    have hroom := h.room
    omega
  write := h.write
  cell := fun k hk => h.cell k (Nat.le_of_succ_le hk)
  seq := h.seq
  cust := h.cust

theorem ReadsAt.advance (h : ReadsAt d s) : ReadsAt (d + 1) (advanceRead s) := by
  unfold ReadsAt at h ⊢
  change ((ringNext MTLOG_LOG_SPECIAL_COUNT s.iLogSpecialReadIdx.toNat : Nat) : Int) = _
  rw [h, Int.toNat_natCast, ringNext_mod count_pos]

theorem Holds.setLog (h : Holds d s written) {i : Nat} {log : MTLog}
    (hown : log.own = (s.sLogListSpec i).own) (hcust : log.iCustVmemIndex ≤ 0) :
    Holds d (s.setLog i log) written := by
  refine ⟨h.le, h.room, h.write, ?_, h.seq, ?_⟩
  · intro k hdk hk
    rw [h.cell k hdk hk]
    change some _ = some (Function.update s.sLogListSpec i log _).own
    by_cases hi : k % MTLOG_LOG_SPECIAL_COUNT = i
    · rw [hi, Function.update_self, hown]
    · rw [Function.update_of_ne hi]
  · intro j
    change (Function.update s.sLogListSpec i log j).iCustVmemIndex ≤ 0
    by_cases hj : j = i
    · rw [hj, Function.update_self]
      exact hcust
    · rw [Function.update_of_ne hj]
      exact h.cust j

theorem chooseSpec_read {qwCurTime : Nat} (hright : RightSoFar stLogConfig plog)
    (h : chooseSpec qwCurTime stLogConfig plog = .read plog') :
    plog'.own = plog.own ∧ plog'.iCustVmemIndex = plog.iCustVmemIndex ∧
      NamedBy stLogConfig plog.dwLogConfigId plog'.iAppId plog'.iModuleId := by
  rcases chooseSpec_cases h with ⟨pcfg, hfind, rfl⟩ | ⟨hne, rfl⟩
  · exact ⟨rfl, rfl, pcfg, hfind, rfl, rfl⟩
  · exact ⟨rfl, rfl, hright.resolve_left hne⟩

theorem readCust_nonpos (h : plog.iCustVmemIndex ≤ 0) : readCust env plog = (none, plog) :=
  if_neg fun hpos => absurd hpos.1 (Int.not_lt.mpr h)

/-- What the loop delivers goes on from what was delivered before. -/
structure LoopRead (stLogConfig : List SLogConfig) (written : List OwnLog) (d d' : Nat)
    (more : List LogInfo) : Prop where
  once : ∀ logs, logs.Sublist (written.take d) →
    (logs ++ more.map LogInfo.log).Sublist (written.take d')
  right : ∀ info ∈ more, RightInfo stLogConfig info

theorem LoopRead.refl (d : Nat) : LoopRead stLogConfig written d d [] := by
  refine ⟨fun logs hlogs => ?_, List.forall_mem_nil _⟩
  rw [List.map_nil, List.append_nil]
  exact hlogs

theorem LoopRead.skip {d' : Nat} {more : List LogInfo}
    (h : LoopRead stLogConfig written (d + 1) d' more) :
    LoopRead stLogConfig written d d' more := by
  refine ⟨fun logs hlogs => h.once logs (hlogs.trans ?_), h.right⟩
  rw [List.take_add_one]
  exact List.sublist_append_left _ _

theorem LoopRead.cons {d' : Nat} {more : List LogInfo} {info : LogInfo}
    (h : LoopRead stLogConfig written (d + 1) d' more) (hlog : written[d]? = some info.log)
    (hright : RightInfo stLogConfig info) :
    LoopRead stLogConfig written d d' (info :: more) := by
  refine ⟨fun logs hlogs => ?_, List.forall_mem_cons.mpr ⟨hright, h.right⟩⟩
  have hnext := h.once (logs ++ [info.log]) (by
    rw [List.take_add_one, hlog]
    exact List.Sublist.append_right hlogs _)
  rw [List.append_assoc] at hnext
  exact hnext

theorem Holds.oldest (h : Holds d s written) (hs : ReadsAt d s) (hd : d < written.length) :
    written[d]? = some (s.sLogListSpec s.iLogSpecialReadIdx.toNat).own ∧
      (s.sLogListSpec s.iLogSpecialReadIdx.toNat).dwLogSeq ≠ 0 ∧
      (0 ≤ s.iLogSpecialReadIdx ∧ s.iLogSpecialReadIdx ≠ s.iLogSpecialWriteIdx) := by
  have hcell := h.cell d (Nat.le_refl d) hd
  have hroom := h.room
  rw [hs, Int.toNat_natCast]
  refine ⟨hcell, h.seq _ (List.mem_of_getElem? hcell), Int.natCast_nonneg _, ?_⟩
  intro heq
  rw [h.write, Nat.cast_inj] at heq
  have hinj := ring_mod_inj (Nat.le_of_lt hd) (by omega) heq
  omega

/-- The loop delivers pending logs in their order and leaves the others where they are. -/
theorem readSpecLoop_reads (env : ReadEnv) (n : Nat) (hn : written.length = d + n) (fuel : Nat)
    (hfuel : n < fuel) (out : List LogInfo) (h : Holds d s written) (hs : ReadsAt d s)
    (hright : ∀ k, d ≤ k → k < written.length →
      RightSoFar stLogConfig (s.sLogListSpec (k % MTLOG_LOG_SPECIAL_COUNT))) :
    ∃ e s' d' more, readSpecLoop env stLogConfig fuel s out = some (e, s', out ++ more) ∧
      Holds d' s' written ∧ ReadsAt d' s' ∧ LoopRead stLogConfig written d d' more := by
  induction n generalizing d s fuel out with
  | zero =>
    obtain ⟨fuel, rfl⟩ : ∃ k, fuel = k + 1 := ⟨fuel - 1, by omega⟩
    have hstop : ¬ (0 ≤ s.iLogSpecialReadIdx ∧ s.iLogSpecialReadIdx ≠ s.iLogSpecialWriteIdx) := by
      rintro ⟨-, hne⟩
      apply hne
      rw [hs, h.write, hn, Nat.add_zero]
    refine ⟨.drained, s, d, [], ?_, h, hs, LoopRead.refl d⟩
    rw [readSpecLoop, if_neg hstop, List.append_nil]
  | succ n ih =>
    obtain ⟨fuel, rfl⟩ : ∃ k, fuel = k + 1 := ⟨fuel - 1, by omega⟩
    have hd : d < written.length := by omega
    obtain ⟨hlog, hseq, hgo⟩ := h.oldest hs hd
    have hindex : s.iLogSpecialReadIdx.toNat = d % MTLOG_LOG_SPECIAL_COUNT := by
      rw [hs, Int.toNat_natCast]
    have hmine := hright d (Nat.le_refl d) hd
    rw [← hindex] at hmine
    have hcust := h.cust s.iLogSpecialReadIdx.toNat
    rw [readSpecLoop, if_pos hgo]
    dsimp only
    rw [if_neg hseq]
    generalize hplog : s.sLogListSpec s.iLogSpecialReadIdx.toNat = plog at *
    have hnext : ∀ log : MTLog, ∀ k, d + 1 ≤ k → k < written.length →
        RightSoFar stLogConfig ((s.setLog s.iLogSpecialReadIdx.toNat log).sLogListSpec
          (k % MTLOG_LOG_SPECIAL_COUNT)) := by
      intro log k hdk hk
      have hroom := h.room
      have hne : k % MTLOG_LOG_SPECIAL_COUNT ≠ s.iLogSpecialReadIdx.toNat := by
        rw [hindex]
        intro heq
        have hinj := ring_mod_inj (by omega) (by omega) heq.symm
        omega
      change RightSoFar _ (Function.update s.sLogListSpec _ log _)
      rw [Function.update_of_ne hne]
      exact hright k (Nat.le_of_succ_le hdk) hk
    cases hchoice : chooseSpec env.qwCurTime stLogConfig plog with
    | wait =>
      refine ⟨.stopped, s, d, [], ?_, h, hs, LoopRead.refl d⟩
      rw [List.append_nil]
    | skip =>
      obtain ⟨e, s', d', more, hrun, hholds, hreads, hloop⟩ :=
        ih (by omega) fuel (by omega) out (h.advance hd) hs.advance
          fun k hk => hright k (Nat.le_of_succ_le hk)
      exact ⟨e, s', d', more, hrun, hholds, hreads, hloop.skip⟩
    | read plog' =>
      obtain ⟨hown, hsame, hnamed⟩ := chooseSpec_read hmine hchoice
      have hcust' : plog'.iCustVmemIndex ≤ 0 := by
        rw [hsame]
        exact hcust
      have hset : Holds d (s.setLog s.iLogSpecialReadIdx.toNat plog') written :=
        h.setLog (by rw [hown, hplog]) hcust'
      have hsetAt : ReadsAt d (s.setLog s.iLogSpecialReadIdx.toNat plog') := hs
      dsimp only
      rw [readCust_nonpos hcust']
      dsimp only
      split_ifs with hassert
      · refine ⟨.aborted, _, d, [], ?_, hset, hsetAt, LoopRead.refl d⟩
        rw [List.append_nil]
      · cases hanswer : env.readAppLogToBuf s.iLogSpecialReadIdx.toNat with
        | refused =>
          refine ⟨.refused, _, d, [], ?_, hset, hsetAt, LoopRead.refl d⟩
          rw [List.append_nil]
        | noApp =>
          obtain ⟨e, s', d', more, hrun, hholds, hreads, hloop⟩ :=
            ih (by omega) fuel (by omega) out (hset.advance hd) hsetAt.advance (hnext plog')
          exact ⟨e, s', d', more, hrun, hholds, hreads, hloop.skip⟩
        | taken =>
          obtain ⟨e, s', d', more, hrun, hholds, hreads, hloop⟩ :=
            ih (by omega) fuel (by omega)
              (out ++ [⟨plog'.own, plog'.iAppId, plog'.iModuleId, none⟩])
              (hset.advance hd) hsetAt.advance (hnext plog')
          have hinfo : RightInfo stLogConfig
              ⟨plog'.own, plog'.iAppId, plog'.iModuleId, none⟩ := by
            refine ⟨?_, rfl⟩
            rw [hown]
            exact hnamed
          refine ⟨e, s', d', _, ?_, hholds, hreads, hloop.cons ?_ hinfo⟩
          · dsimp only
            rw [hrun, List.append_assoc]
            rfl
          · rw [hlog, hown]

end Read

section Runs

theorem mem_pendingCells (h : Holds d s written) (hs : ReadsAt d s) {k : Nat} (hdk : d ≤ k)
    (hk : k < written.length) : k % MTLOG_LOG_SPECIAL_COUNT ∈ pendingCells s := by
  have hnonneg : ¬ s.iLogSpecialReadIdx < 0 := by
    rw [hs]
    omega
  rw [pendingCells, if_neg hnonneg, h.write, hs, Int.toNat_natCast, ring_distance h.le h.room,
    List.mem_map]
  refine ⟨k - d, List.mem_range.mpr (by omega), ?_⟩
  rw [Nat.mod_add_mod, Nat.add_sub_cancel' hdk]

theorem SpecInv.read (h : SpecInv r d) (env : ReadEnv) (hok : FindsRight r (.read env)) :
    ∃ e r' d', specStep r (.read env) = some (e, r') ∧ SpecInv r' d' := by
  obtain ⟨e, s', more, d', hrun, hholds, hreads, hloop⟩ : ∃ e s' more d',
      readSpecLog env r.stLogConfig r.shm = some (e, s', more) ∧ Holds d' s' r.written ∧
        (ReadsAt d' s' ∨ s'.iLogSpecialReadIdx = -1 ∧ d' = r.written.length) ∧
        LoopRead r.stLogConfig r.written d d' more := by
    rcases h.reads with hreads | ⟨hneg, hd⟩
    · have hroom := h.holds.room
      have hle := h.holds.le
      obtain ⟨e, s', d', more, hrun, hholds, hreads', hloop⟩ :=
        readSpecLoop_reads env (r.written.length - d) (by omega) (MTLOG_LOG_SPECIAL_COUNT + 1)
          (by omega) [] h.holds hreads fun k hdk hk =>
            hok _ (mem_pendingCells h.holds hreads hdk hk)
      rw [readSpecLog, hrun, Option.map_some, List.nil_append]
      by_cases hleft : e = .refused ∨ e = .aborted
      · exact ⟨e, s', more, d', congrArg some (if_pos hleft), hholds, Or.inl hreads', hloop⟩
      · by_cases hend : s'.iLogSpecialReadIdx = s'.iLogSpecialWriteIdx
        · have hlast : d' = r.written.length := by
            rw [hreads', hholds.write, Nat.cast_inj] at hend
            exact ring_mod_inj hholds.le hholds.room hend
          refine ⟨e, { s' with iLogSpecialReadIdx := -1 }, more, d', ?_,
            ⟨hholds.le, hholds.room, hholds.write, hholds.cell, hholds.seq, hholds.cust⟩,
            Or.inr ⟨rfl, hlast⟩, hloop⟩
          dsimp only
          rw [if_neg hleft, if_pos hend]
        · refine ⟨e, s', more, d', ?_, hholds, Or.inl hreads', hloop⟩
          dsimp only
          rw [if_neg hleft, if_neg hend]
    · have hstop : ¬ (0 ≤ r.shm.iLogSpecialReadIdx ∧
          r.shm.iLogSpecialReadIdx ≠ r.shm.iLogSpecialWriteIdx) := by
        rw [hneg]
        exact fun hgo => absurd hgo.1 (by decide)
      have hend : ¬ r.shm.iLogSpecialReadIdx = r.shm.iLogSpecialWriteIdx := by
        rw [hneg]
        omega
      refine ⟨.drained, r.shm, [], d, ?_, h.holds, Or.inr ⟨hneg, hd⟩, LoopRead.refl d⟩
      rw [readSpecLog, readSpecLoop, if_neg hstop, Option.map_some]
      dsimp only
      rw [if_neg drained_goes_on, if_neg hend]
  refine ⟨some e, ⟨s', r.stLogConfig, r.written,
    r.delivered ++ more.map fun info => ⟨info, r.stLogConfig⟩⟩, d', ?_, hholds, hreads, ?_, ?_⟩
  · rw [specStep, hrun, Option.map_some]
  · have honce := hloop.once _ h.once
    rw [List.map_append, List.map_map]
    exact honce
  · intro x hx
    rcases List.mem_append.mp hx with hx | hx
    · exact h.right x hx
    · obtain ⟨info, hinfo, rfl⟩ := List.mem_map.mp hx
      exact hloop.right info hinfo

theorem SpecInv.step (r : SpecRun) (input : SpecInput) (h : ∃ d, SpecInv r d)
    (hok : FindsRight r input) :
    ∃ o r', specStep r input = some (o, r') ∧ True ∧ ∃ d, SpecInv r' d := by
  obtain ⟨d, h⟩ := h
  cases input with
  | write call => exact ⟨none, _, rfl, trivial, h.write call⟩
  | config stLogConfig =>
    exact ⟨none, _, rfl, trivial, d, h.holds, h.reads, h.once, h.right⟩
  | read env =>
    obtain ⟨e, r', d', hstep, hinv⟩ := h.read env hok
    exact ⟨e, r', hstep, trivial, d', hinv⟩

theorem specStart_inv : SpecInv specStart 0 where
  holds :=
    { le := Nat.le_refl 0
      room := by decide
      write := rfl
      cell := fun k _ hk => absurd hk (Nat.not_lt_zero k)
      seq := List.forall_mem_nil _
      cust := fun _ => Int.le_refl 0 }
  reads := Or.inr ⟨rfl, rfl⟩
  once := List.Sublist.refl _
  right := List.forall_mem_nil _

/-- In every run whose reads find only records without an application, or with those of their own
configs, every log is delivered at most once, in the order of the writes, and with the application
and module of its own config at that moment. -/
theorem spec_logs_attributed (inputs : List SpecInput)
    (hinputs : Admissible specStep FindsRight specStart inputs) :
    ∃ os r, runSteps specStep specStart inputs = some (os, r) ∧ Attributed r := by
  obtain ⟨os, r, hrun, -, d, hinv⟩ := run_invariant (O := fun _ _ => True) SpecInv.step inputs
    specStart ⟨0, specStart_inv⟩ hinputs
  exact ⟨os, r, hrun, hinv.once.trans (List.take_sublist d _), hinv.right⟩

/-- A log of the config `dwLogCfgId`. -/
def logOf (dwLogCfgId : Nat) : SpecCall := ⟨1700000000000000, 7, 4, dwLogCfgId, false⟩

/-- The config 1 of the application 1, and the config 2 of the application 2. -/
def twoConfigs : List SLogConfig := [⟨1, 1, 1, 4⟩, ⟨2, 2, 2, 4⟩]

/-- A read that finds room for every record. -/
def roomyRead : ReadEnv := ⟨1700000000, 1700000000000000, fun _ => .taken, fun _ => true⟩

theorem spec_logs_attributed_one :
    ∃ os r, runSteps specStep specStart [.config twoConfigs, .write (logOf 1), .read roomyRead] =
      some (os, r) ∧ Attributed r := by
  refine spec_logs_attributed _ ⟨trivial, ?_⟩
  intro o r hr
  obtain ⟨-, rfl⟩ := Prod.mk.inj (Option.some.inj hr)
  refine ⟨trivial, ?_⟩
  intro o r hr
  obtain ⟨-, rfl⟩ := Prod.mk.inj (Option.some.inj hr)
  refine ⟨?_, fun _ _ _ => trivial⟩
  intro i hi
  have hzero : i = 0 := List.mem_singleton.mp hi
  rw [hzero]
  exact Or.inl rfl

end Runs

section Reuse

/-- After `k` rounds of a log of the config 1 and a read, the records have no application or 1. -/
structure RoundsDone (k : Nat) (r : SpecRun) : Prop where
  table : r.stLogConfig = twoConfigs
  write : r.shm.iLogSpecialWriteIdx = k % MTLOG_LOG_SPECIAL_COUNT
  read : r.shm.iLogSpecialReadIdx = -1
  cust : ∀ i, (r.shm.sLogListSpec i).iCustVmemIndex ≤ 0
  ids : ∀ i, (r.shm.sLogListSpec i).iAppId = 0 ∨
    (r.shm.sLogListSpec i).iAppId = 1 ∧ (r.shm.sLogListSpec i).iModuleId = 1
  first : 0 < k → (r.shm.sLogListSpec 0).iAppId = 1 ∧ (r.shm.sLogListSpec 0).iModuleId = 1

theorem readSpecLog_one {i : Nat}
    (hwrite : s.iLogSpecialWriteIdx = ringNext MTLOG_LOG_SPECIAL_COUNT i)
    (hread : s.iLogSpecialReadIdx = i) (hi : i < MTLOG_LOG_SPECIAL_COUNT)
    (hseq : (s.sLogListSpec i).dwLogSeq ≠ 0)
    (hchoice : chooseSpec roomyRead.qwCurTime stLogConfig (s.sLogListSpec i) = .read plog')
    (hcust : plog'.iCustVmemIndex ≤ 0) (hids : ¬ (plog'.iAppId = 0 ∨ plog'.iModuleId = 0)) :
    readSpecLog roomyRead stLogConfig s =
      some (.drained, { s.setLog i plog' with iLogSpecialReadIdx := -1 },
        [⟨plog'.own, plog'.iAppId, plog'.iModuleId, none⟩]) := by
  have hnext : i ≠ ringNext MTLOG_LOG_SPECIAL_COUNT i := by
    unfold ringNext
    split_ifs with hlast
    · intro hzero
      subst hzero
      exact absurd hlast (by decide)
    · omega
  have hgo : 0 ≤ s.iLogSpecialReadIdx ∧ s.iLogSpecialReadIdx ≠ s.iLogSpecialWriteIdx := by
    rw [hread, hwrite]
    exact ⟨Int.natCast_nonneg i, fun heq => hnext (Nat.cast_inj.mp heq)⟩
  have hend : (advanceRead (s.setLog i plog')).iLogSpecialReadIdx =
      (advanceRead (s.setLog i plog')).iLogSpecialWriteIdx := by
    change ((ringNext MTLOG_LOG_SPECIAL_COUNT s.iLogSpecialReadIdx.toNat : Nat) : Int) =
      s.iLogSpecialWriteIdx
    rw [hread, Int.toNat_natCast, hwrite]
  have hstop : readSpecLoop roomyRead stLogConfig MTLOG_LOG_SPECIAL_COUNT
      (advanceRead (s.setLog i plog')) [⟨plog'.own, plog'.iAppId, plog'.iModuleId, none⟩] =
      some (.drained, advanceRead (s.setLog i plog'),
        [⟨plog'.own, plog'.iAppId, plog'.iModuleId, none⟩]) := by
    rw [show MTLOG_LOG_SPECIAL_COUNT = 1999 + 1 from rfl, readSpecLoop, if_neg fun h => h.2 hend]
  have hindex : s.iLogSpecialReadIdx.toNat = i := by
    rw [hread, Int.toNat_natCast]
  rw [readSpecLog, readSpecLoop, if_pos hgo]
  dsimp only
  rw [hindex, if_neg hseq, hchoice]
  dsimp only
  rw [if_neg hids, readCust_nonpos hcust]
  change (readSpecLoop roomyRead stLogConfig MTLOG_LOG_SPECIAL_COUNT
    (advanceRead (s.setLog i plog')) [⟨plog'.own, plog'.iAppId, plog'.iModuleId, none⟩]).map _ = _
  rw [hstop, Option.map_some]
  dsimp only
  rw [if_neg drained_goes_on, if_pos hend]
  rfl

/-- A write and a read with nothing pending before. -/
theorem write_read {k : Nat} (h : RoundsDone k r) (call : SpecCall)
    (hchoice : chooseSpec roomyRead.qwCurTime twoConfigs
      ((r.shm.sLogListSpec (k % MTLOG_LOG_SPECIAL_COUNT)).overwrite call.log) = .read plog')
    (hcust : plog'.iCustVmemIndex ≤ 0) (hids : ¬ (plog'.iAppId = 0 ∨ plog'.iModuleId = 0)) :
    ∃ os r', runSteps specStep r [.write call, .read roomyRead] = some (os, r') ∧
      r'.stLogConfig = twoConfigs ∧
      r'.shm.iLogSpecialWriteIdx = (k + 1) % MTLOG_LOG_SPECIAL_COUNT ∧
      r'.shm.iLogSpecialReadIdx = -1 ∧
      r'.shm.sLogListSpec =
        Function.update r.shm.sLogListSpec (k % MTLOG_LOG_SPECIAL_COUNT) plog' ∧
      r'.delivered = r.delivered ++
        [⟨⟨plog'.own, plog'.iAppId, plog'.iModuleId, none⟩, twoConfigs⟩] := by
  have hlt := Nat.mod_lt k count_pos
  have hlist : (mtReportLogToSpec r.shm call).sLogListSpec =
      Function.update r.shm.sLogListSpec (k % MTLOG_LOG_SPECIAL_COUNT)
        ((r.shm.sLogListSpec (k % MTLOG_LOG_SPECIAL_COUNT)).overwrite call.log) := by
    unfold mtReportLogToSpec
    dsimp only
    rw [h.write, if_neg (Nat.not_le.mpr hlt)]
  have hcell : (mtReportLogToSpec r.shm call).sLogListSpec (k % MTLOG_LOG_SPECIAL_COUNT) =
      (r.shm.sLogListSpec (k % MTLOG_LOG_SPECIAL_COUNT)).overwrite call.log := by
    rw [hlist, Function.update_self]
  have hread : (mtReportLogToSpec r.shm call).iLogSpecialReadIdx =
      (k % MTLOG_LOG_SPECIAL_COUNT : Nat) := by
    rw [iLogSpecialReadIdx_write, if_pos (by rw [h.read]; decide), h.write]
  have hwrite : (mtReportLogToSpec r.shm call).iLogSpecialWriteIdx =
      ringNext MTLOG_LOG_SPECIAL_COUNT (k % MTLOG_LOG_SPECIAL_COUNT) := by
    rw [← h.write]
    rfl
  have hone := readSpecLog_one hwrite hread hlt (by
    rw [hcell]
    exact log_seq_ne_zero call) (by
    rw [hcell]
    exact hchoice) hcust hids
  have hstep : specStep
      { r with shm := mtReportLogToSpec r.shm call, written := r.written ++ [call.log] }
      (.read roomyRead) = some (some .drained,
        ⟨{ (mtReportLogToSpec r.shm call).setLog (k % MTLOG_LOG_SPECIAL_COUNT) plog' with
            iLogSpecialReadIdx := -1 }, r.stLogConfig, r.written ++ [call.log], r.delivered ++
          [⟨⟨plog'.own, plog'.iAppId, plog'.iModuleId, none⟩, r.stLogConfig⟩]⟩) := by
    rw [specStep, h.table]
    dsimp only
    rw [hone]
    rfl
  have hrun : runSteps specStep r [.write call, .read roomyRead] = some ([none, some .drained],
      ⟨{ (mtReportLogToSpec r.shm call).setLog (k % MTLOG_LOG_SPECIAL_COUNT) plog' with
          iLogSpecialReadIdx := -1 }, r.stLogConfig, r.written ++ [call.log], r.delivered ++
        [⟨⟨plog'.own, plog'.iAppId, plog'.iModuleId, none⟩, r.stLogConfig⟩]⟩) := by
    rw [runSteps, specStep, Option.bind_eq_bind, Option.bind_some]
    dsimp only
    rw [runSteps, hstep]
    rfl
  refine ⟨_, _, hrun, h.table, ?_, rfl, ?_, ?_⟩
  · change (mtReportLogToSpec r.shm call).iLogSpecialWriteIdx = _
    rw [hwrite, ringNext_mod count_pos]
  · change Function.update (mtReportLogToSpec r.shm call).sLogListSpec _ _ = _
    rw [hlist, Function.update_idem]
  · change r.delivered ++ [⟨_, r.stLogConfig⟩] = _
    rw [h.table]

/-- One more log of the config 1. -/
theorem RoundsDone.succ {k : Nat} (h : RoundsDone k r) (hk : k < MTLOG_LOG_SPECIAL_COUNT) :
    ∃ os r', runSteps specStep r [.write (logOf 1), .read roomyRead] = some (os, r') ∧
      RoundsDone (k + 1) r' := by
  have hmod : k % MTLOG_LOG_SPECIAL_COUNT = k := Nat.mod_eq_of_lt hk
  obtain ⟨plog', hchoice, hcust, happ, hmodule⟩ : ∃ plog', chooseSpec roomyRead.qwCurTime twoConfigs
      ((r.shm.sLogListSpec (k % MTLOG_LOG_SPECIAL_COUNT)).overwrite (logOf 1).log) = .read plog' ∧
      plog'.iCustVmemIndex ≤ 0 ∧ plog'.iAppId = 1 ∧ plog'.iModuleId = 1 := by
    have hcust := h.cust (k % MTLOG_LOG_SPECIAL_COUNT)
    have hids := h.ids (k % MTLOG_LOG_SPECIAL_COUNT)
    generalize r.shm.sLogListSpec (k % MTLOG_LOG_SPECIAL_COUNT) = log at hcust hids ⊢
    have hkeep : (log.overwrite (logOf 1).log).iAppId = log.iAppId := rfl
    rcases hids with hzero | ⟨happ, hmodule⟩
    · have hfind : findConfig twoConfigs (log.overwrite (logOf 1).log).dwLogConfigId =
          some ⟨1, 1, 1, 4⟩ := rfl
      have hmask : ¬ ((4 : Nat) &&& (log.overwrite (logOf 1).log).wLogType = 0) := by
        change ¬ ((4 : Nat) &&& 4 = 0)
        decide
      refine ⟨{ log.overwrite (logOf 1).log with iAppId := 1, iModuleId := 1 }, ?_, hcust, rfl, rfl⟩
      · rw [chooseSpec, hkeep, if_pos hzero, hfind]
        dsimp only
        rw [if_neg hmask]
    · refine ⟨log.overwrite (logOf 1).log, ?_, hcust, happ, hmodule⟩
      rw [chooseSpec, hkeep, if_neg (by rw [happ]; decide)]
  obtain ⟨os, r', hrun, htable, hwrite, hread, hlist, -⟩ := write_read h (logOf 1) hchoice hcust
    (by rw [happ, hmodule]; decide)
  rw [hmod] at hlist
  refine ⟨os, r', hrun, htable, hwrite, hread, ?_, ?_, ?_⟩
  · intro i
    rw [hlist]
    by_cases hi : i = k
    · rw [hi, Function.update_self]
      exact hcust
    · rw [Function.update_of_ne hi]
      exact h.cust i
  · intro i
    rw [hlist]
    by_cases hi : i = k
    · rw [hi, Function.update_self]
      exact Or.inr ⟨happ, hmodule⟩
    · rw [Function.update_of_ne hi]
      exact h.ids i
  · intro _
    rw [hlist]
    by_cases hzero : 0 = k
    · rw [← hzero, Function.update_self]
      exact ⟨happ, hmodule⟩
    · rw [Function.update_of_ne hzero]
      exact h.first (by omega)

theorem rounds_done (n k : Nat) (h : RoundsDone k r) (hn : k + n ≤ MTLOG_LOG_SPECIAL_COUNT) :
    ∃ os r', runSteps specStep r
        (List.replicate n [SpecInput.write (logOf 1), .read roomyRead]).flatten = some (os, r') ∧
      RoundsDone (k + n) r' := by
  induction n generalizing k r with
  | zero => exact ⟨[], r, rfl, h⟩
  | succ n ih =>
    obtain ⟨os, r₁, hrun, h₁⟩ := h.succ (by omega)
    obtain ⟨os', r', hrun', h'⟩ := ih (k + 1) h₁ (by omega)
    refine ⟨os ++ os', r', ?_, ?_⟩
    · rw [List.replicate_succ, List.flatten_cons, runSteps_append hrun, hrun', Option.map_some]
    · rw [Nat.add_right_comm] at h'
      exact h'

/-- When the buffer has been filled once, a log of the config 2 is delivered with the application
of the config 1. -/
theorem spec_log_of_other_app :
    ¬ ∀ inputs : List SpecInput,
      ∃ os r, runSteps specStep specStart inputs = some (os, r) ∧ Attributed r := by
  intro hall
  have hstart : RoundsDone 0 { specStart with stLogConfig := twoConfigs } :=
    ⟨rfl, rfl, rfl, fun _ => Int.le_refl 0, fun _ => Or.inl rfl, fun h => absurd h (by decide)⟩
  obtain ⟨os, r, hrun, h⟩ := rounds_done MTLOG_LOG_SPECIAL_COUNT 0 hstart (by omega)
  rw [Nat.zero_add] at h
  have hids := h.first count_pos
  have hcust := h.cust 0
  have hchoice : chooseSpec roomyRead.qwCurTime twoConfigs ((r.shm.sLogListSpec
      (MTLOG_LOG_SPECIAL_COUNT % MTLOG_LOG_SPECIAL_COUNT)).overwrite (logOf 2).log) =
      .read ((r.shm.sLogListSpec 0).overwrite (logOf 2).log) := by
    have hne : ((r.shm.sLogListSpec 0).overwrite (logOf 2).log).iAppId ≠ 0 := by
      change (r.shm.sLogListSpec 0).iAppId ≠ 0
      rw [hids.1]
      decide
    rw [Nat.mod_self, chooseSpec, if_neg hne]
  have hset : ¬ (((r.shm.sLogListSpec 0).overwrite (logOf 2).log).iAppId = 0 ∨
      ((r.shm.sLogListSpec 0).overwrite (logOf 2).log).iModuleId = 0) := by
    change ¬ ((r.shm.sLogListSpec 0).iAppId = 0 ∨ (r.shm.sLogListSpec 0).iModuleId = 0)
    rw [hids.1, hids.2]
    decide
  obtain ⟨os', r', hrun', -, -, -, -, hdelivered⟩ := write_read h (logOf 2) hchoice hcust hset
  have hfirst : runSteps specStep specStart [.config twoConfigs] =
      some ([none], { specStart with stLogConfig := twoConfigs }) := rfl
  have hrounds := runSteps_append hfirst
    (List.replicate MTLOG_LOG_SPECIAL_COUNT [SpecInput.write (logOf 1), .read roomyRead]).flatten
  rw [hrun, Option.map_some] at hrounds
  have hend := runSteps_append hrounds [.write (logOf 2), .read roomyRead]
  rw [hrun', Option.map_some] at hend
  obtain ⟨os₁, r₁, hrun₁, hright⟩ := hall _
  rw [hend] at hrun₁
  obtain rfl := (Prod.mk.inj (Option.some.inj hrun₁)).2
  obtain ⟨cfg, hfind, happ, -⟩ := (hright.right _ (by
    rw [hdelivered]
    exact List.mem_append_right _ (List.mem_singleton.mpr rfl))).named
  have hcfg : findConfig twoConfigs (logOf 2).log.dwLogConfigId = some ⟨2, 2, 2, 4⟩ := rfl
  obtain rfl := Option.some.inj (hcfg.symm.trans hfind)
  have hone : ((r.shm.sLogListSpec 0).overwrite (logOf 2).log).iAppId = 1 := hids.1
  exact absurd (hone.symm.trans happ) (by decide)

end Reuse

end XrkMonitor.LogSpec
