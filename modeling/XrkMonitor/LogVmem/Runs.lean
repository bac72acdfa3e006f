import XrkMonitor.LogRing.Delivery
import XrkMonitor.LogVmem.Ownership

/-!
# No text of a log is lost or freed twice

A run is any sequence of logs, updates of the config table and reads. If no write takes the last
free cell of its ring and no special log with a text in the memory is skipped, then every string
that was saved has been freed once or belongs to exactly one log that waits. A full ring, and a
special log that is skipped, leave strings behind.
-/

namespace XrkMonitor.LogVmem

open Library Vmem
open LogSpec (SLogConfig SpecChoice SpecEnd BufAnswer)
open XrkMonitor.LogRing (MTLOG_SHM_RECORDS_COUNT takeLogSeq_ne_zero)

section Loop

variable {N d l : Nat} {ring : LogRing} {v : LogMem}

/-- The choice for a record changes only its ids. -/
def KeepsRecord (env : LoopEnv) : Prop :=
  ∀ plog p, env.choose plog = .read p →
    p.iCustVmemIndex = plog.iCustVmemIndex ∧ p.dwLogSeq = plog.dwLogSeq

/-- A loop frees what the records that it reads own. -/
theorem readLoop_balanced (env : LoopEnv) (hkeep : KeepsRecord env) (n : Nat) (hn : l = d + n)
    (fuel : Nat) (hfuel : n < fuel) (h : RingOk N d l ring)
    (hreads : ring.iReadIndex = (d % N : Nat)) (hv : MemOk v)
    (hcov : Covered v (ownedRing N ring))
    (hskip : ∀ k, d ≤ k → k < l → env.choose (ring.sLogList (k % N)) = .skip →
      owned (ring.sLogList (k % N)) = []) :
    ∃ e ring' v' d', readLoop N env fuel ring v = some (e, ring', v') ∧ RingOk N d' l ring' ∧
      ring'.iReadIndex = (d' % N : Nat) ∧ MemOk v' ∧
      Balanced v (ownedRing N ring) v' (ownedRing N ring') := by
  induction n generalizing d ring v fuel with
  | zero =>
    obtain ⟨fuel, rfl⟩ : ∃ k, fuel = k + 1 := ⟨fuel - 1, by omega⟩
    have hstop : ¬ (0 ≤ ring.iReadIndex ∧ ring.iReadIndex ≠ ring.iWriteIndex) := by
      rintro ⟨-, hne⟩
      apply hne
      rw [hreads, h.write, hn, Nat.add_zero]
    refine ⟨.drained, ring, v, d, ?_, h, hreads, hv, Balanced.refl v _⟩
    rw [readLoop, if_neg hstop]
  | succ n ih =>
    obtain ⟨fuel, rfl⟩ : ∃ k, fuel = k + 1 := ⟨fuel - 1, by omega⟩
    have hd : d < l := by omega
    have hroom := h.room
    have hlt := Nat.mod_lt d h.pos
    have hindex : ring.iReadIndex.toNat = d % N := by
      rw [hreads, Int.toNat_natCast]
    have hgo : 0 ≤ ring.iReadIndex ∧ ring.iReadIndex ≠ ring.iWriteIndex := by
      rw [hreads, h.write]
      refine ⟨Int.natCast_nonneg _, fun heq => ?_⟩
      have hinj := ring_mod_inj (Nat.le_of_lt hd) hroom (Int.ofNat.inj heq)
      omega
    have hseq := h.seq d (Nat.le_refl d) hd
    have hmine := hskip d (Nat.le_refl d) hd
    have hother : ∀ k, d + 1 ≤ k → k < l → k % N ≠ d % N := by
      intro k hdk hk heq
      have hinj := ring_mod_inj (by omega) (by omega) heq.symm
      omega
    rw [readLoop, if_pos hgo]
    dsimp only
    rw [hindex, if_neg hseq]
    cases hchoice : env.choose (ring.sLogList (d % N)) with
    | wait => exact ⟨.stopped, ring, v, d, rfl, h, hreads, hv, Balanced.refl v _⟩
    | skip =>
      have hnext := h.advance hreads hd (hmine hchoice)
      have hreads' : (ring.advance N).iReadIndex = ((d + 1) % N : Nat) := by
        change ((ringNext N ring.iReadIndex.toNat : Nat) : Int) = _
        rw [hindex, ringNext_mod h.pos]
      exact ih (by omega) fuel (by omega) hnext hreads' hv hcov
        fun k hdk hk => hskip k (Nat.le_of_succ_le hdk) hk
    | read p =>
      obtain ⟨hcust, hseq'⟩ := hkeep _ p hchoice
      obtain ⟨plog, hplog⟩ : ∃ plog : MTLog,
        plog = { ring.sLogList (d % N) with toMTLog := p } := ⟨_, rfl⟩
      dsimp only
      have hown : owned plog = owned (ring.sLogList (d % N)) := by
        rw [hplog, owned, owned, hcust]
      have hplogSeq : plog.dwLogSeq ≠ 0 := by
        rw [hplog]
        change p.dwLogSeq ≠ 0
        rw [hseq']
        exact hseq
      by_cases hassert : p.iAppId = 0 ∨ p.iModuleId = 0
      · rw [if_pos hassert, ← hplog]
        refine ⟨.aborted, _, v, d, rfl, h.setLog hd plog hplogSeq, hreads, hv, ?_⟩
        refine (Balanced.refl v []).exchange fun idx => ?_
        have hset := count_ownedRing_setLog ring hlt plog idx
        rw [hown] at hset
        have hzero := List.count_nil (a := idx)
        omega
      · rw [if_neg hassert, ← hplog]
        have hcovLog : Covered v (owned plog) := by
          rw [hown]
          exact hcov.part fun idx => count_owned_le hlt idx
        obtain ⟨plog', v', htake, hv', hbal, hnone, hsame⟩ :=
          takeTexts_balanced (env.custEnv (d % N)) (env.textEnv (d % N)) hv hcovLog
        have hset : RingOk N d l (ring.setLog (d % N) plog') :=
          h.setLog hd plog' (by rw [hsame]; exact hplogSeq)
        have hsetBal : Balanced v (ownedRing N ring) v'
            (ownedRing N (ring.setLog (d % N) plog')) := by
          refine hbal.exchange fun idx => ?_
          have hcount := count_ownedRing_setLog ring hlt plog' idx
          rw [hnone] at hcount
          rw [hown]
          exact hcount
        have hcell : owned ((ring.setLog (d % N) plog').sLogList (d % N)) = [] := by
          change owned (Function.update ring.sLogList (d % N) plog' (d % N)) = []
          rw [Function.update_self]
          exact hnone
        have hnext := hset.advance hreads hd hcell
        have hreads' : ((ring.setLog (d % N) plog').advance N).iReadIndex =
            ((d + 1) % N : Nat) := by
          change ((ringNext N ring.iReadIndex.toNat : Nat) : Int) = _
          rw [hindex, ringNext_mod h.pos]
        have hskip' : ∀ k, d + 1 ≤ k → k < l →
            env.choose (((ring.setLog (d % N) plog').advance N).sLogList (k % N)) = .skip →
            owned (((ring.setLog (d % N) plog').advance N).sLogList (k % N)) = [] := by
          intro k hdk hk
          change env.choose (Function.update ring.sLogList (d % N) plog' (k % N)) = .skip →
            owned (Function.update ring.sLogList (d % N) plog' (k % N)) = []
          rw [Function.update_of_ne (hother k hdk hk)]
          exact hskip k (Nat.le_of_succ_le hdk) hk
        obtain ⟨e, ring', v'', d', hrun, hok, hat, hv'', hrest⟩ :=
          ih (by omega) fuel (by omega) hnext hreads' hv' (hcov.after hsetBal) hskip'
        rw [htake, Option.bind_some]
        cases env.readAppLogToBuf (d % N) with
        | refused => exact ⟨.refused, _, v', d, rfl, hset, hreads, hv', hsetBal⟩
        | noApp | taken =>
          exact ⟨e, ring', v'', d', hrun, hok, hat, hv'', hsetBal.trans hrest⟩

theorem readRing_balanced (env : LoopEnv) (hkeep : KeepsRecord env) (h : RingOk N d l ring)
    (hv : MemOk v) (hcov : Covered v (ownedRing N ring))
    (hskip : ∀ k, d ≤ k → k < l → env.choose (ring.sLogList (k % N)) = .skip →
      owned (ring.sLogList (k % N)) = []) :
    ∃ b ring' v' d', readRing N env ring v = some (b, ring', v') ∧ RingOk N d' l ring' ∧
      MemOk v' ∧ Balanced v (ownedRing N ring) v' (ownedRing N ring') := by
  have hroom := h.room
  rcases h.reads with hreads | ⟨hneg, hd⟩
  · obtain ⟨n, hn⟩ := Nat.exists_eq_add_of_le h.le
    obtain ⟨e, ring', v', d', hrun, hok, hat, hv', hbal⟩ :=
      readLoop_balanced env hkeep n hn (N + 1) (by omega) h hreads hv hcov hskip
    rw [readRing, hrun, Option.map_some]
    dsimp only
    split_ifs with hleft hend
    · exact ⟨true, ring', v', d', rfl, hok, hv', hbal⟩
    · have hlast : d' = l := by
        rw [hat, hok.write] at hend
        exact ring_mod_inj hok.le hok.room (Int.ofNat.inj hend)
      refine ⟨false, { ring' with iReadIndex := -1 }, v', d', rfl, ?_, hv', hbal⟩
      exact ⟨hok.le, hok.room, hok.write, Or.inr ⟨rfl, hlast⟩, hok.seq, hok.clear⟩
    · exact ⟨false, ring', v', d', rfl, hok, hv', hbal⟩
  · have hstop : ¬ (0 ≤ ring.iReadIndex ∧ ring.iReadIndex ≠ ring.iWriteIndex) := by
      rw [hneg]
      exact fun hgo => absurd hgo.1 (by decide)
    have hend : ¬ ring.iReadIndex = ring.iWriteIndex := by
      rw [hneg]
      omega
    refine ⟨false, ring, v, d, ?_, h, hv, Balanced.refl v _⟩
    rw [readRing, readLoop, if_neg hstop, Option.map_some]
    dsimp only
    rw [if_neg LogSpec.drained_goes_on, if_neg hend]

end Loop

section Shm

/-- The strings that the records own. -/
def ownedAll (s : LogShm) : List Int :=
  ownedRing LogSpec.MTLOG_LOG_SPECIAL_COUNT s.spec ++
    (List.range MTLOG_SHM_DEF_COUNT).flatMap fun i =>
      ownedRing MTLOG_SHM_RECORDS_COUNT (s.stLogShm i)

/-- Every string is one that a record owns or one that was freed, and the rings are in order. -/
structure ShmOk (s : LogShm) : Prop where
  mem : MemOk s.vmem
  live : ∀ idx, s.vmem.live.count idx = (ownedAll s).count idx
  history : ∀ idx, s.vmem.saved.count idx = s.vmem.freed.count idx + (ownedAll s).count idx
  spec : ∃ d l, RingOk LogSpec.MTLOG_LOG_SPECIAL_COUNT d l s.spec
  rings : ∀ i < MTLOG_SHM_DEF_COUNT, ∃ d l, RingOk MTLOG_SHM_RECORDS_COUNT d l (s.stLogShm i)

/-- A write leaves a cell free: nothing waits, or the cell after the write index is not the one that
is read next. -/
def HasRoom (N : Nat) (ring : LogRing) : Prop :=
  ring.iReadIndex < 0 ∨ (ringNext N ring.iWriteIndex : Int) ≠ ring.iReadIndex

/-- The cells from the read index up to the write index. -/
def pendingCells (N : Nat) (ring : LogRing) : List Nat :=
  if ring.iReadIndex < 0 then []
  else
    (List.range ((ring.iWriteIndex + N - ring.iReadIndex.toNat) % N)).map fun k =>
      (ring.iReadIndex.toNat + k) % N

variable {N d l : Nat} {ring : LogRing} {s : LogShm} {v' : LogMem} {i : Nat}

theorem pendingCells_eq (h : RingOk N d l ring) :
    pendingCells N ring = (List.range (l - d)).map fun k => (d + k) % N := by
  rcases h.reads with hreads | ⟨hneg, hd⟩
  · have hnonneg : ¬ ring.iReadIndex < 0 := by
      rw [hreads]
      omega
    rw [pendingCells, if_neg hnonneg, hreads, Int.toNat_natCast, h.write, ring_distance h.le h.room]
    exact List.map_congr_left fun k _ => Nat.mod_add_mod d N k
  · have hnone : l - d = 0 := by omega
    rw [pendingCells, if_pos (by rw [hneg]; decide), hnone]
    rfl

theorem mem_pendingCells (h : RingOk N d l ring) :
    i ∈ pendingCells N ring ↔ ∃ k, d ≤ k ∧ k < l ∧ k % N = i := by
  rw [pendingCells_eq h, List.mem_map]
  constructor
  · rintro ⟨k, hk, rfl⟩
    rw [List.mem_range] at hk
    exact ⟨d + k, by omega, by omega, rfl⟩
  · rintro ⟨k, hdk, hk, rfl⟩
    refine ⟨k - d, List.mem_range.mpr (by omega), ?_⟩
    rw [Nat.add_sub_cancel' hdk]

theorem pending_owned_perm (h : RingOk N d l ring) :
    ((pendingCells N ring).flatMap fun i => owned (ring.sLogList i)).Perm (ownedRing N ring) := by
  have hnodup : (pendingCells N ring).Nodup := by
    rw [pendingCells_eq h]
    refine List.Nodup.map_on ?_ List.nodup_range
    intro j hj k hk heq
    have hroom := h.room
    rw [List.mem_range] at hj hk
    rcases Nat.le_total j k with hle | hle
    · have hinj := ring_mod_inj (by omega) (by omega) heq
      omega
    · have hinj := ring_mod_inj (by omega) (by omega) heq.symm
      omega
  have hpending : (pendingCells N ring).Perm
      ((List.range N).filter fun i => i ∈ pendingCells N ring) := by
    refine (List.perm_ext_iff_of_nodup hnodup (List.nodup_range.filter _)).mpr fun i => ?_
    rw [List.mem_filter, List.mem_range, decide_eq_true_iff]
    refine ⟨fun hi => ⟨?_, hi⟩, fun hi => hi.2⟩
    obtain ⟨k, -, -, rfl⟩ := (mem_pendingCells h).mp hi
    exact Nat.mod_lt k h.pos
  have hsplit := List.filter_append_perm (fun i => decide (i ∈ pendingCells N ring)) (List.range N)
  have hrest : (((List.range N).filter fun i => !decide (i ∈ pendingCells N ring)).flatMap fun i =>
      owned (ring.sLogList i)) = [] := by
    rw [List.flatMap_eq_nil_iff]
    intro i hi
    rw [List.mem_filter, List.mem_range, Bool.not_eq_true', decide_eq_false_iff_not] at hi
    exact h.clear i hi.1 fun k hdk hk heq => hi.2 ((mem_pendingCells h).mpr ⟨k, hdk, hk, heq⟩)
  have hall := hsplit.flatMap_right fun i => owned (ring.sLogList i)
  rw [List.flatMap_append, hrest, List.append_nil] at hall
  exact (hpending.flatMap_right _).trans hall

theorem RingOk.has_room (h : RingOk N d l ring) (hN : 1 < N) (hroom : HasRoom N ring) :
    l + 1 < d + N := by
  have hlt := h.room
  have hle := h.le
  by_contra hfull
  have hwrap : l + 1 = d + N := by omega
  have hnext : ringNext N ring.iWriteIndex = d % N := by
    rw [h.write, ringNext_mod h.pos, hwrap, Nat.add_mod_right]
  rcases h.reads with hreads | ⟨-, hd⟩
  · rcases hroom with hneg | hne
    · rw [hreads] at hneg
      omega
    · rw [hreads, hnext] at hne
      exact hne rfl
  · omega

theorem ShmOk.covered (h : ShmOk s) : Covered s.vmem (ownedAll s) := fun idx =>
  Nat.le_of_eq (h.live idx).symm

theorem ShmOk.set_spec (h : ShmOk s) (hv : MemOk v') {spec : LogRing}
    (hspec : ∃ d l, RingOk LogSpec.MTLOG_LOG_SPECIAL_COUNT d l spec)
    (hbal : Balanced s.vmem (ownedRing LogSpec.MTLOG_LOG_SPECIAL_COUNT s.spec) v'
      (ownedRing LogSpec.MTLOG_LOG_SPECIAL_COUNT spec)) :
    ShmOk { s with spec := spec, vmem := v' } := by
  refine ⟨hv, fun idx => ?_, fun idx => ?_, hspec, h.rings⟩
  · have h₁ := h.live idx
    have h₂ := hbal.live idx
    simp only [ownedAll, List.count_append] at h₁ ⊢
    omega
  · have h₁ := h.history idx
    have h₂ := hbal.history idx
    simp only [ownedAll, List.count_append] at h₁ ⊢
    omega

theorem ShmOk.set_ring (h : ShmOk s) (hv : MemOk v') (hi : i < MTLOG_SHM_DEF_COUNT)
    {ring : LogRing} (hring : ∃ d l, RingOk MTLOG_SHM_RECORDS_COUNT d l ring)
    (hbal : Balanced s.vmem (ownedRing MTLOG_SHM_RECORDS_COUNT (s.stLogShm i)) v'
      (ownedRing MTLOG_SHM_RECORDS_COUNT ring)) :
    ShmOk { s with stLogShm := Function.update s.stLogShm i ring, vmem := v' } := by
  have hcount := count_flatMap_update s.stLogShm (ownedRing MTLOG_SHM_RECORDS_COUNT) hi ring
  refine ⟨hv, fun idx => ?_, fun idx => ?_, h.spec, fun j hj => ?_⟩
  · have h₁ := h.live idx
    have h₂ := hbal.live idx
    have h₃ := hcount idx
    simp only [ownedAll, List.count_append] at h₁ ⊢
    omega
  · have h₁ := h.history idx
    have h₂ := hbal.history idx
    have h₃ := hcount idx
    simp only [ownedAll, List.count_append] at h₁ ⊢
    omega
  · by_cases hij : j = i
    · rw [hij]
      change ∃ d l, RingOk MTLOG_SHM_RECORDS_COUNT d l (Function.update s.stLogShm i ring i)
      rw [Function.update_self]
      exact hring
    · change ∃ d l, RingOk MTLOG_SHM_RECORDS_COUNT d l (Function.update s.stLogShm i ring j)
      rw [Function.update_of_ne hij]
      exact h.rings j hj

theorem Balanced.add {v v₁ v₂ : LogMem} {own own' : List Int} (h : Balanced v [] v₁ own)
    (h' : Balanced v₁ [] v₂ own') : Balanced v [] v₂ (own' ++ own) := by
  constructor
  · intro idx
    have h₁ := h.live idx
    have h₂ := h'.live idx
    simp only [List.count_append, List.count_nil] at h₁ h₂ ⊢
    omega
  · intro idx
    have h₁ := h.history idx
    have h₂ := h'.history idx
    simp only [List.count_append, List.count_nil] at h₁ h₂ ⊢
    omega

theorem ShmOk.logToSpec (h : ShmOk s)
    (hroom : HasRoom LogSpec.MTLOG_LOG_SPECIAL_COUNT s.spec) (call : LogCall) :
    ShmOk (mtReportLogToSpec s call) := by
  obtain ⟨d, l, hok⟩ := h.spec
  have hlt := Nat.mod_lt l hok.pos
  have hcell : (if LogSpec.MTLOG_LOG_SPECIAL_COUNT ≤ s.spec.iWriteIndex then 0
      else s.spec.iWriteIndex) = l % LogSpec.MTLOG_LOG_SPECIAL_COUNT := by
    rw [hok.write, if_neg (Nat.not_le.mpr hlt)]
  have hnone := hok.owned_write
  have hcust :
      ownedBy (s.spec.sLogList (l % LogSpec.MTLOG_LOG_SPECIAL_COUNT)).iCustVmemIndex = [] :=
    (List.append_eq_nil_iff.mp hnone).2
  obtain ⟨hv, hbal⟩ := saveText_balanced call.textEnv h.mem call.sLogBuf
  unfold mtReportLogToSpec
  dsimp only
  rw [hcell]
  refine h.set_spec hv ⟨d, l + 1, hok.write_log (hok.has_room (by decide) hroom) _ ?_⟩
    (Balanced.write hlt hnone ?_)
  · exact takeLogSeq_ne_zero call.dwLogSeq
  · change Balanced s.vmem [] _ (ownedBy (saveText call.textEnv call.sLogBuf s.vmem).1 ++
      ownedBy (s.spec.sLogList (l % LogSpec.MTLOG_LOG_SPECIAL_COUNT)).iCustVmemIndex)
    rw [hcust, List.append_nil]
    exact hbal

theorem ShmOk.log (h : ShmOk s) (hi : i < MTLOG_SHM_DEF_COUNT)
    (hroom : HasRoom MTLOG_SHM_RECORDS_COUNT (s.stLogShm i)) (call : LogCall) :
    ShmOk (mtReportLog s i call) := by
  obtain ⟨d, l, hok⟩ := h.rings i hi
  have hlt := Nat.mod_lt l hok.pos
  obtain ⟨hv₁, hbal₁⟩ := saveCust_balanced call.custEnv h.mem call.stCust
  obtain ⟨hv₂, hbal₂⟩ := saveText_balanced call.textEnv hv₁ call.sLogBuf
  unfold mtReportLog
  rw [if_pos hi]
  dsimp only
  rw [hok.write]
  refine h.set_ring hv₂ hi ⟨d, l + 1, hok.write_log (hok.has_room (by decide) hroom) _ ?_⟩
    (Balanced.write hlt hok.owned_write (hbal₁.add hbal₂))
  exact takeLogSeq_ne_zero call.dwLogSeq

theorem ShmOk.covered_ring (h : ShmOk s) (hi : i < MTLOG_SHM_DEF_COUNT) :
    Covered s.vmem (ownedRing MTLOG_SHM_RECORDS_COUNT (s.stLogShm i)) := by
  refine h.covered.part fun idx => ?_
  have hempty : ownedRing MTLOG_SHM_RECORDS_COUNT
      ⟨0, -1, fun _ => ⟨⟨0, 0, 0, 0, 0, 0, 0⟩, 0⟩⟩ = [] := by
    rw [ownedRing, List.flatMap_eq_nil_iff]
    exact fun _ _ => rfl
  have hcount := count_flatMap_update s.stLogShm (ownedRing MTLOG_SHM_RECORDS_COUNT) hi
    ⟨0, -1, fun _ => ⟨⟨0, 0, 0, 0, 0, 0, 0⟩, 0⟩⟩ idx
  rw [hempty, List.count_nil] at hcount
  rw [ownedAll, List.count_append]
  omega

theorem keeps_ringEnv (env : ReadEnv) (i : Nat) : KeepsRecord (ringEnv env i) := by
  intro plog p h
  obtain rfl := SpecChoice.read.inj h
  exact ⟨rfl, rfl⟩

theorem keeps_specEnv (env : ReadEnv) (stLogConfig : List SLogConfig) :
    KeepsRecord (specEnv env stLogConfig) := by
  intro plog p h
  rcases LogSpec.chooseSpec_cases h with ⟨pcfg, -, rfl⟩ | ⟨-, rfl⟩
  · exact ⟨rfl, rfl⟩
  · exact ⟨rfl, rfl⟩

theorem ShmOk.readRings (h : ShmOk s) (env : ReadEnv) {is : List Nat}
    (his : ∀ i ∈ is, i < MTLOG_SHM_DEF_COUNT) : ∃ s', readRings env is s = some s' ∧ ShmOk s' := by
  induction is generalizing s with
  | nil => exact ⟨s, rfl, h⟩
  | cons i is ih =>
    have hrest := fun j hj => his j (List.mem_cons_of_mem i hj)
    have hi := his i List.mem_cons_self
    rw [LogVmem.readRings]
    by_cases hcas : env.cas i = true
    · obtain ⟨d, l, hok⟩ := h.rings i hi
      obtain ⟨b, ring', v', d', hrun, hok', hv', hbal⟩ :=
        readRing_balanced (ringEnv env i) (keeps_ringEnv env i) hok h.mem (h.covered_ring hi)
          fun k _ _ hskip => SpecChoice.noConfusion hskip
      have hnext := h.set_ring hv' hi ⟨d', l, hok'⟩ hbal
      rw [if_pos hcas, hrun, Option.bind_some]
      dsimp only
      split_ifs
      · exact ⟨_, rfl, hnext⟩
      · exact ih hnext hrest
    · rw [if_neg hcas]
      exact ih h hrest

/-- A read skips no special log that has a string in the memory. -/
def SkipsNoText (s : LogShm) (env : ReadEnv) : Prop :=
  ∀ i ∈ pendingCells LogSpec.MTLOG_LOG_SPECIAL_COUNT s.spec,
    LogSpec.chooseSpec env.qwCurTime s.stLogConfig (s.spec.sLogList i).toMTLog = .skip →
    owned (s.spec.sLogList i) = []

theorem ShmOk.read (h : ShmOk s) (env : ReadEnv) (hskip : SkipsNoText s env) :
    ∃ s', readAppLog env s = some s' ∧ ShmOk s' := by
  obtain ⟨d, l, hok⟩ := h.spec
  have hcov : Covered s.vmem (ownedRing LogSpec.MTLOG_LOG_SPECIAL_COUNT s.spec) :=
    h.covered.part fun idx => by
      rw [ownedAll, List.count_append]
      exact Nat.le_add_right _ _
  obtain ⟨b, spec', v', d', hrun, hok', hv', hbal⟩ :=
    readRing_balanced (specEnv env s.stLogConfig) (keeps_specEnv env s.stLogConfig) hok h.mem hcov
      fun k hdk hk => hskip _ ((mem_pendingCells hok).mpr ⟨k, hdk, hk, rfl⟩)
  have hnext := h.set_spec hv' ⟨d', l, hok'⟩ hbal
  rw [readAppLog, hrun, Option.bind_some]
  dsimp only
  split_ifs
  · exact ⟨_, rfl, hnext⟩
  · exact hnext.readRings env fun i hi => List.mem_range.mp hi

end Shm

section Runs

/-- A completed call, or a new config table. -/
inductive LogInput
  | log (i : Nat) (call : LogCall)
  | toSpec (call : LogCall)
  | config (stLogConfig : List SLogConfig)
  | read (env : ReadEnv)

/-- The state after a call. -/
def logStep (s : LogShm) : LogInput → Option (Unit × LogShm)
  | .log i call => some ((), mtReportLog s i call)
  | .toSpec call => some ((), mtReportLogToSpec s call)
  | .config stLogConfig => some ((), { s with stLogConfig := stLogConfig })
  | .read env => (readAppLog env s).map fun s => ((), s)

/-- An empty ring of zeroed records. -/
def emptyRing : LogRing := ⟨0, -1, fun _ => ⟨⟨0, 0, 0, 0, 0, 0, 0⟩, 0⟩⟩

/-- New shared memory. -/
def logStart : LogShm := ⟨emptyRing, fun _ => emptyRing, [], ⟨vmemStart, [], []⟩⟩

/-- Writes leave a cell free, and reads skip no special log with a text in the memory. -/
def KeepsTexts (s : LogShm) : LogInput → Prop
  | .log i _ =>
    if i < MTLOG_SHM_DEF_COUNT then HasRoom MTLOG_SHM_RECORDS_COUNT (s.stLogShm i)
    else HasRoom LogSpec.MTLOG_LOG_SPECIAL_COUNT s.spec
  | .toSpec _ => HasRoom LogSpec.MTLOG_LOG_SPECIAL_COUNT s.spec
  | .config _ => True
  | .read env => SkipsNoText s env

/-- The records that wait. -/
def waiting (s : LogShm) : List MTLog :=
  (pendingCells LogSpec.MTLOG_LOG_SPECIAL_COUNT s.spec).map s.spec.sLogList ++
    (List.range MTLOG_SHM_DEF_COUNT).flatMap fun i =>
      (pendingCells MTLOG_SHM_RECORDS_COUNT (s.stLogShm i)).map (s.stLogShm i).sLogList

/-- Every string that was saved was freed once or belongs to exactly one record that waits, and no
record has a string that was freed. -/
structure Accounted (s : LogShm) : Prop where
  once : s.vmem.saved.Perm (s.vmem.freed ++ (waiting s).flatMap owned)
  live : s.vmem.live.Perm ((waiting s).flatMap owned)
  nodup : ((waiting s).flatMap owned).Nodup
  spec : ∀ i < LogSpec.MTLOG_LOG_SPECIAL_COUNT, owned (s.spec.sLogList i) ⊆ s.vmem.live
  rings : ∀ j < MTLOG_SHM_DEF_COUNT, ∀ i < MTLOG_SHM_RECORDS_COUNT,
    owned ((s.stLogShm j).sLogList i) ⊆ s.vmem.live

variable {s : LogShm}

theorem waiting_owned_perm (h : ShmOk s) : ((waiting s).flatMap owned).Perm (ownedAll s) := by
  have hring : ∀ (N : Nat) (ring : LogRing), (∃ d l, RingOk N d l ring) →
      (((pendingCells N ring).map ring.sLogList).flatMap owned).Perm (ownedRing N ring) := by
    rintro N ring ⟨d, l, hok⟩
    rw [List.flatMap_map]
    exact pending_owned_perm hok
  rw [waiting, List.flatMap_append, List.flatMap_assoc]
  refine (hring _ _ h.spec).append (List.Perm.flatMap_left _ fun i hi => ?_)
  exact hring _ _ (h.rings i (List.mem_range.mp hi))

theorem ShmOk.accounted (h : ShmOk s) : Accounted s := by
  have hwaiting := waiting_owned_perm h
  have hlive : s.vmem.live.Perm (ownedAll s) := List.perm_iff_count.mpr h.live
  obtain ⟨live, hinv⟩ := h.mem.inv
  refine ⟨?_, hlive.trans hwaiting.symm, ?_, ?_, ?_⟩
  · refine List.Perm.trans (List.perm_iff_count.mpr fun idx => ?_) (hwaiting.symm.append_left _)
    rw [List.count_append]
    exact h.history idx
  · rw [(hwaiting.trans hlive.symm).nodup_iff]
    exact hinv.nodup_handed
  · intro i hi idx hidx
    refine hlive.mem_iff.mpr (List.mem_append_left _ ?_)
    exact List.mem_flatMap.mpr ⟨i, List.mem_range.mpr hi, hidx⟩
  · intro j hj i hi idx hidx
    refine hlive.mem_iff.mpr (List.mem_append_right _ ?_)
    refine List.mem_flatMap.mpr ⟨j, List.mem_range.mpr hj, ?_⟩
    exact List.mem_flatMap.mpr ⟨i, List.mem_range.mpr hi, hidx⟩

theorem ShmOk.step (s : LogShm) (input : LogInput) (h : ShmOk s) (hok : KeepsTexts s input) :
    ∃ o s', logStep s input = some (o, s') ∧ True ∧ ShmOk s' := by
  cases input with
  | log i call =>
    refine ⟨(), _, rfl, trivial, ?_⟩
    by_cases hi : i < MTLOG_SHM_DEF_COUNT
    · rw [KeepsTexts, if_pos hi] at hok
      exact h.log hi hok call
    · rw [KeepsTexts, if_neg hi] at hok
      rw [mtReportLog, if_neg hi]
      exact h.logToSpec hok call
  | toSpec call => exact ⟨(), _, rfl, trivial, h.logToSpec hok call⟩
  | config stLogConfig =>
    exact ⟨(), _, rfl, trivial, h.mem, h.live, h.history, h.spec, h.rings⟩
  | read env =>
    obtain ⟨s', hread, hs'⟩ := h.read env hok
    refine ⟨(), s', ?_, trivial, hs'⟩
    rw [logStep, hread, Option.map_some]

theorem emptyRing_ok {N : Nat} (hN : 0 < N) : RingOk N 0 0 emptyRing where
  le := Nat.le_refl 0
  room := by omega
  write := (Nat.zero_mod N).symm
  reads := Or.inr ⟨rfl, rfl⟩
  seq := fun k _ hk => absurd hk (Nat.not_lt_zero k)
  clear := fun _ _ _ => rfl

theorem logStart_ok : ShmOk logStart := by
  have hempty : ∀ N, ownedRing N emptyRing = [] := by
    intro N
    rw [ownedRing, List.flatMap_eq_nil_iff]
    exact fun _ _ => rfl
  have hnone : ownedAll logStart = [] := by
    rw [ownedAll, List.append_eq_nil_iff, List.flatMap_eq_nil_iff]
    exact ⟨hempty _, fun _ _ => hempty _⟩
  refine ⟨⟨⟨_, runInv_start⟩, List.forall_mem_nil _⟩, fun idx => ?_, fun idx => ?_,
    ⟨0, 0, emptyRing_ok (by decide)⟩, fun i _ => ⟨0, 0, emptyRing_ok (by decide)⟩⟩
  · rw [hnone]
    rfl
  · rw [hnone]
    rfl

/-- In every run whose writes leave a cell free and whose reads skip no special log with a text in
the memory, every string that was saved has been freed once or belongs to exactly one record that
waits, and no record has a string that was freed. -/
theorem log_vmem_accounted (inputs : List LogInput)
    (hinputs : Admissible logStep KeepsTexts logStart inputs) :
    ∃ os s, runSteps logStep logStart inputs = some (os, s) ∧ Accounted s := by
  obtain ⟨os, s, hrun, -, hok⟩ := run_invariant (O := fun _ _ => True) ShmOk.step inputs logStart
    logStart_ok hinputs
  exact ⟨os, s, hrun, hok.accounted⟩

/-- A log whose text is one byte too long for a record. -/
def longCall : LogCall where
  qwLogTime := 1700000000000000
  dwLogSeq := 7
  iLogType := 4
  config := ⟨1, 1, 1, 4⟩
  stCust := ⟨0, 0, 0, 0, 0, CharBuf.zero 16, CharBuf.zero 32⟩
  sLogBuf := ⟨List.replicate 256 97, by rw [List.length_replicate]; decide⟩
  custEnv := uncontended
  textEnv := uncontended

/-- A read that gets no ring. -/
def specRead : ReadEnv where
  now := 1700000000
  qwCurTime := 1700000000000000
  cas := fun _ => false
  readAppLogToBuf := fun _ _ => .taken
  custEnv := fun _ _ => uncontended
  textEnv := fun _ _ => uncontended

/-- The record of `longCall`. -/
def longLog : MTLog := ⟨⟨1700000000000000, 7, 0, 0, 4, 1, 0⟩, 1048577⟩

theorem saveText_long :
    ∃ r, saveText uncontended longCall.sLogBuf logStart.vmem =
      (1048577, false, ⟨r, [1048577], []⟩) := by
  have hlong : ¬ longCall.sLogBuf.str.length < sizeofLogContent := by
    rw [longCall, List.length_replicate]
    decide
  have hfirst : (saveToVmem uncontended logStart.vmem.run.pools
      (longCall.sLogBuf.str.drop (sizeofLogContent - 4))).1 = 1048577 := by
    refine save_first ?_ ?_
    · rw [longCall, List.length_drop, List.length_replicate]
      decide
    · rw [longCall, List.length_drop, List.length_replicate]
      decide
  rw [saveText, if_neg hlong, LogMem.save]
  dsimp only
  generalize saveToVmem uncontended logStart.vmem.run.pools
    (longCall.sLogBuf.str.drop (sizeofLogContent - 4)) = x at hfirst ⊢
  rw [hfirst]
  exact ⟨_, rfl⟩

/-- The shared memory with the long log as the first special log. -/
def longShm (stLogConfig : List SLogConfig) (r : VmemRun) : LogShm where
  spec := emptyRing.write LogSpec.MTLOG_LOG_SPECIAL_COUNT 0 longLog
  stLogShm := fun _ => emptyRing
  stLogConfig := stLogConfig
  vmem := ⟨r, [1048577], []⟩

theorem logStep_long (stLogConfig : List SLogConfig) :
    ∃ r, logStep { logStart with stLogConfig := stLogConfig } (.toSpec longCall) =
      some ((), longShm stLogConfig r) := by
  obtain ⟨r, hsave⟩ := saveText_long
  refine ⟨r, ?_⟩
  have hsave' : saveText longCall.textEnv longCall.sLogBuf
      { logStart with stLogConfig := stLogConfig }.vmem =
      (1048577, false, ⟨r, [1048577], []⟩) := hsave
  rw [logStep, mtReportLogToSpec, hsave']
  rfl

theorem pendingCells_long :
    pendingCells LogSpec.MTLOG_LOG_SPECIAL_COUNT
      (emptyRing.write LogSpec.MTLOG_LOG_SPECIAL_COUNT 0 longLog) = [0] := by
  decide

/-- With an empty ring every write leaves a cell free, and the config takes the log. -/
theorem log_vmem_accounted_long :
    ∃ os s, runSteps logStep logStart [.config [⟨1, 1, 1, 4⟩], .toSpec longCall, .read specRead] =
      some (os, s) ∧ Accounted s := by
  refine log_vmem_accounted _ ⟨trivial, ?_⟩
  intro o s hs
  obtain ⟨-, rfl⟩ := Prod.mk.inj (Option.some.inj hs)
  refine ⟨Or.inl (by decide), ?_⟩
  intro o s hs
  obtain ⟨r, hlong⟩ := logStep_long [⟨1, 1, 1, 4⟩]
  obtain ⟨-, rfl⟩ := Prod.mk.inj (Option.some.inj (hlong.symm.trans hs))
  refine ⟨?_, fun _ _ _ => trivial⟩
  intro i hi hskip
  rw [longShm, pendingCells_long, List.mem_singleton] at hi
  rw [hi] at hskip
  have hchoice : LogSpec.chooseSpec specRead.qwCurTime [⟨1, 1, 1, 4⟩] longLog.toMTLog =
      .read { longLog.toMTLog with iAppId := 1, iModuleId := 1 } := rfl
  cases hchoice.symm.trans hskip

theorem read_skips (r : VmemRun) :
    ∃ s', logStep (longShm [⟨1, 1, 1, 3⟩] r) (.read specRead) = some ((), s') ∧
      s'.vmem.saved = [1048577] ∧ s'.vmem.freed = [] ∧ waiting s' = [] := by
  rw [logStep, longShm]
  generalize hring : emptyRing.write LogSpec.MTLOG_LOG_SPECIAL_COUNT 0 longLog = ring
  have hdone : (ring.advance LogSpec.MTLOG_LOG_SPECIAL_COUNT).iReadIndex =
      (ring.advance LogSpec.MTLOG_LOG_SPECIAL_COUNT).iWriteIndex := by
    rw [← hring]
    decide
  have hloop : readLoop LogSpec.MTLOG_LOG_SPECIAL_COUNT (specEnv specRead [⟨1, 1, 1, 3⟩])
      (LogSpec.MTLOG_LOG_SPECIAL_COUNT + 1) ring ⟨r, [1048577], []⟩ =
      some (.drained, ring.advance LogSpec.MTLOG_LOG_SPECIAL_COUNT, ⟨r, [1048577], []⟩) := by
    obtain ⟨fuel, hfuel⟩ : ∃ fuel, LogSpec.MTLOG_LOG_SPECIAL_COUNT + 1 = fuel + 1 + 1 :=
      ⟨1999, rfl⟩
    have hgo : 0 ≤ ring.iReadIndex ∧ ring.iReadIndex ≠ ring.iWriteIndex := by
      rw [← hring]
      decide
    have hlog : ring.sLogList ring.iReadIndex.toNat = longLog := by
      rw [← hring]
      rfl
    have hskip : (specEnv specRead [⟨1, 1, 1, 3⟩]).choose longLog = .skip := rfl
    rw [hfuel, readLoop, if_pos hgo]
    dsimp only
    rw [hlog, if_neg (by decide), hskip]
    dsimp only
    rw [readLoop, if_neg fun hmore => hmore.2 hdone]
  rw [readAppLog]
  dsimp only
  rw [readRing, hloop, Option.map_some, Option.bind_some]
  dsimp only
  rw [if_neg LogSpec.drained_goes_on, if_pos hdone]
  exact ⟨_, rfl, rfl, rfl, rfl⟩

/-- A special log whose type the config does not take is skipped, and the end of its text stays in
the memory. -/
theorem skipped_log_keeps_text :
    ¬ ∀ inputs : List LogInput,
      ∃ os s, runSteps logStep logStart inputs = some (os, s) ∧ Accounted s := by
  intro hall
  obtain ⟨r, hlong⟩ := logStep_long [⟨1, 1, 1, 3⟩]
  obtain ⟨s', hread, hsaved, hfreed, hwaiting⟩ := read_skips r
  have hrun : runSteps logStep logStart
      [.config [⟨1, 1, 1, 3⟩], .toSpec longCall, .read specRead] = some ([(), (), ()], s') := by
    rw [runSteps, logStep, Option.bind_eq_bind, Option.bind_some]
    dsimp only
    rw [runSteps, hlong]
    dsimp only [Option.bind_eq_bind, Option.bind_some]
    rw [runSteps, hread]
    rfl
  obtain ⟨os, s, hrun', hacc⟩ := hall _
  rw [hrun] at hrun'
  obtain rfl := (Prod.mk.inj (Option.some.inj hrun')).2
  have honce := hacc.once
  rw [hsaved, hfreed, hwaiting] at honce
  exact absurd honce.length_eq (by decide)

end Runs

end XrkMonitor.LogVmem
