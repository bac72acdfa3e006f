import XrkMonitor.LogVmem.Records

/-!
# Who owns the texts of the logs

A record owns the strings in the memory that its indices stand for. A call moves strings between the
memory and a record: what it saves it puts into a record, and what it takes from one it frees.
`Balanced` says this of any two sets of owners, and a loop over a ring keeps it.

## Implementation notes

Owned indices are lists, and everything is said about how often an index occurs in them: an index
that two records have would occur twice.
-/

namespace XrkMonitor.LogVmem

open Library Vmem
open LogSpec (SpecChoice SpecEnd BufAnswer)

section Owners

/-- The string that an index stands for. -/
def ownedBy (index : Int) : List Int := if 0 < index then [index] else []

/-- The strings that a record owns. -/
def owned (log : MTLog) : List Int := ownedBy log.iVarmemIndex ++ ownedBy log.iCustVmemIndex

/-- The strings that the records of a ring own. -/
def ownedRing (N : Nat) (ring : LogRing) : List Int :=
  (List.range N).flatMap fun i => owned (ring.sLogList i)

/-- The indices that are handed out. -/
def LogMem.live (v : LogMem) : List Int := v.run.handed.map Prod.fst

/-- The memory is in order, and has only strings that fit into the buffer of the agent. -/
structure MemOk (v : LogMem) : Prop where
  inv : ∃ live, RunInv v.run live
  short : ∀ x ∈ v.run.handed, x.2.length ≤ sizeofLogBuf - sizeofLogInfo

/-- From one memory to another the strings of the owners have become those of the new owners: what
is gone has been freed, and what has come has been saved. -/
structure Balanced (v : LogMem) (own : List Int) (v' : LogMem) (own' : List Int) : Prop where
  live : ∀ idx, v'.live.count idx + own.count idx = v.live.count idx + own'.count idx
  history : ∀ idx, v'.saved.count idx + v.freed.count idx + own.count idx =
    v.saved.count idx + v'.freed.count idx + own'.count idx

/-- The owners' strings are all there. -/
def Covered (v : LogMem) (own : List Int) : Prop := ∀ idx, own.count idx ≤ v.live.count idx

variable {v v₁ v' : LogMem} {own own₁ own' : List Int} {index : Int} {plog plog' : MTLog}

theorem ownedBy_nonpos (h : index ≤ 0) : ownedBy index = [] := if_neg (Int.not_lt.mpr h)

theorem Balanced.refl (v : LogMem) (own : List Int) : Balanced v own v own :=
  ⟨fun _ => rfl, fun _ => rfl⟩

theorem Balanced.trans (h : Balanced v own v₁ own₁) (h' : Balanced v₁ own₁ v' own') :
    Balanced v own v' own' := by
  constructor
  · intro idx
    have h₁ := h.live idx
    have h₂ := h'.live idx
    omega
  · intro idx
    have h₁ := h.history idx
    have h₂ := h'.history idx
    omega

theorem Balanced.exchange (h : Balanced v own v' own') {all all' : List Int}
    (hall : ∀ idx, all'.count idx + own.count idx = all.count idx + own'.count idx) :
    Balanced v all v' all' := by
  constructor
  · intro idx
    have h₁ := h.live idx
    have h₂ := hall idx
    omega
  · intro idx
    have h₁ := h.history idx
    have h₂ := hall idx
    omega

theorem Covered.after (h : Covered v own) (hbal : Balanced v own v' own') : Covered v' own' := by
  intro idx
  have h₁ := h idx
  have h₂ := hbal.live idx
  omega

theorem Covered.mem (h : Covered v own) (hidx : index ∈ own) :
    ∃ pdata, (index, pdata) ∈ v.run.handed := by
  have hpos := List.count_pos_iff.mpr hidx
  have hlive : index ∈ v.live := List.count_pos_iff.mp (Nat.lt_of_lt_of_le hpos (h index))
  obtain ⟨x, hx, rfl⟩ := List.mem_map.mp hlive
  exact ⟨x.2, hx⟩

theorem Covered.part (h : Covered v own) (hpart : ∀ idx, own'.count idx ≤ own.count idx) :
    Covered v own' := fun idx => Nat.le_trans (hpart idx) (h idx)

end Owners

section Memory

variable {v : LogMem} {index : Int} {pdata : List UInt8}

theorem save_balanced (env : VmemEnv) (hv : MemOk v)
    (hlen : pdata.length ≤ sizeofLogBuf - sizeofLogInfo) :
    MemOk (v.save env pdata).2 ∧
      Balanced v [] (v.save env pdata).2 (ownedBy (v.save env pdata).1) := by
  obtain ⟨live, hinv⟩ := hv.inv
  obtain ⟨o, r', live', hstep, hinv'⟩ := hinv.save env pdata
  obtain ⟨-, rfl⟩ := Prod.mk.inj (Option.some.inj hstep)
  have hcode : (v.save env pdata).1 = (saveToVmem env v.run.pools pdata).1 := rfl
  have hrun : (v.save env pdata).2.run = ⟨(saveToVmem env v.run.pools pdata).2,
      if 0 < (v.save env pdata).1 then ((v.save env pdata).1, pdata) :: v.run.handed
      else v.run.handed⟩ := rfl
  have hsaved : (v.save env pdata).2.saved = if 0 < (v.save env pdata).1 then
      (v.save env pdata).1 :: v.saved else v.saved := rfl
  have hfreed : (v.save env pdata).2.freed = v.freed := rfl
  rw [← hcode, ← hrun] at hinv'
  by_cases hpos : 0 < (v.save env pdata).1
  · rw [if_pos hpos] at hrun hsaved
    have hown : ownedBy (v.save env pdata).1 = [(v.save env pdata).1] := if_pos hpos
    rw [hown]
    refine ⟨⟨⟨_, hinv'⟩, ?_⟩, ?_, ?_⟩
    · rw [hrun]
      exact List.forall_mem_cons.mpr ⟨hlen, hv.short⟩
    · intro idx
      rw [LogMem.live, hrun, List.map_cons, List.count_cons, List.count_singleton]
      exact Nat.add_zero _
    · intro idx
      rw [hsaved, hfreed, List.count_cons, List.count_singleton, List.count_nil]
      omega
  · rw [if_neg hpos] at hrun hsaved
    rw [ownedBy_nonpos (Int.not_lt.mp hpos)]
    refine ⟨⟨⟨_, hinv'⟩, ?_⟩, ?_, ?_⟩
    · rw [hrun]
      exact hv.short
    · intro idx
      rw [LogMem.live, hrun]
      rfl
    · intro idx
      rw [hsaved, hfreed]

theorem count_eraseP {l : List (Int × List UInt8)} {x : Int × List UInt8} (hx : x ∈ l) (idx : Int) :
    ((l.eraseP fun y => y.1 == x.1).map Prod.fst).count idx + [x.1].count idx =
      (l.map Prod.fst).count idx := by
  obtain ⟨y, l₁, l₂, -, hy, rfl, herase⟩ :=
    List.exists_of_eraseP (p := fun y => y.1 == x.1) hx (beq_self_eq_true x.1)
  rw [herase, ← beq_iff_eq.mp hy]
  simp only [List.map_append, List.map_cons, List.count_append, List.count_cons, List.count_nil]
  omega

theorem free_balanced (env : VmemEnv) (hv : MemOk v) (hx : (index, pdata) ∈ v.run.handed) :
    ∃ v', v.free env index = some v' ∧ MemOk v' ∧ Balanced v [index] v' [] := by
  obtain ⟨live, hinv⟩ := hv.inv
  obtain ⟨o, r', live', hstep, hinv'⟩ := hinv.free env hx
  have hzero : o = 0 := by
    obtain ⟨g, hg, c, l₁, l₂, hl, rfl, -⟩ :=
      handedIn_eraseP nodup_allSegments hinv.handed hx
    obtain ⟨q, hq, -⟩ := freeVmem_stored env hinv.pools (mem_allSegments.mp hg) l₁ l₂ hl
    rw [vmemStep, hq] at hstep
    exact (Prod.mk.inj (Option.some.inj hstep)).1.symm
  subst hzero
  have hhanded : r'.handed = v.run.handed.eraseP fun y => y.1 == index := by
    obtain ⟨q, -, hq⟩ := Option.map_eq_some_iff.mp hstep
    rw [← (Prod.mk.inj hq).2]
  refine ⟨⟨r', v.saved, index :: v.freed⟩, ?_, ⟨⟨_, hinv'⟩, ?_⟩, ?_, ?_⟩
  · rw [LogMem.free, hstep]
    rfl
  · intro x hxr
    rw [hhanded] at hxr
    exact hv.short x (List.mem_of_mem_eraseP hxr)
  · intro idx
    have hcount := count_eraseP hx idx
    change (r'.handed.map Prod.fst).count idx + _ = _
    rw [hhanded]
    exact hcount
  · intro idx
    change v.saved.count idx + v.freed.count idx + [index].count idx =
      v.saved.count idx + (index :: v.freed).count idx + [].count idx
    simp only [List.count_cons, List.count_nil]
    omega

theorem free_zero (env : VmemEnv) (hv : MemOk v) : v.free env 0 = some v := by
  obtain ⟨live, hinv⟩ := hv.inv
  have hfree : freeVmem env v.run.pools 0 = some (-3, v.run.pools) := by
    rw [freeVmem, hinv.pools.init]
    rfl
  have herase : (v.run.handed.eraseP fun y => y.1 == (0 : Int)) = v.run.handed := by
    apply List.eraseP_of_forall_not
    intro x hx heq
    obtain ⟨g, c, -, -, rfl⟩ := hinv.stored hx
    have hpos := chainIndex_pos g c
    rw [beq_iff_eq] at heq
    exact absurd heq (Int.ne_of_gt hpos)
  have hcode : ¬ (-3 : Int) = 0 := by decide
  rw [LogMem.free, vmemStep, hfree, Option.map_some, Option.map_some, herase]
  dsimp only
  rw [if_neg hcode]

end Memory

section Record

variable {v v₁ : LogMem} {plog : MTLog}

theorem length_custField_le (stCust : MTLogCust) (flag : UInt8) {bytes : List UInt8} {n : Nat}
    (h : bytes.length ≤ n) : (custField stCust flag bytes).length ≤ n := by
  unfold custField
  split
  · exact h
  · exact Nat.zero_le n

theorem length_custBuf_le (stCust : MTLogCust) : (custBuf stCust).length ≤ 65 := by
  have h₁ := length_custField_le stCust 1 (Nat.le_of_eq (length_toBytes 4 stCust.dwCust_1.toNat))
  have h₂ := length_custField_le stCust 2 (Nat.le_of_eq (length_toBytes 4 stCust.dwCust_2.toNat))
  have h₃ := length_custField_le stCust 4
    (Nat.le_of_eq (length_toBytes 4 stCust.iCust_3.toUInt32.toNat))
  have h₄ := length_custField_le stCust 8
    (Nat.le_of_eq (length_toBytes 4 stCust.iCust_4.toUInt32.toNat))
  have hstr : ∀ {n : Nat} (b : CharBuf (n + 1)), (b.str ++ [0]).length ≤ n + 1 := by
    intro n b
    rw [List.length_append, List.length_singleton]
    exact Nat.succ_le_succ b.length_str_le
  have h₅ := length_custField_le stCust 16 (hstr stCust.szCust_5)
  have h₆ := length_custField_le stCust 32 (hstr stCust.szCust_6)
  simp only [custBuf, List.length_cons, List.length_append]
  omega

theorem saveCust_balanced (env : VmemEnv) (hv : MemOk v) (stCust : MTLogCust) :
    MemOk (saveCust env stCust v).2 ∧
      Balanced v [] (saveCust env stCust v).2 (ownedBy (saveCust env stCust v).1) := by
  unfold saveCust
  split
  · have hfits : 65 ≤ sizeofLogBuf - sizeofLogInfo := by
      unfold sizeofLogBuf sizeofLogInfo MTREPORT_LOG_MAX_LENGTH
      omega
    exact save_balanced env hv (Nat.le_trans (length_custBuf_le stCust) hfits)
  · exact ⟨hv, Balanced.refl v []⟩

theorem saveText_balanced (env : VmemEnv) (hv : MemOk v) (sLogBuf : LogText) :
    MemOk (saveText env sLogBuf v).2.2 ∧
      Balanced v [] (saveText env sLogBuf v).2.2 (ownedBy (saveText env sLogBuf v).1) := by
  unfold saveText
  split
  · exact ⟨hv, Balanced.refl v []⟩
  · have hlen : (sLogBuf.str.drop (sizeofLogContent - 4)).length ≤
        sizeofLogBuf - sizeofLogInfo := by
      have hlt := sLogBuf.length_lt
      have hdrop := Nat.sub_le sLogBuf.str.length (sizeofLogContent - 4)
      unfold MTREPORT_LOG_MAX_LENGTH at hlt
      rw [List.length_drop]
      unfold sizeofLogBuf sizeofLogInfo MTREPORT_LOG_MAX_LENGTH
      omega
    have hsave := save_balanced env hv hlen
    generalize v.save env (sLogBuf.str.drop (sizeofLogContent - 4)) = x at hsave ⊢
    obtain ⟨iWrite, v'⟩ := x
    dsimp only at hsave ⊢
    split
    · rename_i hfailed
      rw [ownedBy_nonpos hfailed] at hsave
      exact hsave
    · exact hsave

theorem takeCust_balanced (env : VmemEnv) (hv : MemOk v) (hcov : Covered v (owned plog)) :
    ∃ plog' v', takeCust env plog v = some (plog', v') ∧ MemOk v' ∧
      Balanced v (owned plog) v' (owned plog') ∧ ownedBy plog'.iCustVmemIndex = [] ∧
      plog'.iVarmemIndex = plog.iVarmemIndex ∧ plog'.dwLogSeq = plog.dwLogSeq := by
  unfold takeCust
  by_cases hpos : 0 < plog.iCustVmemIndex
  · have hown : ownedBy plog.iCustVmemIndex = [plog.iCustVmemIndex] := if_pos hpos
    have hmem : plog.iCustVmemIndex ∈ owned plog := by
      rw [owned, hown]
      exact List.mem_append_right _ (List.mem_singleton.mpr rfl)
    obtain ⟨pdata, hx⟩ := hcov.mem hmem
    obtain ⟨live, hinv⟩ := hv.inv
    have hread := hinv.read hx (Int.ofNat_le.mpr (hv.short _ hx))
    obtain ⟨v', hfree, hv', hbal⟩ := free_balanced env hv hx
    rw [if_pos hpos]
    refine ⟨{ plog with iCustVmemIndex := 0 }, v', ?_, hv', ?_, rfl, rfl, rfl⟩
    · rw [hread, Option.bind_some, hfree]
      rfl
    · refine hbal.exchange fun idx => ?_
      change (ownedBy plog.iVarmemIndex ++ ownedBy 0).count idx + _ = _
      rw [owned, hown, ownedBy_nonpos (Int.le_refl 0)]
      simp only [List.count_append, List.count_nil]
      omega
  · refine ⟨plog, v, if_neg hpos, hv, Balanced.refl v _, ?_, rfl, rfl⟩
    exact ownedBy_nonpos (Int.not_lt.mp hpos)

theorem takeText_balanced (env : VmemEnv) (hv : MemOk v) (hcov : Covered v (owned plog)) :
    ∃ plog' v', takeText env plog v = some (plog', v') ∧ MemOk v' ∧
      Balanced v (owned plog) v' (owned plog') ∧ ownedBy plog'.iVarmemIndex = [] ∧
      plog'.iCustVmemIndex = plog.iCustVmemIndex ∧ plog'.dwLogSeq = plog.dwLogSeq := by
  unfold takeText
  by_cases hneg : plog.iVarmemIndex < 0
  · exact ⟨plog, v, if_pos hneg, hv, Balanced.refl v _, ownedBy_nonpos (Int.le_of_lt hneg), rfl,
      rfl⟩
  · rw [if_neg hneg]
    by_cases hzero : plog.iVarmemIndex = 0
    · rw [hzero, free_zero env hv]
      refine ⟨{ plog with iVarmemIndex := 0 }, v, rfl, hv, ?_, rfl, rfl, rfl⟩
      refine (Balanced.refl v []).exchange fun idx => ?_
      rw [owned, owned, hzero]
    · have hpos : 0 < plog.iVarmemIndex := by omega
      have hown : ownedBy plog.iVarmemIndex = [plog.iVarmemIndex] := if_pos hpos
      have hmem : plog.iVarmemIndex ∈ owned plog := by
        rw [owned, hown]
        exact List.mem_append_left _ (List.mem_singleton.mpr rfl)
      obtain ⟨pdata, hx⟩ := hcov.mem hmem
      obtain ⟨v', hfree, hv', hbal⟩ := free_balanced env hv hx
      refine ⟨{ plog with iVarmemIndex := 0 }, v', ?_, hv', ?_, rfl, rfl, rfl⟩
      · rw [hfree]
        rfl
      · refine hbal.exchange fun idx => ?_
        change (ownedBy 0 ++ ownedBy plog.iCustVmemIndex).count idx + _ = _
        rw [owned, hown, ownedBy_nonpos (Int.le_refl 0)]
        simp only [List.count_append, List.count_nil]
        omega

theorem takeTexts_balanced (custEnv textEnv : VmemEnv) (hv : MemOk v)
    (hcov : Covered v (owned plog)) :
    ∃ plog' v', takeTexts custEnv textEnv plog v = some (plog', v') ∧ MemOk v' ∧
      Balanced v (owned plog) v' [] ∧ owned plog' = [] ∧ plog'.dwLogSeq = plog.dwLogSeq := by
  obtain ⟨plog₁, v₁, htake₁, hv₁, hbal₁, hcust, -, hseq₁⟩ := takeCust_balanced custEnv hv hcov
  obtain ⟨plog₂, v₂, htake₂, hv₂, hbal₂, htext, hsame, hseq₂⟩ :=
    takeText_balanced textEnv hv₁ (hcov.after hbal₁)
  have hnone : owned plog₂ = [] := by
    rw [owned, htext, hsame, hcust]
    rfl
  refine ⟨plog₂, v₂, ?_, hv₂, ?_, hnone, hseq₂.trans hseq₁⟩
  · rw [takeTexts, htake₁, Option.bind_some, htake₂]
  · rw [← hnone]
    exact hbal₁.trans hbal₂

end Record

section Rings

theorem count_flatMap_update {α : Type*} (f : Nat → α) (g : α → List Int) {i n : Nat} (hi : i < n)
    (x : α) (idx : Int) :
    ((List.range n).flatMap fun k => g (Function.update f i x k)).count idx + (g (f i)).count idx =
      ((List.range n).flatMap fun k => g (f k)).count idx + (g x).count idx := by
  induction n with
  | zero => exact absurd hi (Nat.not_lt_zero i)
  | succ n ih =>
    rw [List.range_succ, List.flatMap_append, List.flatMap_append, List.flatMap_singleton,
      List.flatMap_singleton, List.count_append, List.count_append]
    by_cases hlast : i = n
    · subst hlast
      have hsame : ((List.range i).flatMap fun k => g (Function.update f i x k)) =
          (List.range i).flatMap fun k => g (f k) := by
        refine List.flatMap_congr fun k hk => ?_
        rw [Function.update_of_ne (Nat.ne_of_lt (List.mem_range.mp hk))]
      rw [hsame, Function.update_self]
      omega
    · have hless := ih (by omega)
      rw [Function.update_of_ne (Ne.symm hlast)]
      omega

variable {N d l : Nat} {ring ring' : LogRing} {v : LogMem} {log : MTLog} {i : Nat}

theorem count_ownedRing_setLog (ring : LogRing) (hi : i < N) (log : MTLog) (idx : Int) :
    (ownedRing N (ring.setLog i log)).count idx + (owned (ring.sLogList i)).count idx =
      (ownedRing N ring).count idx + (owned log).count idx :=
  count_flatMap_update ring.sLogList owned hi log idx

theorem count_owned_le (hi : i < N) (idx : Int) :
    (owned (ring.sLogList i)).count idx ≤ (ownedRing N ring).count idx := by
  have hset := count_ownedRing_setLog ring hi ⟨⟨0, 0, 0, 0, 0, 0, 0⟩, 0⟩ idx
  have hnone : owned ⟨⟨0, 0, 0, 0, 0, 0, 0⟩, 0⟩ = [] := rfl
  rw [hnone] at hset
  exact Nat.le.intro ((Nat.add_comm _ _).trans hset)

/-- The records from position `d` to `l` wait, position `k` in cell `k % N`, and no other record
owns anything. -/
structure RingOk (N d l : Nat) (ring : LogRing) : Prop where
  le : d ≤ l
  room : l < d + N
  write : ring.iWriteIndex = l % N
  reads : ring.iReadIndex = (d % N : Nat) ∨ ring.iReadIndex = -1 ∧ d = l
  seq : ∀ k, d ≤ k → k < l → (ring.sLogList (k % N)).dwLogSeq ≠ 0
  clear : ∀ i < N, (∀ k, d ≤ k → k < l → k % N ≠ i) → owned (ring.sLogList i) = []

theorem RingOk.pos (h : RingOk N d l ring) : 0 < N := by
  have hle := h.le
  have hroom := h.room
  omega

theorem RingOk.write_log (h : RingOk N d l ring) (hroom : l + 1 < d + N) (log : MTLog)
    (hseq : log.dwLogSeq ≠ 0) : RingOk N d (l + 1) (ring.write N (l % N) log) := by
  have hle := h.le
  have hlt := Nat.mod_lt l h.pos
  refine ⟨by omega, hroom, ?_, ?_, ?_, ?_⟩
  · change ringNext N ring.iWriteIndex = _
    rw [h.write, ringNext_mod h.pos]
  · left
    change (if ring.iReadIndex < 0 then (ring.iWriteIndex : Int) else ring.iReadIndex) = _
    rcases h.reads with hreads | ⟨hneg, hd⟩
    · rw [if_neg (by rw [hreads]; omega), hreads]
    · rw [if_pos (by rw [hneg]; decide), h.write, hd]
  · intro k hdk hk
    change (Function.update ring.sLogList (l % N) log (k % N)).dwLogSeq ≠ 0
    by_cases hcell : k % N = l % N
    · rw [hcell, Function.update_self]
      exact hseq
    · rw [Function.update_of_ne hcell]
      refine h.seq k hdk (Nat.lt_of_le_of_ne (Nat.le_of_lt_succ hk) ?_)
      rintro rfl
      exact hcell rfl
  · intro i hi hother
    change owned (Function.update ring.sLogList (l % N) log i) = []
    have hcell : i ≠ l % N := fun heq => hother l hle (Nat.lt_succ_self l) heq.symm
    rw [Function.update_of_ne hcell]
    exact h.clear i hi fun k hdk hk => hother k hdk (Nat.lt_succ_of_lt hk)

theorem RingOk.owned_write (h : RingOk N d l ring) : owned (ring.sLogList (l % N)) = [] := by
  refine h.clear _ (Nat.mod_lt l h.pos) fun k hdk hk heq => ?_
  have hroom := h.room
  have hinj := ring_mod_inj (Nat.le_of_lt hk) (by omega) heq
  omega

theorem RingOk.advance (h : RingOk N d l ring) (hreads : ring.iReadIndex = (d % N : Nat))
    (hd : d < l) (hnone : owned (ring.sLogList (d % N)) = []) :
    RingOk N (d + 1) l (ring.advance N) := by
  have hroom := h.room
  refine ⟨hd, by omega, h.write, ?_, ?_, ?_⟩
  · left
    change ((ringNext N ring.iReadIndex.toNat : Nat) : Int) = _
    rw [hreads, Int.toNat_natCast, ringNext_mod h.pos]
  · intro k hdk hk
    exact h.seq k (by omega) hk
  · intro i hi hother
    by_cases hcell : d % N = i
    · rw [← hcell]
      exact hnone
    · refine h.clear i hi fun k hdk hk => ?_
      rcases Nat.eq_or_lt_of_le hdk with rfl | hlt
      · exact hcell
      · exact hother k hlt hk

theorem RingOk.setLog (h : RingOk N d l ring) (hd : d < l) (log : MTLog)
    (hseq : log.dwLogSeq ≠ 0) : RingOk N d l (ring.setLog (d % N) log) := by
  refine ⟨h.le, h.room, h.write, h.reads, ?_, ?_⟩
  · intro k hdk hk
    change (Function.update ring.sLogList (d % N) log (k % N)).dwLogSeq ≠ 0
    by_cases hcell : k % N = d % N
    · rw [hcell, Function.update_self]
      exact hseq
    · rw [Function.update_of_ne hcell]
      exact h.seq k hdk hk
  · intro i hi hother
    change owned (Function.update ring.sLogList (d % N) log i) = []
    have hcell : i ≠ d % N := fun heq => hother d (Nat.le_refl d) hd heq.symm
    rw [Function.update_of_ne hcell]
    exact h.clear i hi hother

theorem Balanced.write {v' : LogMem} (hi : i < N) (hnone : owned (ring.sLogList i) = [])
    (h : Balanced v [] v' (owned log)) :
    Balanced v (ownedRing N ring) v' (ownedRing N (ring.write N i log)) := by
  refine h.exchange fun idx => ?_
  have hset := count_ownedRing_setLog ring hi log idx
  rw [hnone] at hset
  exact hset

end Rings

end XrkMonitor.LogVmem
