import XrkMonitor.ServerVmem.Reads
import XrkMonitor.Vmem.Reclaim

/-!
# Saves of the server after deferred frees

The server's save has the client's order of the capacity test and the scan, and
tries every size. Nothing else puts deferred cells back, so in both libraries a
save that is made again succeeds at once or never.
-/

namespace XrkMonitor.ServerVmem

open Library Vmem

/-- The test of a save on one segment. -/
def RoomIn (pdata : List UInt8) (b : VmemBuf) (g : SegId) : Prop :=
  (b.shm g.1 g.2).wNodeUsed + needCount g.1.len pdata.length ≤ (b.shm g.1 g.2).wNodeCount

/-- A segment has as many free cells as the data needs. -/
def HasRoom (b : VmemBuf) (pdata : List UInt8) : Prop := ∃ g ∈ allSegments, RoomIn pdata b g

/-- A segment has as many cells outside the live chains as the data needs. -/
def EnoughSpare (r : BufRun) (pdata : List UInt8) : Prop :=
  ∃ g ∈ allSegments, needCount g.1.len pdata.length ≤
    spareCells (r.buf.shm g.1 g.2) ((firstCellsOf r.handed g).map (chainAt (r.buf.shm g.1 g.2)))

/-- Where enough cells are outside the live chains, one of the saves made one behind the other with
all flags free succeeds. -/
def Reclaims (r : BufRun) (pdata : List UInt8) : Prop :=
  EnoughSpare r pdata → ∀ env : Nat → Nat → VmemEnv, (∀ k j, LocksFree (env k j)) →
    Succeeds (fun k b => saveToVmem (env k) b pdata) r.buf

section Search

variable {b : VmemBuf} {pdata : List UInt8} {room : SegId → Prop}

/-- The segments are initialised and have room in the ones of `room`. -/
def SameRoom (pdata : List UInt8) (room : SegId → Prop) (b : VmemBuf) : Prop :=
  b.cIsInit = true ∧ ∀ g, RoomIn pdata b g ↔ room g

theorem SameRoom.setTime (h : SameRoom pdata room b) (type : VmemType) (i k : Nat) :
    SameRoom pdata room (b.setShm type i { b.shm type i with dwUseFlagStartTime := k }) := by
  refine ⟨h.1, ?_⟩
  intro g
  rw [← h.2 g, RoomIn, RoomIn, shm_setShm b (type, i) g]
  split
  · rename_i hg
    rw [hg]
  · exact Iff.rfl

theorem saveDataLoop_search {env : VmemEnv} (hfree : LocksFree env) (type : VmemType)
    (is : List Nat) (h : SameRoom pdata room b) :
    SearchOutcome room (fun g => g.1 = type ∧ g.2 ∈ is) (SameRoom pdata room)
      (saveDataLoop env type pdata is b) := by
  induction is generalizing b with
  | nil => exact Or.inr ⟨(by decide : (-1 : Int) < 0), h, fun g hg => absurd hg.2 List.not_mem_nil⟩
  | cons i is ih =>
    have hcas : ¬ (!env.cas type i 0 && !flagIsTimeout (b.shm type i) (env.clock type i 0)) := by
      rw [hfree type i 0]
      exact Bool.false_ne_true
    have hroom := h.2 (type, i)
    rw [saveDataLoop, if_neg hcas]
    dsimp only
    split
    · rename_i hfull
      have hnone : ¬ room (type, i) := fun hr => absurd (hroom.mpr hr) (Nat.not_le.mpr hfull)
      have hskip : SearchOutcome room (fun g => g = (type, i)) (SameRoom pdata room)
          ((-1 : Int), b) :=
        Or.inr ⟨(by decide : (-1 : Int) < 0), h, fun g hg => hg ▸ hnone⟩
      have hrest := ih (h.setTime type i (env.clock type i 1 % 2 ^ 32))
      refine (hskip.after (by decide : (-1 : Int) < 0) hrest).congr ?_
      intro g
      rw [List.mem_cons, Prod.ext_iff]
      tauto
    · rename_i hfits
      refine Or.inl ⟨Int.natCast_nonneg _, (type, i), ⟨rfl, List.mem_cons_self⟩, ?_⟩
      exact hroom.mp (Nat.not_lt.mp hfits)

variable {env : Nat → VmemEnv} {st : Int × VmemBuf}

/-- The segments of the sizes that the attempts made so far try. -/
def Tried (as : List ((Bool × VmemType) × Nat)) (g : SegId) : Prop :=
  g.2 < VMEM_SHM_COUNT ∧ ∃ a ∈ as, a.1 = (true, g.1)

theorem trySave_search (hfree : ∀ j, LocksFree (env j)) (as : List ((Bool × VmemType) × Nat))
    (a : (Bool × VmemType) × Nat)
    (h : SearchOutcome room (Tried as) (SameRoom pdata room) st) :
    SearchOutcome room (Tried (as ++ [a])) (SameRoom pdata room) (trySave env pdata st a) := by
  obtain ⟨⟨test, type⟩, j⟩ := a
  have hmono : ∀ g, Tried as g → Tried (as ++ [((test, type), j)]) g :=
    fun g hg => ⟨hg.1, hg.2.imp fun a ha => ⟨List.mem_append_left _ ha.1, ha.2⟩⟩
  unfold trySave
  split
  · rename_i htry
    obtain ⟨hneg, htest⟩ := htry
    have hnew := saveDataLoop_search (hfree j) type (List.range VMEM_SHM_COUNT) (h.same_of_neg hneg)
    refine (h.after hneg hnew).congr ?_
    intro g
    rw [List.mem_range]
    constructor
    · rintro (⟨rfl, hlt⟩ | hg)
      · refine ⟨hlt, _, List.mem_append_right _ (List.mem_singleton_self _), ?_⟩
        exact Prod.ext htest rfl
      · exact hmono g hg
    · rintro ⟨hlt, a, ha, heq⟩
      rcases List.mem_append.mp ha with ha | ha
      · exact Or.inr ⟨hlt, a, ha, heq⟩
      · obtain rfl := List.mem_singleton.mp ha
        exact Or.inl ⟨(Prod.mk.inj heq).2.symm, hlt⟩
  · rename_i htry
    by_cases hneg : st.1 < 0
    · refine h.congr fun g => ⟨hmono g, ?_⟩
      rintro ⟨hlt, a, ha, heq⟩
      rcases List.mem_append.mp ha with ha | ha
      · exact ⟨hlt, a, ha, heq⟩
      · obtain rfl := List.mem_singleton.mp ha
        exact absurd ⟨hneg, (Prod.mk.inj heq).1⟩ htry
    · exact h.mono (Int.not_lt.mp hneg) hmono

theorem foldl_trySave_search (hfree : ∀ j, LocksFree (env j))
    (as bs : List ((Bool × VmemType) × Nat))
    (h : SearchOutcome room (Tried as) (SameRoom pdata room) st) :
    SearchOutcome room (Tried (as ++ bs)) (SameRoom pdata room)
      (bs.foldl (trySave env pdata) st) := by
  induction bs generalizing as st with
  | nil =>
    rw [List.append_nil]
    exact h
  | cons a bs ih =>
    rw [List.append_cons, List.foldl_cons]
    exact ih _ (trySave_search hfree as a h)

theorem mem_saveAttempts (n : Nat) (type : VmemType) : (true, type) ∈ saveAttempts n := by
  cases type with
  | v16 => rcases Nat.le_total n 16 with h | h <;> simp [saveAttempts, h]
  | v32 => rcases Nat.le_total n 32 with h | h <;> simp [saveAttempts, h]
  | v64 => rcases Nat.le_total n 64 with h | h <;> simp [saveAttempts, h]
  | v128 => rcases Nat.le_total n 128 with h | h <;> simp [saveAttempts, h]
  | v255 => rcases Nat.le_total n 255 with h | h <;> simp [saveAttempts, h]

theorem saveToVmem_search (hpos : 0 < pdata.length) (hmax : pdata.length ≤ VMEM_MAX_DATA_LEN)
    (hfree : ∀ j, LocksFree (env j)) (h : SameRoom pdata room b) :
    SearchOutcome room (fun g => g ∈ allSegments) (SameRoom pdata room)
      (saveToVmem env b pdata) := by
  have hlen : ¬ (pdata.length ≤ 0 ∨ VMEM_MAX_DATA_LEN < pdata.length) := by omega
  have hstart : SearchOutcome room (Tried []) (SameRoom pdata room) ((-1 : Int), b) :=
    Or.inr ⟨(by decide : (-1 : Int) < 0), h, fun g ⟨_, a, ha, _⟩ => absurd ha List.not_mem_nil⟩
  have hsave : saveToVmem env b pdata =
      (saveAttempts pdata.length).zipIdx.foldl (trySave env pdata) (-1, b) := by
    unfold saveToVmem
    rw [h.1, if_neg hlen]
    rfl
  rw [hsave]
  refine (foldl_trySave_search hfree [] _ hstart).congr ?_
  intro g
  rw [mem_allSegments, List.nil_append]
  refine and_iff_left ?_
  obtain ⟨j, hj⟩ := List.mem_iff_getElem?.mp (mem_saveAttempts pdata.length g.1)
  exact ⟨_, List.mk_mem_zipIdx_iff_getElem?.mpr hj, rfl⟩

end Search

theorem succeeds_iff_hasRoom {b : VmemBuf} {pdata : List UInt8} (hpos : 0 < pdata.length)
    (hmax : pdata.length ≤ VMEM_MAX_DATA_LEN) (hinit : b.cIsInit = true)
    {env : Nat → Nat → VmemEnv} (hfree : ∀ k j, LocksFree (env k j)) :
    Succeeds (fun k b => saveToVmem (env k) b pdata) b ↔ HasRoom b pdata := by
  have hsame : SameRoom pdata (RoomIn pdata b) b := ⟨hinit, fun _ => Iff.rfl⟩
  exact succeeds_iff (fun k q hq => saveToVmem_search hpos hmax (hfree k) hq) hsame

/-- In every state that the client's or the server's calls reach, and for every length: cells freed
without the flag are found by saves made again exactly if no segment has enough cells outside the
live chains or some segment has enough of them on its free list. -/
theorem deferred_reclaimed {pdata : List UInt8} (hpos : 0 < pdata.length)
    (hmax : pdata.length ≤ VMEM_MAX_DATA_LEN) :
    (∀ r, Vmem.Reached r →
      (Vmem.Reclaims r pdata ↔ (Vmem.EnoughSpare r pdata → Vmem.HasRoom r.pools pdata))) ∧
    (∀ r, Reached r → (Reclaims r pdata ↔ (EnoughSpare r pdata → HasRoom r.buf pdata))) := by
  constructor
  · intro r hr
    obtain ⟨live, hinv⟩ := hr.inv
    refine forall_congr' fun _ => ?_
    constructor
    · intro hsaves
      have hfree : ∀ _ : Nat, LocksFree uncontended := fun _ => locksFree_uncontended
      exact (Vmem.succeeds_iff_hasRoom hpos hmax hinv.pools.init hfree).mp (hsaves _ hfree)
    · intro hroom env hfree
      exact (Vmem.succeeds_iff_hasRoom hpos hmax hinv.pools.init hfree).mpr hroom
  · intro r hr
    obtain ⟨live, hinv⟩ := hr.inv
    refine forall_congr' fun _ => ?_
    constructor
    · intro hsaves
      have hfree : ∀ _ _ : Nat, LocksFree uncontended := fun _ _ => locksFree_uncontended
      exact (succeeds_iff_hasRoom hpos hmax hinv.buf.init hfree).mp (hsaves _ hfree)
    · intro hroom env hfree
      exact (succeeds_iff_hasRoom hpos hmax hinv.buf.init hfree).mpr hroom

theorem deferred_reclaimed_start :
    (Vmem.Reached vmemStart ∧ Vmem.Reclaims vmemStart [1, 2, 3]) ∧
      Reached bufStart ∧ Reclaims bufStart [1, 2, 3] := by
  have hclient : Vmem.Reached vmemStart := ⟨[], [], trivial, rfl⟩
  have hserver : Reached bufStart := ⟨[], [], trivial, rfl⟩
  have hpos : 0 < ([1, 2, 3] : List UInt8).length := by decide
  have hboth := deferred_reclaimed hpos (by decide)
  refine ⟨⟨hclient, (hboth.1 _ hclient).mpr fun _ => ?_⟩, hserver,
    (hboth.2 _ hserver).mpr fun _ => ?_⟩
  · exact ⟨(.v16, 0), by decide, by decide⟩
  · exact ⟨(.v16, 0), by decide, by change 1 + needCount 16 3 ≤ 30000; decide⟩

/-- In some state that the client reaches a cell is free, but no save of one byte succeeds again. -/
theorem deferred_lost : ∃ r, Vmem.Reached r ∧ ¬ Vmem.Reclaims r [1] := by
  obtain ⟨r, hr, hspare, hfull⟩ := exists_deferred
  obtain ⟨live, hinv⟩ := hr.inv
  refine ⟨r, hr, fun hsaves => hfull ?_⟩
  have hfree : ∀ _ : Nat, LocksFree uncontended := fun _ => locksFree_uncontended
  exact (Vmem.succeeds_iff_hasRoom (by decide) (by decide) hinv.pools.init hfree).mp
    (hsaves hspare _ hfree)

end XrkMonitor.ServerVmem
