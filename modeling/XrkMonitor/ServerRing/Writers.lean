import XrkMonitor.ServerRing.Invariant

/-!
# Several writers on one log ring

The reader visits the cells from the start index up to the write index. A
completed write whose log is not delivered is to be among them. Writes complete
in any order, and the one that is first to find the ring empty sets the start
index to its own cell, so a cell reserved before it falls out of the range. In a
run whose steps meet `StepOk` no log is lost.
-/

namespace XrkMonitor.ServerRing

open Library

variable {F : Type}

/-- The number of cells from the start index up to the write index. -/
def TSLogShm.rangeCount (shm : TSLogShm F) : Nat :=
  if shm.iLogStarIndex < 0 then 0
  else if shm.iLogStarIndex = shm.iWriteIndex then shm.iLogMaxCount
  else (shm.iWriteIndex + shm.iLogMaxCount - shm.iLogStarIndex.toNat) % shm.iLogMaxCount

/-- The cells from the start index up to the write index, which the reader will visit. -/
def TSLogShm.range (shm : TSLogShm F) : List Nat :=
  (List.range shm.rangeCount).map fun j => (shm.iLogStarIndex.toNat + j) % shm.iLogMaxCount

/-- The write is in the range of the reader, and its cell holds its log. -/
def InReach (s : RingState F) (w : LogWrite F) : Prop :=
  w.iIndex ∈ s.shm.range ∧ s.shm.sLogList w.iIndex = ⟨w.dwSeq, w.log⟩

section Range

variable {s : RingState F}

theorem mem_range_of_window {shm : TSLogShm F} {a b k : Nat} (hN : 0 < shm.iLogMaxCount)
    (hS : shm.iLogStarIndex = (a % shm.iLogMaxCount : Nat))
    (hW : shm.iWriteIndex = b % shm.iLogMaxCount) (hroom : b ≤ a + shm.iLogMaxCount)
    (ha : a ≤ k) (hk : k < b) : k % shm.iLogMaxCount ∈ shm.range := by
  have hcount : shm.rangeCount = b - a := by
    unfold TSLogShm.rangeCount
    rw [hS, hW, Int.toNat_natCast, if_neg (by omega)]
    have halt := Nat.mod_lt a hN
    by_cases hfull : b = a + shm.iLogMaxCount
    · rw [if_pos (by rw [hfull, Nat.add_mod_right])]
      omega
    · have hlt : b < a + shm.iLogMaxCount := by omega
      have hne : ¬ ((a % shm.iLogMaxCount : Nat) : Int) = (b % shm.iLogMaxCount : Nat) := by
        intro heq
        have hsame := ring_mod_inj (by omega : a ≤ b) hlt (Int.ofNat.inj heq)
        omega
      rw [if_neg hne, ring_distance (by omega) hlt]
  refine List.mem_map.mpr ⟨k - a, List.mem_range.mpr (by omega), ?_⟩
  rw [hS, Int.toNat_natCast, Nat.mod_add_mod, Nat.add_sub_cancel' ha]

theorem RingInv.inReach (h : RingInv s) {k : Nat} {w : LogWrite F} (hw : s.writes[k]? = some w)
    (hphase : w.phase = .done) : s.delivered[k]? = some w.log ∨ InReach s w := by
  have hlt := lt_length_of_getElem? hw
  by_cases hk : k < s.delivered.length
  · left
    rw [h.order, List.getElem?_take_of_lt hk, List.getElem?_map, hw]
    rfl
  · right
    have hd : s.delivered.length ≤ k := by omega
    have hindex := (h.cells.index k w hw).1
    have hcell := h.cells.published k w hw hd (by simp [hphase])
    rw [InReach, hindex]
    refine ⟨?_, hcell⟩
    cases h.start with
    | empty _ _ _ hdone => exact absurd hphase (hdone k w hw hd)
    | next hS _ hroom _ => exact mem_range_of_window h.pos hS h.write hroom hd hlt
    | behind e he hS hroom _ => exact mem_range_of_window h.pos hS h.write hroom (by omega) hlt

end Range

theorem emptyRing_inv {iLogMaxCount : Nat} (hN : 0 < iLogMaxCount) (dwLogSeq : Nat)
    (cells : Nat → TSLog F) : RingInv (emptyRing iLogMaxCount dwLogSeq cells) where
  pos := hN
  write := (Nat.zero_mod _).symm
  le := le_refl _
  order := rfl
  cells := ⟨by simp [emptyRing], by simp [emptyRing], by simp [emptyRing]⟩
  start := StartOk.empty rfl rfl (Nat.zero_le _) (by simp [emptyRing])

/-- In a run whose steps meet the condition, every completed write is delivered or in the range of
the reader. -/
theorem no_log_lost (kind : Reader) {iLogMaxCount : Nat} (hN : 0 < iLogMaxCount) (dwLogSeq : Nat)
    (cells : Nat → TSLog F) (steps : List (RingStep F))
    (hok : Admissible (ringRun kind) StepOk (emptyRing iLogMaxCount dwLogSeq cells) steps) :
    ∃ os s, runSteps (ringRun kind) (emptyRing iLogMaxCount dwLogSeq cells) steps = some (os, s) ∧
      ∀ (k : Nat) (w : LogWrite F), s.writes[k]? = some w → w.phase = .done →
        s.delivered[k]? = some w.log ∨ InReach s w := by
  have hstep : ∀ (s : RingState F) a, RingInv s → StepOk s a →
      ∃ o s', ringRun kind s a = some (o, s') ∧ True ∧ RingInv s' := by
    intro s a h ha
    exact ⟨_, _, rfl, trivial, h.step kind a ha⟩
  obtain ⟨os, s, hrun, -, h⟩ := run_invariant (O := fun _ _ => True) hstep steps _
    (emptyRing_inv hN dwLogSeq cells) hok
  exact ⟨os, s, hrun, fun k w hw hphase => h.inReach hw hphase⟩

/-- A ring of four cells whose logs are numbers. -/
def smallRing : RingState Nat := emptyRing 4 1 fun _ => ⟨0, 0⟩

/-- Two writes that complete in the order of their cells, and the delivery of the first. -/
def orderedWrites : List (RingStep Nat) :=
  [.reserve 10, .reserve 20, .publish 0, .check 0, .start 0, .publish 1, .check 1, .readStart,
    .readLog false, .compare, .advance false]

theorem no_log_lost_orderedWrites :
    ∃ os s, runSteps (ringRun .writeFile) smallRing orderedWrites = some (os, s) ∧
      ∀ (k : Nat) (w : LogWrite Nat), s.writes[k]? = some w → w.phase = .done →
        s.delivered[k]? = some w.log ∨ InReach s w :=
  no_log_lost .writeFile (by decide) 1 _ orderedWrites (by decide +kernel)

/-- Two writes of which the second completes first. -/
def overtakenWrite : List (RingStep Nat) :=
  [.reserve 10, .reserve 20, .publish 1, .check 1, .start 1, .publish 0, .check 0]

/-- The write that reserved first completes outside of the range of the reader. -/
theorem overtaken_write_lost :
    ∃ os s, runSteps (ringRun .writeFile) smallRing overtakenWrite = some (os, s) ∧
      ∃ w, s.writes[0]? = some w ∧ w.phase = .done ∧
        ¬ (s.delivered[0]? = some w.log ∨ InReach s w) := by
  have hviews : (runSteps (ringRun .writeFile) smallRing overtakenWrite).map
      (fun r => (r.2.writes[0]?, r.2.delivered, r.2.shm.range)) =
        some (some ⟨0, 1, 10, .done⟩, [], [1]) := by decide +kernel
  obtain ⟨⟨os, s⟩, hrun, hview⟩ := Option.map_eq_some_iff.mp hviews
  obtain ⟨hw, hrest⟩ := Prod.mk.inj hview
  obtain ⟨hdelivered, hrange⟩ := Prod.mk.inj hrest
  refine ⟨os, s, hrun, _, hw, rfl, ?_⟩
  rintro (hlog | ⟨hmem, -⟩)
  · rw [hdelivered] at hlog
    simp at hlog
  · rw [hrange] at hmem
    simp at hmem

end XrkMonitor.ServerRing
