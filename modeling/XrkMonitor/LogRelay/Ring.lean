import XrkMonitor.ServerRing.Steps

/-!
# The logs that a ring holds

Between calls a ring of logs is a queue: the start index is at the oldest log, or -1 where there is
none, and the write index is behind the newest one. A log is taken out at the start index and a new
one is put in at the write index, unless that is the start index.

## Implementation notes

The positions of the logs are plain numbers, of which the cells are the remainders. The calls come
one after the other; `ServerRing` is about calls that overlap.
-/

namespace XrkMonitor.LogRelay

open Library ServerRing

variable {F : Type}

/-- The ring holds the logs from a position on, the oldest first, and each is published. -/
structure HoldsFrom (shm : TSLogShm F) (first : Nat) (logs : List (TSLog F)) : Prop where
  pos : 0 < shm.iLogMaxCount
  length_le : logs.length ≤ shm.iLogMaxCount
  write : shm.iWriteIndex = (first + logs.length) % shm.iLogMaxCount
  start_nil : logs = [] → shm.iLogStarIndex = -1
  start : logs ≠ [] → shm.iLogStarIndex = (first % shm.iLogMaxCount : Nat)
  cell : ∀ j log, logs[j]? = some log →
    shm.sLogList ((first + j) % shm.iLogMaxCount) = log ∧ log.dwLogSeq ≠ 0

/-- The ring holds the logs, the oldest first. -/
def RingHolds (shm : TSLogShm F) (logs : List (TSLog F)) : Prop := ∃ first, HoldsFrom shm first logs

/-- `ModifyLogStartIndexCmpAndSwap`, with no other call on its way. -/
def modifyLogStartIndex (shm : TSLogShm F) (iOld : Int) (iNew : Nat) : TSLogShm F :=
  if iOld = shm.iLogStarIndex then { shm with iLogStarIndex := swapStart shm iNew } else shm

/-- A log is put into the cell at the write index. -/
def putLog (shm : TSLogShm F) (log : F) : TSLogShm F :=
  modifyLogStartIndex
    { shm with
      iWriteIndex := ringNext shm.iLogMaxCount shm.iWriteIndex
      dwLogSeq := (takeSeq shm.dwLogSeq).2
      sLogList := Function.update shm.sLogList shm.iWriteIndex ⟨(takeSeq shm.dwLogSeq).1, log⟩ }
    (-1) shm.iWriteIndex

/-- The start index moves on from the cell it is at. -/
def dropLog (shm : TSLogShm F) (iLastIndex : Nat) : TSLogShm F :=
  modifyLogStartIndex shm iLastIndex (ringNext shm.iLogMaxCount iLastIndex)

/-- A reader takes up to `n` logs out of the ring. -/
def takeLogs : Nat → TSLogShm F → List (TSLog F) × TSLogShm F
  | 0, shm => ([], shm)
  | n + 1, shm =>
    if shm.iLogStarIndex < 0 then ([], shm)
    else
      let (logs, rest) := takeLogs n (dropLog shm shm.iLogStarIndex.toNat)
      (shm.sLogList shm.iLogStarIndex.toNat :: logs, rest)

section Lemmas

variable {shm : TSLogShm F} {first : Nat} {log : TSLog F} {logs : List (TSLog F)}

theorem takeSeq_ne_zero (dwLogSeq : Nat) : (takeSeq dwLogSeq).1 ≠ 0 := by
  unfold takeSeq
  split
  · exact Nat.one_ne_zero
  · assumption

theorem HoldsFrom.oldest (h : HoldsFrom shm first (log :: logs)) :
    shm.iLogStarIndex = (first % shm.iLogMaxCount : Nat) ∧
      shm.sLogList (first % shm.iLogMaxCount) = log ∧ log.dwLogSeq ≠ 0 :=
  ⟨h.start (List.cons_ne_nil _ _), h.cell 0 log rfl⟩

theorem HoldsFrom.drop (h : HoldsFrom shm first (log :: logs)) :
    HoldsFrom (dropLog shm (first % shm.iLogMaxCount)) (first + 1) logs := by
  have hstart := h.start (List.cons_ne_nil _ _)
  have hwrite : shm.iWriteIndex = (first + 1 + logs.length) % shm.iLogMaxCount := by
    rw [h.write, List.length_cons]
    congr 1
    omega
  have hlen : logs.length + 1 ≤ shm.iLogMaxCount := h.length_le
  have hdrop : dropLog shm (first % shm.iLogMaxCount) =
      { shm with iLogStarIndex := swapStart shm ((first + 1) % shm.iLogMaxCount) } := by
    rw [dropLog, modifyLogStartIndex, if_pos hstart.symm, ringNext_mod h.pos]
  have hswap : swapStart shm ((first + 1) % shm.iLogMaxCount) =
      if logs = [] then -1 else (((first + 1) % shm.iLogMaxCount : Nat) : Int) := by
    rw [swapStart, hstart, if_neg (by omega)]
    by_cases hnil : logs = []
    · rw [if_pos hnil, if_pos]
      rw [hwrite, hnil, List.length_nil, Nat.add_zero]
    · have hpos : 0 < logs.length := List.length_pos_of_ne_nil hnil
      rw [if_neg hnil, if_neg]
      intro heq
      rw [hwrite] at heq
      have := ring_mod_inj (by omega) (by omega) heq
      omega
  rw [hdrop, hswap]
  refine ⟨h.pos, Nat.le_of_succ_le hlen, hwrite, fun hnil => if_pos hnil,
    fun hne => if_neg hne, ?_⟩
  intro j l hj
  have hcell := h.cell (j + 1) l hj
  have hshift : first + (j + 1) = first + 1 + j := by omega
  rw [hshift] at hcell
  exact hcell

theorem HoldsFrom.not_full (h : HoldsFrom shm first logs)
    (hroom : logs.length < shm.iLogMaxCount) :
    (shm.iWriteIndex : Int) ≠ shm.iLogStarIndex := by
  by_cases hnil : logs = []
  · rw [h.start_nil hnil]
    omega
  · have hpos : 0 < logs.length := List.length_pos_of_ne_nil hnil
    rw [h.start hnil, h.write]
    intro heq
    have hmod : first % shm.iLogMaxCount = (first + logs.length) % shm.iLogMaxCount := by omega
    have := ring_mod_inj (by omega) (by omega) hmod
    omega

/-- A log is put behind the newest one. -/
theorem HoldsFrom.put (h : HoldsFrom shm first logs) (hroom : logs.length < shm.iLogMaxCount)
    (log : F) :
    HoldsFrom (putLog shm log) first (logs ++ [⟨(takeSeq shm.dwLogSeq).1, log⟩]) := by
  have hstart : (putLog shm log).iLogStarIndex = (first % shm.iLogMaxCount : Nat) := by
    unfold putLog modifyLogStartIndex
    by_cases hnil : logs = []
    · have hminus := h.start_nil hnil
      have hwrite := h.write
      rw [hnil, List.length_nil, Nat.add_zero] at hwrite
      rw [if_pos hminus.symm]
      dsimp only
      rw [swapStart, if_pos (by rw [hminus]; decide), hwrite]
    · have hfirst := h.start hnil
      rw [if_neg (by rw [hfirst]; omega), hfirst]
  have hrest : (putLog shm log).iLogMaxCount = shm.iLogMaxCount ∧
      (putLog shm log).iWriteIndex = ringNext shm.iLogMaxCount shm.iWriteIndex ∧
      (putLog shm log).sLogList = Function.update shm.sLogList shm.iWriteIndex
        ⟨(takeSeq shm.dwLogSeq).1, log⟩ := by
    unfold putLog modifyLogStartIndex
    split
    · exact ⟨rfl, rfl, rfl⟩
    · exact ⟨rfl, rfl, rfl⟩
  obtain ⟨hmax, hwrite, hcells⟩ := hrest
  refine ⟨?_, ?_, ?_, ?_, ?_, ?_⟩
  · rw [hmax]
    exact h.pos
  · rw [hmax, List.length_append, List.length_singleton]
    exact hroom
  · rw [hwrite, hmax, h.write, ringNext_mod h.pos, List.length_append, List.length_singleton,
      Nat.add_assoc]
  · intro hnil
    exact absurd hnil (List.append_ne_nil_of_right_ne_nil _ (List.cons_ne_nil _ _))
  · intro _
    rw [hmax]
    exact hstart
  · intro j l hj
    rw [hmax, hcells]
    rcases Nat.lt_trichotomy j logs.length with hlt | heq | hgt
    · rw [List.getElem?_append_left hlt] at hj
      have hne : (first + j) % shm.iLogMaxCount ≠ shm.iWriteIndex := by
        rw [h.write]
        intro heq
        have := ring_mod_inj (by omega) (by omega) heq
        omega
      rw [Function.update_of_ne hne]
      exact h.cell j l hj
    · rw [heq, List.getElem?_concat_length] at hj
      rw [heq, ← h.write, Function.update_self, ← Option.some.inj hj]
      exact ⟨rfl, takeSeq_ne_zero _⟩
    · rw [List.getElem?_eq_none (by rw [List.length_append, List.length_singleton]; omega)] at hj
      cases hj

@[simp] theorem iLogMaxCount_putLog (shm : TSLogShm F) (log : F) :
    (putLog shm log).iLogMaxCount = shm.iLogMaxCount := by
  unfold putLog modifyLogStartIndex
  split <;> rfl

@[simp] theorem iLogMaxCount_dropLog (shm : TSLogShm F) (iLastIndex : Nat) :
    (dropLog shm iLastIndex).iLogMaxCount = shm.iLogMaxCount := by
  unfold dropLog modifyLogStartIndex
  split <;> rfl

theorem HoldsFrom.takeLogs (h : HoldsFrom shm first logs) (n : Nat) :
    ∃ shm' first', LogRelay.takeLogs n shm = (logs.take n, shm') ∧
      HoldsFrom shm' first' (logs.drop n) ∧ shm'.iLogMaxCount = shm.iLogMaxCount := by
  induction n generalizing shm first logs with
  | zero => exact ⟨shm, first, rfl, h, rfl⟩
  | succ n ih =>
    cases logs with
    | nil =>
      refine ⟨shm, first, ?_, h, rfl⟩
      rw [LogRelay.takeLogs, if_pos]
      · rfl
      · rw [h.start_nil rfl]
        decide
    | cons log logs =>
      obtain ⟨hstart, hcell, -⟩ := h.oldest
      obtain ⟨shm', first', htake, hrest, hmax⟩ := ih h.drop
      refine ⟨shm', first', ?_, hrest, hmax.trans (iLogMaxCount_dropLog _ _)⟩
      have hindex : shm.iLogStarIndex.toNat = first % shm.iLogMaxCount := by
        rw [hstart]
        rfl
      rw [LogRelay.takeLogs, if_neg (by omega), hindex, hcell, htake]
      rfl

end Lemmas

end XrkMonitor.LogRelay
