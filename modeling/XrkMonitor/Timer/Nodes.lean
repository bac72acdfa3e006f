import XrkMonitor.Timer.Cascade

/-!
# The nodes of the timer hash

A key other than zero stands in one cell, which is a cell of that key. While no
node in use is abandoned, a search writes nothing and finds the node of its key.
-/

namespace XrkMonitor.Timer

open Library

/-- The nodes in use, and the linked nodes `P` among them. -/
structure NodesOk (t : MtReportTimer) (P : Set Nat) : Prop where
  key : ∀ c ∈ P, (t.stHash c).uiKey ≠ 0
  cell : ∀ c, (t.stHash c).uiKey ≠ 0 →
    ∃ row, row < STATIC_HASH_ROW_MAX ∧ c = hashCell row (t.stHash c).uiKey
  inj : ∀ c d, (t.stHash c).uiKey ≠ 0 → (t.stHash c).uiKey = (t.stHash d).uiKey → c = d
  used : ∀ c, (t.stHash c).uiKey ≠ 0 → (t.stHash c).dwProcessId = t.dwProcessId ∧
    t.qwBaseTime ≤ (t.stHash c).qwExpireTime
  base : t.qwBaseTime ≤ t.qwCurTime
  expire : ∀ c ∈ P, (t.stHash c).uiExpire =
    ((t.stHash c).qwExpireTime - t.qwBaseTime) / MT_TIMER_CHECK_INTVALUS

/-- No node in use expired more than five minutes ago. -/
def Fresh (t : MtReportTimer) : Prop :=
  ∀ c, (t.stHash c).uiKey ≠ 0 → t.qwCurTime ≤ (t.stHash c).qwExpireTime + 5 * 60 * 1000 * 1000

section

variable {t : MtReportTimer} {P : Set Nat} {c : Nat}

theorem NodesOk.congr (h : NodesOk t P) {t' : MtReportTimer} (hhash : t'.stHash = t.stHash)
    (hpid : t'.dwProcessId = t.dwProcessId) (hbase : t'.qwBaseTime = t.qwBaseTime)
    (hcur : t.qwCurTime ≤ t'.qwCurTime) : NodesOk t' P := by
  constructor
  · rw [hhash]
    exact h.key
  · rw [hhash]
    exact h.cell
  · rw [hhash]
    exact h.inj
  · rw [hhash, hpid, hbase]
    exact h.used
  · rw [hbase]
    exact h.base.trans hcur
  · rw [hhash, hbase]
    exact h.expire

theorem NodesOk.fresh (h : NodesOk t P)
    (hcur : t.qwCurTime ≤ t.qwBaseTime + 5 * 60 * 1000 * 1000) : Fresh t := by
  intro c hc
  have hbase := (h.used c hc).2
  omega

theorem NodesOk.cell_lt (h : NodesOk t P) (hc : (t.stHash c).uiKey ≠ 0) : c < 11170 := by
  obtain ⟨row, hrow, hcell⟩ := h.cell c hc
  have hmod : (t.stHash c).uiKey % 1117 < 1117 := Nat.mod_lt _ (by decide)
  simp only [STATIC_HASH_ROW_MAX] at hrow
  simp only [hashCell, TIMER_HASH_NODE_COUNT] at hcell
  omega

theorem NodesOk.cmp (h : NodesOk t P) (hf : Fresh t) (uiKey c : Nat) :
    timerHashCmpFun t uiKey c = (uiKey == (t.stHash c).uiKey, t) := by
  unfold timerHashCmpFun
  by_cases ha : Abandoned t c
  · have hzero : (t.stHash c).uiKey = 0 := by
      by_contra hne
      rcases ha with hpid | hold
      · exact hpid (h.used c hne).1
      · exact absurd (hf c hne) (Nat.not_le.mpr hold)
    have hnode : ({ t.stHash c with uiKey := 0 } : TimerNode) = t.stHash c := by
      rw [← hzero]
    have hset : setNode t c (t.stHash c) = t := by
      simp only [setNode, Function.update_eq_self]
    simp only [if_pos ha, hnode, hset]
  · simp only [if_neg ha]

theorem NodesOk.search (h : NodesOk t P) (hf : Fresh t) (uiKey : Nat) (rows : List Nat) :
    hashTableSearchNoList uiKey rows t =
      ((rows.find? fun row => uiKey == (t.stHash (hashCell row uiKey)).uiKey).map
        (hashCell · uiKey), t) := by
  induction rows with
  | nil => rfl
  | cons row rows ih =>
    simp only [hashTableSearchNoList, h.cmp hf, List.find?_cons]
    cases uiKey == (t.stHash (hashCell row uiKey)).uiKey with
    | false => simpa using ih
    | true => simp

theorem NodesOk.search_found (h : NodesOk t P) (hf : Fresh t) (hc : (t.stHash c).uiKey ≠ 0) :
    hashTableSearchNoList (t.stHash c).uiKey (List.range STATIC_HASH_ROW_MAX) t = (some c, t) := by
  rw [h.search hf]
  obtain ⟨row, hrow, hcell⟩ := h.cell c hc
  generalize hfind : (List.range STATIC_HASH_ROW_MAX).find?
    (fun row => (t.stHash c).uiKey == (t.stHash (hashCell row (t.stHash c).uiKey)).uiKey) = r
  cases r with
  | none =>
    have hnone := List.find?_eq_none.mp hfind row (List.mem_range.mpr hrow)
    rw [← hcell] at hnone
    simp at hnone
  | some row' =>
    have heq := List.find?_some hfind
    have hcd : c = hashCell row' (t.stHash c).uiKey :=
      h.inj c _ hc (by simpa using heq)
    simp [← hcd]

theorem NodesOk.search_cases (h : NodesOk t P) (hf : Fresh t) (uiKey : Nat) :
    hashTableSearchNoList uiKey (List.range STATIC_HASH_ROW_MAX) t = (none, t) ∨
      ∃ c, (t.stHash c).uiKey = uiKey ∧
        hashTableSearchNoList uiKey (List.range STATIC_HASH_ROW_MAX) t = (some c, t) := by
  rw [h.search hf]
  generalize hfind : (List.range STATIC_HASH_ROW_MAX).find?
    (fun row => uiKey == (t.stHash (hashCell row uiKey)).uiKey) = r
  cases r with
  | none => exact Or.inl rfl
  | some row =>
    have heq := List.find?_some hfind
    exact Or.inr ⟨hashCell row uiKey, (by simpa using heq : uiKey = _).symm, rfl⟩

/-- The search for a node to use writes nothing, and a node it gives for a new key is
an empty cell of that key. -/
theorem NodesOk.searchEx (h : NodesOk t P) (hf : Fresh t) (uiKey : Nat) (rows : List Nat)
    (pEmptyNode : Option Nat) :
    ∃ isFind pNode, hashTableSearchExNoList uiKey rows pEmptyNode t = (isFind, pNode, t) ∧
      (isFind = false → (∀ row ∈ rows, (t.stHash (hashCell row uiKey)).uiKey ≠ uiKey) ∧
        ∀ c, pNode = some c → pEmptyNode = some c ∨
          (t.stHash c).uiKey = 0 ∧ ∃ row ∈ rows, c = hashCell row uiKey) := by
  induction rows generalizing pEmptyNode with
  | nil =>
    refine ⟨false, pEmptyNode, rfl, ?_⟩
    intro _
    exact ⟨by simp, fun c hc => Or.inl hc⟩
  | cons row rows ih =>
    simp only [hashTableSearchExNoList, h.cmp hf]
    by_cases heq : uiKey = (t.stHash (hashCell row uiKey)).uiKey
    · refine ⟨true, some (hashCell row uiKey), ?_, by simp⟩
      rw [if_pos (by simpa using heq)]
    · rw [if_neg (by simpa using heq)]
      by_cases hnone : pEmptyNode.isNone
      · rw [if_pos hnone]
        obtain ⟨isFind, pNode, hres, hspec⟩ :=
          ih (if (0 == (t.stHash (hashCell row uiKey)).uiKey) = true
            then some (hashCell row uiKey) else none)
        refine ⟨isFind, pNode, hres, ?_⟩
        intro hfalse
        obtain ⟨hrows, hnode⟩ := hspec hfalse
        refine ⟨?_, ?_⟩
        · simp only [List.mem_cons, forall_eq_or_imp]
          exact ⟨fun h => heq h.symm, hrows⟩
        · intro c hc
          rcases hnode c hc with hempty | ⟨hkey, row', hrow', hcell⟩
          · split at hempty
            · rename_i hzero
              obtain rfl : hashCell row uiKey = c := by simpa using hempty
              have hzero : 0 = (t.stHash (hashCell row uiKey)).uiKey := by simpa using hzero
              exact Or.inr ⟨hzero.symm, row, by simp, rfl⟩
            · cases hempty
          · exact Or.inr ⟨hkey, row', by simp [hrow'], hcell⟩
      · rw [if_neg hnone]
        obtain ⟨isFind, pNode, hres, hspec⟩ := ih pEmptyNode
        refine ⟨isFind, pNode, hres, ?_⟩
        intro hfalse
        obtain ⟨hrows, hnode⟩ := hspec hfalse
        refine ⟨?_, ?_⟩
        · simp only [List.mem_cons, forall_eq_or_imp]
          exact ⟨fun h => heq h.symm, hrows⟩
        · intro c hc
          rcases hnode c hc with hempty | ⟨hkey, row', hrow', hcell⟩
          · exact Or.inl hempty
          · exact Or.inr ⟨hkey, row', by simp [hrow'], hcell⟩

end

end XrkMonitor.Timer
