import XrkMonitor.SharedHash.Operations

/-!
# Inserting behind a cell of the list

`InsertHashNodeAfter` links a cell in directly behind another one. In the middle of the list it
sets all four links. Behind the last cell it leaves the end index on the cell in front of the new
one, so the backward walk misses the new cell.

## Implementation notes

The operation is for tables that one process writes. If the table names another process as its
writer, the entry of the operation clears the whole table before the cell is linked in.
-/

namespace XrkMonitor.SharedHash

open Library SharedHashTable

variable {α : Type*} [Inhabited α] {t : SharedHashTable α} {l₁ l₂ : List Nat} {i p : Nat}

/-- The linking part of `InsertHashNodeAfter`. -/
def linkAfter (t : SharedHashTable α) (dwNodeIndex dwIndex : Nat) : SharedHashTable α :=
  let t := t.setUseCount (wordInc 32 t.head.dwNodeUseCount)
  let dwOldNextIndex := t.next dwIndex
  let t := t.setNext dwNodeIndex dwOldNextIndex
  let t := t.setPre dwNodeIndex dwIndex
  let t := t.setNext dwIndex dwNodeIndex
  if t.dwRealNodeCount ≤ dwOldNextIndex then t.setEnd dwIndex
  else t.setPre dwOldNextIndex dwNodeIndex

/-- `InsertHashNodeAfter`. -/
def insertHashNodeAfter (env : LockEnv) (t : SharedHashTable α) (dwNodeIndex dwIndex : Nat) :
    Int × SharedHashTable α :=
  if !t.bInitSuccess then (-1, t)
  else if t.dwRealNodeCount ≤ dwIndex then (-2, t)
  else
    match enterWrite env t with
    | (false, t) => (-33, t)
    | (true, t) => (0, ((linkAfter t dwNodeIndex dwIndex).setUsed dwNodeIndex true).unlock)

/-- The writer that the table names, if it names one, is the caller. -/
def WritesTable (env : LockEnv) (t : SharedHashTable α) : Prop :=
  t.head.dwWriteProcessId = 0 ∨ env.pid = t.head.dwWriteProcessId

omit [Inhabited α] in
theorem linkAfter_linked {q : Nat} (h : Linked t (l₁ ++ p :: q :: l₂)) (hi : i < t.dwRealNodeCount)
    (hn : i ∉ l₁ ++ p :: q :: l₂)
    (hc : wordInc 32 t.head.dwNodeUseCount = t.head.dwNodeUseCount + 1) :
    Linked ((linkAfter t i p).setUsed i true) (l₁ ++ p :: i :: q :: l₂) := by
  have hnext : t.next p = q := next_of_cons h
  have hq : ¬ t.dwRealNodeCount ≤ q := not_le.mpr (h.lt (by simp))
  have hlink := link_between h hi hn hc
  rw [← setPre_setNext] at hlink
  simpa [linkAfter, setUseCount, hnext, hq] using hlink

omit [Inhabited α] in
theorem dwNodeEndIndex_linkAfter (h : Linked t (l₁ ++ [p])) :
    (linkAfter t i p).head.dwNodeEndIndex = p := by
  have hnext : t.next p = t.dwRealNodeCount := next_of_last h
  simp [linkAfter, setUseCount, setEnd, hnext]

omit [Inhabited α] in
theorem dwNodeStartIndex_linkAfter (t : SharedHashTable α) (i p : Nat) :
    (linkAfter t i p).head.dwNodeStartIndex = t.head.dwNodeStartIndex := by
  unfold linkAfter
  simp only
  split_ifs <;> simp [setUseCount, setEnd]

omit [Inhabited α] in
theorem dwRealNodeCount_linkAfter (t : SharedHashTable α) (i p : Nat) :
    (linkAfter t i p).dwRealNodeCount = t.dwRealNodeCount := by
  unfold linkAfter
  simp only
  split_ifs <;> simp [setUseCount, setEnd]

theorem enterWrite_cases {env : LockEnv} {l : List Nat} {t' : SharedHashTable α} (h : Linked t l)
    (hinit : t.bInitSuccess = true) (henter : enterWrite env t = (true, t')) :
    t'.dwRealNodeCount = t.dwRealNodeCount ∧
      ((WritesTable env t ∧ Linked t' l ∧ t'.head.dwNodeUseCount = t.head.dwNodeUseCount) ∨
        (¬ WritesTable env t ∧ t'.head.dwNodeStartIndex = t.dwRealNodeCount)) := by
  unfold enterWrite at henter
  by_cases hpid : t.head.dwWriteProcessId ≠ 0
  · rw [if_pos hpid] at henter
    by_cases hown : env.pid = t.head.dwWriteProcessId
    · rw [if_pos hown] at henter
      obtain rfl := (Prod.mk.inj henter).2
      exact ⟨rfl, Or.inl ⟨Or.inr hown, h, rfl⟩⟩
    · rw [if_neg hown] at henter
      obtain rfl := (Prod.mk.inj henter).2
      have hcleared : (t.setHead { t.head with bHashUseFlag := false }).bInitSuccess = true := hinit
      rw [accessCheckFailed, resetHashTable, if_pos hcleared]
      exact ⟨rfl, Or.inr ⟨not_or.mpr ⟨hpid, hown⟩, rfl⟩⟩
  · rw [if_neg hpid] at henter
    by_cases hlock : lockLoop env t.head.bHashUseFlag
    · rw [if_pos hlock] at henter
      obtain rfl := (Prod.mk.inj henter).2
      exact ⟨rfl, Or.inl ⟨Or.inl (not_not.mp hpid), h.of_head _ rfl rfl rfl, rfl⟩⟩
    · rw [if_neg hlock] at henter
      exact absurd (Prod.mk.inj henter).1 (by decide)

/-- A successful `InsertHashNodeAfter` of an unused cell puts it directly behind the cell `dwIndex`
exactly when that is not the last cell of the list, and the caller may write the table. -/
theorem insertHashNodeAfter_linked (env : LockEnv) (t t' : SharedHashTable α) (l₁ l₂ : List Nat)
    (i p : Nat) (h : Linked t (l₁ ++ p :: l₂)) (hword : t.dwRealNodeCount < 2 ^ 32)
    (hi : i < t.dwRealNodeCount) (hn : t.used i = false)
    (hret : insertHashNodeAfter env t i p = (0, t')) :
    Linked t' (l₁ ++ p :: i :: l₂) ↔ l₂ ≠ [] ∧ WritesTable env t := by
  have hout : i ∉ l₁ ++ p :: l₂ := by
    intro hmem
    have hused := h.used hmem
    rw [hn] at hused
    cases hused
  unfold insertHashNodeAfter at hret
  split_ifs at hret with hinit hlt
  · exact absurd (Prod.mk.inj hret).1 (by decide)
  · exact absurd (Prod.mk.inj hret).1 (by decide)
  split at hret
  · exact absurd (Prod.mk.inj hret).1 (by decide)
  rename_i s henter
  obtain rfl := (Prod.mk.inj hret).2
  obtain ⟨hreal, hcase⟩ := enterWrite_cases h (by simpa using hinit) henter
  rcases hcase with ⟨hwrites, hs, hcount⟩ | ⟨hwrites, hstart⟩
  · cases l₂ with
    | nil =>
      refine iff_of_false ?_ fun hne => hne.1 rfl
      intro hlink
      have hend : (((linkAfter s i p).setUsed i true).unlock).head.dwNodeEndIndex = p :=
        dwNodeEndIndex_linkAfter hs
      have hsplit : l₁ ++ [p, i] = (l₁ ++ [p]) ++ i :: [] := by simp
      rw [hsplit] at hlink
      have hlast := (hlink.bwd_split (l₁ ++ [p]) []).1
      rw [hend] at hlast
      have hpi : p = i := hlast
      exact hout (hpi ▸ by simp)
    | cons q l₂ =>
      refine iff_of_true ?_ ⟨List.cons_ne_nil q l₂, hwrites⟩
      have hlen := h.length_lt hi hout
      have hc : wordInc 32 s.head.dwNodeUseCount = s.head.dwNodeUseCount + 1 := by
        apply wordInc_of_lt
        rw [hcount, h.count]
        omega
      exact (linkAfter_linked hs (hreal ▸ hi) hout hc).of_head _ rfl rfl rfl
  · refine iff_of_false ?_ fun hboth => hwrites hboth.2
    intro hlink
    have hhead : (((linkAfter s i p).setUsed i true).unlock).head.dwNodeStartIndex =
        (((linkAfter s i p).setUsed i true).unlock).dwRealNodeCount := by
      calc
        _ = s.head.dwNodeStartIndex := dwNodeStartIndex_linkAfter s i p
        _ = s.dwRealNodeCount := hstart.trans hreal.symm
        _ = _ := (dwRealNodeCount_linkAfter s i p).symm
    have hempty := hlink.start_eq_iff.mp hhead
    simp at hempty

/-- A table of four cells whose list is the cells `0` and `1`. -/
def twoLinked : SharedHashTable Unit where
  dwNodeSize := 0
  dwRealNodeCount := 4
  dwShareMemBytes := 65
  dwNodeNums := [4]
  bInitSuccess := true
  bAccessCheck := false
  dwCurIndex := 4
  dwCurIndexRevers := 4
  funCmp := fun _ _ => 0
  head := ⟨0, 1, 2, 0, 0, false⟩
  nodeHead := fun i => if i = 0 then ⟨true, 4, 1⟩ else if i = 1 then ⟨true, 0, 4⟩ else ⟨false, 4, 4⟩
  node := fun _ => ()
  attrSpec := []

theorem linked_twoLinked : Linked twoLinked [0, 1] where
  fwd := ⟨rfl, rfl, rfl⟩
  bwd := ⟨rfl, rfl, rfl⟩
  nodup := by decide
  mem := by
    intro i
    by_cases h0 : i = 0
    · subst h0
      decide
    · by_cases h1 : i = 1
      · subst h1
        decide
      · simp [used, twoLinked, h0, h1]
  count := rfl

/-- The flag is free, and the caller is process `1`. -/
def freeFlag : LockEnv := ⟨fun _ => false, 5, 1⟩

theorem insertHashNodeAfter_first :
    Linked (insertHashNodeAfter freeFlag twoLinked 2 0).2 [0, 2, 1] :=
  (insertHashNodeAfter_linked freeFlag twoLinked _ [] [1] 2 0 linked_twoLinked (by decide)
    (by decide) (by decide) rfl).mpr ⟨List.cons_ne_nil 1 [], Or.inl rfl⟩

/-- Behind the last cell: the insertion reports success, and the end index still names cell `1`. -/
theorem insertHashNodeAfter_last :
    Linked twoLinked [0, 1] ∧ (insertHashNodeAfter freeFlag twoLinked 2 1).1 = 0 ∧
      ¬ Linked (insertHashNodeAfter freeFlag twoLinked 2 1).2 [0, 1, 2] := by
  refine ⟨linked_twoLinked, rfl, ?_⟩
  intro hlink
  have hlast : (insertHashNodeAfter freeFlag twoLinked 2 1).2.head.dwNodeEndIndex = 2 :=
    (Linked.bwd_split [0, 1] [] hlink).1
  exact absurd hlast (by decide)

end XrkMonitor.SharedHash
