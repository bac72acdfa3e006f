import XrkMonitor.SharedHash.Operations

/-!
# Searching a table and walking its list

`HashTableSearchEx` looks at one cell in each row of the table. `GetFirstNode`
and `GetCurNode` read the cursor of the process that walks the list;
`RemoveHashNode` moves that cursor on when it takes the node under it.
-/

namespace XrkMonitor.SharedHash

open Library SharedHashTable

variable {α : Type*}

/-- The rows of `HashTableSearchEx` that are left, the first of which starts at cell
`dwRow`: whether the key was found, and its cell or else the first unused one. -/
def searchRows (t : SharedHashTable α) (pKey : α) (dwShortKey : Nat) :
    List Nat → Nat → Option Nat → Bool × Option Nat
  | [], _, pEmptyNode => (false, pEmptyNode)
  | dwNodeNum :: rows, dwRow, pEmptyNode =>
    let pNode := dwRow + dwShortKey % dwNodeNum
    if t.used pNode && t.funCmp pKey (t.node pNode) == 0 then (true, some pNode)
    else
      searchRows t pKey dwShortKey rows (dwRow + dwNodeNum)
        (if pEmptyNode.isNone && !t.used pNode then some pNode else pEmptyNode)

/-- `HashTableSearchEx`. -/
def hashTableSearchEx (t : SharedHashTable α) (pKey : α) (dwShortKey : Nat) :
    Bool × Option Nat :=
  if t.bInitSuccess then searchRows t pKey dwShortKey t.dwNodeNums 0 none else (false, none)

/-- `GetCurNode`. -/
def getCurNode [Inhabited α] (t : SharedHashTable α) : Option Nat × SharedHashTable α :=
  if t.dwCurIndex = t.dwRealNodeCount then (none, t)
  else if t.bAccessCheck && !t.used t.dwCurIndex then
    (none, accessCheckFailed { t with dwCurIndex := t.dwRealNodeCount })
  else (some t.dwCurIndex, t)

/-- `GetFirstNode`. -/
def getFirstNode [Inhabited α] (t : SharedHashTable α) : Option Nat × SharedHashTable α :=
  let t := { t with dwCurIndex := t.head.dwNodeStartIndex }
  if t.dwCurIndex = t.dwRealNodeCount then (none, t)
  else if t.bAccessCheck && !t.used t.dwCurIndex then (none, accessCheckFailed t)
  else (some t.dwCurIndex, t)

/-- `GetCurNodeRevers`. -/
def getCurNodeRevers [Inhabited α] (t : SharedHashTable α) : Option Nat × SharedHashTable α :=
  if t.dwCurIndexRevers = t.dwRealNodeCount then (none, t)
  else if t.bAccessCheck && !t.used t.dwCurIndexRevers then (none, accessCheckFailed t)
  else (some t.dwCurIndexRevers, t)

/-- `GetFirstNodeRevers`. -/
def getFirstNodeRevers [Inhabited α] (t : SharedHashTable α) :
    Option Nat × SharedHashTable α :=
  let t := { t with dwCurIndexRevers := t.head.dwNodeEndIndex }
  if t.dwCurIndexRevers = t.dwRealNodeCount then (none, t)
  else if t.bAccessCheck && !t.used t.dwCurIndexRevers then (none, accessCheckFailed t)
  else (some t.dwCurIndexRevers, t)

/-- `GetNextNode` with its result. -/
def nextNode [Inhabited α] (t : SharedHashTable α) : Option Nat × SharedHashTable α :=
  if t.dwCurIndex = t.dwRealNodeCount then (none, t)
  else
    let old := t.dwCurIndex
    let t := { t with dwCurIndex := t.next old }
    if t.dwCurIndex = t.dwRealNodeCount then (none, t)
    else if t.bAccessCheck && (!t.used old || !t.used t.dwCurIndex) then
      (none, accessCheckFailed t)
    else (some t.dwCurIndex, t)

/-- `GetNextNodeRevers` with its result. -/
def nextNodeRevers [Inhabited α] (t : SharedHashTable α) : Option Nat × SharedHashTable α :=
  if t.dwCurIndexRevers = t.dwRealNodeCount then (none, t)
  else
    let old := t.dwCurIndexRevers
    let t := { t with dwCurIndexRevers := t.pre old }
    if t.dwCurIndexRevers = t.dwRealNodeCount then (none, t)
    else if t.bAccessCheck && (!t.used old || !t.used t.dwCurIndexRevers) then
      (none, accessCheckFailed t)
    else (some t.dwCurIndexRevers, t)

section

variable {t t' : SharedHashTable α} {l : List Nat} {i : Nat} {env : LockEnv} {pKey : α}
  {dwShortKey : Nat} {l₁ l₂ : List Nat}

/-- The rows of the table cover its cells, and none is empty. -/
structure RowsOk (t : SharedHashTable α) : Prop where
  pos : ∀ n ∈ t.dwNodeNums, 0 < n
  sum : t.dwNodeNums.sum = t.dwRealNodeCount

theorem searchRows_spec (rows : List Nat) (dwRow : Nat) (pEmptyNode : Option Nat)
    (hpos : ∀ n ∈ rows, 0 < n) (hsum : dwRow + rows.sum = t.dwRealNodeCount)
    (hempty : ∀ c, pEmptyNode = some c → c < t.dwRealNodeCount ∧ t.used c = false) :
    ∃ isFind pNode, searchRows t pKey dwShortKey rows dwRow pEmptyNode = (isFind, pNode) ∧
      (∀ c, pNode = some c → c < t.dwRealNodeCount ∧ t.used c = isFind ∧
        (isFind = true → t.funCmp pKey (t.node c) = 0)) ∧ (isFind = true → pNode.isSome) := by
  induction rows generalizing dwRow pEmptyNode with
  | nil =>
    refine ⟨false, pEmptyNode, rfl, ?_, by simp⟩
    intro c hc
    exact ⟨(hempty c hc).1, (hempty c hc).2, by simp⟩
  | cons n rows ih =>
    have hn : 0 < n := hpos n (by simp)
    have hmod : dwShortKey % n < n := Nat.mod_lt _ hn
    rw [List.sum_cons] at hsum
    have hlt : dwRow + dwShortKey % n < t.dwRealNodeCount := by omega
    unfold searchRows
    by_cases hfound : t.used (dwRow + dwShortKey % n) = true ∧
        t.funCmp pKey (t.node (dwRow + dwShortKey % n)) = 0
    · refine ⟨true, some (dwRow + dwShortKey % n), by simp [hfound], ?_, by simp⟩
      intro c hc
      obtain rfl : dwRow + dwShortKey % n = c := Option.some.inj hc
      exact ⟨hlt, hfound.1, fun _ => hfound.2⟩
    · have hcond : ¬ (t.used (dwRow + dwShortKey % n) &&
          t.funCmp pKey (t.node (dwRow + dwShortKey % n)) == 0) = true := by
        simpa using hfound
      simp only [if_neg hcond]
      apply ih
      · intro m hm
        exact hpos m (by simp [hm])
      · omega
      · intro c hc
        split at hc
        · rename_i hunused
          obtain rfl : dwRow + dwShortKey % n = c := Option.some.inj hc
          simp only [Bool.and_eq_true, Bool.not_eq_true'] at hunused
          exact ⟨hlt, hunused.2⟩
        · exact hempty c hc

theorem hashTableSearchEx_spec (h : Ready t l) (hrows : RowsOk t) (pKey : α) (dwShortKey : Nat) :
    ∃ isFind pNode, hashTableSearchEx t pKey dwShortKey = (isFind, pNode) ∧
      (∀ c, pNode = some c → c < t.dwRealNodeCount ∧ t.used c = isFind ∧
        (isFind = true → t.funCmp pKey (t.node c) = 0)) ∧ (isFind = true → pNode.isSome) := by
  simp only [hashTableSearchEx, h.init, if_true]
  exact searchRows_spec _ 0 none hrows.pos (by rw [Nat.zero_add]; exact hrows.sum) (by simp)

theorem getFirstNode_linked [Inhabited α] (h : Linked t l) :
    getFirstNode t = (l.head?, { t with dwCurIndex := t.head.dwNodeStartIndex }) ∧
      ∀ c, l.head? = some c → t.head.dwNodeStartIndex = c := by
  cases l with
  | nil =>
    have hstart : t.head.dwNodeStartIndex = t.dwRealNodeCount := h.fwd
    simp [getFirstNode, hstart]
  | cons c l =>
    have hstart : t.head.dwNodeStartIndex = c := h.fwd.1
    have hne : c ≠ t.dwRealNodeCount := h.ne_real (by simp)
    have hused : (t.nodeHead c).bIsUsed = true := h.used (i := c) (by simp)
    refine ⟨?_, ?_⟩
    · simp [getFirstNode, hstart, hne, used, hused]
    · intro d hd
      rw [hstart]
      simpa using hd

theorem getCurNode_linked [Inhabited α] (h : Linked t l)
    (hcur : t.dwCurIndex = t.dwRealNodeCount ∨ t.dwCurIndex ∈ l) :
    ∃ pNode, getCurNode t = (pNode, t) ∧
      ∀ c, pNode = some c → t.dwCurIndex = c ∧ c ∈ l := by
  unfold getCurNode
  by_cases hend : t.dwCurIndex = t.dwRealNodeCount
  · rw [if_pos hend]
    exact ⟨none, rfl, by simp⟩
  · have hmem := hcur.resolve_left hend
    have hused := h.used hmem
    rw [if_neg hend, hused]
    refine ⟨some t.dwCurIndex, by simp, ?_⟩
    intro c hc
    obtain rfl : t.dwCurIndex = c := Option.some.inj hc
    exact ⟨rfl, hmem⟩

/-- The cursor stands on the first node of `l`, or at the end. -/
def CursorAt (t : SharedHashTable α) (l : List Nat) : Prop :=
  t.dwCurIndex = l.head?.getD t.dwRealNodeCount

theorem nextNode_end [Inhabited α] (hcur : CursorAt t []) : nextNode t = (none, t) := by
  have hend : t.dwCurIndex = t.dwRealNodeCount := hcur
  rw [nextNode, if_pos hend]

theorem nextNode_linked [Inhabited α] (h : Linked t (l₁ ++ i :: l₂))
    (hcur : CursorAt t (i :: l₂)) :
    ∃ t', nextNode t = (l₂.head?, t') ∧ CursorAt t' l₂ ∧ t' = { t with dwCurIndex := t.next i } := by
  have hcell : t.dwCurIndex = i := hcur
  have hreal : i ≠ t.dwRealNodeCount := h.ne_real (by simp)
  have hi : t.used i = true := h.used (by simp)
  refine ⟨_, ?_, ?_, rfl⟩
  · cases l₂ with
    | nil =>
      have hlast : t.next i = t.dwRealNodeCount := next_of_last h
      simp [nextNode, hcell, hreal, hlast]
    | cons j l₂ =>
      have hnext : t.next i = j := next_of_cons h
      have hne : j ≠ t.dwRealNodeCount := h.ne_real (by simp)
      have hj : t.used j = true := h.used (by simp)
      simp only [used] at hi hj
      simp [nextNode, hcell, hreal, hnext, hne, used, hi, hj]
  · cases l₂ with
    | nil => exact next_of_last h
    | cons j l₂ => exact next_of_cons h

theorem dwCurIndex_linkLast (t : SharedHashTable α) (i : Nat) :
    (linkLast t i).dwCurIndex = t.dwCurIndex := by
  unfold linkLast
  generalize wordInc 32 t.head.dwNodeUseCount = n
  split
  · rfl
  · rfl

theorem dwCurIndex_insertHashNode [Inhabited α] (h : Ready t l)
    (henv : lockLoop env false = true) : (insertHashNode env t i).2.dwCurIndex = t.dwCurIndex := by
  simp only [insertHashNode, h.init, enterWrite_of_lock h henv, Bool.not_true,
    Bool.false_eq_true, if_false]
  exact dwCurIndex_linkLast (t.setHead (locked t.head env.now)) i

theorem removeHashNode_cursor [Inhabited α] (h : Ready t (l₁ ++ i :: l₂))
    (henv : lockLoop env false = true) (hcur : t.dwCurIndex = i) :
    ∃ t', removeHashNode env t i = (0, t') ∧ Ready t' (l₁ ++ l₂) ∧ LinkEdit t t' ∧
      (t'.dwCurIndex = t'.dwRealNodeCount ∨ t'.dwCurIndex ∈ l₁ ++ l₂) := by
  obtain ⟨t', ht', hr, he, hnext⟩ := removeHashNode_ready h henv
  refine ⟨t', ht', hr, he, ?_⟩
  rw [if_pos hcur] at hnext
  rw [hnext, he.dwRealNodeCount]
  cases l₂ with
  | nil => exact Or.inl (next_of_last h.linked)
  | cons q l₂ =>
    rw [next_of_cons h.linked]
    exact Or.inr (by simp)

end

end XrkMonitor.SharedHash
