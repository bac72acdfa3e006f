import XrkMonitor.SharedHash.Keys

/-!
# Keys of a hash table without a list

The `_NoList` tables have no flags of use: a cell is empty when its data
compares equal to the empty key, and a node is freed by zeroing it. The searches
walk the same rows. `hash_key_lookup` is the result about both kinds of table.
-/

namespace XrkMonitor.SharedHash

open Library SharedHashTable

variable {α : Type*}

/-- `SharedHashTableNoList` together with the memory behind `pHash`. -/
structure SharedHashTableNoList (α : Type*) where
  dwRealNodeCount : Nat
  dwNodeNums : List Nat
  bInitSuccess : Bool
  funCmp : α → α → Int
  node : Nat → α

namespace NoList

/-- `HashTableSearch_NoList` over the rows that are left. -/
def searchRow (t : SharedHashTableNoList α) (pKey : α) (dwShortKey : Nat) :
    List Nat → Nat → Option Nat
  | [], _ => none
  | dwNodeNum :: rows, dwRow =>
    let pNode := dwRow + dwShortKey % dwNodeNum
    if t.funCmp pKey (t.node pNode) == 0 then some pNode
    else searchRow t pKey dwShortKey rows (dwRow + dwNodeNum)

/-- `HashTableSearch_NoList`. -/
def hashTableSearch (t : SharedHashTableNoList α) (pKey : α) (dwShortKey : Nat) : Option Nat :=
  if t.bInitSuccess then searchRow t pKey dwShortKey t.dwNodeNums 0 else none

/-- `HashTableSearchEx_NoList` over the rows that are left. -/
def searchRows (t : SharedHashTableNoList α) (pKey pEmptyKey : α) (dwShortKey : Nat) :
    List Nat → Nat → Option Nat → Bool × Option Nat
  | [], _, pEmptyNode => (false, pEmptyNode)
  | dwNodeNum :: rows, dwRow, pEmptyNode =>
    let pNode := dwRow + dwShortKey % dwNodeNum
    if t.funCmp pKey (t.node pNode) == 0 then (true, some pNode)
    else
      searchRows t pKey pEmptyKey dwShortKey rows (dwRow + dwNodeNum)
        (if pEmptyNode.isNone && t.funCmp pEmptyKey (t.node pNode) == 0 then some pNode
          else pEmptyNode)

/-- `HashTableSearchEx_NoList`. -/
def hashTableSearchEx (t : SharedHashTableNoList α) (pKey pEmptyKey : α) (dwShortKey : Nat) :
    Bool × Option Nat :=
  if t.bInitSuccess then searchRows t pKey pEmptyKey dwShortKey t.dwNodeNums 0 none
  else (false, none)

def setNode (t : SharedHashTableNoList α) (c : Nat) (a : α) : SharedHashTableNoList α :=
  { t with node := Function.update t.node c a }

/-- A cell whose key is not the empty one. -/
def InUse (zero : α) (t : SharedHashTableNoList α) (c : Nat) : Prop :=
  c < t.dwRealNodeCount ∧ t.funCmp zero (t.node c) ≠ 0

/-- No used cell has the key. -/
def Absent (zero : α) (t : SharedHashTableNoList α) (pKey : α) : Prop :=
  ∀ c, InUse zero t c → t.funCmp pKey (t.node c) ≠ 0

/-- The cells of a key. -/
def candidates (t : SharedHashTableNoList α) (dwShortKey : Nat) : List Nat :=
  rowCells dwShortKey t.dwNodeNums 0

/-- A key is in at most one used cell, and both searches tell whether it is there. -/
structure KeysOk (zero : α) (shortkey : α → Nat) (t : SharedHashTableNoList α) : Prop where
  unique : ∀ c d, InUse zero t c → InUse zero t d → t.funCmp (t.node c) (t.node d) = 0 → c = d
  search : ∀ pKey c, t.funCmp zero pKey ≠ 0 →
    (hashTableSearch t pKey (shortkey pKey) = some c ↔
      InUse zero t c ∧ t.funCmp pKey (t.node c) = 0)
  searchEx : ∀ pKey, t.funCmp zero pKey ≠ 0 →
    ((hashTableSearchEx t pKey zero (shortkey pKey)).2 = none ↔
      Absent zero t pKey ∧ ∀ c ∈ candidates t (shortkey pKey), InUse zero t c)

/-- A table with the search of the caller that adds a key. -/
structure KeyRun (α : Type*) where
  table : SharedHashTableNoList α
  pending : Option (α × Nat)

inductive KeyOp (α : Type*)
  | search (pKey : α)
  | fill
  | free (dwIndex : Nat)

/-- One step of the caller, or a node is zeroed. -/
def keyStep (zero : α) (shortkey : α → Nat) (r : KeyRun α) : KeyOp α → Option (Unit × KeyRun α)
  | .search pKey =>
    match hashTableSearchEx r.table pKey zero (shortkey pKey) with
    | (false, some c) => some ((), ⟨r.table, some (pKey, c)⟩)
    | _ => some ((), ⟨r.table, none⟩)
  | .fill => r.pending.map fun x => ((), ⟨setNode r.table x.2 x.1, none⟩)
  | .free dwIndex => some ((), ⟨setNode r.table dwIndex zero, r.pending⟩)

/-- Keys are not the empty one, a fill follows a search that gave an empty cell, and what is
freed is in use. -/
def Follows (zero : α) (r : KeyRun α) : KeyOp α → Prop
  | .search pKey => r.table.funCmp zero pKey ≠ 0
  | .fill => r.pending.isSome = true
  | .free dwIndex => InUse zero r.table dwIndex

instance (zero : α) (r : KeyRun α) : ∀ op, Decidable (Follows zero r op)
  | .search _ => inferInstanceAs (Decidable (_ ≠ _))
  | .fill => inferInstanceAs (Decidable (_ = _))
  | .free _ => inferInstanceAs (Decidable (_ ∧ _))

/-- An initialised table whose cells are all zero. -/
structure EmptyTable (zero : α) (t : SharedHashTableNoList α) : Prop where
  init : t.bInitSuccess = true
  pos : ∀ n ∈ t.dwNodeNums, 0 < n
  sum : t.dwNodeNums.sum = t.dwRealNodeCount
  unused : ∀ c < t.dwRealNodeCount, t.funCmp zero (t.node c) = 0

section Invariant

variable {zero : α} {shortkey : α → Nat} {t : SharedHashTableNoList α} {r : KeyRun α} {pKey : α}
  {dwShortKey : Nat}

theorem searchRows_eq_probe {pKey pEmptyKey : α} (rows : List Nat)
    (dwRow : Nat) (pEmptyNode : Option Nat) :
    searchRows t pKey pEmptyKey dwShortKey rows dwRow pEmptyNode =
      probe (fun c => t.funCmp pKey (t.node c) == 0) (fun c => t.funCmp pEmptyKey (t.node c) == 0)
        (rowCells dwShortKey rows dwRow) pEmptyNode := by
  induction rows generalizing dwRow pEmptyNode with
  | nil => rfl
  | cons n rows ih => simp only [searchRows, rowCells, probe, ih]

theorem searchRow_eq_find? (rows : List Nat) (dwRow : Nat) :
    searchRow t pKey dwShortKey rows dwRow =
      (rowCells dwShortKey rows dwRow).find? fun c => t.funCmp pKey (t.node c) == 0 := by
  induction rows generalizing dwRow with
  | nil => rfl
  | cons n rows ih =>
    simp only [searchRow, rowCells, List.find?_cons, ih]
    cases t.funCmp pKey (t.node (dwRow + dwShortKey % n)) == 0 with
    | true => rfl
    | false => rfl

/-- What holds between two steps of a run. -/
structure KeyInv (zero : α) (shortkey : α → Nat) (r : KeyRun α) : Prop where
  init : r.table.bInitSuccess = true
  pos : ∀ n ∈ r.table.dwNodeNums, 0 < n
  sum : r.table.dwNodeNums.sum = r.table.dwRealNodeCount
  cmp : KeyCmp r.table.funCmp shortkey
  placed : Placed (fun a b => r.table.funCmp a b = 0)
    (fun pKey => candidates r.table (shortkey pKey)) (InUse zero r.table) r.table.node
  pending : ∀ pKey c, r.pending = some (pKey, c) → r.table.funCmp zero pKey ≠ 0 ∧
    c ∈ candidates r.table (shortkey pKey) ∧ ¬ InUse zero r.table c ∧ Absent zero r.table pKey

theorem KeyInv.lt_of_mem (h : KeyInv zero shortkey r) {c dwShortKey : Nat}
    (hc : c ∈ candidates r.table dwShortKey) : c < r.table.dwRealNodeCount := by
  have := lt_of_mem_rowCells h.pos hc
  rw [h.sum] at this
  omega

theorem KeyInv.hit_iff (h : KeyInv zero shortkey r)
    (hzero : r.table.funCmp zero pKey ≠ 0) :
    ∀ d ∈ candidates r.table (shortkey pKey), (r.table.funCmp pKey (r.table.node d) == 0) = true ↔
      InUse zero r.table d ∧ r.table.funCmp pKey (r.table.node d) = 0 := by
  intro d hd
  rw [beq_iff_eq]
  constructor
  · intro heq
    refine ⟨⟨h.lt_of_mem hd, ?_⟩, heq⟩
    intro hempty
    exact hzero (h.cmp.trans _ _ _ hempty (h.cmp.symm _ _ heq))
  · exact And.right

theorem KeyInv.path_eq (h : KeyInv zero shortkey r) (a b : α) (hab : r.table.funCmp a b = 0) :
    candidates r.table (shortkey a) = candidates r.table (shortkey b) := by
  rw [h.cmp.short a b hab]

theorem KeyInv.find?_iff (h : KeyInv zero shortkey r)
    (hzero : r.table.funCmp zero pKey ≠ 0) (c : Nat) :
    (candidates r.table (shortkey pKey)).find?
        (fun c => r.table.funCmp pKey (r.table.node c) == 0) = some c ↔
      InUse zero r.table c ∧ r.table.funCmp pKey (r.table.node c) = 0 :=
  h.placed.find?_eq_some h.cmp.symm h.cmp.trans h.path_eq (h.hit_iff hzero)

theorem KeyInv.keysOk (h : KeyInv zero shortkey r) : KeysOk zero shortkey r.table := by
  refine ⟨h.placed.unique, ?_, ?_⟩
  · intro pKey c hzero
    rw [hashTableSearch, if_pos h.init, searchRow_eq_find?]
    exact h.find?_iff hzero c
  · intro pKey hzero
    rw [hashTableSearchEx, if_pos h.init, searchRows_eq_probe]
    have hprobe := h.placed.probe_eq_none (k := pKey) h.cmp.symm h.cmp.trans h.path_eq
      (h.hit_iff hzero) fun c => r.table.funCmp zero (r.table.node c) == 0
    rw [candidates] at hprobe
    rw [hprobe]
    apply and_congr Iff.rfl
    apply forall₂_congr
    intro d hd
    have hlt : d < r.table.dwRealNodeCount := h.lt_of_mem hd
    simp [InUse, hlt]

theorem KeyInv.search (h : KeyInv zero shortkey r)
    (hzero : r.table.funCmp zero pKey ≠ 0) :
    ∃ o r', keyStep zero shortkey r (.search pKey) = some (o, r') ∧ KeyInv zero shortkey r' := by
  have hnone : KeyInv zero shortkey ⟨r.table, none⟩ :=
    ⟨h.init, h.pos, h.sum, h.cmp, h.placed, by simp⟩
  have hsearch : hashTableSearchEx r.table pKey zero (shortkey pKey) =
      probe (fun c => r.table.funCmp pKey (r.table.node c) == 0)
        (fun c => r.table.funCmp zero (r.table.node c) == 0)
        (candidates r.table (shortkey pKey)) none := by
    rw [hashTableSearchEx, if_pos h.init, searchRows_eq_probe]
    rfl
  simp only [keyStep]
  rw [hsearch, probe_eq, Option.none_or]
  cases hfind : (candidates r.table (shortkey pKey)).find?
      (fun c => r.table.funCmp pKey (r.table.node c) == 0) with
  | some c => exact ⟨(), _, rfl, hnone⟩
  | none =>
    cases hfree : (candidates r.table (shortkey pKey)).find? fun c =>
        r.table.funCmp zero (r.table.node c) == 0 with
    | none => exact ⟨(), _, rfl, hnone⟩
    | some c =>
      refine ⟨(), _, rfl, ⟨h.init, h.pos, h.sum, h.cmp, h.placed, ?_⟩⟩
      intro k d hkd
      obtain ⟨rfl, rfl⟩ := Prod.mk.inj (Option.some.inj hkd)
      refine ⟨hzero, List.mem_of_find?_eq_some hfree, ?_, ?_⟩
      · intro hc
        exact hc.2 (by simpa using List.find?_some hfree)
      · intro d hd hcmp
        have hsome := (h.find?_iff hzero d).mpr ⟨hd, hcmp⟩
        rw [hfind] at hsome
        cases hsome

theorem KeyInv.fill (h : KeyInv zero shortkey r) (hp : r.pending.isSome = true) :
    ∃ o r', keyStep zero shortkey r .fill = some (o, r') ∧ KeyInv zero shortkey r' := by
  obtain ⟨⟨pKey, c⟩, hx⟩ := Option.isSome_iff_exists.mp hp
  obtain ⟨-, hmem, -, habs⟩ := h.pending pKey c hx
  refine ⟨(), _, by rw [keyStep, hx]; rfl, ?_⟩
  refine ⟨h.init, h.pos, h.sum, h.cmp, ?_, by simp⟩
  apply (h.placed.insert h.cmp.symm hmem habs).mono
  · intro d hd
    by_cases hdc : d = c
    · exact Or.inl hdc
    · have hcmp := hd.2
      simp only [setNode, Function.update_of_ne hdc] at hcmp
      exact Or.inr ⟨hd.1, hcmp⟩
  · intro d _
    rfl

theorem KeyInv.free (h : KeyInv zero shortkey r) (i : Nat) :
    ∃ o r', keyStep zero shortkey r (.free i) = some (o, r') ∧ KeyInv zero shortkey r' := by
  have hother : ∀ d, InUse zero (setNode r.table i zero) d → d ≠ i ∧ InUse zero r.table d := by
    intro d hd
    have hcmp := hd.2
    simp only [setNode] at hcmp
    by_cases hdi : d = i
    · rw [hdi, Function.update_self] at hcmp
      exact absurd (h.cmp.refl zero) hcmp
    · rw [Function.update_of_ne hdi] at hcmp
      exact ⟨hdi, hd.1, hcmp⟩
  have hkeep : ∀ d, InUse zero (setNode r.table i zero) d →
      (setNode r.table i zero).node d = r.table.node d := by
    intro d hd
    exact Function.update_of_ne (hother d hd).1 _ _
  refine ⟨(), _, rfl, ⟨h.init, h.pos, h.sum, h.cmp, ?_, ?_⟩⟩
  · exact h.placed.mono (fun d hd => (hother d hd).2) hkeep
  · intro pKey c hx
    obtain ⟨hzero, hmem, hfree, habs⟩ := h.pending pKey c hx
    refine ⟨hzero, hmem, fun hc => hfree (hother c hc).2, ?_⟩
    intro d hd
    rw [hkeep d hd]
    exact habs d (hother d hd).2

theorem KeyInv.step (zero : α) (shortkey : α → Nat) (r : KeyRun α) (op : KeyOp α)
    (h : KeyInv zero shortkey r) (hop : Follows zero r op) :
    ∃ o r', keyStep zero shortkey r op = some (o, r') ∧ True ∧ KeyInv zero shortkey r' := by
  cases op with
  | search pKey =>
    obtain ⟨o, r', hr', hinv⟩ := h.search hop
    exact ⟨o, r', hr', trivial, hinv⟩
  | fill =>
    obtain ⟨o, r', hr', hinv⟩ := h.fill hop
    exact ⟨o, r', hr', trivial, hinv⟩
  | free i =>
    obtain ⟨o, r', hr', hinv⟩ := h.free i
    exact ⟨o, r', hr', trivial, hinv⟩

theorem EmptyTable.keyInv (h : EmptyTable zero t) (hcmp : KeyCmp t.funCmp shortkey) :
    KeyInv zero shortkey ⟨t, none⟩ := by
  have hunused : ∀ c, ¬ InUse zero t c := fun c hc => hc.2 (h.unused c hc.1)
  refine ⟨h.init, h.pos, h.sum, hcmp, ⟨?_, ?_⟩, by simp⟩
  · intro c hc
    exact absurd hc (hunused c)
  · intro c d hc
    exact absurd hc (hunused c)

end Invariant

end NoList

/-- In every run from an empty table, with or without a list, a key is in at most one used
cell, `HashTableSearch` finds exactly that cell, and `HashTableSearchEx` gives no cell exactly
when the key is absent and every cell it may lie in is used. -/
theorem hash_key_lookup [Inhabited α] (shortkey : α → Nat) :
    (∀ t : SharedHashTable α, EmptyTable t → RowsOk t → KeyCmp t.funCmp shortkey →
      ∀ ops, Admissible (keyStep shortkey) Follows ⟨t, none, none⟩ ops →
        ∃ os r, runSteps (keyStep shortkey) ⟨t, none, none⟩ ops = some (os, r) ∧
          KeysOk shortkey r.table) ∧
      ∀ (zero : α) (t : SharedHashTableNoList α), NoList.EmptyTable zero t →
        KeyCmp t.funCmp shortkey →
        ∀ ops, Admissible (NoList.keyStep zero shortkey) (NoList.Follows zero) ⟨t, none⟩ ops →
          ∃ os r, runSteps (NoList.keyStep zero shortkey) ⟨t, none⟩ ops = some (os, r) ∧
            NoList.KeysOk zero shortkey r.table := by
  constructor
  · intro t hempty hrows hcmp ops hops
    obtain ⟨os, r, hrun, -, hinv⟩ :=
      run_invariant (KeyInv.step shortkey) ops _ (hempty.keyInv hrows hcmp) hops
    exact ⟨os, r, hrun, hinv.keysOk⟩
  · intro zero t hempty hcmp ops hops
    obtain ⟨os, r, hrun, -, hinv⟩ :=
      run_invariant (NoList.KeyInv.step zero shortkey) ops _ (hempty.keyInv hcmp) hops
    exact ⟨os, r, hrun, hinv.keysOk⟩

/-- A table for numbers as `InitHashTable` makes it for eleven nodes. -/
def elevenNodes : SharedHashTable Nat where
  dwNodeSize := 4
  dwRealNodeCount := 55
  dwShareMemBytes := 29 + 55 * 13
  dwNodeNums := [10, 9, 8, 7, 6, 5, 4, 3, 2, 1]
  bInitSuccess := true
  bAccessCheck := false
  dwCurIndex := 55
  dwCurIndexRevers := 55
  funCmp := fun x y => (x : Int) - y
  head := ⟨55, 55, 0, 0, 0, false⟩
  nodeHead := fun _ => ⟨false, 0, 0⟩
  node := fun _ => 0
  attrSpec := []

/-- A table for numbers as `InitHashTable_NoList_Heap` makes it for two nodes. -/
def twoNodes : SharedHashTableNoList Nat where
  dwRealNodeCount := 20
  dwNodeNums := List.replicate 10 2
  bInitSuccess := true
  funCmp := fun x y => (x : Int) - y
  node := fun _ => 0

/-- Two keys that share their first cell; the first is removed. -/
def shareCell : List (KeyOp Nat) :=
  [.search 7, .fill, .insert ⟨fun _ => false, 7, 1⟩, .search 17, .fill,
    .insert ⟨fun _ => false, 8, 1⟩, .remove ⟨fun _ => false, 9, 1⟩ 7, .search 17]

def shareCellNoList : List (NoList.KeyOp Nat) :=
  [.search 7, .fill, .search 17, .fill, .free 1, .search 17]

theorem hash_key_lookup_shareCell :
    (Admissible (keyStep id) Follows ⟨elevenNodes, none, none⟩ shareCell ∧
      ∃ os r, runSteps (keyStep id) ⟨elevenNodes, none, none⟩ shareCell = some (os, r) ∧
        KeysOk id r.table) ∧
      Admissible (NoList.keyStep 0 id) (NoList.Follows 0) ⟨twoNodes, none⟩ shareCellNoList ∧
        ∃ os r, runSteps (NoList.keyStep 0 id) ⟨twoNodes, none⟩ shareCellNoList = some (os, r) ∧
          NoList.KeysOk 0 id r.table := by
  have hcmp : KeyCmp (fun x y : Nat => (x : Int) - y) id := by
    refine ⟨?_, ?_, ?_, ?_⟩
    · intro a
      omega
    · intro a b hab
      omega
    · intro a b c hab hbc
      omega
    · intro a b hab
      simp only [id]
      omega
  have hempty : EmptyTable elevenNodes :=
    ⟨rfl, rfl, rfl, rfl, rfl, rfl, fun _ _ => rfl, by decide⟩
  have hops : Admissible (keyStep id) Follows ⟨elevenNodes, none, none⟩ shareCell := by
    decide +kernel
  have hops' : Admissible (NoList.keyStep 0 id) (NoList.Follows 0) ⟨twoNodes, none⟩
      shareCellNoList := by
    decide +kernel
  obtain ⟨hlist, hnolist⟩ := hash_key_lookup (id : Nat → Nat)
  refine ⟨⟨hops, hlist elevenNodes hempty ⟨by decide, by decide⟩ hcmp shareCell hops⟩, hops', ?_⟩
  exact hnolist 0 twoNodes ⟨rfl, by decide, by decide, fun _ _ => rfl⟩ hcmp shareCellNoList hops'

end XrkMonitor.SharedHash
