import XrkMonitor.Library.Probing
import XrkMonitor.SharedHash.Cursor
import XrkMonitor.SharedHash.Runs

/-!
# Keys of a shared hash table

A key may lie in one cell of each row, given by its short key. A caller adds a
key by `HashTableSearchEx`, fills the free cell it gets and links it with
`InsertHashNode`. A run is any sequence of these steps with removals of used
nodes between them. Removals open holes in front of keys in later rows.

## Implementation notes

One caller adds keys at a time. Removals may fall between the search, the fill
and the insertion, and a compare-and-swap may fail at each of them.
-/

namespace XrkMonitor.SharedHash

open Library SharedHashTable

variable {α : Type*}

/-- The cells of a short key in the rows that are left, the first of which starts at `dwRow`. -/
def rowCells (dwShortKey : Nat) : List Nat → Nat → List Nat
  | [], _ => []
  | dwNodeNum :: rows, dwRow =>
    (dwRow + dwShortKey % dwNodeNum) :: rowCells dwShortKey rows (dwRow + dwNodeNum)

/-- `HashTableSearch` over the rows that are left. -/
def searchRow (t : SharedHashTable α) (pKey : α) (dwShortKey : Nat) :
    List Nat → Nat → Option Nat
  | [], _ => none
  | dwNodeNum :: rows, dwRow =>
    let pNode := dwRow + dwShortKey % dwNodeNum
    if t.used pNode && t.funCmp pKey (t.node pNode) == 0 then some pNode
    else searchRow t pKey dwShortKey rows (dwRow + dwNodeNum)

/-- `HashTableSearch`. -/
def hashTableSearch (t : SharedHashTable α) (pKey : α) (dwShortKey : Nat) : Option Nat :=
  if t.bInitSuccess then searchRow t pKey dwShortKey t.dwNodeNums 0 else none

/-- The comparator is an equivalence on keys, and the short key is one of the key. -/
structure KeyCmp (funCmp : α → α → Int) (shortkey : α → Nat) : Prop where
  refl : ∀ a, funCmp a a = 0
  symm : ∀ a b, funCmp a b = 0 → funCmp b a = 0
  trans : ∀ a b c, funCmp a b = 0 → funCmp b c = 0 → funCmp a c = 0
  short : ∀ a b, funCmp a b = 0 → shortkey a = shortkey b

/-- A used cell of the table. -/
def InUse (t : SharedHashTable α) (c : Nat) : Prop := c < t.dwRealNodeCount ∧ t.used c = true

/-- No used cell has the key. -/
def Absent (t : SharedHashTable α) (pKey : α) : Prop :=
  ∀ c, InUse t c → t.funCmp pKey (t.node c) ≠ 0

/-- The cells of a key. -/
def candidates (t : SharedHashTable α) (dwShortKey : Nat) : List Nat :=
  rowCells dwShortKey t.dwNodeNums 0

/-- A key is in at most one used cell, and both searches tell whether it is there. -/
structure KeysOk (shortkey : α → Nat) (t : SharedHashTable α) : Prop where
  unique : ∀ c d, InUse t c → InUse t d → t.funCmp (t.node c) (t.node d) = 0 → c = d
  search : ∀ pKey c, hashTableSearch t pKey (shortkey pKey) = some c ↔
    InUse t c ∧ t.funCmp pKey (t.node c) = 0
  searchEx : ∀ pKey, (hashTableSearchEx t pKey (shortkey pKey)).2 = none ↔
    Absent t pKey ∧ ∀ c ∈ candidates t (shortkey pKey), t.used c = true

section Run

/-- A table with the search and the fill of the caller that adds a key. -/
structure KeyRun (α : Type*) where
  table : SharedHashTable α
  pending : Option (α × Nat)
  filled : Option Nat

inductive KeyOp (α : Type*)
  | search (pKey : α)
  | fill
  | insert (env : LockEnv)
  | remove (env : LockEnv) (dwIndex : Nat)

/-- One step of the caller, or a removal. -/
def keyStep [Inhabited α] (shortkey : α → Nat) (r : KeyRun α) :
    KeyOp α → Option (Int × KeyRun α)
  | .search pKey =>
    match hashTableSearchEx r.table pKey (shortkey pKey) with
    | (false, some c) => some (0, ⟨r.table, some (pKey, c), none⟩)
    | _ => some (0, ⟨r.table, none, none⟩)
  | .fill => r.pending.map fun x => (0, ⟨r.table.setNode x.2 x.1, none, some x.2⟩)
  | .insert env =>
    r.filled.map fun c =>
      let x := insertHashNode env r.table c
      (x.1, ⟨x.2, none, none⟩)
  | .remove env dwIndex =>
    let x := removeHashNode env r.table dwIndex
    some (x.1, ⟨x.2, r.pending, r.filled⟩)

/-- A fill follows a search that gave a free cell, an insertion follows a fill, and what is
removed is in use. -/
def Follows (r : KeyRun α) : KeyOp α → Prop
  | .search _ => True
  | .fill => r.pending.isSome = true
  | .insert _ => r.filled.isSome = true
  | .remove _ dwIndex => dwIndex < r.table.dwRealNodeCount ∧ r.table.used dwIndex = true

instance (r : KeyRun α) : ∀ op, Decidable (Follows r op)
  | .search _ => isTrue trivial
  | .fill => inferInstanceAs (Decidable (_ = _))
  | .insert _ => inferInstanceAs (Decidable (_ = _))
  | .remove _ _ => inferInstanceAs (Decidable (_ ∧ _))

end Run

section Cells

variable {t t' : SharedHashTable α} {pKey : α} {dwShortKey : Nat} {c : Nat}

theorem searchRows_eq_probe (rows : List Nat) (dwRow : Nat) (pEmptyNode : Option Nat) :
    searchRows t pKey dwShortKey rows dwRow pEmptyNode =
      probe (fun c => t.used c && t.funCmp pKey (t.node c) == 0) (fun c => !t.used c)
        (rowCells dwShortKey rows dwRow) pEmptyNode := by
  induction rows generalizing dwRow pEmptyNode with
  | nil => rfl
  | cons n rows ih => simp only [searchRows, rowCells, probe, ih]

theorem searchRow_eq_find? (rows : List Nat) (dwRow : Nat) :
    searchRow t pKey dwShortKey rows dwRow =
      (rowCells dwShortKey rows dwRow).find? fun c =>
        t.used c && t.funCmp pKey (t.node c) == 0 := by
  induction rows generalizing dwRow with
  | nil => rfl
  | cons n rows ih =>
    simp only [searchRow, rowCells, List.find?_cons, ih]
    cases t.used (dwRow + dwShortKey % n) &&
      t.funCmp pKey (t.node (dwRow + dwShortKey % n)) == 0 with
    | true => rfl
    | false => rfl

theorem lt_of_mem_rowCells {rows : List Nat} {dwRow c : Nat} (hpos : ∀ n ∈ rows, 0 < n)
    (hc : c ∈ rowCells dwShortKey rows dwRow) : c < dwRow + rows.sum := by
  induction rows generalizing dwRow with
  | nil => cases hc
  | cons n rows ih =>
    have hmod : dwShortKey % n < n := Nat.mod_lt _ (hpos n (by simp))
    rw [List.sum_cons]
    rcases List.mem_cons.mp hc with rfl | hc
    · omega
    · have := ih (fun m hm => hpos m (by simp [hm])) hc
      omega

theorem RowsOk.lt_of_mem (h : RowsOk t) (hc : c ∈ candidates t dwShortKey) :
    c < t.dwRealNodeCount := by
  have := lt_of_mem_rowCells h.pos hc
  rw [h.sum] at this
  omega

/-- The cells and their data are the same; the links and the flags of use may differ. -/
structure SameCells (t t' : SharedHashTable α) : Prop where
  node : t'.node = t.node
  funCmp : t'.funCmp = t.funCmp
  real : t'.dwRealNodeCount = t.dwRealNodeCount
  nums : t'.dwNodeNums = t.dwNodeNums

theorem LinkEdit.sameCells (e : LinkEdit t t') : SameCells t t' where
  node := e.node
  funCmp := e.funCmp
  real := e.dwRealNodeCount
  nums := by rw [e]

theorem SameCells.candidates (e : SameCells t t') :
    candidates t' dwShortKey = candidates t dwShortKey := by
  rw [SharedHash.candidates, e.nums, SharedHash.candidates]

theorem insertHashNode_cells [Inhabited α] {l : List Nat} (h : Ready t l)
    (hlt : c < t.dwRealNodeCount) (hc : t.used c = false) (env : LockEnv) :
    ∃ ret t' l', insertHashNode env t c = (ret, t') ∧ Ready t' l' ∧ SameCells t t' ∧
      ((∀ d, InUse t' d ↔ d = c ∨ InUse t d) ∨ ∀ d, InUse t' d ↔ InUse t d) := by
  cases henv : lockLoop env false with
  | true =>
    obtain ⟨t', ht', hr, he⟩ := insertHashNode_ready h hlt hc henv
    refine ⟨0, t', l ++ [c], ht', hr, he.sameCells, Or.inl ?_⟩
    intro d
    rw [InUse, InUse, ← hr.linked.mem, ← h.linked.mem, List.mem_append, List.mem_singleton,
      or_comm]
  | false =>
    exact ⟨-33, t.report 237, l, insertHashNode_busy h henv, h.report 237,
      ⟨rfl, rfl, rfl, rfl⟩, Or.inr fun d => Iff.rfl⟩

theorem removeHashNode_cells [Inhabited α] {l : List Nat} (h : Ready t l)
    (hc : InUse t c) (env : LockEnv) :
    ∃ ret t' l', removeHashNode env t c = (ret, t') ∧ Ready t' l' ∧ SameCells t t' ∧
      ∀ d, InUse t' d → InUse t d := by
  cases henv : lockLoop env false with
  | true =>
    obtain ⟨l₁, l₂, rfl⟩ := List.append_of_mem ((h.linked.mem c).mpr hc)
    obtain ⟨t', ht', hr, he, -⟩ := removeHashNode_ready h henv
    refine ⟨0, t', l₁ ++ l₂, ht', hr, he.sameCells, ?_⟩
    intro d hd
    have hmem := (hr.linked.mem d).mpr hd
    apply (h.linked.mem d).mp
    rcases List.mem_append.mp hmem with hmem | hmem
    · exact List.mem_append_left _ hmem
    · exact List.mem_append_right _ (List.mem_cons_of_mem c hmem)
  | false =>
    exact ⟨-33, t.report 237, l, removeHashNode_busy h henv, h.report 237,
      ⟨rfl, rfl, rfl, rfl⟩, fun d hd => hd⟩

end Cells

section Invariant

variable {t t' : SharedHashTable α} {shortkey : α → Nat} {r : KeyRun α} {c : Nat} {pKey : α}

/-- Every used cell is one of its key, and has its key alone. -/
def KeysPlaced (shortkey : α → Nat) (t : SharedHashTable α) : Prop :=
  Placed (fun a b => t.funCmp a b = 0) (fun pKey => candidates t (shortkey pKey)) (InUse t) t.node

/-- A free cell of a key that is absent. -/
def FreeFor (shortkey : α → Nat) (t : SharedHashTable α) (pKey : α) (c : Nat) : Prop :=
  c ∈ candidates t (shortkey pKey) ∧ t.used c = false ∧ Absent t pKey

theorem FreeFor.ne {c d : Nat} (h : FreeFor shortkey t pKey c) (hd : InUse t d) :
    d ≠ c := by
  rintro rfl
  have hfree := h.2.1
  rw [hd.2] at hfree
  cases hfree

/-- What holds between two steps of a run. -/
structure KeyInv (shortkey : α → Nat) (r : KeyRun α) : Prop where
  ready : ∃ l, Ready r.table l
  rows : RowsOk r.table
  cmp : KeyCmp r.table.funCmp shortkey
  placed : KeysPlaced shortkey r.table
  pending : ∀ pKey c, r.pending = some (pKey, c) → FreeFor shortkey r.table pKey c
  filled : ∀ c, r.filled = some c → FreeFor shortkey r.table (r.table.node c) c

theorem hit_iff (hrows : RowsOk t) {dwShortKey : Nat} :
    ∀ d ∈ candidates t dwShortKey,
      (t.used d && t.funCmp pKey (t.node d) == 0) = true ↔
        InUse t d ∧ t.funCmp pKey (t.node d) = 0 := by
  intro d hd
  simp only [Bool.and_eq_true, beq_iff_eq, InUse]
  exact ⟨fun h => ⟨⟨hrows.lt_of_mem hd, h.1⟩, h.2⟩, fun h => ⟨h.1.2, h.2⟩⟩

theorem KeyCmp.candidates_eq (h : KeyCmp t.funCmp shortkey) (a b : α) (hab : t.funCmp a b = 0) :
    candidates t (shortkey a) = candidates t (shortkey b) := by
  rw [h.short a b hab]

theorem KeyInv.keysOk (h : KeyInv shortkey r) : KeysOk shortkey r.table := by
  obtain ⟨l, hl⟩ := h.ready
  refine ⟨h.placed.unique, ?_, ?_⟩
  · intro pKey c
    rw [hashTableSearch, if_pos hl.init, searchRow_eq_find?]
    exact h.placed.find?_eq_some h.cmp.symm h.cmp.trans h.cmp.candidates_eq (hit_iff h.rows)
  · intro pKey
    rw [hashTableSearchEx, if_pos hl.init, searchRows_eq_probe]
    have hprobe := h.placed.probe_eq_none (k := pKey) h.cmp.symm h.cmp.trans h.cmp.candidates_eq
      (hit_iff h.rows) fun c => !r.table.used c
    simp only [Bool.not_eq_eq_eq_not, Bool.not_false] at hprobe
    exact hprobe

theorem SameCells.rows (e : SameCells t t') (h : RowsOk t) : RowsOk t' := by
  constructor
  · rw [e.nums]
    exact h.pos
  · rw [e.nums, e.real]
    exact h.sum

theorem FreeFor.mono (h : FreeFor shortkey t pKey c) (hrows : RowsOk t)
    (e : SameCells t t') (hused : ∀ d, InUse t' d → InUse t d) :
    FreeFor shortkey t' pKey c := by
  obtain ⟨hmem, hfree, habs⟩ := h
  refine ⟨by rw [e.candidates]; exact hmem, ?_, ?_⟩
  · by_contra hu
    have hlt := hrows.lt_of_mem hmem
    rw [← e.real] at hlt
    have := (hused c ⟨hlt, by simpa using hu⟩).2
    rw [hfree] at this
    cases this
  · intro d hd
    rw [e.funCmp, e.node]
    exact habs d (hused d hd)

theorem KeysPlaced.mono (h : KeysPlaced shortkey t) (e : SameCells t t')
    (hused : ∀ d, InUse t' d → InUse t d) : KeysPlaced shortkey t' := by
  unfold KeysPlaced
  simp only [e.funCmp, e.candidates, e.node]
  exact Placed.mono h hused fun d _ => rfl

theorem KeysPlaced.insert (h : KeysPlaced shortkey t) (hc : KeyCmp t.funCmp shortkey)
    (hfree : FreeFor shortkey t (t.node c) c) (e : SameCells t t')
    (hused : ∀ d, InUse t' d ↔ d = c ∨ InUse t d) : KeysPlaced shortkey t' := by
  have hins := Placed.insert h hc.symm hfree.1 hfree.2.2
  rw [Function.update_eq_self] at hins
  unfold KeysPlaced
  simp only [e.funCmp, e.candidates, e.node]
  exact hins.mono (fun d hd => (hused d).mp hd) fun d _ => rfl

theorem hashTableSearchEx_eq (hinit : t.bInitSuccess = true) (pKey : α) (dwShortKey : Nat) :
    hashTableSearchEx t pKey dwShortKey =
      match hashTableSearch t pKey dwShortKey with
      | some c => (true, some c)
      | none => (false, (candidates t dwShortKey).find? fun c => !t.used c) := by
  rw [hashTableSearchEx, if_pos hinit, searchRows_eq_probe, probe_eq, Option.none_or,
    hashTableSearch, if_pos hinit, searchRow_eq_find?]
  rfl

theorem KeyInv.freeFor (h : KeyInv shortkey r)
    (hnone : hashTableSearch r.table pKey (shortkey pKey) = none)
    (hfree : (candidates r.table (shortkey pKey)).find? (fun c => !r.table.used c) = some c) :
    FreeFor shortkey r.table pKey c := by
  refine ⟨List.mem_of_find?_eq_some hfree, by simpa using List.find?_some hfree, ?_⟩
  intro d hd hcmp
  have hsome := (h.keysOk.search pKey d).mpr ⟨hd, hcmp⟩
  rw [hnone] at hsome
  cases hsome

theorem KeyInv.search [Inhabited α] (h : KeyInv shortkey r) (pKey : α) :
    ∃ o r', keyStep shortkey r (.search pKey) = some (o, r') ∧ KeyInv shortkey r' := by
  have hnone : KeyInv shortkey ⟨r.table, none, none⟩ :=
    ⟨h.ready, h.rows, h.cmp, h.placed, by simp, by simp⟩
  obtain ⟨l, hl⟩ := h.ready
  simp only [keyStep]
  rw [hashTableSearchEx_eq hl.init]
  cases hfind : hashTableSearch r.table pKey (shortkey pKey) with
  | some c => exact ⟨0, _, rfl, hnone⟩
  | none =>
    cases hfree : (candidates r.table (shortkey pKey)).find? fun c => !r.table.used c with
    | none => exact ⟨0, _, rfl, hnone⟩
    | some c =>
      refine ⟨0, _, rfl, ⟨h.ready, h.rows, h.cmp, h.placed, ?_, by simp⟩⟩
      intro k d hkd
      obtain ⟨rfl, rfl⟩ := Prod.mk.inj (Option.some.inj hkd)
      exact h.freeFor hfind hfree

theorem KeyInv.fill [Inhabited α] (h : KeyInv shortkey r) (hp : r.pending.isSome = true) :
    ∃ o r', keyStep shortkey r .fill = some (o, r') ∧ KeyInv shortkey r' := by
  obtain ⟨⟨pKey, c⟩, hx⟩ := Option.isSome_iff_exists.mp hp
  obtain ⟨hmem, hfree, habs⟩ := h.pending pKey c hx
  obtain ⟨l, hl⟩ := h.ready
  have hkeep : ∀ d, InUse r.table d → Function.update r.table.node c pKey d = r.table.node d := by
    intro d hd
    apply Function.update_of_ne
    rintro rfl
    rw [hd.2] at hfree
    cases hfree
  refine ⟨0, _, by rw [keyStep, hx]; rfl, ?_⟩
  refine ⟨⟨l, hl.setNode c pKey⟩, ⟨h.rows.pos, h.rows.sum⟩, h.cmp, ?_, by simp, ?_⟩
  · exact Placed.mono h.placed (fun d hd => hd) hkeep
  · intro d hd
    obtain rfl := Option.some.inj hd
    simp only [node_setNode, Function.update_self]
    refine ⟨hmem, hfree, ?_⟩
    intro d hd
    simp only [node_setNode]
    rw [hkeep d hd]
    exact habs d hd

theorem KeyInv.insert [Inhabited α] (h : KeyInv shortkey r) (env : LockEnv)
    (hf : r.filled.isSome = true) :
    ∃ o r', keyStep shortkey r (.insert env) = some (o, r') ∧ KeyInv shortkey r' := by
  obtain ⟨c, hc⟩ := Option.isSome_iff_exists.mp hf
  have hfree := h.filled c hc
  obtain ⟨l, hl⟩ := h.ready
  obtain ⟨ret, t', l', ht', hl', hsame, hused⟩ :=
    insertHashNode_cells hl (h.rows.lt_of_mem hfree.1) hfree.2.1 env
  refine ⟨ret, ⟨t', none, none⟩, by simp [keyStep, hc, ht'], ?_⟩
  refine ⟨⟨l', hl'⟩, hsame.rows h.rows, by rw [hsame.funCmp]; exact h.cmp, ?_, by simp, by simp⟩
  rcases hused with hused | hused
  · exact h.placed.insert h.cmp hfree hsame hused
  · exact h.placed.mono hsame fun d hd => (hused d).mp hd

theorem KeyInv.remove [Inhabited α] (h : KeyInv shortkey r) (env : LockEnv) {i : Nat}
    (hi : InUse r.table i) :
    ∃ o r', keyStep shortkey r (.remove env i) = some (o, r') ∧ KeyInv shortkey r' := by
  obtain ⟨l, hl⟩ := h.ready
  obtain ⟨ret, t', l', ht', hl', hsame, hused⟩ := removeHashNode_cells hl hi env
  refine ⟨ret, ⟨t', r.pending, r.filled⟩, by simp [keyStep, ht'], ?_⟩
  refine ⟨⟨l', hl'⟩, hsame.rows h.rows, by rw [hsame.funCmp]; exact h.cmp,
    h.placed.mono hsame hused, ?_, ?_⟩
  · intro pKey c hx
    exact (h.pending pKey c hx).mono h.rows hsame hused
  · intro c hx
    change FreeFor shortkey t' (t'.node c) c
    rw [hsame.node]
    exact (h.filled c hx).mono h.rows hsame hused

theorem KeyInv.setNode {t : SharedHashTable α} (h : KeyInv shortkey ⟨t, none, none⟩)
    {a : α} (ha : t.funCmp a (t.node c) = 0) : KeyInv shortkey ⟨t.setNode c a, none, none⟩ := by
  obtain ⟨l, hl⟩ := h.ready
  refine ⟨⟨l, hl.setNode c a⟩, ⟨h.rows.pos, h.rows.sum⟩, h.cmp, ?_, by simp, by simp⟩
  refine Placed.rekey h.placed h.cmp.symm h.cmp.trans h.cmp.candidates_eq ?_
  intro d _
  rw [node_setNode]
  by_cases hd : d = c
  · rw [hd, Function.update_self]
    exact ha
  · rw [Function.update_of_ne hd]
    exact h.cmp.refl _

theorem KeyInv.link {t t' : SharedHashTable α} (h : KeyInv shortkey ⟨t, none, none⟩)
    {a : α} (hfree : FreeFor shortkey t a c) (hr : ∃ l, Ready t' l) (e : SameCells t t')
    (hused : ∀ d, InUse t' d ↔ d = c ∨ InUse t d) :
    KeyInv shortkey ⟨t'.setNode c a, none, none⟩ := by
  obtain ⟨l, hl⟩ := hr
  have hrows := e.rows h.rows
  have hcmp : KeyCmp t'.funCmp shortkey := by
    rw [e.funCmp]
    exact h.cmp
  refine ⟨⟨l, hl.setNode c a⟩, ⟨hrows.pos, hrows.sum⟩, hcmp, ?_, by simp, by simp⟩
  have hins := Placed.insert h.placed h.cmp.symm hfree.1 hfree.2.2
  have hplaced : Placed (fun x y => t'.funCmp x y = 0) (fun k => candidates t' (shortkey k))
      (InUse t') (Function.update t'.node c a) := by
    simp only [e.funCmp, e.candidates, e.node]
    exact hins.mono (fun d hd => (hused d).mp hd) fun d _ => rfl
  exact hplaced

theorem KeyInv.step [Inhabited α] (shortkey : α → Nat) (r : KeyRun α) (op : KeyOp α)
    (h : KeyInv shortkey r) (hop : Follows r op) :
    ∃ o r', keyStep shortkey r op = some (o, r') ∧ True ∧ KeyInv shortkey r' := by
  cases op with
  | search pKey =>
    obtain ⟨o, r', hr', hinv⟩ := h.search pKey
    exact ⟨o, r', hr', trivial, hinv⟩
  | fill =>
    obtain ⟨o, r', hr', hinv⟩ := h.fill hop
    exact ⟨o, r', hr', trivial, hinv⟩
  | insert env =>
    obtain ⟨o, r', hr', hinv⟩ := h.insert env hop
    exact ⟨o, r', hr', trivial, hinv⟩
  | remove env i =>
    obtain ⟨o, r', hr', hinv⟩ := h.remove env hop
    exact ⟨o, r', hr', trivial, hinv⟩

theorem EmptyTable.keyInv (h : EmptyTable t) (hrows : RowsOk t) (hcmp : KeyCmp t.funCmp shortkey) :
    KeyInv shortkey ⟨t, none, none⟩ := by
  have hunused : ∀ c, ¬ InUse t c := by
    intro c hc
    have := hc.2
    rw [h.unused c hc.1] at this
    cases this
  refine ⟨⟨[], h.ready⟩, hrows, hcmp, ⟨?_, ?_⟩, by simp, by simp⟩
  · intro c hc
    exact absurd hc (hunused c)
  · intro c d hc
    exact absurd hc (hunused c)

end Invariant

end XrkMonitor.SharedHash
