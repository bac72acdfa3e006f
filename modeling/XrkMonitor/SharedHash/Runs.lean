import XrkMonitor.SharedHash.Operations

/-!
# Runs of the list operations

A run is any finite sequence of `InsertHashNode`, `InsertHashNodeSort` and
`RemoveHashNode` calls, each on a cell it may be applied to, with an arbitrary
outcome of every compare-and-swap and an arbitrary clock. The threaded list
keeps its shape through every run, and insertion by a total preorder keeps it
sorted.
-/

namespace XrkMonitor.SharedHash

open Library SharedHashTable

variable {α : Type*} {t : SharedHashTable α} {l : List Nat} {c : α → α → Int}

/-- One call of a list operation. An insertion fills its cell first. -/
inductive ListOp (α : Type*) where
  | insert (i : Nat) (a : α)
  | insertSort (i : Nat) (a : α)
  | remove (i : Nat)

/-- The return code of a call and the table after it. -/
def exec [Inhabited α] (t : SharedHashTable α) :
    LockEnv × ListOp α → Option (Int × SharedHashTable α)
  | (env, .insert i a) => some (insertHashNode env (t.setNode i a) i)
  | (env, .insertSort i a) => insertHashNodeSort env (t.setNode i a) i
  | (env, .remove i) => some (removeHashNode env t i)

/-- Insertions take an unused cell, removals a used one. -/
def Applies (t : SharedHashTable α) : LockEnv × ListOp α → Prop
  | (_, .insert i _) => i < t.dwRealNodeCount ∧ t.used i = false
  | (_, .insertSort i _) => i < t.dwRealNodeCount ∧ t.used i = false
  | (_, .remove i) => i < t.dwRealNodeCount ∧ t.used i = true

/-- The return code of a call whose compare-and-swaps go as `env` says. -/
def returnCode (call : LockEnv × ListOp α) : Int := if lockLoop call.1 false then 0 else -33

/-- The call is no plain `InsertHashNode`. -/
def SortsOnly : LockEnv × ListOp α → Prop
  | (_, .insert _ _) => False
  | _ => True

/-- An initialised table without nodes, its flag free and no writer set. -/
structure EmptyTable (t : SharedHashTable α) : Prop where
  init : t.bInitSuccess = true
  free : t.head.bHashUseFlag = false
  noWriter : t.head.dwWriteProcessId = 0
  start_eq : t.head.dwNodeStartIndex = t.dwRealNodeCount
  end_eq : t.head.dwNodeEndIndex = t.dwRealNodeCount
  count : t.head.dwNodeUseCount = 0
  unused : ∀ i < t.dwRealNodeCount, t.used i = false
  word : t.dwRealNodeCount < 2 ^ 32

/-- `c x y ≤ 0` is a total preorder. -/
structure TotalPreorder (c : α → α → Int) : Prop where
  total : ∀ x y, c x y ≤ 0 ∨ c y x ≤ 0
  trans : ∀ x y z, c x y ≤ 0 → c y z ≤ 0 → c x z ≤ 0

/-- The cells of `l` hold non-decreasing data. -/
def NonDecreasing (c : α → α → Int) (t : SharedHashTable α) (l : List Nat) : Prop :=
  l.Pairwise fun x y => c (t.node x) (t.node y) ≤ 0

theorem EmptyTable.ready (h : EmptyTable t) : Ready t [] where
  linked :=
    { fwd := h.start_eq
      bwd := h.end_eq
      nodup := List.nodup_nil
      mem := by
        intro i
        constructor
        · intro hi
          cases hi
        · rintro ⟨hi, hu⟩
          rw [h.unused i hi] at hu
          cases hu
      count := h.count }
  init := h.init
  free := h.free
  noWriter := h.noWriter
  word := h.word

theorem NonDecreasing.congr {t' : SharedHashTable α}
    (h : NonDecreasing c t l) (hnode : ∀ x ∈ l, t'.node x = t.node x) : NonDecreasing c t' l := by
  refine List.Pairwise.imp_of_mem ?_ h
  intro x y hx hy hxy
  rw [hnode x hx, hnode y hy]
  exact hxy

theorem NonDecreasing.setNode {i : Nat} (h : NonDecreasing c t l) (hi : i ∉ l)
    (a : α) : NonDecreasing c (t.setNode i a) l := by
  refine h.congr ?_
  intro x hx
  have hne : x ≠ i := by
    rintro rfl
    exact hi hx
  exact Function.update_of_ne hne _ _

theorem NonDecreasing.insert {l₁ l₂ : List Nat} {i : Nat} (hc : TotalPreorder t.funCmp)
    (h : NonDecreasing t.funCmp t (l₁ ++ l₂)) (hafter : ∀ x ∈ l₂, After t i x)
    (hlast : ∀ p ∈ l₁.getLast?, ¬ After t i p) :
    NonDecreasing t.funCmp t (l₁ ++ i :: l₂) := by
  obtain ⟨h₁, h₂, h₁₂⟩ := List.pairwise_append.mp h
  have hbefore : ∀ x ∈ l₁, t.funCmp (t.node x) (t.node i) ≤ 0 := by
    intro x hx
    rcases List.eq_nil_or_concat l₁ with rfl | ⟨l₁, p, rfl⟩
    · cases hx
    · rw [List.concat_eq_append] at hlast hx h₁
      have hp : t.funCmp (t.node p) (t.node i) ≤ 0 := not_lt.mp (hlast p (by simp))
      rcases List.mem_append.mp hx with hx | hx
      · exact hc.trans _ _ _ ((List.pairwise_append.mp h₁).2.2 x hx p (by simp)) hp
      · obtain rfl : x = p := by simpa using hx
        exact hp
  have hbehind : ∀ y ∈ l₂, t.funCmp (t.node i) (t.node y) ≤ 0 := by
    intro y hy
    have hgt : ¬ t.funCmp (t.node y) (t.node i) ≤ 0 := not_le.mpr (hafter y hy)
    exact (hc.total _ _).resolve_right hgt
  refine List.pairwise_append.mpr ⟨h₁, List.pairwise_cons.mpr ⟨hbehind, h₂⟩, ?_⟩
  intro x hx y hy
  rcases List.mem_cons.mp hy with rfl | hy
  · exact hbefore x hx
  · exact h₁₂ x hx y hy

/-- What holds between two calls of a run on a table with `n` cells and
comparator `c`; `sorted` tells whether insertions are sorted ones. -/
def RunInv (n : Nat) (c : α → α → Int) (sorted : Prop) (t : SharedHashTable α) : Prop :=
  ∃ l, Ready t l ∧ t.dwRealNodeCount = n ∧ t.funCmp = c ∧ (sorted → NonDecreasing c t l)

section Step

variable [Inhabited α] {n i : Nat} {c : α → α → Int} {sorted : Prop}

theorem RunInv.insert (env : LockEnv) (h : RunInv n c sorted t) (hi : i < t.dwRealNodeCount)
    (hu : t.used i = false) (hs : ¬ sorted) (a : α) :
    ∃ t', exec t (env, .insert i a) = some (returnCode (env, ListOp.insert i a), t') ∧
      RunInv n c sorted t' := by
  obtain ⟨l, hr, hn, hc, -⟩ := h
  have hfill := hr.setNode i a
  by_cases henv : lockLoop env false = true
  · obtain ⟨t', ht', hr', he⟩ := insertHashNode_ready hfill hi hu henv
    refine ⟨t', by simp [exec, returnCode, henv, ht'], l ++ [i], hr', ?_, ?_, ?_⟩
    · rw [he.dwRealNodeCount, dwRealNodeCount_setNode, hn]
    · rw [he.funCmp, funCmp_setNode, hc]
    · intro h
      exact absurd h hs
  · rw [Bool.not_eq_true] at henv
    refine ⟨_, by simp [exec, returnCode, henv, insertHashNode_busy hfill henv], l,
      hfill.report 237, hn, hc, ?_⟩
    intro h
    exact absurd h hs

theorem RunInv.insertSort (env : LockEnv) (h : RunInv n c sorted t) (hi : i < t.dwRealNodeCount)
    (hu : t.used i = false) (hpre : sorted → TotalPreorder c) (a : α) :
    ∃ t', exec t (env, .insertSort i a) = some (returnCode (env, ListOp.insertSort i a), t') ∧
      RunInv n c sorted t' := by
  obtain ⟨l, hr, hn, rfl, hsort⟩ := h
  have hfill := hr.setNode i a
  have hsort' : sorted → NonDecreasing t.funCmp (t.setNode i a) l := fun hs =>
    (hsort hs).setNode (hr.not_mem hu) a
  by_cases henv : lockLoop env false = true
  · obtain ⟨t', l₁, l₂, ht', rfl, hr', he, hafter, hlast⟩ :=
      insertHashNodeSort_ready hfill hi hu henv
    refine ⟨t', by simp [exec, returnCode, henv, ht'], l₁ ++ i :: l₂, hr', ?_, ?_, ?_⟩
    · rw [he.dwRealNodeCount, dwRealNodeCount_setNode, hn]
    · rw [he.funCmp, funCmp_setNode]
    · intro hs
      have hins := NonDecreasing.insert (t := t.setNode i a) (hpre hs) (hsort' hs) hafter hlast
      refine NonDecreasing.congr hins ?_
      intro x _
      rw [he.node]
  · rw [Bool.not_eq_true] at henv
    exact ⟨_, by simp [exec, returnCode, henv, insertHashNodeSort_busy hfill henv], l,
      hfill.report 237, hn, rfl, hsort'⟩

theorem RunInv.remove (env : LockEnv) (h : RunInv n c sorted t) (hi : i < t.dwRealNodeCount)
    (hu : t.used i = true) :
    ∃ t', exec t (env, .remove i) = some (returnCode (env, (ListOp.remove i : ListOp α)), t') ∧
      RunInv n c sorted t' := by
  obtain ⟨l, hr, hn, hc, hsort⟩ := h
  by_cases henv : lockLoop env false = true
  · obtain ⟨l₁, l₂, rfl⟩ := List.append_of_mem ((hr.linked.mem i).mpr ⟨hi, hu⟩)
    obtain ⟨t', ht', hr', he, -⟩ := removeHashNode_ready hr henv
    refine ⟨t', by simp [exec, returnCode, henv, ht'], l₁ ++ l₂, hr', ?_, ?_, ?_⟩
    · rw [he.dwRealNodeCount, hn]
    · rw [he.funCmp, hc]
    · intro hs
      have hsub : (l₁ ++ l₂).Sublist (l₁ ++ i :: l₂) := by simp
      refine NonDecreasing.congr (t := t) ((hsort hs).sublist hsub) ?_
      intro x _
      rw [he.node]
  · rw [Bool.not_eq_true] at henv
    exact ⟨_, by simp [exec, returnCode, henv, removeHashNode_busy hr henv], l,
      hr.report 237, hn, hc, hsort⟩

theorem RunInv.step (hpre : sorted → TotalPreorder c) (t : SharedHashTable α)
    (call : LockEnv × ListOp α) (h : RunInv n c sorted t)
    (hok : Applies t call ∧ (sorted → SortsOnly call)) :
    ∃ r t', exec t call = some (r, t') ∧ returnCode call = r ∧ RunInv n c sorted t' := by
  obtain ⟨env, op⟩ := call
  cases op with
  | insert i a =>
    obtain ⟨t', ht', h'⟩ := h.insert env hok.1.1 hok.1.2 hok.2 a
    exact ⟨_, t', ht', rfl, h'⟩
  | insertSort i a =>
    obtain ⟨t', ht', h'⟩ := h.insertSort env hok.1.1 hok.1.2 hpre a
    exact ⟨_, t', ht', rfl, h'⟩
  | remove i =>
    obtain ⟨t', ht', h'⟩ := h.remove env hok.1.1 hok.1.2
    exact ⟨_, t', ht', rfl, h'⟩

end Step

/-- Every run from an empty table ends, returns `0` or the lock failure `-33`
from each call, and leaves one doubly linked list of exactly the used cells. -/
theorem run_keeps_list [Inhabited α] (hempty : EmptyTable t) (calls : List (LockEnv × ListOp α))
    (hcalls : Admissible exec Applies t calls) :
    ∃ t' l, runSteps exec t calls = some (calls.map returnCode, t') ∧
      Path t'.next t'.head.dwNodeStartIndex l t.dwRealNodeCount ∧
      Path t'.pre t'.head.dwNodeEndIndex l.reverse t.dwRealNodeCount ∧
      l.Nodup ∧
      (∀ i, i ∈ l ↔ i < t.dwRealNodeCount ∧ t'.used i = true) ∧
      t'.head.dwNodeUseCount =
        ((Finset.range t.dwRealNodeCount).filter fun i => t'.used i = true).card ∧
      (t'.head.dwNodeStartIndex = t.dwRealNodeCount ↔
        ∀ i < t.dwRealNodeCount, t'.used i = false) ∧
      (t'.head.dwNodeEndIndex = t.dwRealNodeCount ↔
        ∀ i < t.dwRealNodeCount, t'.used i = false) ∧
      (TotalPreorder t.funCmp → (∀ call ∈ calls, SortsOnly call) →
        NonDecreasing t.funCmp t' l) := by
  let sorted : Prop := TotalPreorder t.funCmp ∧ ∀ call ∈ calls, SortsOnly call
  have hstart : RunInv t.dwRealNodeCount t.funCmp sorted t :=
    ⟨[], hempty.ready, rfl, rfl, fun _ => List.Pairwise.nil⟩
  have hok := hcalls.and_forall (P := fun call => sorted → SortsOnly call)
    fun call hm hs => hs.2 call hm
  obtain ⟨rs, t', hrun, hrs, l, hr, hn, hc, hsort⟩ :=
    run_invariant (RunInv.step fun hs => hs.1) calls t hstart hok
  obtain rfl : calls.map returnCode = rs := by
    rw [← List.forall₂_eq_eq_eq]
    exact List.forall₂_map_left_iff.mpr hrs
  have hl := hr.linked
  have hnil : l = [] ↔ ∀ i < t.dwRealNodeCount, t'.used i = false := hn ▸ hl.eq_nil_iff
  refine ⟨t', l, hrun, hn ▸ hl.fwd, hn ▸ hl.bwd, hl.nodup, hn ▸ hl.mem, hn ▸ hl.count_eq_card,
    ?_, ?_, fun hp ho => hsort ⟨hp, ho⟩⟩
  · rw [← hnil, ← hn]
    exact hl.start_eq_iff
  · rw [← hnil, ← hn]
    exact hl.end_eq_iff

/-- A table of three cells for numbers, as `InitHashTable` leaves it in fresh
shared memory. -/
def threeCells : SharedHashTable Nat where
  dwNodeSize := 4
  dwRealNodeCount := 3
  dwShareMemBytes := 29 + 3 * 13
  dwNodeNums := [2, 1]
  bInitSuccess := true
  bAccessCheck := true
  dwCurIndex := 3
  dwCurIndexRevers := 3
  funCmp := fun x y => (x : Int) - y
  head := ⟨3, 3, 0, 0, 0, false⟩
  nodeHead := fun _ => ⟨false, 0, 0⟩
  node := fun _ => 0
  attrSpec := []

/-- Two sorted insertions out of order and a removal, all uncontended. -/
def threeCalls : List (LockEnv × ListOp Nat) :=
  [(⟨fun _ => false, 7, 1⟩, .insertSort 0 5), (⟨fun _ => false, 8, 1⟩, .insertSort 2 3),
    (⟨fun _ => false, 9, 1⟩, .remove 0)]

theorem run_keeps_list_threeCells :
    EmptyTable threeCells ∧ Admissible exec Applies threeCells threeCalls ∧
      ∃ t' l, runSteps exec threeCells threeCalls = some ([0, 0, 0], t') ∧
        Path t'.next t'.head.dwNodeStartIndex l 3 ∧ NonDecreasing threeCells.funCmp t' l := by
  have hempty : EmptyTable threeCells :=
    ⟨rfl, rfl, rfl, rfl, rfl, rfl, fun _ _ => rfl, by decide⟩
  have hcalls : Admissible exec Applies threeCells threeCalls := by
    refine ⟨⟨by decide, rfl⟩, ?_⟩
    rintro o₁ t₁ h₁
    obtain ⟨rfl, rfl⟩ := Prod.mk.inj (Option.some.inj h₁)
    refine ⟨⟨by decide, by decide⟩, ?_⟩
    rintro o₂ t₂ h₂
    obtain ⟨rfl, rfl⟩ := Prod.mk.inj (Option.some.inj h₂)
    refine ⟨⟨by decide, by decide⟩, fun _ _ _ => trivial⟩
  have hpre : TotalPreorder threeCells.funCmp := by
    refine ⟨fun x y => ?_, fun x y z => ?_⟩
    · simp only [threeCells]
      omega
    · simp only [threeCells]
      omega
  obtain ⟨t', l, hrun, hfwd, -, -, -, -, -, -, hsort⟩ := run_keeps_list hempty threeCalls hcalls
  refine ⟨hempty, hcalls, t', l, hrun, hfwd, hsort hpre ?_⟩
  simp [threeCalls, SortsOnly]

end XrkMonitor.SharedHash
