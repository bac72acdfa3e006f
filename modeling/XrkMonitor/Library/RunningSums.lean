import Mathlib.Algebra.BigOperators.Group.List.Basic
import Mathlib.Algebra.Order.BigOperators.Group.List
import Mathlib.Algebra.Order.Group.Nat
import Mathlib.Algebra.Ring.Nat
import Mathlib.Data.List.Count
import Mathlib.Logic.Function.Basic

/-!
# Running sums by key

Values are added one after another to the sum of their key. `runningSums` lists the sum of
each value's key right after the value was added; `sumAt` is the sum of a key in the end.
Adding up the running sums counts a value once for itself and once for every later
value of its key: `pairSum` is what is counted too often.
-/

namespace XrkMonitor.Library

variable {α κ : Type*} [DecidableEq κ] (key : α → κ) (val : α → Nat)

/-- The sum of the values of a key. -/
def sumAt (k : κ) : List α → Nat
  | [] => 0
  | x :: l => (if key x = k then val x else 0) + sumAt k l

/-- The sum of each value's key after it was added to `acc`. -/
def runningSums (acc : κ → Nat) : List α → List Nat
  | [] => []
  | x :: l =>
    let sum := acc (key x) + val x
    sum :: runningSums (Function.update acc (key x) sum) l

/-- Each value as often as later values have its key. -/
def pairSum : List α → Nat
  | [] => 0
  | x :: l => val x * l.countP (fun y => key y = key x) + pairSum l

variable {key val} {acc : κ → Nat} {k : κ} {x : α} {l l' : List α}

theorem sumAt_perm (h : l.Perm l') (k : κ) : sumAt key val k l = sumAt key val k l' := by
  induction h with
  | nil => rfl
  | cons x _ ih => rw [sumAt, ih, sumAt]
  | swap x y l =>
    simp only [sumAt]
    omega
  | trans _ _ ih ih' => exact ih.trans ih'

theorem sumAt_le_sum (k : κ) (l : List α) : sumAt key val k l ≤ (l.map val).sum := by
  induction l with
  | nil => exact Nat.le_refl 0
  | cons x l ih =>
    rw [sumAt, List.map_cons, List.sum_cons]
    split <;> omega

theorem sumAt_of_forall_ne (h : ∀ y ∈ l, key y ≠ k) : sumAt key val k l = 0 := by
  induction l with
  | nil => rfl
  | cons y l ih =>
    obtain ⟨hy, hl⟩ := List.forall_mem_cons.mp h
    rw [sumAt, if_neg hy, ih hl]

theorem update_add_sumAt (acc : κ → Nat) (x : α) (l : List α) (k : κ) :
    Function.update acc (key x) (acc (key x) + val x) k + sumAt key val k l =
      acc k + sumAt key val k (x :: l) := by
  rw [sumAt]
  by_cases hk : key x = k
  · subst hk
    rw [Function.update_self, if_pos rfl, Nat.add_assoc]
  · rw [Function.update_of_ne (Ne.symm hk), if_neg hk, Nat.zero_add]

theorem mem_runningSums {s : Nat} (hs : s ∈ runningSums key val acc l) :
    ∃ x ∈ l, val x ≤ s ∧ s ≤ acc (key x) + sumAt key val (key x) l := by
  induction l generalizing acc with
  | nil => exact absurd hs List.not_mem_nil
  | cons x l ih =>
    rcases List.mem_cons.mp hs with rfl | hs
    · refine ⟨x, List.mem_cons_self, Nat.le_add_left _ _, ?_⟩
      rw [sumAt, if_pos rfl]
      omega
    · obtain ⟨y, hy, hle, hsum⟩ := ih hs
      refine ⟨y, List.mem_cons_of_mem x hy, hle, ?_⟩
      rwa [update_add_sumAt] at hsum

theorem sumAt_mem_runningSums (hx : x ∈ l) :
    acc (key x) + sumAt key val (key x) l ∈ runningSums key val acc l := by
  induction l generalizing acc x with
  | nil => exact absurd hx List.not_mem_nil
  | cons y l ih =>
    rw [← update_add_sumAt]
    by_cases hlater : ∃ z ∈ l, key z = key x
    · obtain ⟨z, hz, hkey⟩ := hlater
      rw [← hkey]
      exact List.mem_cons_of_mem _ (ih hz)
    · have hzero : sumAt key val (key x) l = 0 :=
        sumAt_of_forall_ne fun z hz hkey => hlater ⟨z, hz, hkey⟩
      rcases List.mem_cons.mp hx with rfl | hx
      · rw [hzero, Function.update_self]
        exact List.mem_cons_self
      · exact absurd ⟨x, hx, rfl⟩ hlater

theorem sum_map_update (acc : κ → Nat) (x : α) (l : List α) :
    (l.map fun y => Function.update acc (key x) (acc (key x) + val x) (key y)).sum =
      (l.map fun y => acc (key y)).sum + val x * l.countP (fun y => key y = key x) := by
  induction l with
  | nil => rfl
  | cons y l ih =>
    rw [List.map_cons, List.sum_cons, List.map_cons, List.sum_cons, ih, List.countP_cons]
    by_cases hkey : key y = key x
    · rw [hkey, Function.update_self, decide_eq_true rfl, if_pos rfl, Nat.mul_add, Nat.mul_one]
      omega
    · rw [Function.update_of_ne hkey, decide_eq_false hkey, if_neg Bool.false_ne_true, Nat.add_zero,
        Nat.add_assoc]

theorem sum_runningSums (acc : κ → Nat) (l : List α) :
    (runningSums key val acc l).sum =
      (l.map fun y => acc (key y)).sum + (l.map val).sum + pairSum key val l := by
  induction l generalizing acc with
  | nil => rfl
  | cons x l ih =>
    rw [runningSums, List.sum_cons, ih, sum_map_update, List.map_cons, List.sum_cons,
      List.map_cons, List.sum_cons, pairSum]
    omega

theorem pairSum_perm (h : l.Perm l')
    (heq : l.Pairwise fun x y => key x = key y → val x = val y) :
    pairSum key val l = pairSum key val l' := by
  induction h with
  | nil => rfl
  | cons x hperm ih =>
    rw [pairSum, ih (List.pairwise_cons.mp heq).2, pairSum, hperm.countP_eq]
  | swap x y l =>
    obtain ⟨hy, -⟩ := List.pairwise_cons.mp heq
    have hval := hy x List.mem_cons_self
    simp only [pairSum, List.countP_cons]
    by_cases hkey : key x = key y
    · have hkey' : key y = key x := hkey.symm
      rw [hval hkey']
      simp only [hkey, decide_true, if_true, Nat.mul_add]
    · have hkey' : key y ≠ key x := fun h => hkey h.symm
      simp only [hkey, hkey', decide_false, Bool.false_eq_true, if_false, Nat.add_zero]
      exact Nat.add_left_comm _ _ _
  | trans hperm _ ih ih' =>
    refine (ih heq).trans (ih' ?_)
    refine (hperm.pairwise_iff ?_).mp heq
    intro a b hab hkey
    exact (hab hkey.symm).symm

theorem pairSum_swap (x y : α) (l : List α) (hkey : key x = key y) :
    pairSum key val (x :: y :: l) + val y = pairSum key val (y :: x :: l) + val x := by
  simp only [pairSum, List.countP_cons, hkey, decide_true, if_true, Nat.mul_add]
  omega

section Best

variable {β : Type*} (r : β → β → Prop) [DecidableRel r]

/-- The one that is kept of two: the second only where it is better. -/
def better (m s : β) : β := if r m s then s else m

variable {r}

theorem foldl_better (hirr : ∀ a, ¬ r a a) (htrans : ∀ a b c, ¬ r a b → ¬ r b c → ¬ r a c)
    (hasymm : ∀ a b, r a b → ¬ r b a) (a : β) (l : List β) :
    l.foldl (better r) a ∈ a :: l ∧ ∀ s ∈ a :: l, ¬ r (l.foldl (better r) a) s := by
  induction l generalizing a with
  | nil => exact ⟨List.mem_cons_self, List.forall_mem_singleton.mpr (hirr a)⟩
  | cons b l ih =>
    obtain ⟨hmem, hbest⟩ := ih (better r a b)
    rw [List.foldl_cons]
    have hmax : (better r a b = a ∨ better r a b = b) ∧ ¬ r (better r a b) a ∧
        ¬ r (better r a b) b := by
      rw [better]
      split
      · exact ⟨Or.inr rfl, hasymm _ _ ‹_›, hirr b⟩
      · exact ⟨Or.inl rfl, hirr a, ‹_›⟩
    obtain ⟨hkept, hab, hbb⟩ := hmax
    constructor
    · rcases List.mem_cons.mp hmem with heq | hmem
      · rw [heq]
        rcases hkept with hkept | hkept
        · rw [hkept]
          exact List.mem_cons_self
        · rw [hkept]
          exact List.mem_cons_of_mem a List.mem_cons_self
      · exact List.mem_cons_of_mem a (List.mem_cons_of_mem b hmem)
    · have hfirst := hbest _ List.mem_cons_self
      refine List.forall_mem_cons.mpr ⟨htrans _ _ _ hfirst hab, ?_⟩
      refine List.forall_mem_cons.mpr ⟨htrans _ _ _ hfirst hbb, ?_⟩
      intro s hs
      exact hbest s (List.mem_cons_of_mem _ hs)

end Best

end XrkMonitor.Library
