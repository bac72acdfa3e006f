import Mathlib.Data.List.InsertIdx
import Mathlib.Data.List.Pairwise
import Mathlib.Data.List.Sort
import XrkMonitor.Library.SortedTable

/-!
# Tables in the order of their keys

A table whose keys may occur twice. A sort promises the order only where its comparison gives the
sign of any two keys; elsewhere it may leave the rows in any order.

## Implementation notes

The search looks at the keys of the rows only, so it is also a search in the list of the keys.
-/

namespace XrkMonitor.Library

variable {ρ κ : Type*} [LinearOrder κ]

/-- The rows stand in the order of their keys. -/
def OrderedBy (key : ρ → κ) (rows : List ρ) : Prop := rows.Pairwise fun a b => key a ≤ key b

instance (key : ρ → κ) (rows : List ρ) : Decidable (OrderedBy key rows) :=
  inferInstanceAs (Decidable (rows.Pairwise _))

/-- The comparison gives the sign of any two of the keys. -/
def Consistent (c : κ → κ → Int) (keys : List κ) : Prop :=
  ∀ a ∈ keys, ∀ b ∈ keys, (c a b < 0 ↔ a < b) ∧ (0 < c a b ↔ b < a)

instance (c : κ → κ → Int) (keys : List κ) : Decidable (Consistent c keys) :=
  inferInstanceAs (Decidable (∀ a ∈ keys, ∀ b ∈ keys, _))

/-- What a sort promises: the same rows, in order where the comparison is consistent. -/
structure SortsBy (c : κ → κ → Int) (key : ρ → κ) (sort : List ρ → List ρ) : Prop where
  perm : ∀ rows, (sort rows).Perm rows
  ordered : ∀ rows, Consistent c (rows.map key) → OrderedBy key (sort rows)

/-- The place of a key in a list of keys, as `bsearch` finds it. -/
def findKey (c : κ → κ → Int) (k : κ) (keys : List κ) : Option Nat := bsearch (c k) keys

variable {c : κ → κ → Int} {key : ρ → κ} {rows : List ρ} {sort : List ρ → List ρ} {r : ρ} {k : κ}
  {j : Nat}

theorem orderedBy_iff_keys : OrderedBy key rows ↔ (rows.map key).Pairwise (· ≤ ·) :=
  List.pairwise_map.symm

theorem Consistent.comparesOn {keys : List κ} (h : Consistent c keys) :
    ComparesOn c {k | k ∈ keys} where
  neg_iff := fun a ha b hb => (h a ha b hb).1
  pos_iff := fun a ha b hb => (h a ha b hb).2

section Sorts

theorem sortsBy_qsort (c : κ → κ → Int) (key : ρ → κ) : SortsBy c key (qsort c key) where
  perm := qsort_perm c key
  ordered := fun _ h => pairwise_le_qsort h.comparesOn fun _ hx => List.mem_map_of_mem hx

theorem SortsBy.keys_concat (h : SortsBy c key sort) (hord : OrderedBy key rows)
    (hcons : Consistent c (key r :: rows.map key)) :
    (sort (rows ++ [r])).map key = (rows.map key).orderedInsert (· ≤ ·) (key r) := by
  have hperm : ((rows ++ [r]).map key).Perm (key r :: rows.map key) := by
    rw [List.map_append, List.map_singleton]
    exact List.perm_append_singleton _ _
  have hcons' : Consistent c ((rows ++ [r]).map key) := by
    intro a ha b hb
    exact hcons a (hperm.mem_iff.mp ha) b (hperm.mem_iff.mp hb)
  have hsorted := orderedBy_iff_keys.mp (h.ordered _ hcons')
  have hinsert := (orderedBy_iff_keys.mp hord).orderedInsert (key r) (rows.map key)
  refine List.Perm.eq_of_pairwise ?_ hsorted hinsert ?_
  · intro a b _ _ hab hba
    exact le_antisymm hab hba
  · refine ((h.perm _).map key).trans (hperm.trans ?_)
    exact (List.perm_orderedInsert _ _ _).symm

/-- Some sort keeps the promise and nothing more. -/
theorem exists_sortsBy_only (hself : ∀ k, c k k = 0) (key : ρ → κ) :
    ∃ sort, SortsBy c key sort ∧
      ∀ rows, OrderedBy key (sort rows) → Consistent c (rows.map key) := by
  classical
  let inOrder : List ρ → List ρ := fun rows => rows.mergeSort fun a b => decide (key a ≤ key b)
  have hperm : ∀ rows, (inOrder rows).Perm rows := fun rows => List.mergeSort_perm rows _
  have hord : ∀ rows, OrderedBy key (inOrder rows) := by
    intro rows
    have htrans : ∀ a b d : ρ, decide (key a ≤ key b) = true → decide (key b ≤ key d) = true →
        decide (key a ≤ key d) = true := by
      intro a b d hab hbd
      rw [decide_eq_true_eq] at hab hbd ⊢
      exact hab.trans hbd
    have htotal : ∀ a b : ρ, (decide (key a ≤ key b) || decide (key b ≤ key a)) = true := by
      intro a b
      rw [Bool.or_eq_true, decide_eq_true_eq, decide_eq_true_eq]
      exact le_total _ _
    have hle := List.pairwise_mergeSort htrans htotal rows
    exact hle.imp fun h => of_decide_eq_true h
  refine ⟨fun rows => if Consistent c (rows.map key) then inOrder rows else (inOrder rows).reverse,
    ⟨?_, ?_⟩, ?_⟩
  · intro rows
    split
    · exact hperm rows
    · exact (List.reverse_perm _).trans (hperm rows)
  · intro rows hcons
    rw [if_pos hcons]
    exact hord rows
  · intro rows hrows
    by_contra hcons
    dsimp only at hrows
    rw [if_neg hcons] at hrows
    refine hcons ?_
    have hback := List.pairwise_reverse.mp hrows
    have hsame : (inOrder rows).Pairwise fun a b => key a = key b :=
      ((hord rows).and hback).imp fun h => le_antisymm h.1 h.2
    have : Std.Symm fun a b : ρ => key a = key b := ⟨fun _ _ h => h.symm⟩
    have hall : ∀ ⦃x⦄, x ∈ inOrder rows → ∀ ⦃y⦄, y ∈ inOrder rows → key x = key y :=
      hsame.forall_of_forall fun _ _ => rfl
    intro a ha b hb
    obtain ⟨x, hx, rfl⟩ := List.mem_map.mp ha
    obtain ⟨y, hy, rfl⟩ := List.mem_map.mp hb
    have heq := hall ((hperm rows).mem_iff.mpr hx) ((hperm rows).mem_iff.mpr hy)
    rw [heq, hself]
    exact ⟨iff_of_false (lt_irrefl _) (lt_irrefl _), iff_of_false (lt_irrefl _) (lt_irrefl _)⟩

end Sorts

section Search

omit [LinearOrder κ] in
theorem bsearchFrom_map (cmp : κ → Int) (key : ρ → κ) (rows : List ρ) (fuel lo hi : Nat) :
    bsearchFrom cmp (rows.map key) fuel lo hi =
      bsearchFrom (fun r => cmp (key r)) rows fuel lo hi := by
  induction fuel generalizing lo hi with
  | zero => rfl
  | succ fuel ih =>
    rw [bsearchFrom, bsearchFrom, List.getElem?_map]
    cases rows[(lo + hi) / 2]? with
    | none => rfl
    | some x => simp only [Option.map_some, ih]

omit [LinearOrder κ] in
theorem searchKey_eq_findKey (c : κ → κ → Int) (key : ρ → κ) (k : κ) (rows : List ρ) :
    searchKey c key k rows = findKey c k (rows.map key) := by
  rw [searchKey, findKey, bsearch, bsearch, bsearchFrom_map, List.length_map]

omit [LinearOrder κ] in
theorem searchKey_cmp (h : searchKey c key k rows = some j) :
    ∃ r, rows[j]? = some r ∧ c k (key r) = 0 := bsearch_some h

end Search

section Change

omit [LinearOrder κ] in
theorem keys_modify {f : ρ → ρ} (hr : rows[j]? = some r) (hf : key (f r) = key r) :
    (rows.modify j f).map key = rows.map key := by
  apply List.ext_getElem?
  intro i
  rw [List.getElem?_map, List.getElem?_map]
  rcases eq_or_ne j i with rfl | hi
  · rw [List.getElem?_modify_eq, hr]
    exact congrArg some hf
  · rw [List.getElem?_modify_ne _ _ hi]

theorem OrderedBy.congr {rows' : List ρ} (h : OrderedBy key rows)
    (hkeys : rows'.map key = rows.map key) : OrderedBy key rows' := by
  rw [orderedBy_iff_keys, hkeys]
  exact orderedBy_iff_keys.mp h

theorem OrderedBy.eraseIdx (h : OrderedBy key rows) (j : Nat) : OrderedBy key (rows.eraseIdx j) :=
  h.sublist (List.eraseIdx_sublist rows j)

omit [LinearOrder κ] in
theorem keys_eraseIdx (key : ρ → κ) (rows : List ρ) (j : Nat) :
    (rows.eraseIdx j).map key = (rows.map key).eraseIdx j :=
  (List.eraseIdx_map key rows j).symm

end Change

end XrkMonitor.Library
