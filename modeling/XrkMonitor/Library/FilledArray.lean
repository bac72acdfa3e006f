import Mathlib.Data.List.Nodup
import Mathlib.Logic.Function.Basic

/-!
# Arrays that are filled from the front

An array with a count keeps its entries in the first places. `filled n a` is the list of
these entries. An entry is added behind the others, and it is removed by moving the
entries behind it one place down, which is `moveDown`; `dropEntry` looks for the place of
the entry first.
-/

namespace XrkMonitor.Library

variable {α : Type*} {a : Nat → α} {i j n : Nat} {x : α}

/-- The entries in the first `n` places. -/
def filled (n : Nat) (a : Nat → α) : List α := (List.range n).map a

/-- The entries behind place `i` move one place down, for `n` places. -/
def moveDown (a : Nat → α) (i : Nat) : Nat → Nat → α
  | 0 => a
  | n + 1 => moveDown (Function.update a i (a (i + 1))) (i + 1) n

@[simp] theorem length_filled : (filled n a).length = n := by simp [filled]

theorem getElem?_filled (hj : j < n) : (filled n a)[j]? = some (a j) := by
  simp [filled, hj]

theorem mem_filled : x ∈ filled n a ↔ ∃ j < n, a j = x := by
  simp [filled]

theorem filled_congr {b : Nat → α} (h : ∀ j < n, a j = b j) : filled n a = filled n b := by
  apply List.map_congr_left
  intro j hj
  exact h j (List.mem_range.mp hj)

theorem filled_update_self : filled (n + 1) (Function.update a n x) = filled n a ++ [x] := by
  rw [filled, List.range_succ, List.map_append]
  congr 1
  · apply filled_congr
    intro j hj
    exact Function.update_of_ne (by omega) _ _
  · simp

theorem moveDown_apply : moveDown a i n j = if i ≤ j ∧ j < i + n then a (j + 1) else a j := by
  induction n generalizing a i with
  | zero =>
    rw [moveDown, if_neg (by omega)]
  | succ n ih =>
    rw [moveDown, ih]
    by_cases hin : i + 1 ≤ j ∧ j < i + 1 + n
    · rw [if_pos hin, if_pos (by omega), Function.update_of_ne (by omega)]
    · rw [if_neg hin]
      by_cases hji : j = i
      · subst hji
        rw [Function.update_self, if_pos (by omega)]
      · rw [Function.update_of_ne hji, if_neg (by omega)]

theorem filled_moveDown (hi : i < n) :
    filled (n - 1) (moveDown a i (n - 1 - i)) = (filled n a).eraseIdx i := by
  apply List.ext_getElem?
  intro j
  rw [List.getElem?_eraseIdx]
  by_cases hj : j < n - 1
  · rw [getElem?_filled hj, moveDown_apply]
    by_cases hji : j < i
    · rw [if_neg (by omega), if_pos hji, getElem?_filled (by omega)]
    · rw [if_pos (by omega), if_neg hji, getElem?_filled (by omega)]
  · have hnone : (filled (n - 1) (moveDown a i (n - 1 - i)))[j]? = none := by
      simpa using Nat.le_of_not_lt hj
    rw [hnone, if_neg (by omega)]
    exact (List.getElem?_eq_none (by simp; omega)).symm

theorem mem_eraseIdx_filled (hnd : (filled n a).Nodup) (hi : i < n) {y : α} :
    y ∈ (filled n a).eraseIdx i ↔ y ∈ filled n a ∧ y ≠ a i := by
  rw [List.mem_eraseIdx_iff_getElem?]
  constructor
  · rintro ⟨j, hne, hj⟩
    refine ⟨List.mem_of_getElem? hj, ?_⟩
    rintro rfl
    have hlt : j < (filled n a).length := (List.getElem?_eq_some_iff.mp hj).1
    exact hne ((List.getElem?_inj hlt hnd).mp (hj.trans (getElem?_filled hi).symm))
  · rintro ⟨hmem, hne⟩
    obtain ⟨j, hj, rfl⟩ := mem_filled.mp hmem
    exact ⟨j, fun heq => hne (by rw [heq]), getElem?_filled hj⟩

section Entries

variable [DecidableEq α]

/-- An entry is removed from the first place that has it; the new count and array. -/
def dropEntry (n : Nat) (a : Nat → α) (x : α) : Nat × (Nat → α) :=
  match (List.range n).find? fun i => decide (a i = x) with
  | none => (n, a)
  | some i => (n - 1, moveDown a i (n - 1 - i))

theorem dropEntry_of_notMem (h : x ∉ filled n a) : dropEntry n a x = (n, a) := by
  have hnone : ((List.range n).find? fun i => decide (a i = x)) = none := by
    rw [List.find?_eq_none]
    intro i hi
    rw [decide_eq_true_eq]
    exact fun heq => h (mem_filled.mpr ⟨i, List.mem_range.mp hi, heq⟩)
  simp only [dropEntry, hnone]

theorem dropEntry_of_mem (h : x ∈ filled n a) :
    ∃ i < n, a i = x ∧ dropEntry n a x = (n - 1, moveDown a i (n - 1 - i)) := by
  obtain ⟨j, hj, hjx⟩ := mem_filled.mp h
  have hsome : ((List.range n).find? fun i => decide (a i = x)).isSome := by
    rw [List.find?_isSome]
    exact ⟨j, List.mem_range.mpr hj, by simpa using hjx⟩
  obtain ⟨i, hi⟩ := Option.isSome_iff_exists.mp hsome
  refine ⟨i, List.mem_range.mp (List.mem_of_find?_eq_some hi), by simpa using List.find?_some hi, ?_⟩
  simp only [dropEntry, hi]

theorem mem_filled_dropEntry (hnd : (filled n a).Nodup) {y : α} :
    y ∈ filled (dropEntry n a x).1 (dropEntry n a x).2 ↔ y ∈ filled n a ∧ y ≠ x := by
  by_cases hx : x ∈ filled n a
  · obtain ⟨i, hi, rfl, hdrop⟩ := dropEntry_of_mem hx
    rw [hdrop, filled_moveDown hi, mem_eraseIdx_filled hnd hi]
  · rw [dropEntry_of_notMem hx]
    exact ⟨fun hy => ⟨hy, fun heq => hx (heq ▸ hy)⟩, fun hy => hy.1⟩

theorem nodup_filled_dropEntry (hnd : (filled n a).Nodup) :
    (filled (dropEntry n a x).1 (dropEntry n a x).2).Nodup := by
  by_cases hx : x ∈ filled n a
  · obtain ⟨i, hi, -, hdrop⟩ := dropEntry_of_mem hx
    rw [hdrop, filled_moveDown hi]
    exact hnd.eraseIdx i
  · rwa [dropEntry_of_notMem hx]

theorem dropEntry_fst_le : (dropEntry n a x).1 ≤ n := by
  unfold dropEntry
  split
  · exact Nat.le_refl n
  · exact Nat.sub_le n 1

end Entries

end XrkMonitor.Library
