import Mathlib.Algebra.BigOperators.Group.List.Basic
import Mathlib.Algebra.Order.BigOperators.Group.List
import Mathlib.Algebra.Order.Group.Int
import Mathlib.Algebra.Ring.Int.Defs
import Mathlib.Data.List.InsertIdx
import Mathlib.Data.List.Nodup

/-!
# Sums of values by key

A list of entries, each with a key and an integer value. `keyedSum` adds up the
values under one key. The lemmas say how it changes when entries are added,
reordered or written, and bound each entry by the sum of its key.
-/

namespace XrkMonitor.Library

variable {α κ : Type*} [DecidableEq κ] {key : α → κ} {val : α → Int} {k : κ} {x : α} {l : List α}

/-- What an entry counts for a key. -/
def keyedWorth (key : α → κ) (val : α → Int) (k : κ) (x : α) : Int := if key x = k then val x else 0

/-- The sum of the values under a key. -/
def keyedSum (key : α → κ) (val : α → Int) (k : κ) (l : List α) : Int :=
  (l.map (keyedWorth key val k)).sum

@[simp] theorem keyedSum_nil : keyedSum key val k [] = 0 := rfl

@[simp] theorem keyedSum_cons :
    keyedSum key val k (x :: l) = keyedWorth key val k x + keyedSum key val k l := by
  simp [keyedSum]

@[simp] theorem keyedSum_append (l l' : List α) :
    keyedSum key val k (l ++ l') = keyedSum key val k l + keyedSum key val k l' := by
  simp [keyedSum]

theorem keyedSum_perm {l l' : List α} (h : l.Perm l') (k : κ) :
    keyedSum key val k l = keyedSum key val k l' :=
  (h.map _).sum_eq

theorem keyedWorth_nonneg (h : 0 < val x) (k : κ) : 0 ≤ keyedWorth key val k x := by
  unfold keyedWorth
  split
  · omega
  · omega

theorem keyedSum_nonneg (h : ∀ x ∈ l, 0 < val x) (k : κ) : 0 ≤ keyedSum key val k l := by
  apply List.sum_nonneg
  intro v hv
  obtain ⟨x, hx, rfl⟩ := List.mem_map.mp hv
  exact keyedWorth_nonneg (h x hx) k

theorem val_le_keyedSum (h : ∀ x ∈ l, 0 < val x) (hx : x ∈ l) :
    val x ≤ keyedSum key val (key x) l := by
  obtain ⟨l₁, l₂, rfl⟩ := List.append_of_mem hx
  have hl₁ : 0 ≤ keyedSum key val (key x) l₁ :=
    keyedSum_nonneg (fun y hy => h y (List.mem_append_left _ hy)) _
  have hl₂ : 0 ≤ keyedSum key val (key x) l₂ :=
    keyedSum_nonneg (fun y hy => h y (List.mem_append_right _ (List.mem_cons_of_mem x hy))) _
  have hself : keyedWorth key val (key x) x = val x := if_pos rfl
  rw [keyedSum_append, keyedSum_cons, hself]
  omega

theorem map_update_outside {ι : Type*} [DecidableEq ι] {f : ι → α} {l : List ι} {c : ι}
    (hc : c ∉ l) (x : α) : l.map (Function.update f c x) = l.map f := by
  apply List.map_congr_left
  intro d hd
  apply Function.update_of_ne
  rintro rfl
  exact hc hd

theorem keyedSum_map_update {ι : Type*} [DecidableEq ι] {f : ι → α} {l : List ι} {c : ι}
    (hnd : l.Nodup) (hc : c ∈ l) (x : α) (k : κ) :
    keyedSum key val k (l.map (Function.update f c x)) =
      keyedSum key val k (l.map f) - keyedWorth key val k (f c) + keyedWorth key val k x := by
  obtain ⟨l₁, l₂, rfl⟩ := List.append_of_mem hc
  have hout := (List.nodup_middle.mp hnd).notMem
  have h₁ : c ∉ l₁ := fun h => hout (List.mem_append_left _ h)
  have h₂ : c ∉ l₂ := fun h => hout (List.mem_append_right _ h)
  rw [List.map_append, List.map_cons, Function.update_self, map_update_outside h₁,
    map_update_outside h₂, List.map_append, List.map_cons]
  simp only [keyedSum_append, keyedSum_cons]
  omega

theorem sum_map_eraseIdx {M : Type*} [AddCommMonoid M] {i : Nat} (hx : l[i]? = some x)
    (f : α → M) : f x + ((l.eraseIdx i).map f).sum = (l.map f).sum := by
  obtain ⟨hi, rfl⟩ := List.getElem?_eq_some_iff.mp hx
  have hlen : i < (l.map f).length := by rwa [List.length_map]
  have hsum := List.add_sum_eraseIdx hlen fun a _ => AddCommute.all _ a
  rw [List.getElem_map, List.eraseIdx_map] at hsum
  exact hsum

theorem sum_map_set {M : Type*} [AddCommMonoid M] {i : Nat} (hx : l[i]? = some x) (f : α → M)
    (y : α) : ((l.set i y).map f).sum + f x = (l.map f).sum + f y := by
  obtain ⟨hi, -⟩ := List.getElem?_eq_some_iff.mp hx
  have hy : (l.set i y)[i]? = some y := by simp [hi]
  rw [← sum_map_eraseIdx hx f, ← sum_map_eraseIdx hy f, List.eraseIdx_set_eq]
  rw [add_right_comm, add_comm (f y) (f x), add_right_comm]

theorem keyedSum_set {i : Nat} (hx : l[i]? = some x) (y : α) (k : κ) :
    keyedSum key val k (l.set i y) =
      keyedSum key val k l - keyedWorth key val k x + keyedWorth key val k y := by
  have hsum := sum_map_set hx (keyedWorth key val k) y
  unfold keyedSum
  omega

end XrkMonitor.Library
