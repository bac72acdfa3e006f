import Mathlib.Data.List.Basic
import Mathlib.Order.Fin.Basic

/-!
# Binary search

`bsearch` of the C library, on a list. The comparison gives the sign of the key
against an element, so it does not increase along a sorted list. A found index
holds an element equal to the key; on a sorted list no equal element is missed.
-/

namespace XrkMonitor.Library

variable {α : Type*} {cmp : α → Int} {l : List α}

/-- The loop of `bsearch` over the positions from `lo` below `hi`. -/
def bsearchFrom (cmp : α → Int) (l : List α) : Nat → Nat → Nat → Option Nat
  | 0, _, _ => none
  | fuel + 1, lo, hi =>
    if lo < hi then
      match l[(lo + hi) / 2]? with
      | none => none
      | some x =>
        if cmp x < 0 then bsearchFrom cmp l fuel lo ((lo + hi) / 2)
        else if 0 < cmp x then bsearchFrom cmp l fuel ((lo + hi) / 2 + 1) hi
        else some ((lo + hi) / 2)
    else none

/-- The position of an element that compares equal. -/
def bsearch (cmp : α → Int) (l : List α) : Option Nat :=
  bsearchFrom cmp l (l.length + 1) 0 l.length

theorem bsearchFrom_some {fuel lo hi i : Nat} (h : bsearchFrom cmp l fuel lo hi = some i) :
    ∃ x, l[i]? = some x ∧ cmp x = 0 := by
  induction fuel generalizing lo hi with
  | zero => cases h
  | succ fuel ih =>
    rw [bsearchFrom] at h
    split at h
    · split at h
      · cases h
      · rename_i x hx
        split at h
        · exact ih h
        · split at h
          · exact ih h
          · obtain rfl : (lo + hi) / 2 = i := Option.some.inj h
            exact ⟨x, hx, by omega⟩
    · cases h

theorem bsearch_some {i : Nat} (h : bsearch cmp l = some i) : ∃ x, l[i]? = some x ∧ cmp x = 0 :=
  bsearchFrom_some h

theorem bsearchFrom_none (hsort : l.Pairwise fun a b => cmp b ≤ cmp a) {fuel lo hi : Nat}
    (hfuel : hi < fuel + lo) (hhi : hi ≤ l.length) (h : bsearchFrom cmp l fuel lo hi = none)
    {i : Nat} (hlo : lo ≤ i) (hlt : i < hi) : cmp (l.get ⟨i, by omega⟩) ≠ 0 := by
  induction fuel generalizing lo hi with
  | zero => omega
  | succ fuel ih =>
    have hmid : (lo + hi) / 2 < l.length := by omega
    have hmono : ∀ a b : Fin l.length, a ≤ b → cmp (l.get b) ≤ cmp (l.get a) := by
      intro a b hab
      rcases eq_or_lt_of_le hab with rfl | hab
      · exact le_rfl
      · exact List.pairwise_iff_getElem.mp hsort a b a.isLt b.isLt hab
    rw [bsearchFrom, if_pos (by omega), List.getElem?_eq_getElem hmid] at h
    simp only at h
    split at h
    · rename_i hneg
      by_cases hi' : i < (lo + hi) / 2
      · exact ih (by omega) (by omega) h hlo hi'
      · have := hmono ⟨_, hmid⟩ ⟨i, by omega⟩ (by simp; omega)
        simp only [List.get_eq_getElem] at this ⊢
        omega
    · split at h
      · rename_i hpos
        by_cases hi' : i ≤ (lo + hi) / 2
        · have := hmono ⟨i, by omega⟩ ⟨_, hmid⟩ (by simpa using hi')
          simp only [List.get_eq_getElem] at this ⊢
          omega
        · exact ih (by omega) hhi h (by omega) hlt
      · cases h

theorem bsearch_none (hsort : l.Pairwise fun a b => cmp b ≤ cmp a) (h : bsearch cmp l = none) :
    ∀ x ∈ l, cmp x ≠ 0 := by
  intro x hx
  obtain ⟨i, rfl⟩ := List.mem_iff_get.mp hx
  exact bsearchFrom_none hsort (by omega) le_rfl h (Nat.zero_le _) i.isLt

theorem bsearchFrom_sign (cmp : α → Int) (l : List α) (fuel lo hi : Nat) :
    bsearchFrom (fun x => (cmp x).sign) l fuel lo hi = bsearchFrom cmp l fuel lo hi := by
  induction fuel generalizing lo hi with
  | zero => rfl
  | succ fuel ih =>
    simp only [bsearchFrom, ih, Int.sign_neg_iff, Int.sign_pos_iff]

theorem bsearch_sign (cmp : α → Int) (l : List α) :
    bsearch (fun x => (cmp x).sign) l = bsearch cmp l :=
  bsearchFrom_sign cmp l _ _ _

end XrkMonitor.Library
