import Mathlib.Data.List.Basic

/-!
# Records by period

Records carry the number of the period they belong to. `back` gives the records of
the period that lies `k` periods before period `p`, `upTo` those of all periods up to
it. A new record of the last period changes neither the periods before it nor, when
the last period moves on, the records that were there.
-/

namespace XrkMonitor.Library

variable {α : Type*} (period : α → Nat)

/-- The records of the period `k` periods before `p`. -/
def back (rs : List α) (p k : Nat) : List α := rs.filter fun r => period r + k = p

/-- The records of the periods up to `k` periods before `p`. -/
def upTo (rs : List α) (p k : Nat) : List α := rs.filter fun r => period r + k ≤ p

section Append

variable {period} {rs : List α} {r : α} {p : Nat}

theorem back_append_zero (hr : period r = p) :
    back period (rs ++ [r]) p 0 = back period rs p 0 ++ [r] := by
  simp [back, hr]

theorem back_append_succ (hr : p ≤ period r) (k : Nat) :
    back period (rs ++ [r]) p (k + 1) = back period rs p (k + 1) := by
  have hne : period r + (k + 1) ≠ p := by omega
  simp [back, hne]

theorem upTo_append_zero (hr : period r = p) :
    upTo period (rs ++ [r]) p 0 = upTo period rs p 0 ++ [r] := by
  simp [upTo, hr]

theorem upTo_append_succ (hr : p ≤ period r) (k : Nat) :
    upTo period (rs ++ [r]) p (k + 1) = upTo period rs p (k + 1) := by
  have hlt : ¬ period r + (k + 1) ≤ p := by omega
  simp [upTo, hlt]

end Append

section Move

variable {period} {rs : List α} {p : Nat}

theorem back_move (d k : Nat) : back period rs (p + d) (k + d) = back period rs p k := by
  simp [back, ← Nat.add_assoc]

theorem upTo_move (d k : Nat) : upTo period rs (p + d) (k + d) = upTo period rs p k := by
  simp [upTo, ← Nat.add_assoc]

theorem back_of_lt (hrs : ∀ r ∈ rs, period r ≤ p) {d k : Nat} (h : k < d) :
    back period rs (p + d) k = [] := by
  apply List.filter_eq_nil_iff.mpr
  intro r hr
  have := hrs r hr
  simp only [decide_eq_true_eq]
  omega

theorem upTo_of_le (hrs : ∀ r ∈ rs, period r ≤ p) {d k : Nat} (h : k ≤ d) :
    upTo period rs (p + d) k = rs := by
  apply List.filter_eq_self.mpr
  intro r hr
  have := hrs r hr
  simp only [decide_eq_true_eq]
  omega

end Move

end XrkMonitor.Library
