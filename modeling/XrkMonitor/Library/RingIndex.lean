import Mathlib.Algebra.Ring.Nat
import Mathlib.Data.Nat.Basic
import Mathlib.Tactic.Common

/-!
# Indices of a ring

The cells of a ring of size `N` are numbered below `N`, and `ringNext` steps to
the next cell, `ringPrev` to the one before. Positions in the history of a ring are plain numbers; the cell
of a position is its remainder, and two positions less than `N` apart share a
cell only if they are equal.
-/

namespace XrkMonitor.Library

variable {N a b : Nat}

/-- The cell after cell `i`. -/
def ringNext (N i : Nat) : Nat := if N ≤ i + 1 then 0 else i + 1

theorem ringNext_mod (hN : 0 < N) (k : Nat) : ringNext N (k % N) = (k + 1) % N := by
  have hlt := Nat.mod_lt k hN
  unfold ringNext
  by_cases h : N ≤ k % N + 1
  · have hk : k % N + 1 = N := by omega
    rw [if_pos h, ← Nat.mod_add_mod, hk, Nat.mod_self]
  · rw [if_neg h, ← Nat.mod_add_mod]
    exact (Nat.mod_eq_of_lt (by omega)).symm

/-- The cell before cell `i`. -/
def ringPrev (N i : Nat) : Nat := if i = 0 then N - 1 else i - 1

theorem ringPrev_mod (hN : 0 < N) (k : Nat) : ringPrev N (k % N) = (k + (N - 1)) % N := by
  have hlt := Nat.mod_lt k hN
  rw [ringPrev, ← Nat.mod_add_mod]
  by_cases h : k % N = 0
  · rw [if_pos h, h, Nat.zero_add]
    exact (Nat.mod_eq_of_lt (by omega)).symm
  · have hback : k % N + (N - 1) = k % N - 1 + N := by omega
    rw [if_neg h, hback, Nat.add_mod_right]
    exact (Nat.mod_eq_of_lt (by omega)).symm

theorem ring_mod_inj (hab : a ≤ b) (hlt : b < a + N) (h : a % N = b % N) : a = b := by
  have hdvd : N ∣ b - a := Nat.dvd_of_mod_eq_zero (Nat.sub_mod_eq_zero_of_mod_eq h.symm)
  have hzero : b - a = 0 := Nat.eq_zero_of_dvd_of_lt hdvd (by omega)
  omega

theorem ring_distance (hab : a ≤ b) (hlt : b < a + N) : (b % N + N - a % N) % N = b - a := by
  obtain ⟨c, rfl⟩ := Nat.exists_eq_add_of_le hab
  have hN : 0 < N := by omega
  have hr := Nat.mod_lt a hN
  have hsum : (a + c) % N = (a % N + c) % N := (Nat.mod_add_mod a N c).symm
  rw [hsum, Nat.add_sub_cancel_left]
  by_cases hwrap : a % N + c < N
  · have hback : a % N + c + N - a % N = c + N := by omega
    rw [Nat.mod_eq_of_lt hwrap, hback, Nat.add_mod_right]
    exact Nat.mod_eq_of_lt (by omega)
  · have hback : a % N + c - N + N - a % N = c := by omega
    have hless : (a % N + c) % N = a % N + c - N := by
      rw [Nat.mod_eq_sub_mod (by omega)]
      exact Nat.mod_eq_of_lt (by omega)
    rw [hless, hback]
    exact Nat.mod_eq_of_lt (by omega)

end XrkMonitor.Library
