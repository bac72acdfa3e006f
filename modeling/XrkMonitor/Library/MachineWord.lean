import Mathlib.Algebra.Ring.Int.Defs
import Mathlib.Algebra.Ring.Nat
import Mathlib.Data.Nat.Basic
import Mathlib.Tactic.Common

/-!
# Unsigned counters of fixed width

Counters kept in natural numbers step modulo their width. The lemmas give the
plain arithmetic result on the ranges where no wrap takes place.
-/

namespace XrkMonitor.Library

/-- `x++` on an unsigned counter of `w` bits. -/
def wordInc (w n : Nat) : Nat := (n + 1) % 2 ^ w

/-- `x--` on an unsigned counter of `w` bits. -/
def wordDec (w n : Nat) : Nat := (n + (2 ^ w - 1)) % 2 ^ w

theorem wordInc_of_lt {w n : Nat} (h : n + 1 < 2 ^ w) : wordInc w n = n + 1 :=
  Nat.mod_eq_of_lt h

theorem wordDec_of_pos {w n : Nat} (hn : 0 < n) (h : n < 2 ^ w) : wordDec w n = n - 1 := by
  have hsum : n + (2 ^ w - 1) = n - 1 + 2 ^ w := by omega
  rw [wordDec, hsum, Nat.add_mod_right]
  exact Nat.mod_eq_of_lt (by omega)

end XrkMonitor.Library
