import Mathlib.Algebra.BigOperators.Group.List.Basic
import Mathlib.Algebra.Ring.Nat
import Mathlib.Data.Nat.Basic
import Mathlib.Tactic.Common

/-!
# Token buckets

A bucket holds whole tokens and carries the started part of the next one. Parts flow in, `unit` of
them make a token, and tokens above `cap` are lost. Parts that flow in one after another fill the
bucket as their sum does. What is taken out over a run is bounded by the worth of the bucket and
what flows in.
-/

namespace XrkMonitor.Library

/-- Whole tokens, and the part of a token that is carried. -/
@[ext]
structure Bucket where
  whole : Nat
  part : Nat

namespace Bucket

variable {cap unit : Nat}

/-- `parts` flow in; what is above `cap` tokens is lost. -/
def fill (cap unit : Nat) (b : Bucket) (parts : Nat) : Bucket where
  whole := min cap (b.whole + (b.part + parts) / unit)
  part := (b.part + parts) % unit

/-- What the bucket holds, in parts. -/
def worth (unit : Nat) (b : Bucket) : Nat := b.whole * unit + b.part

theorem worth_eq (b : Bucket) : worth unit b = b.whole * unit + b.part := rfl

theorem worth_mk (whole part : Nat) : worth unit ⟨whole, part⟩ = whole * unit + part := rfl

theorem worth_lt (hunit : 0 < unit) {b : Bucket} (hwhole : b.whole ≤ cap) (hpart : b.part < unit) :
    worth unit b ≤ cap * unit + (unit - 1) := by
  have hmul : b.whole * unit ≤ cap * unit := Nat.mul_le_mul_right unit hwhole
  unfold worth
  omega

theorem worth_split_le {b : Bucket} {parts whole : Nat} (h : whole ≤ b.whole + parts / unit) :
    whole * unit + parts % unit ≤ b.whole * unit + parts := by
  have hmul : whole * unit ≤ (b.whole + parts / unit) * unit := Nat.mul_le_mul_right unit h
  have hsplit : parts / unit * unit + parts % unit = parts := Nat.div_add_mod' parts unit
  rw [Nat.add_mul] at hmul
  omega

theorem fill_fill (hunit : 0 < unit) (b : Bucket) (first second : Nat) :
    fill cap unit (fill cap unit b first) second = fill cap unit b (first + second) := by
  have hsum : b.part + (first + second) =
      (b.part + first) % unit + second + unit * ((b.part + first) / unit) := by
    have := Nat.mod_add_div (b.part + first) unit
    omega
  ext
  · simp only [fill]
    rw [hsum, Nat.add_mul_div_left _ _ hunit]
    generalize (b.part + first) / unit = q
    generalize ((b.part + first) % unit + second) / unit = q'
    omega
  · simp only [fill]
    rw [hsum, Nat.add_mul_mod_self_left]

end Bucket

section Spending

variable {σ ι : Type*}

/-- What a run spends, call by call. -/
def spent (step : σ → ι → σ) (cost : σ → ι → Nat) : σ → List ι → Nat
  | _, [] => 0
  | s, a :: as => cost s a + spent step cost (step s a) as

@[simp]
theorem spent_cons (step : σ → ι → σ) (cost : σ → ι → Nat) (s : σ) (a : ι) (as : List ι) :
    spent step cost s (a :: as) = cost s a + spent step cost (step s a) as := rfl

end Spending

end XrkMonitor.Library
