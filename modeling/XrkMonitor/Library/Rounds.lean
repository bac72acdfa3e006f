import Mathlib.Data.List.Basic

/-!
# Rounds that are undone

A transformation in rounds is undone by the inverse rounds in the opposite order.
A property of bytes is settled by all bytes.
-/

namespace XrkMonitor.Library

variable {σ ι : Type*}

/-- The inverse rounds, each behind the part `h` that a round begins with, undo the rounds up to
that part. -/
theorem foldl_undo {enc dec : σ → ι → σ} {h : σ → σ} (hstep : ∀ s i, dec (h (enc s i)) i = h s)
    (is : List ι) (s : σ) : is.reverse.foldl dec (h (is.foldl enc s)) = h s := by
  induction is generalizing s with
  | nil => rfl
  | cons i is ih =>
      rw [List.foldl_cons, List.reverse_cons, List.foldl_append, ih (enc s i)]
      exact hstep s i

/-- Every byte is the byte of a number below 256. -/
theorem forall_byte {P : UInt8 → Prop} (h : ∀ n < 256, P (UInt8.ofNat n)) (x : UInt8) : P x := by
  have hx := h x.toNat x.toNat_lt
  rwa [UInt8.ofNat_toNat] at hx

end XrkMonitor.Library
