import XrkMonitor.Library.NetBytes

/-!
# The wire format of protocol buffers

A message is a list of fields. A field is a tag and a value: a number of seven bits a byte, lowest
first, or a length and as many bytes. The fields here have numbers below 16, so that a tag is one
byte.

## Implementation notes

A number has at most ten bytes, as many as 64 bits need.
-/

namespace XrkMonitor.Library

/-- A number in at most `k` bytes. -/
def varintBytes : Nat → Nat → List UInt8
  | 0, _ => []
  | k + 1, n =>
    if n < 128 then [UInt8.ofNat n]
    else UInt8.ofNat (n % 128 + 128) :: varintBytes k (n / 128)

/-- A number of at most 64 bits. -/
def varint (n : Nat) : List UInt8 := varintBytes 10 n

/-- A field with a number. -/
def numField (field n : Nat) : List UInt8 := UInt8.ofNat (8 * field) :: varint n

/-- A field with bytes. -/
def bytesField (field : Nat) (bs : List UInt8) : List UInt8 :=
  UInt8.ofNat (8 * field + 2) :: (varint bs.length ++ bs)

/-- A field that may be missing. -/
def optField {α : Type*} (f : α → List UInt8) : Option α → List UInt8
  | none => []
  | some x => f x

variable {k n field : Nat} {bs : List UInt8} {j : Nat}

theorem length_varintBytes_le (hn : n < 128 ^ (j + 1)) :
    (varintBytes k n).length ≤ j + 1 := by
  induction j generalizing k n with
  | zero =>
    cases k with
    | zero => exact Nat.zero_le _
    | succ k =>
      rw [varintBytes, if_pos (by simpa using hn)]
      exact le_refl _
  | succ j ih =>
    cases k with
    | zero => exact Nat.zero_le _
    | succ k =>
      unfold varintBytes
      split
      · exact Nat.succ_le_succ (Nat.zero_le _)
      · have hdiv : n / 128 < 128 ^ (j + 1) := by
          apply Nat.div_lt_of_lt_mul
          rw [Nat.pow_succ] at hn
          omega
        exact Nat.succ_le_succ (ih hdiv)

theorem length_numField_le (field : Nat) (hn : n < 128 ^ (j + 1)) :
    (numField field n).length ≤ j + 2 :=
  Nat.succ_le_succ (length_varintBytes_le hn)

theorem length_bytesField_le (field : Nat) (hlen : bs.length < 128 ^ (j + 1)) :
    (bytesField field bs).length ≤ j + 2 + bs.length := by
  have hle : (varint bs.length).length ≤ j + 1 := length_varintBytes_le hlen
  rw [bytesField, List.length_cons, List.length_append]
  omega

end XrkMonitor.Library
