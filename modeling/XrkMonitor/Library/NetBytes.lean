import XrkMonitor.Library.Bytes

/-!
# Fields of a byte buffer

A buffer is a list of bytes. `slice` is a range of it and `netAt` a field in
network byte order. A field stands where the buffer splits around its bytes.
-/

namespace XrkMonitor.Library

variable {buf as bs cs : List UInt8} {p k n : Nat}

/-- The `n` bytes from place `p` on, as far as the buffer goes. -/
def slice (buf : List UInt8) (p n : Nat) : List UInt8 := (buf.drop p).take n

/-- The field of `k` bytes at place `p`, in network byte order. -/
def netAt (buf : List UInt8) (p k : Nat) : Nat := ofBytes (slice buf p k)

theorem slice_of_split (h : buf = as ++ (bs ++ cs)) (hp : as.length = p) (hn : bs.length = n) :
    slice buf p n = bs := by
  subst h hp hn
  simp [slice]

theorem drop_of_split (h : buf = as ++ bs) (hp : as.length = p) : buf.drop p = bs := by
  subst h hp
  simp

theorem netAt_of_split (h : buf = as ++ (toBytes k n ++ cs)) (hp : as.length = p)
    (hn : n < 256 ^ k) : netAt buf p k = n := by
  rw [netAt, slice_of_split h hp (length_toBytes k n), ofBytes_toBytes_of_lt hn]

theorem toBytes_one (b : UInt8) : toBytes 1 b.toNat = [b] := by
  simp [toBytes]

theorem slice_append_of_le {q : Nat} (h : q + n ≤ as.length) : slice (as ++ bs) q n = slice as q n := by
  rw [slice, slice, List.drop_append_of_le_length (by omega), List.take_append_of_le_length]
  rw [List.length_drop]
  omega

theorem drop_eq_slice (buf : List UInt8) (p n : Nat) :
    buf.drop p = slice buf p n ++ buf.drop (p + n) := by
  rw [slice, ← List.drop_drop, List.take_append_drop]

theorem length_slice (h : p + n ≤ buf.length) : (slice buf p n).length = n := by
  rw [slice, List.length_take, List.length_drop]
  omega

theorem toBytes_netAt (h : p + k ≤ buf.length) : toBytes k (netAt buf p k) = slice buf p k := by
  have hback := toBytes_ofBytes (slice buf p k)
  rw [length_slice h] at hback
  exact hback

theorem netAt_lt (h : p + k ≤ buf.length) : netAt buf p k < 256 ^ k := by
  have hof := ofBytes_lt (slice buf p k)
  rw [length_slice h] at hof
  exact hof

theorem netAt_append_left (bs : List UInt8) (h : p + k ≤ as.length) :
    netAt (as ++ bs) p k = netAt as p k := by
  rw [netAt, netAt, slice_append_of_le h]

theorem netAt_append_right (h : as.length ≤ p) : netAt (as ++ bs) p k = netAt bs (p - as.length) k := by
  rw [netAt, slice, List.drop_append, List.drop_eq_nil_of_le h, List.nil_append, netAt, slice]

theorem netAt_zero (hn : n < 256 ^ k) (rest : List UInt8) : netAt (toBytes k n ++ rest) 0 k = n := by
  have hsplit : toBytes k n ++ rest = [] ++ (toBytes k n ++ rest) := rfl
  exact netAt_of_split hsplit rfl hn

@[simp] theorem netAt_uint8 (x : UInt8) (rest : List UInt8) :
    netAt (toBytes 1 x.toNat ++ rest) 0 1 = x.toNat := netAt_zero x.toNat_lt rest

@[simp] theorem netAt_uint16 (x : UInt16) (rest : List UInt8) :
    netAt (toBytes 2 x.toNat ++ rest) 0 2 = x.toNat := netAt_zero x.toNat_lt rest

@[simp] theorem netAt_uint32 (x : UInt32) (rest : List UInt8) :
    netAt (toBytes 4 x.toNat ++ rest) 0 4 = x.toNat := netAt_zero x.toNat_lt rest

end XrkMonitor.Library
