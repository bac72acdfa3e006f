import Mathlib.Algebra.Order.Group.Nat
import Mathlib.Data.List.Basic
import Mathlib.Data.List.Induction
import Mathlib.Data.List.TakeWhile
import Mathlib.Tactic.Ring

/-!
# Bytes in memory

Numbers as byte lists, memory as a function from addresses to bytes, and C strings in
character arrays. A `CharBuf n` is an array of `n` characters whose last one is `NUL`
and is never written; it stores the other ones.
-/

namespace XrkMonitor.Library

section Numbers

/-- The last `k` base-256 digits of a number, most significant first. -/
def toBytes : Nat → Nat → List UInt8
  | 0, _ => []
  | k + 1, n => toBytes k (n / 256) ++ [UInt8.ofNat n]

/-- The number of a big-endian byte list. -/
def ofBytes (bs : List UInt8) : Nat := bs.foldl (fun n b => n * 256 + b.toNat) 0

@[simp] theorem length_toBytes (k n : Nat) : (toBytes k n).length = k := by
  induction k generalizing n with
  | zero => rfl
  | succ k ih => simp [toBytes, ih]

theorem ofBytes_concat (bs : List UInt8) (b : UInt8) :
    ofBytes (bs ++ [b]) = ofBytes bs * 256 + b.toNat := by
  simp [ofBytes]

theorem ofBytes_toBytes (k n : Nat) : ofBytes (toBytes k n) = n % 256 ^ k := by
  induction k generalizing n with
  | zero => simp [toBytes, ofBytes, Nat.mod_one]
  | succ k ih =>
    have hlast : (UInt8.ofNat n).toNat = n % 256 := by simp
    rw [toBytes, ofBytes_concat, ih, hlast]
    have hsplit : n % (256 * 256 ^ k) = n % 256 + 256 * (n / 256 % 256 ^ k) := Nat.mod_mul
    rw [Nat.pow_succ', hsplit]
    ring

theorem ofBytes_toBytes_of_lt {k n : Nat} (h : n < 256 ^ k) : ofBytes (toBytes k n) = n := by
  rw [ofBytes_toBytes, Nat.mod_eq_of_lt h]

theorem ofBytes_lt (bs : List UInt8) : ofBytes bs < 256 ^ bs.length := by
  induction bs using List.reverseRecOn with
  | nil => decide
  | append_singleton bs b ih =>
    have hb := b.toNat_lt
    rw [ofBytes_concat, List.length_append, List.length_singleton, Nat.pow_succ]
    omega

theorem toBytes_ofBytes (bs : List UInt8) : toBytes bs.length (ofBytes bs) = bs := by
  induction bs using List.reverseRecOn with
  | nil => rfl
  | append_singleton bs b ih =>
    have hb : b.toNat < 256 := b.toNat_lt
    have hdiv : (ofBytes bs * 256 + b.toNat) / 256 = ofBytes bs := by omega
    have hbyte : UInt8.ofNat (ofBytes bs * 256 + b.toNat) = b := by
      apply UInt8.toNat_inj.mp
      rw [UInt8.toNat_ofNat']
      omega
    rw [ofBytes_concat, List.length_append, List.length_singleton, toBytes, hdiv, ih, hbyte]

end Numbers

section Memory

variable {mem : Nat → UInt8} {p n : Nat} {as bs : List UInt8} {q : Nat}

/-- The `n` bytes from address `p` on. -/
def bytesAt (mem : Nat → UInt8) (p n : Nat) : List UInt8 := (List.range n).map fun i => mem (p + i)

/-- The bytes stand in memory from address `p` on. -/
def Stands (mem : Nat → UInt8) (p : Nat) (bs : List UInt8) : Prop := bytesAt mem p bs.length = bs

instance (mem : Nat → UInt8) (p : Nat) (bs : List UInt8) : Decidable (Stands mem p bs) :=
  inferInstanceAs (Decidable (_ = _))

theorem bytesAt_add (mem : Nat → UInt8) (p n m : Nat) :
    bytesAt mem p (n + m) = bytesAt mem p n ++ bytesAt mem (p + n) m := by
  simp [bytesAt, List.range_add, Nat.add_assoc]

@[simp] theorem length_bytesAt (mem : Nat → UInt8) (p n : Nat) : (bytesAt mem p n).length = n := by
  simp [bytesAt]

theorem stands_append :
    Stands mem p (as ++ bs) ↔ Stands mem p as ∧ Stands mem (p + as.length) bs := by
  unfold Stands
  rw [List.length_append, bytesAt_add]
  constructor
  · intro h
    exact List.append_inj h (by simp)
  · rintro ⟨has, hbs⟩
    rw [has, hbs]

theorem stands_cons {b : UInt8} : Stands mem p (b :: bs) ↔ mem p = b ∧ Stands mem (p + 1) bs := by
  have h : Stands mem p ([b] ++ bs) ↔ _ := stands_append
  rw [List.singleton_append] at h
  rw [h]
  simp [Stands, bytesAt]

/-- Memory after the bytes were written from address `p` on. -/
def writeAt (mem : Nat → UInt8) (p : Nat) (bs : List UInt8) (i : Nat) : UInt8 :=
  if p ≤ i ∧ i < p + bs.length then bs.getD (i - p) 0 else mem i

theorem writeAt_nil (mem : Nat → UInt8) (p : Nat) : writeAt mem p [] = mem := by
  funext i
  rw [writeAt, if_neg (by simp)]

theorem writeAt_inside (hp : p ≤ q) (hq : q < p + bs.length) :
    writeAt mem p bs q = bs.getD (q - p) 0 :=
  if_pos ⟨hp, hq⟩

theorem writeAt_outside (h : q < p ∨ p + bs.length ≤ q) :
    writeAt mem p bs q = mem q :=
  if_neg (by omega)

theorem bytesAt_writeAt_of_disjoint (h : q + n ≤ p ∨ p + bs.length ≤ q) :
    bytesAt (writeAt mem p bs) q n = bytesAt mem q n := by
  apply List.map_congr_left
  intro i hi
  have hlt := List.mem_range.mp hi
  rw [writeAt, if_neg (by omega)]

theorem stands_writeAt (mem : Nat → UInt8) (p : Nat) (bs : List UInt8) :
    Stands (writeAt mem p bs) p bs := by
  apply List.ext_getElem
  · simp
  · intro i hi hi'
    simp [bytesAt, writeAt, hi']

theorem Stands.writeAt (h : Stands mem q as)
    (hdisj : q + as.length ≤ p ∨ p + bs.length ≤ q) : Stands (writeAt mem p bs) q as := by
  rw [Stands, bytesAt_writeAt_of_disjoint hdisj]
  exact h

theorem field_of_stands {α : Type*} {f : α → Nat} {w i : Nat} {l : List α} {x : α}
    (hf : ∀ y ∈ l, f y < 256 ^ w) (h : Stands mem p (l.flatMap fun y => toBytes w (f y)))
    (hi : l[i]? = some x) : ofBytes (bytesAt mem (p + w * i) w) = f x := by
  induction l generalizing p i with
  | nil => cases hi
  | cons y l ih =>
    rw [List.flatMap_cons] at h
    obtain ⟨hy, hrest⟩ := stands_append.mp h
    rw [length_toBytes] at hrest
    cases i with
    | zero =>
      rw [List.getElem?_cons_zero, Option.some.injEq] at hi
      subst hi
      rw [Stands, length_toBytes] at hy
      rw [Nat.mul_zero, Nat.add_zero, hy, ofBytes_toBytes_of_lt (hf y List.mem_cons_self)]
    | succ i =>
      rw [List.getElem?_cons_succ] at hi
      have hstep := ih (fun z hz => hf z (List.mem_cons_of_mem _ hz)) hrest hi
      rw [← hstep, Nat.mul_succ, Nat.add_comm (w * i) w, Nat.add_assoc]

end Memory

section NativeWords

variable {mem : Nat → UInt8} {p k n : Nat} {rest : List UInt8}

/-- A number of `k` bytes as the machine stores it, the lowest byte first. -/
def nativeBytes (k n : Nat) : List UInt8 := (toBytes k n).reverse

/-- The number of `k` bytes at address `p`. -/
def wordAt (mem : Nat → UInt8) (p k : Nat) : Nat := ofBytes (bytesAt mem p k).reverse

@[simp] theorem length_nativeBytes (k n : Nat) : (nativeBytes k n).length = k := by
  simp [nativeBytes]

theorem wordAt_of_stands (h : Stands mem p (nativeBytes k n ++ rest)) (hn : n < 256 ^ k) :
    wordAt mem p k = n ∧ Stands mem (p + k) rest := by
  obtain ⟨hword, hrest⟩ := stands_append.mp h
  rw [length_nativeBytes] at hrest
  refine ⟨?_, hrest⟩
  rw [Stands, length_nativeBytes] at hword
  rw [wordAt, hword, nativeBytes, List.reverse_reverse]
  exact ofBytes_toBytes_of_lt hn

end NativeWords

section Strings

variable {mem : Nat → UInt8} {p n : Nat} {s : List UInt8} {bs : List UInt8}

/-- The C string at the start of the bytes. -/
def cstr (bs : List UInt8) : List UInt8 := bs.takeWhile (· != 0)

/-- The C string at address `p`, of which at most `n` characters are read. -/
def cstrAt (mem : Nat → UInt8) (p n : Nat) : List UInt8 := cstr (bytesAt mem p n)

theorem cstr_eq_self (h : ∀ b ∈ s, b ≠ 0) : cstr s = s := by
  apply List.takeWhile_eq_self_iff.mpr
  simpa using h

theorem cstr_append_nul (h : ∀ b ∈ s, b ≠ 0) (rest : List UInt8) : cstr (s ++ 0 :: rest) = s := by
  have hs : ∀ b ∈ s, (b != 0) = true := by simpa using h
  rw [cstr, List.takeWhile_append_of_pos hs]
  simp

theorem cstr_append_zero (bs rest : List UInt8) : cstr (bs ++ 0 :: rest) = cstr bs := by
  induction bs with
  | nil => rfl
  | cons b bs ih =>
    unfold cstr at ih ⊢
    rw [List.cons_append, List.takeWhile_cons, List.takeWhile_cons, ih]

theorem getD_length_cstr (h : (cstr bs).length < bs.length) :
    bs.getD (cstr bs).length 1 = 0 := by
  induction bs with
  | nil => cases h
  | cons b bs ih =>
    unfold cstr at h ih ⊢
    rw [List.takeWhile_cons] at h ⊢
    by_cases hb : (b != 0) = true
    · rw [if_pos hb, List.length_cons, List.length_cons] at h
      rw [if_pos hb, List.length_cons, List.getD_cons_succ]
      exact ih (Nat.lt_of_succ_lt_succ h)
    · rw [if_neg hb, List.length_nil, List.getD_cons_zero]
      simpa using hb

theorem cstrAt_end (h : (cstrAt mem p n).length < n) : mem (p + (cstrAt mem p n).length) = 0 := by
  have hshort : (cstr (bytesAt mem p n)).length < (bytesAt mem p n).length := by
    rw [length_bytesAt]
    exact h
  have hend := getD_length_cstr hshort
  rw [List.getD_eq_getElem?_getD] at hend
  change ((bytesAt mem p n)[(cstrAt mem p n).length]?).getD 1 = 0 at hend
  rw [bytesAt, List.getElem?_map, List.getElem?_range h, Option.map_some, Option.getD_some] at hend
  exact hend

theorem cstrAt_of_lt {m : Nat} (h : (cstrAt mem p n).length < n) (hm : n ≤ m) :
    cstrAt mem p m = cstrAt mem p n := by
  obtain ⟨k, rfl⟩ := Nat.exists_eq_add_of_le hm
  have hshort : ¬ ((bytesAt mem p n).takeWhile (· != 0)).length = (bytesAt mem p n).length := by
    rw [length_bytesAt]
    exact Nat.ne_of_lt h
  rw [cstrAt, bytesAt_add, cstr, List.takeWhile_append, if_neg hshort]
  rfl

theorem ne_zero_of_mem_cstr : ∀ b ∈ cstr bs, b ≠ 0 := by
  intro b hb
  have := List.mem_takeWhile_imp hb
  simpa using this

theorem length_cstr_le (bs : List UInt8) : (cstr bs).length ≤ bs.length :=
  (List.takeWhile_prefix _).length_le

theorem cstrAt_eq (hs : ∀ b ∈ s, b ≠ 0) (hlen : s.length ≤ n) (h : Stands mem p (s ++ [0])) :
    cstrAt mem p n = s := by
  obtain ⟨hstr, hnul⟩ := stands_append.mp h
  obtain ⟨hnul, -⟩ := stands_cons.mp hnul
  obtain ⟨m, rfl⟩ := Nat.exists_eq_add_of_le hlen
  rw [cstrAt, bytesAt_add, hstr]
  cases m with
  | zero =>
    simp only [bytesAt, List.range_zero, List.map_nil, List.append_nil]
    exact cstr_eq_self hs
  | succ m =>
    rw [Nat.add_comm m 1, bytesAt_add]
    have hone : bytesAt mem (p + s.length) 1 = [0] := by simp [bytesAt, hnul]
    rw [hone, List.singleton_append]
    exact cstr_append_nul hs _

/-- A character array of size `n` whose last character is `NUL` and is not stored. -/
structure CharBuf (n : Nat) where
  front : List UInt8
  length_front : front.length = n - 1
deriving DecidableEq

namespace CharBuf

/-- An array after `memset`. -/
def zero (n : Nat) : CharBuf n := ⟨List.replicate (n - 1) 0, List.length_replicate⟩

/-- The string in the array. -/
def str (b : CharBuf n) : List UInt8 := cstr b.front

/-- `strncpy(b, src, sizeof(b) - 1)` where the C string `src` has been read. -/
def strncpy (n : Nat) (src : List UInt8) : CharBuf n where
  front := (src ++ List.replicate (n - 1) 0).take (n - 1)
  length_front := by simp

/-- The first character becomes `NUL`. -/
def clear (b : CharBuf n) : CharBuf n where
  front := b.front.set 0 0
  length_front := by rw [List.length_set, b.length_front]

theorem length_str_le (b : CharBuf n) : b.str.length ≤ n - 1 := by
  have := length_cstr_le b.front
  rw [b.length_front] at this
  exact this

theorem str_ne_zero (b : CharBuf n) : ∀ x ∈ b.str, x ≠ 0 := ne_zero_of_mem_cstr

@[simp] theorem str_clear (b : CharBuf n) : b.clear.str = [] := by
  change cstr (b.front.set 0 0) = []
  cases b.front with
  | nil => rfl
  | cons x xs => simp [cstr]

theorem str_strncpy {src : List UInt8} (hne : ∀ b ∈ src, b ≠ 0) (hlen : src.length ≤ n - 1) :
    (strncpy n src).str = src := by
  unfold str strncpy
  simp only
  rw [List.take_append, List.take_of_length_le hlen, List.take_replicate]
  cases hmin : min (n - 1 - src.length) (n - 1) with
  | zero => simpa using cstr_eq_self hne
  | succ m =>
    rw [List.replicate_succ]
    exact cstr_append_nul hne _

end CharBuf

end Strings

end XrkMonitor.Library
