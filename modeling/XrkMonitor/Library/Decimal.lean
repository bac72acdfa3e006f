import Mathlib.Algebra.Ring.Nat
import Mathlib.Data.List.TakeWhile
import Mathlib.Data.Nat.Basic
import Mathlib.Tactic.Common

/-!
# Numbers as decimal text

`decimal` writes a number the way `%u` does, without leading zeros, and
`scanDecimal` reads a number off the beginning of a text. What was written is
read back when no digit follows it. Texts of one length are ordered as the
numbers they stand for; texts of different lengths are not. `strtoul` reads a
number the way the C library does.
-/

namespace XrkMonitor.Library

/-- The decimal digits of a number, as characters. -/
def decimal (n : Nat) : List UInt8 := (Nat.toDigits 10 n).map fun c => UInt8.ofNat c.toNat

def isDecimalDigit (b : UInt8) : Bool := decide (48 ≤ b.toNat) && decide (b.toNat ≤ 57)

/-- The number that some digits stand for, behind the digits of `n`. -/
def readDecimal (n : Nat) (bs : List UInt8) : Nat :=
  bs.foldl (fun n b => 10 * n + (b.toNat - 48)) n

/-- The number at the beginning of a text, and what follows it. -/
def scanDecimal (bs : List UInt8) : Option (Nat × List UInt8) :=
  if bs.takeWhile isDecimalDigit = [] then none
  else some (readDecimal 0 (bs.takeWhile isDecimalDigit), bs.dropWhile isDecimalDigit)

/-- `isspace`. -/
def isSpace (b : UInt8) : Bool := b == 32 || (decide (9 ≤ b) && decide (b ≤ 13))

def ULONG_MAX : Nat := 18446744073709551615

/-- `strtoul` with base 10. -/
def strtoul (text : List UInt8) : Nat :=
  let digits := text.dropWhile isSpace
  let bNegative := digits.head? == some 45
  let digits := if bNegative || digits.head? == some 43 then digits.tail else digits
  let n := readDecimal 0 (digits.takeWhile isDecimalDigit)
  if ULONG_MAX < n then ULONG_MAX
  else if bNegative then (ULONG_MAX + 1 - n) % (ULONG_MAX + 1)
  else n

section RoundTrip

variable {c : Char} {b : UInt8} {rest : List UInt8}

theorem toNat_ofNat_digit (h : c.isDigit = true) : (UInt8.ofNat c.toNat).toNat = c.toNat := by
  have hle : c.toNat ≤ 57 := (Char.isDigit_iff_toNat.mp h).2
  rw [UInt8.toNat_ofNat']
  exact Nat.mod_eq_of_lt (by omega)

theorem isDecimalDigit_of_mem (n : Nat) (h : b ∈ decimal n) : isDecimalDigit b = true := by
  obtain ⟨c, hc, rfl⟩ := List.mem_map.mp h
  have hdigit := Nat.isDigit_of_mem_toDigits (by decide) (by decide) hc
  have hbounds := Char.isDigit_iff_toNat.mp hdigit
  rw [isDecimalDigit, toNat_ofNat_digit hdigit, Bool.and_eq_true, decide_eq_true_iff,
    decide_eq_true_iff]
  exact hbounds

theorem readDecimal_map (cs : List Char) (h : ∀ c ∈ cs, c.isDigit = true) (n : Nat) :
    readDecimal n (cs.map fun c => UInt8.ofNat c.toNat) = Nat.ofDigitChars 10 cs n := by
  induction cs generalizing n with
  | nil => rfl
  | cons c cs ih =>
    have htail := ih (fun c hc => h c (List.mem_cons_of_mem _ hc)) (10 * n + (c.toNat - 48))
    rw [List.map_cons, readDecimal, List.foldl_cons,
      toNat_ofNat_digit (h c List.mem_cons_self)]
    exact htail

theorem readDecimal_decimal (n : Nat) : readDecimal 0 (decimal n) = n := by
  rw [decimal, readDecimal_map _ fun c => Nat.isDigit_of_mem_toDigits (by decide) (by decide)]
  exact Nat.ofDigitChars_ten_toDigits

theorem decimal_injective : Function.Injective decimal := by
  intro m n h
  calc
    m = readDecimal 0 (decimal m) := (readDecimal_decimal m).symm
    _ = readDecimal 0 (decimal n) := by rw [h]
    _ = n := readDecimal_decimal n

theorem decimal_ne_nil (n : Nat) : decimal n ≠ [] := by
  intro h
  exact Nat.toDigits_ne_nil (List.map_eq_nil_iff.mp h)

theorem length_decimal_le {n k : Nat} (hk : 0 < k) (h : n < 10 ^ k) : (decimal n).length ≤ k := by
  rw [decimal, List.length_map]
  exact (Nat.length_toDigits_le_iff (by decide) hk).mpr h

theorem takeWhile_decimal (n : Nat) (h : ∀ b ∈ rest.head?, isDecimalDigit b = false) :
    (decimal n ++ rest).takeWhile isDecimalDigit = decimal n := by
  have hrest : rest.takeWhile isDecimalDigit = [] := by
    cases rest with
    | nil => rfl
    | cons b bs => exact List.takeWhile_cons_of_neg (by simp [h b rfl])
  rw [List.takeWhile_append_of_pos fun b => isDecimalDigit_of_mem n, hrest, List.append_nil]

theorem scanDecimal_decimal (n : Nat) (h : ∀ b ∈ rest.head?, isDecimalDigit b = false) :
    scanDecimal (decimal n ++ rest) = some (n, rest) := by
  have htake := takeWhile_decimal n h
  have hdrop : (decimal n ++ rest).dropWhile isDecimalDigit = rest := by
    have hsplit := List.takeWhile_append_dropWhile (p := isDecimalDigit) (l := decimal n ++ rest)
    rw [htake] at hsplit
    exact List.append_cancel_left hsplit
  rw [scanDecimal, htake, hdrop, if_neg (decimal_ne_nil n), readDecimal_decimal]

end RoundTrip

section Strtoul

variable {bs rest : List UInt8}

theorem isSpace_of_isDecimalDigit {b : UInt8} (h : isDecimalDigit b = true) :
    isSpace b = false := by
  rw [isDecimalDigit, Bool.and_eq_true, decide_eq_true_iff, decide_eq_true_iff] at h
  have hne : b ≠ 32 := by
    rintro rfl
    exact absurd h.1 (by decide)
  have hgt : ¬ b ≤ 13 := by
    intro hle
    have hnat : b.toNat ≤ 13 := UInt8.le_iff_toNat_le.mp hle
    omega
  simp [isSpace, hne, hgt]

theorem strtoul_digits (hbs : ∀ b ∈ bs, isDecimalDigit b = true) (hne : bs ≠ [])
    (hfits : readDecimal 0 bs ≤ ULONG_MAX) : strtoul bs = readDecimal 0 bs := by
  cases bs with
  | nil => exact absurd rfl hne
  | cons b bs =>
    have hb := hbs b List.mem_cons_self
    have hspace : (b :: bs).dropWhile isSpace = b :: bs :=
      List.dropWhile_cons_of_neg (by simp [isSpace_of_isDecimalDigit hb])
    have hsign : b ≠ 45 ∧ b ≠ 43 := by
      constructor <;>
      · rintro rfl
        exact absurd hb (by decide)
    have htake : (b :: bs).takeWhile isDecimalDigit = b :: bs :=
      List.takeWhile_eq_self_iff.mpr hbs
    simp [strtoul, hspace, hsign.1, hsign.2, htake, Nat.not_lt.mpr hfits]

theorem strtoul_cons {b : UInt8} (hspace : isSpace b = false) (hdigit : isDecimalDigit b = false)
    (hminus : b ≠ 45) (hplus : b ≠ 43) : strtoul (b :: rest) = 0 := by
  have hdrop : (b :: rest).dropWhile isSpace = b :: rest :=
    List.dropWhile_cons_of_neg (by simp [hspace])
  have htake : (b :: rest).takeWhile isDecimalDigit = [] :=
    List.takeWhile_cons_of_neg (by simp [hdigit])
  simp [strtoul, hdrop, hminus, hplus, htake, readDecimal, ULONG_MAX]

end Strtoul

end XrkMonitor.Library
