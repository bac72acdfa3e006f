import Mathlib.Data.List.Basic
import Mathlib.Tactic.Common

/-!
# A scan that is resumed

A call looks at the places from `i` on, at most `N` of them, until it finds one or comes
to one that ends the scan; the next call goes on behind the place that was found. The
calls give the places that are found before the first one that ends the scan, and then
nothing more. Where no place ends the scan and each call finds one, the calls go on
forever.
-/

namespace XrkMonitor.Library

variable {ends found : Nat → Bool} {N : Nat}

/-- The next place that is found, among `n` places from `i` on. -/
def scanNext (ends found : Nat → Bool) : Nat → Nat → Option Nat
  | 0, _ => none
  | n + 1, i => if ends i then none else if found i then some i else scanNext ends found n (i + 1)

/-- The places of successive calls until one finds nothing, as far as `n` calls go. -/
def scanCalls (ends found : Nat → Bool) (N : Nat) : Nat → Nat → Option (List Nat)
  | 0, _ => none
  | n + 1, i =>
    match scanNext ends found N i with
    | none => some []
    | some k => (scanCalls ends found N n (k + 1)).map (k :: ·)

/-- The places from `i` on that are found before place `e`. -/
def foundBefore (found : Nat → Bool) (e i : Nat) : List Nat :=
  (List.range' i (e - i)).filter found

theorem scanNext_before {e : Nat} (hend : ends e = true) (n i : Nat) (hi : i ≤ e) (hn : e - i < n)
    (hno : ∀ k, i ≤ k → k < e → ends k = false) :
    scanNext ends found n i = (foundBefore found e i).head? ∧
      ∀ k, (foundBefore found e i).head? = some k →
        i ≤ k ∧ k < e ∧ (foundBefore found e i).tail = foundBefore found e (k + 1) := by
  induction n generalizing i with
  | zero => exact absurd hn (Nat.not_lt_zero _)
  | succ n ih =>
    rw [scanNext, foundBefore]
    obtain rfl | hlt := Nat.eq_or_lt_of_le hi
    · rw [if_pos hend, Nat.sub_self]
      exact ⟨rfl, fun k hk => nomatch hk⟩
    · have hcount : e - i = e - (i + 1) + 1 := by omega
      rw [hno i (Nat.le_refl i) hlt, hcount, List.range'_succ]
      by_cases hfound : found i = true
      · rw [List.filter_cons_of_pos hfound, if_pos hfound]
        refine ⟨rfl, ?_⟩
        rintro k hk
        obtain rfl : i = k := by simpa using hk
        exact ⟨Nat.le_refl i, hlt, rfl⟩
      · rw [List.filter_cons_of_neg hfound, if_neg hfound]
        obtain ⟨hnext, htail⟩ := ih (i + 1) hlt (by omega) fun k hk => hno k (by omega)
        refine ⟨hnext, ?_⟩
        intro k hk
        obtain ⟨hik, hke, hrest⟩ := htail k hk
        exact ⟨by omega, hke, hrest⟩

theorem scanCalls_before {e : Nat} (hend : ends e = true) (he : e < N)
    (hno : ∀ k < e, ends k = false) (n i : Nat) (hi : i ≤ e) :
    scanCalls ends found N n i =
      if (foundBefore found e i).length < n then some (foundBefore found e i) else none := by
  induction n generalizing i with
  | zero => rfl
  | succ n ih =>
    obtain ⟨hnext, htail⟩ := scanNext_before hend N i hi (by omega)
      fun k _ hk => hno k hk
    rw [scanCalls, hnext]
    cases hlist : foundBefore found e i with
    | nil => rfl
    | cons k ks =>
      obtain ⟨-, hke, hrest⟩ := htail k (by rw [hlist]; rfl)
      rw [hlist, List.tail_cons] at hrest
      simp only [List.head?_cons, ih (k + 1) hke, ← hrest, List.length_cons,
        Nat.add_lt_add_iff_right]
      split
      · rfl
      · rfl

theorem scanNext_free (hno : ∀ k, ends k = false) (n i : Nat) :
    scanNext ends found n i = none ↔ ∀ k, i ≤ k → k < i + n → found k = false := by
  induction n generalizing i with
  | zero =>
    refine iff_of_true rfl ?_
    intro k hk hlt
    omega
  | succ n ih =>
    rw [scanNext, hno i]
    by_cases hfound : found i = true
    · rw [if_pos hfound]
      refine iff_of_false (fun h => nomatch h) ?_
      intro hall
      have hnone := hall i (Nat.le_refl i) (by omega)
      rw [hfound] at hnone
      cases hnone
    · rw [if_neg hfound]
      refine (ih (i + 1)).trans ?_
      constructor
      · intro h k hik hk
        obtain rfl | hlt := Nat.eq_or_lt_of_le hik
        · simpa using hfound
        · exact h k hlt (by omega)
      · intro h k hik hk
        exact h k (by omega) (by omega)

theorem scanCalls_free (hno : ∀ k, ends k = false)
    (hfound : ∀ i, ∃ k, i ≤ k ∧ k < i + N ∧ found k = true) (n i : Nat) :
    scanCalls ends found N n i = none := by
  induction n generalizing i with
  | zero => rfl
  | succ n ih =>
    rw [scanCalls]
    cases hnext : scanNext ends found N i with
    | none =>
      obtain ⟨k, hik, hk, hyes⟩ := hfound i
      rw [(scanNext_free hno N i).mp hnext k hik hk] at hyes
      cases hyes
    | some k => simp only [ih (k + 1), Option.map_none]

theorem exists_first_failure (P : Nat → Prop) (V : Nat) :
    ∃ e ≤ V, (∀ i < e, P i) ∧ (e < V → ¬ P e) := by
  induction V with
  | zero => exact ⟨0, Nat.le_refl 0, fun i hi => absurd hi (Nat.not_lt_zero i), fun h => nomatch h⟩
  | succ V ih =>
    obtain ⟨e, he, hall, hfail⟩ := ih
    by_cases hlast : e < V
    · exact ⟨e, Nat.le_succ_of_le he, hall, fun _ => hfail hlast⟩
    · obtain rfl : e = V := by omega
      by_cases hP : P e
      · refine ⟨e + 1, Nat.le_refl _, ?_, fun h => absurd h (Nat.lt_irrefl _)⟩
        intro i hi
        obtain rfl | hlt := Nat.eq_or_lt_of_le (Nat.le_of_lt_succ hi)
        · exact hP
        · exact hall i hlt
      · exact ⟨e, Nat.le_succ e, hall, fun _ => hP⟩

end XrkMonitor.Library
