import Mathlib.Data.Int.Order.Basic
import Mathlib.Data.List.Infix

/-!
# Searching a pattern in a text

Where a pattern stands in a text, its first place, and the rule that lets a search
skip places: the letter of the text under the end of the pattern must be met by some letter of
the pattern, so that the pattern can be moved on to the last such letter.

## Implementation notes

Texts and patterns are lists over any type of letters. A place is the number of letters
before the pattern.
-/

namespace XrkMonitor.Library

variable {α : Type*} {text pat : List α} {s d : Nat}

/-- The pattern stands in the text at `s`. -/
def OccursAt (text pat : List α) (s : Nat) : Prop := pat <+: text.drop s

instance [DecidableEq α] (text pat : List α) (s : Nat) : Decidable (OccursAt text pat s) :=
  inferInstanceAs (Decidable (_ <+: _))

/-- `r` is the first place of the pattern, or `-1` when it has none. -/
def IsFirstPlace (text pat : List α) (r : Int) : Prop :=
  (∃ s : Nat, r = s ∧ OccursAt text pat s ∧ ∀ t < s, ¬ OccursAt text pat t) ∨
    r = -1 ∧ ∀ t, ¬ OccursAt text pat t

/-- The pattern stands at no place before `s`. -/
def NoneBefore (text pat : List α) (s : Nat) : Prop := ∀ t < s, ¬ OccursAt text pat t

/-- Moving the pattern on by less than `d` puts no letter `c` of it under its old end. -/
def IsShift (pat : List α) (c : α) (d : Nat) : Prop :=
  d ≤ pat.length ∧ ∀ j, j + 1 < pat.length → pat[j]? = some c → d ≤ pat.length - 1 - j

theorem occursAt_iff : OccursAt text pat s ↔ ∀ j < pat.length, text[s + j]? = pat[j]? := by
  rw [OccursAt, List.prefix_iff_getElem?]
  constructor
  · intro h j hj
    rw [← List.getElem?_drop, h j hj, List.getElem?_eq_getElem hj]
  · intro h j hj
    rw [List.getElem?_drop, h j hj, List.getElem?_eq_getElem hj]

theorem OccursAt.le (h : OccursAt text pat s) (hpat : pat ≠ []) :
    s + pat.length ≤ text.length := by
  have hle := List.IsPrefix.length_le h
  have hpos := List.length_pos_of_ne_nil hpat
  rw [List.length_drop] at hle
  omega

theorem noneBefore_zero : NoneBefore text pat 0 :=
  fun _ ht => absurd ht (Nat.not_lt_zero _)

theorem NoneBefore.isFirstPlace (h : NoneBefore text pat s) (hs : OccursAt text pat s) :
    IsFirstPlace text pat s :=
  Or.inl ⟨s, rfl, hs, h⟩

theorem NoneBefore.isFirstPlace_none (h : NoneBefore text pat s) (hpat : pat ≠ [])
    (hs : text.length < s + pat.length) : IsFirstPlace text pat (-1) := by
  refine Or.inr ⟨rfl, ?_⟩
  intro t ht
  have hle := ht.le hpat
  exact h t (by omega) ht

theorem NoneBefore.skip (h : NoneBefore text pat s) (hs : ¬ OccursAt text pat s)
    (hpat : pat ≠ []) {c : α} (hend : text[s + pat.length - 1]? = some c)
    (hd : IsShift pat c d) : NoneBefore text pat (s + d) := by
  have hpos := List.length_pos_of_ne_nil hpat
  intro t ht hocc
  rcases Nat.lt_trichotomy t s with hlt | rfl | hgt
  · exact h t hlt hocc
  · exact hs hocc
  · have hdle := hd.1
    have hletter : pat[s + pat.length - 1 - t]? = some c := by
      rw [← occursAt_iff.mp hocc _ (by omega), ← hend]
      congr 1
      omega
    have hmove := hd.2 _ (by omega) hletter
    omega

end XrkMonitor.Library
