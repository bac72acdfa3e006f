import XrkMonitor.Library.BinarySearch

/-!
# Binary search in a list of ranges

A range goes from its start to its end, both included. In a list in which every range ends before
the next one starts, the comparison of a point with a range does not increase, so binary search
finds the one range that covers the point.
-/

namespace XrkMonitor.Library

variable {α β : Type*} [LinearOrder β] {first last : α → β} {l : List α} {k : β} {x y : α}

/-- The range of `x` covers the point. -/
def Covers (first last : α → β) (x : α) (k : β) : Prop := first x ≤ k ∧ k ≤ last x

instance (x : α) (k : β) : Decidable (Covers first last x k) := inferInstanceAs (Decidable (_ ∧ _))

/-- The range of `x` is not empty, and ends before the range of `y` starts. -/
def EndsBefore (first last : α → β) (x y : α) : Prop := first x ≤ last x ∧ last x < first y

/-- A point is before a range, in it or behind it. -/
def rangeCmp (first last : α → β) (k : β) (x : α) : Int :=
  if k < first x then -1 else if Covers first last x k then 0 else 1

theorem EndsBefore.trans {z : α} (hxy : EndsBefore first last x y)
    (hyz : EndsBefore first last y z) : EndsBefore first last x z :=
  ⟨hxy.1, calc
    last x < first y := hxy.2
    _ ≤ last y := hyz.1
    _ < first z := hyz.2⟩

theorem pairwise_of_isChain (h : l.IsChain (EndsBefore first last)) :
    l.Pairwise (EndsBefore first last) := by
  have : Trans (EndsBefore first last) (EndsBefore first last) (EndsBefore first last) :=
    ⟨EndsBefore.trans⟩
  exact List.isChain_iff_pairwise.mp h

theorem rangeCmp_eq_zero_iff : rangeCmp first last k x = 0 ↔ Covers first last x k := by
  unfold rangeCmp
  split_ifs with hlt hcov
  · exact iff_of_false (by decide) fun hcov => absurd hlt (not_lt.mpr hcov.1)
  · exact iff_of_true rfl hcov
  · exact iff_of_false (by decide) hcov

theorem rangeCmp_le_of_endsBefore (h : EndsBefore first last x y) :
    rangeCmp first last k y ≤ rangeCmp first last k x := by
  by_cases hk : k ≤ last x
  · have hy : rangeCmp first last k y = -1 := if_pos (hk.trans_lt h.2)
    rw [hy]
    unfold rangeCmp
    split_ifs <;> decide
  · have hx : rangeCmp first last k x = 1 := by
      have hfirst : ¬ k < first x := fun hlt => hk (hlt.le.trans h.1)
      rw [rangeCmp, if_neg hfirst, if_neg fun hcov => hk hcov.2]
    rw [hx]
    unfold rangeCmp
    split_ifs <;> decide

theorem Covers.unique (h : l.Pairwise (EndsBefore first last)) {i j : Nat} (hi : l[i]? = some x)
    (hj : l[j]? = some y) (hx : Covers first last x k) (hy : Covers first last y k) : i = j := by
  have hlt : ∀ {i j : Nat} {x y : α}, l[i]? = some x → l[j]? = some y → Covers first last x k →
      Covers first last y k → ¬ i < j := by
    intro i j x y hi hj hx hy hij
    obtain ⟨hi', rfl⟩ := List.getElem?_eq_some_iff.mp hi
    obtain ⟨hj', rfl⟩ := List.getElem?_eq_some_iff.mp hj
    have hends := List.pairwise_iff_getElem.mp h i j hi' hj' hij
    exact absurd (hx.2.trans_lt hends.2) (not_lt.mpr hy.1)
  exact le_antisymm (not_lt.mp (hlt hj hi hy hx)) (not_lt.mp (hlt hi hj hx hy))

/-- What a look-up of a point must give: the one range that covers it, if there is one. -/
def FindsRange (first last : α → β) (l : List α) (k : β) : Option Nat → Prop
  | some i => ∃ x, l[i]? = some x ∧ Covers first last x k ∧
      ∀ j y, l[j]? = some y → Covers first last y k → j = i
  | none => ∀ x ∈ l, ¬ Covers first last x k

theorem findsRange_bsearch (h : l.Pairwise (EndsBefore first last)) (k : β) :
    FindsRange first last l k (bsearch (rangeCmp first last k) l) := by
  cases hfound : bsearch (rangeCmp first last k) l with
  | some i =>
    obtain ⟨x, hx, hzero⟩ := bsearch_some hfound
    have hcov := rangeCmp_eq_zero_iff.mp hzero
    exact ⟨x, hx, hcov, fun j y hy hcov' => hcov'.unique h hy hx hcov⟩
  | none =>
    intro x hx hcov
    have hsort : l.Pairwise fun a b => rangeCmp first last k b ≤ rangeCmp first last k a :=
      h.imp rangeCmp_le_of_endsBefore
    exact bsearch_none hsort hfound x hx (rangeCmp_eq_zero_iff.mpr hcov)

end XrkMonitor.Library
