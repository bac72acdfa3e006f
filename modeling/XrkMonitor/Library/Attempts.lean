import Mathlib.Logic.Basic
import Mathlib.Order.Basic

/-!
# Searches for a place, and searches made again

A search looks at some places and returns a number that is negative exactly
when it found none with room. `SearchOutcome` says that of one search that
leaves the room of all places as it was when it finds none; searches with that
outcome can be put behind each other. Made again and again, such a search
succeeds at once or never.
-/

namespace XrkMonitor.Library

variable {σ ι : Type*}

/-- The places searched hold one with room and the search succeeded, or they hold none, the search
failed and `same` is true of the state it left. -/
def SearchOutcome (room searched : ι → Prop) (same : σ → Prop) (r : Int × σ) : Prop :=
  (0 ≤ r.1 ∧ ∃ g, searched g ∧ room g) ∨
    (r.1 < 0 ∧ same r.2 ∧ ∀ g, searched g → ¬ room g)

namespace SearchOutcome

variable {room searched searched' : ι → Prop} {same : σ → Prop} {r : Int × σ}

theorem nonneg_iff (h : SearchOutcome room searched same r) :
    0 ≤ r.1 ↔ ∃ g, searched g ∧ room g := by
  rcases h with ⟨hpos, hroom⟩ | ⟨hneg, -, hnone⟩
  · exact iff_of_true hpos hroom
  · exact iff_of_false (Int.not_le.mpr hneg) fun ⟨g, hg, hroom⟩ => hnone g hg hroom

theorem same_of_neg (h : SearchOutcome room searched same r) (hneg : r.1 < 0) : same r.2 := by
  rcases h with ⟨hpos, -⟩ | ⟨-, hsame, -⟩
  · exact absurd hneg (Int.not_lt.mpr hpos)
  · exact hsame

theorem congr (h : SearchOutcome room searched same r) (hiff : ∀ g, searched g ↔ searched' g) :
    SearchOutcome room searched' same r := by
  rcases h with ⟨hpos, g, hg, hroom⟩ | ⟨hneg, hsame, hnone⟩
  · exact Or.inl ⟨hpos, g, (hiff g).mp hg, hroom⟩
  · exact Or.inr ⟨hneg, hsame, fun g hg => hnone g ((hiff g).mpr hg)⟩

theorem mono (h : SearchOutcome room searched same r) (hpos : 0 ≤ r.1)
    (himp : ∀ g, searched g → searched' g) : SearchOutcome room searched' same r := by
  obtain ⟨g, hg, hroom⟩ := h.nonneg_iff.mp hpos
  exact Or.inl ⟨hpos, g, himp g hg, hroom⟩

theorem after {q : Int × σ} (h : SearchOutcome room searched same r) (hneg : r.1 < 0)
    (h' : SearchOutcome room searched' same q) :
    SearchOutcome room (fun g => searched' g ∨ searched g) same q := by
  have hnone : ∀ g, searched g → ¬ room g := by
    intro g hg hroom
    exact absurd (h.nonneg_iff.mpr ⟨g, hg, hroom⟩) (Int.not_le.mpr hneg)
  rcases h' with ⟨hpos, g, hg, hroom⟩ | ⟨hneg', hsame, hnone'⟩
  · exact Or.inl ⟨hpos, g, Or.inl hg, hroom⟩
  · exact Or.inr ⟨hneg', hsame, fun g hg => hg.elim (hnone' g) (hnone g)⟩

end SearchOutcome

/-- The state after the attempts `0` to `k - 1`. -/
def afterAttempts (attempt : Nat → σ → Int × σ) (s : σ) : Nat → σ
  | 0 => s
  | k + 1 => (attempt k (afterAttempts attempt s k)).2

/-- One of the attempts made one behind the other succeeds. -/
def Succeeds (attempt : Nat → σ → Int × σ) (s : σ) : Prop :=
  ∃ k, 0 ≤ (attempt k (afterAttempts attempt s k)).1

theorem succeeds_iff {attempt : Nat → σ → Int × σ} {room searched : ι → Prop} {same : σ → Prop}
    (h : ∀ k s, same s → SearchOutcome room searched same (attempt k s)) {s : σ} (hs : same s) :
    Succeeds attempt s ↔ ∃ g, searched g ∧ room g := by
  constructor
  · rintro ⟨k, hk⟩
    by_contra hnone
    have hsame : ∀ j, same (afterAttempts attempt s j) := by
      intro j
      induction j with
      | zero => exact hs
      | succ j ih =>
        refine (h j _ ih).same_of_neg (Int.not_le.mp fun hpos => ?_)
        exact hnone ((h j _ ih).nonneg_iff.mp hpos)
    exact hnone ((h k _ (hsame k)).nonneg_iff.mp hk)
  · exact fun hroom => ⟨0, (h 0 s hs).nonneg_iff.mpr hroom⟩

end XrkMonitor.Library
