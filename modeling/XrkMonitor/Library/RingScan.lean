import Mathlib.Data.Nat.Find
import XrkMonitor.Library.RingIndex

/-!
# A scan of the waiting cells of a ring

A reader goes from its start cell towards the write index, as long as a cell lets it go on, and ends
in front of the cell that stops it or behind it. The cells that it has not passed still wait.

## Implementation notes

The cell at an offset is the remainder of a sum. The read index of a ring without waiting cells is
negative.
-/

namespace XrkMonitor.Library

variable {N a w k i e : Nat} {r : Int} {goesOn : Nat → Prop}

/-- The cells up to an offset lie in front of the write index. -/
def Waiting (N a w i : Nat) : Prop := ∀ j ≤ i, (a + j) % N ≠ w

/-- A cell waits to be read. -/
def PendingCell (N : Nat) (r : Int) (w p : Nat) : Prop :=
  0 ≤ r ∧ ∃ i, (r.toNat + i) % N = p ∧ Waiting N r.toNat w i

/-- The offset where a scan ends: every cell before it let the scan go on. -/
structure StopsAt (N a w : Nat) (goesOn : Nat → Prop) (k : Nat) : Prop where
  before : ∀ j < k, (a + j) % N ≠ w ∧ goesOn j
  stop : (a + k) % N = w ∨ ¬ goesOn k

/-- The read index of a ring after a scan that ended at an offset. -/
def EndsAt (N a w e : Nat) (r : Int) : Prop :=
  r = ((a + e) % N : Nat) ∨ r = -1 ∧ (a + e) % N = w

/-- The scan comes to a cell. -/
def Reaches (N : Nat) (r : Int) (w : Nat) (goesOn : Nat → Prop) (p : Nat) : Prop :=
  0 ≤ r ∧ ∃ i, (r.toNat + i) % N = p ∧ Waiting N r.toNat w i ∧ ∀ j < i, goesOn j

/-- Stalled cells that are young still wait after a scan, and one that the scan comes to and that is
old does not. -/
structure StallRule (N : Nat) (r r' : Int) (w : Nat) (goesOn : Nat → Prop)
    (stalled young old : Nat → Prop) : Prop where
  young : ∀ p, PendingCell N r w p → stalled p → young p → PendingCell N r' w p
  old : ∀ p, Reaches N r w goesOn p → stalled p → old p → ¬ PendingCell N r' w p

theorem exists_stopsAt (hw : w < N) (a : Nat) (goesOn : Nat → Prop) :
    ∃ k < N, StopsAt N a w goesOn k := by
  classical
  have hN : 0 < N := by omega
  have hlt := Nat.mod_lt a hN
  have hreach : (a + (w + N - a % N) % N) % N = w := by
    have hsum : a % N + (w + N - a % N) = w + N := by omega
    rw [Nat.add_mod, Nat.mod_mod, ← Nat.add_mod, ← Nat.mod_add_mod, hsum, Nat.add_mod_right,
      Nat.mod_eq_of_lt hw]
  have hstop : ∃ k, (a + k) % N = w ∨ ¬ goesOn k := ⟨_, Or.inl hreach⟩
  refine ⟨Nat.find hstop, ?_, ?_, Nat.find_spec hstop⟩
  · exact Nat.lt_of_le_of_lt (Nat.find_min' hstop (Or.inl hreach)) (Nat.mod_lt _ hN)
  · intro j hj
    have hno := Nat.find_min hstop hj
    rw [not_or, not_not] at hno
    exact hno

theorem StopsAt.le (h : StopsAt N a w goesOn k) (hstop : ¬ goesOn i) : k ≤ i := by
  by_contra hlt
  exact hstop (h.before i (Nat.not_le.mp hlt)).2

theorem waiting_mod : Waiting N (a % N) w i ↔ Waiting N a w i := by
  unfold Waiting
  constructor
  · intro h j hj
    rw [← Nat.mod_add_mod]
    exact h j hj
  · intro h j hj
    rw [Nat.mod_add_mod]
    exact h j hj

theorem EndsAt.pending (h : EndsAt N a w e r) (hwait : Waiting N a w i) (hle : e ≤ i) :
    PendingCell N r w ((a + i) % N) := by
  have hne := hwait e hle
  rcases h with h | ⟨-, h⟩
  · have hr : r.toNat = (a + e) % N := by
      rw [h]
      rfl
    refine ⟨by omega, i - e, ?_, ?_⟩
    · have hsum : a + e + (i - e) = a + i := by omega
      rw [hr, Nat.mod_add_mod, hsum]
    · rw [hr, waiting_mod]
      intro j hj
      have hsum : a + e + j = a + (e + j) := by omega
      rw [hsum]
      exact hwait (e + j) (by omega)
  · exact absurd h hne

theorem EndsAt.not_pending (hw : w < N) (h : EndsAt N a w (k + 1) r) (hk : (a + k) % N ≠ w) :
    ¬ PendingCell N r w ((a + k) % N) := by
  rintro ⟨hpos, i, hcell, hwait⟩
  rcases h with h | ⟨h, -⟩
  · have hr : r.toNat = (a + (k + 1)) % N := by
      rw [h]
      rfl
    rw [hr, Nat.mod_add_mod] at hcell
    rw [hr, waiting_mod] at hwait
    have hback : N ≤ i + 1 := by
      by_contra hlt
      have heq := ring_mod_inj (a := a + k) (b := a + (k + 1) + i) (by omega) (by omega) hcell.symm
      omega
    obtain ⟨j, hj, hstop⟩ := exists_stopsAt hw (a + (k + 1)) fun _ => True
    rcases hstop.stop with hwrite | htrue
    · have hlast : j ≠ N - 1 := by
        intro hj'
        have hround : a + (k + 1) + j = a + k + N := by omega
        rw [hround, Nat.add_mod_right] at hwrite
        exact hk hwrite
      exact hwait j (by omega) hwrite
    · exact htrue trivial
  · omega

theorem StopsAt.eq_of_reaches (h : StopsAt N a w goesOn k) (hwait : Waiting N a w i)
    (hbefore : ∀ j < i, goesOn j) (hstop : ¬ goesOn i) : k = i := by
  refine Nat.le_antisymm (h.le hstop) ?_
  by_contra hlt
  rcases h.stop with hwrite | hno
  · exact hwait k (by omega) hwrite
  · exact hno (hbefore k (Nat.not_le.mp hlt))

/-- A scan that passes the stalled cell where it ends exactly when `passes` says so keeps the rule
exactly when `passes` does, at every stalled cell that the scan comes to. -/
theorem stallRule_iff {r r' : Int} {stalled young old passes : Nat → Prop} (hw : w < N)
    (hr : 0 ≤ r) (hk : StopsAt N r.toNat w goesOn k)
    (hstalled : ∀ j, stalled ((r.toNat + j) % N) → ¬ goesOn j)
    (hkept : ¬ ((r.toNat + k) % N ≠ w ∧ stalled ((r.toNat + k) % N) ∧
      passes ((r.toNat + k) % N)) → EndsAt N r.toNat w k r')
    (hpassed : (r.toNat + k) % N ≠ w → stalled ((r.toNat + k) % N) →
      passes ((r.toNat + k) % N) → EndsAt N r.toNat w (k + 1) r') :
    StallRule N r r' w goesOn stalled young old ↔
      ∀ p, Reaches N r w goesOn p → stalled p →
        (young p → ¬ passes p) ∧ (old p → passes p) := by
  constructor
  · intro hrule p hreach hp
    have hreach' := hreach
    obtain ⟨-, i, rfl, hwait, hbefore⟩ := hreach
    obtain rfl := hk.eq_of_reaches hwait hbefore (hstalled i hp)
    have hne := hwait k (le_refl k)
    constructor
    · intro hyoung hpass
      exact (hpassed hne hp hpass).not_pending hw hne
        (hrule.young _ ⟨hr, k, rfl, hwait⟩ hp hyoung)
    · intro hold
      by_contra hpass
      exact hrule.old _ hreach' hp hold
        ((hkept fun h => hpass h.2.2).pending hwait (le_refl k))
  · intro hcond
    constructor
    · rintro p ⟨-, i, rfl, hwait⟩ hp hyoung
      have hle := hk.le (hstalled i hp)
      by_cases hpass : (r.toNat + k) % N ≠ w ∧ stalled ((r.toNat + k) % N) ∧
          passes ((r.toNat + k) % N)
      · have hne : k ≠ i := by
          rintro rfl
          exact (hcond _ ⟨hr, k, rfl, hwait, fun j hj => (hk.before j hj).2⟩ hp).1 hyoung hpass.2.2
        exact (hpassed hpass.1 hpass.2.1 hpass.2.2).pending hwait (by omega)
      · exact (hkept hpass).pending hwait hle
    · intro p hreach hp hold
      have hpass := (hcond p hreach hp).2 hold
      obtain ⟨-, i, rfl, hwait, hbefore⟩ := hreach
      obtain rfl := hk.eq_of_reaches hwait hbefore (hstalled i hp)
      have hne := hwait k (le_refl k)
      exact (hpassed hne hp hpass).not_pending hw hne

theorem stallRule_empty {r : Int} {stalled young old : Nat → Prop} (hr : r < 0) (r' : Int) :
    StallRule N r r' w goesOn stalled young old := by
  constructor
  · intro p hp
    exact absurd hp.1 (Int.not_le.mpr hr)
  · intro p hp
    exact absurd hp.1 (Int.not_le.mpr hr)

end XrkMonitor.Library
