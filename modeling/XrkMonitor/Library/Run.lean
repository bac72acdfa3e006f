import Mathlib.Data.List.Forall2
import Mathlib.Data.Nat.Find
import Mathlib.Tactic.Push

/-!
# Runs of a step function

A run feeds a list of inputs to a step function and collects the outputs. A
step may have no result, and then the run has none. `run_invariant` lifts what
one admissible step guarantees to every run whose steps are all admissible in
the state they meet.
-/

namespace XrkMonitor.Library

variable {σ ι ο : Type*} {step : σ → ι → Option (ο × σ)} {ok : σ → ι → Prop} {as : List ι} {s : σ}
  {Inv : σ → Prop}

/-- The outputs and the last state of a run. -/
def runSteps (step : σ → ι → Option (ο × σ)) : σ → List ι → Option (List ο × σ)
  | s, [] => some ([], s)
  | s, a :: as => do
      let (o, s') ← step s a
      let (os, s'') ← runSteps step s' as
      pure (o :: os, s'')

/-- Every step of the run is admissible in the state it starts from. -/
def Admissible (step : σ → ι → Option (ο × σ)) (ok : σ → ι → Prop) : σ → List ι → Prop
  | _, [] => True
  | s, a :: as => ok s a ∧ ∀ o s', step s a = some (o, s') → Admissible step ok s' as

/-- Admissibility of a run is decided by running it. -/
instance Admissible.decidable {step : σ → ι → Option (ο × σ)} {ok : σ → ι → Prop}
    [∀ s a, Decidable (ok s a)] : ∀ s as, Decidable (Admissible step ok s as)
  | _, [] => isTrue trivial
  | s, a :: as =>
    match h : step s a with
    | none => decidable_of_iff (ok s a) (by simp [Admissible, h])
    | some (_, s') =>
      have : Decidable (Admissible step ok s' as) := Admissible.decidable s' as
      decidable_of_iff (ok s a ∧ Admissible step ok s' as) (by simp [Admissible, h])

theorem Admissible.of_forall
    (h : ∀ s a, ok s a) (s : σ) (as : List ι) : Admissible step ok s as := by
  induction as generalizing s with
  | nil => trivial
  | cons a as ih => exact ⟨h s a, fun _ s' _ => ih s'⟩

theorem runSteps_append {s s' : σ} {os : List ο}
    (h : runSteps step s as = some (os, s')) (bs : List ι) :
    runSteps step s (as ++ bs) = (runSteps step s' bs).map fun r => (os ++ r.1, r.2) := by
  induction as generalizing s os with
  | nil =>
    obtain ⟨rfl, rfl⟩ := Prod.mk.inj (Option.some.inj h)
    simp
  | cons a as ih =>
    simp only [runSteps, Option.bind_eq_bind, Option.bind_eq_some_iff] at h
    obtain ⟨⟨o, s₁⟩, hs₁, ⟨os₁, s₂⟩, hs₂, hout⟩ := h
    obtain ⟨rfl, rfl⟩ := Prod.mk.inj (Option.some.inj hout)
    simp only [List.cons_append, runSteps, hs₁, Option.bind_eq_bind, Option.bind_some, ih hs₂]
    cases runSteps step s₂ bs <;> rfl

theorem Admissible.take
    (h : Admissible step ok s as) (n : Nat) : Admissible step ok s (as.take n) := by
  induction as generalizing s n with
  | nil =>
    rw [List.take_nil]
    trivial
  | cons a as ih =>
    cases n with
    | zero => trivial
    | succ n => exact ⟨h.1, fun o s' hs => ih (h.2 o s' hs) n⟩

theorem Admissible.append {s s' : σ}
    {as bs : List ι} {os : List ο} (h : Admissible step ok s as)
    (hrun : runSteps step s as = some (os, s')) (hbs : Admissible step ok s' bs) :
    Admissible step ok s (as ++ bs) := by
  induction as generalizing s os with
  | nil =>
    obtain ⟨-, rfl⟩ := Prod.mk.inj (Option.some.inj hrun)
    exact hbs
  | cons a as ih =>
    refine ⟨h.1, ?_⟩
    intro o s₁ hs₁
    simp only [runSteps, hs₁, Option.bind_eq_bind, Option.bind_some,
      Option.bind_eq_some_iff] at hrun
    obtain ⟨⟨os₁, s₂⟩, hs₂, hout⟩ := hrun
    obtain ⟨-, rfl⟩ := Prod.mk.inj (Option.some.inj hout)
    exact ih (h.2 o s₁ hs₁) hs₂

theorem Admissible.imp {ok ok' : σ → ι → Prop}
    (himp : ∀ s a, ok s a → ok' s a) (h : Admissible step ok s as) :
    Admissible step ok' s as := by
  induction as generalizing s with
  | nil => trivial
  | cons a as ih => exact ⟨himp s a h.1, fun o s' hs => ih (h.2 o s' hs)⟩

theorem Admissible.and_forall {P : ι → Prop}
    (h : Admissible step ok s as) (hP : ∀ a ∈ as, P a) :
    Admissible step (fun s a => ok s a ∧ P a) s as := by
  induction as generalizing s with
  | nil => trivial
  | cons a as ih =>
    refine ⟨⟨h.1, hP a (by simp)⟩, ?_⟩
    intro o s' hs
    exact ih (h.2 o s' hs) fun b hb => hP b (by simp [hb])

theorem run_invariant {O : ι → ο → Prop}
    (hstep : ∀ s a, Inv s → ok s a → ∃ o s', step s a = some (o, s') ∧ O a o ∧ Inv s') :
    ∀ (as : List ι) (s : σ), Inv s → Admissible step ok s as →
      ∃ os s', runSteps step s as = some (os, s') ∧ List.Forall₂ O as os ∧ Inv s' := by
  intro as
  induction as with
  | nil =>
    intro s hs _
    exact ⟨[], s, rfl, List.Forall₂.nil, hs⟩
  | cons a as ih =>
    intro s hs hok
    obtain ⟨o, s₁, hs₁, ho, hinv₁⟩ := hstep s a hs hok.1
    obtain ⟨os, s₂, hs₂, hos, hinv₂⟩ := ih s₁ hinv₁ (hok.2 _ _ hs₁)
    refine ⟨o :: os, s₂, ?_, List.Forall₂.cons ho hos, hinv₂⟩
    simp [runSteps, hs₁, hs₂]

/-- Every step of a run of a total step function is admissible in the state it starts from. -/
def Along (step : σ → ι → σ) (ok : σ → ι → Prop) : σ → List ι → Prop
  | _, [] => True
  | s, a :: as => ok s a ∧ Along step ok (step s a) as

instance Along.decidable {step : σ → ι → σ} {ok : σ → ι → Prop} [∀ s a, Decidable (ok s a)] :
    ∀ s as, Decidable (Along step ok s as)
  | _, [] => isTrue trivial
  | s, a :: as =>
    have : Decidable (Along step ok (step s a) as) := Along.decidable (step s a) as
    inferInstanceAs (Decidable (ok s a ∧ Along step ok (step s a) as))

theorem Along.invariant {step : σ → ι → σ}
    (hstep : ∀ s a, Inv s → ok s a → Inv (step s a))
    (hok : Along step ok s as) (hs : Inv s) : Inv (as.foldl step s) := by
  induction as generalizing s with
  | nil => exact hs
  | cons a as ih => exact ih hok.2 (hstep s a hs hok.1)

theorem Along.take {step : σ → ι → σ}
    (hok : Along step ok s as) (n : Nat) : Along step ok s (as.take n) := by
  induction as generalizing s n with
  | nil =>
    rw [List.take_nil]
    trivial
  | cons a as ih =>
    cases n with
    | zero => trivial
    | succ n => exact ⟨hok.1, ih hok.2 n⟩

theorem exists_recurring_max {f : Nat → Nat} {n : Nat} (h : ∀ k, f k ≤ n) :
    ∃ p j, (∀ k, j ≤ k → f k ≤ p) ∧ ∀ i, ∃ k, i ≤ k ∧ f k = p := by
  classical
  have hbound : ∃ p, ∃ j, ∀ k, j ≤ k → f k ≤ p := ⟨n, 0, fun k _ => h k⟩
  obtain ⟨j, hj⟩ := Nat.find_spec hbound
  refine ⟨Nat.find hbound, j, hj, ?_⟩
  intro i
  by_contra hnever
  push Not at hnever
  have hpos : 0 < Nat.find hbound := by
    have hne := hnever (max i j) (le_max_left i j)
    have hle := hj (max i j) (le_max_right i j)
    omega
  refine Nat.find_min hbound (Nat.sub_lt hpos Nat.one_pos) ⟨max i j, ?_⟩
  intro k hk
  have hne := hnever k (Nat.le_trans (le_max_left i j) hk)
  have hle := hj k (Nat.le_trans (le_max_right i j) hk)
  omega

end XrkMonitor.Library
