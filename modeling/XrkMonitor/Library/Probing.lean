import Mathlib.Data.List.Basic
import Mathlib.Logic.Function.Basic

/-!
# Probing a table of cells

A key has a path of cells it may lie in. `probe` scans a path for a hit and
remembers the first free cell on the way. `Placed` says that every used cell
lies on the path of its key and that no two used cells have the same key; it
survives removals, which leave holes in the paths of other keys.
-/

namespace XrkMonitor.Library

/-- The first hit on the path, or else the first free cell. -/
def probe (hit free : Nat → Bool) : List Nat → Option Nat → Bool × Option Nat
  | [], empty => (false, empty)
  | c :: path, empty =>
    if hit c then (true, some c)
    else probe hit free path (if empty.isNone && free c then some c else empty)

theorem probe_eq (hit free : Nat → Bool) (path : List Nat) (empty : Option Nat) :
    probe hit free path empty =
      match path.find? hit with
      | some c => (true, some c)
      | none => (false, empty.or (path.find? free)) := by
  induction path generalizing empty with
  | nil => simp [probe]
  | cons c path ih =>
    unfold probe
    cases hc : hit c with
    | true => simp [hc]
    | false =>
      simp only [Bool.false_eq_true, if_false, ih, List.find?_cons, hc]
      cases path.find? hit with
      | some d => rfl
      | none =>
        cases empty with
        | some e => simp
        | none => cases free c <;> simp

section

variable {κ : Type*} {r : κ → κ → Prop} {path : κ → List Nat} {used : Nat → Prop} {key : Nat → κ}
  {c : Nat} {k : κ} {hit : Nat → Bool} {key' : Nat → κ}

/-- Every used cell lies on the path of its key, and its key is in no other used cell. -/
structure Placed (r : κ → κ → Prop) (path : κ → List Nat) (used : Nat → Prop) (key : Nat → κ) :
    Prop where
  onPath : ∀ c, used c → c ∈ path (key c)
  unique : ∀ c d, used c → used d → r (key c) (key d) → c = d

theorem Placed.insert (h : Placed r path used key) (hsymm : ∀ a b, r a b → r b a)
    (hc : c ∈ path k) (hnew : ∀ d, used d → ¬ r k (key d)) :
    Placed r path (fun d => d = c ∨ used d) (Function.update key c k) := by
  constructor
  · intro d hd
    by_cases hdc : d = c
    · subst hdc
      simpa using hc
    · rw [Function.update_of_ne hdc]
      exact h.onPath d (hd.resolve_left hdc)
  · intro d e hd he hr
    by_cases hdc : d = c
    · by_cases hec : e = c
      · rw [hdc, hec]
      · rw [hdc, Function.update_self, Function.update_of_ne hec] at hr
        exact absurd hr (hnew e (he.resolve_left hec))
    · by_cases hec : e = c
      · rw [hec, Function.update_self, Function.update_of_ne hdc] at hr
        exact absurd (hsymm _ _ hr) (hnew d (hd.resolve_left hdc))
      · rw [Function.update_of_ne hdc, Function.update_of_ne hec] at hr
        exact h.unique d e (hd.resolve_left hdc) (he.resolve_left hec) hr

theorem Placed.mono (h : Placed r path used key) {used' : Nat → Prop}
    (hused : ∀ d, used' d → used d) (hkey : ∀ d, used' d → key' d = key d) :
    Placed r path used' key' := by
  constructor
  · intro d hd
    rw [hkey d hd]
    exact h.onPath d (hused d hd)
  · intro d e hd he hr
    rw [hkey d hd, hkey e he] at hr
    exact h.unique d e (hused d hd) (hused e he) hr

theorem Placed.rekey (h : Placed r path used key) (hsymm : ∀ a b, r a b → r b a)
    (htrans : ∀ a b c, r a b → r b c → r a c) (hpath : ∀ a b, r a b → path a = path b)
    (hkey : ∀ d, used d → r (key' d) (key d)) : Placed r path used key' := by
  constructor
  · intro d hd
    rw [hpath _ _ (hkey d hd)]
    exact h.onPath d hd
  · intro d e hd he hr
    have hde := htrans _ _ _ (hsymm _ _ (hkey d hd)) hr
    exact h.unique d e hd he (htrans _ _ _ hde (hkey e he))

theorem Placed.find?_eq_some (h : Placed r path used key) (hsymm : ∀ a b, r a b → r b a)
    (htrans : ∀ a b c, r a b → r b c → r a c) (hpath : ∀ a b, r a b → path a = path b)
    (hhit : ∀ d ∈ path k, hit d = true ↔ used d ∧ r k (key d)) :
    (path k).find? hit = some c ↔ used c ∧ r k (key c) := by
  constructor
  · intro hfind
    exact (hhit c (List.mem_of_find?_eq_some hfind)).mp (List.find?_some hfind)
  · rintro ⟨hc, hr⟩
    have hmem : c ∈ path k := by
      rw [hpath _ _ hr]
      exact h.onPath c hc
    cases hfind : (path k).find? hit with
    | none =>
      have := List.find?_eq_none.mp hfind c hmem
      exact absurd ((hhit c hmem).mpr ⟨hc, hr⟩) this
    | some d =>
      obtain ⟨hd, hrd⟩ := (hhit d (List.mem_of_find?_eq_some hfind)).mp (List.find?_some hfind)
      rw [h.unique d c hd hc (htrans _ _ _ (hsymm _ _ hrd) hr)]

theorem Placed.probe_eq_none (h : Placed r path used key) (hsymm : ∀ a b, r a b → r b a)
    (htrans : ∀ a b c, r a b → r b c → r a c) (hpath : ∀ a b, r a b → path a = path b)
    (hhit : ∀ d ∈ path k, hit d = true ↔ used d ∧ r k (key d))
    (free : Nat → Bool) :
    (probe hit free (path k) none).2 = none ↔
      (∀ d, used d → ¬ r k (key d)) ∧ ∀ d ∈ path k, free d = false := by
  have hfind := fun c => h.find?_eq_some (c := c) hsymm htrans hpath hhit
  rw [probe_eq]
  cases hpr : (path k).find? hit with
  | some c =>
    obtain ⟨hc, hr⟩ := (hfind c).mp hpr
    simp only [reduceCtorEq, false_iff, not_and]
    intro habs
    exact absurd hr (habs c hc)
  | none =>
    have habs : ∀ d, used d → ¬ r k (key d) := by
      intro d hd hr
      rw [(hfind d).mpr ⟨hd, hr⟩] at hpr
      cases hpr
    simp only [Option.none_or, List.find?_eq_none, Bool.not_eq_true]
    exact ⟨fun hfree => ⟨habs, hfree⟩, And.right⟩

end

end XrkMonitor.Library
