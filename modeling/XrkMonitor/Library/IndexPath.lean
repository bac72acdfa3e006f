import Mathlib.Data.List.Basic
import Mathlib.Data.List.Nodup
import Mathlib.Logic.Function.Basic

/-!
# Paths along a successor function

A list threaded through memory by index is read by starting at a head index
and following a successor function. `Path next a l b` records one such walk:
it starts at `a`, visits exactly `l`, and then stands at `b`. The splice
lemmas describe the walk after one or two cells of `next` are rewritten, so a
doubly linked list is two paths: one along the forward links and one along the
backward links, over the reversed list.
-/

namespace XrkMonitor.Library

variable {ι : Type*} {next : ι → ι} {l : List ι} {a b : ι} {l₁ l₂ : List ι}

/-- Following `next` from `a` visits exactly `l` and then stands at `b`. -/
def Path (next : ι → ι) : ι → List ι → ι → Prop
  | a, [], b => a = b
  | a, x :: xs, b => a = x ∧ Path next (next x) xs b

@[simp] theorem path_nil : Path next a [] b ↔ a = b := Iff.rfl

@[simp] theorem path_cons {a b x : ι} {xs : List ι} :
    Path next a (x :: xs) b ↔ a = x ∧ Path next (next x) xs b := Iff.rfl

theorem path_append {a c : ι} :
    Path next a (l₁ ++ l₂) c ↔ ∃ b, Path next a l₁ b ∧ Path next b l₂ c := by
  induction l₁ generalizing a with
  | nil => simp
  | cons x xs ih =>
    simp only [List.cons_append, path_cons, ih]
    constructor
    · rintro ⟨rfl, b, h₁, h₂⟩
      exact ⟨b, ⟨rfl, h₁⟩, h₂⟩
    · rintro ⟨b, ⟨rfl, h₁⟩, h₂⟩
      exact ⟨rfl, b, h₁, h₂⟩

theorem path_append_cons {a c x : ι} :
    Path next a (l₁ ++ x :: l₂) c ↔ Path next a l₁ x ∧ Path next (next x) l₂ c := by
  rw [path_append]
  constructor
  · rintro ⟨b, h₁, rfl, h₂⟩
    exact ⟨h₁, h₂⟩
  · rintro ⟨h₁, h₂⟩
    exact ⟨x, h₁, rfl, h₂⟩

theorem path_congr {f g : ι → ι} (h : ∀ x ∈ l, f x = g x) :
    Path f a l b ↔ Path g a l b := by
  induction l generalizing a with
  | nil => rfl
  | cons x xs ih =>
    have hx : f x = g x := h x (by simp)
    have hxs : ∀ y ∈ xs, f y = g y := fun y hy => h y (by simp [hy])
    simp only [path_cons, hx, ih hxs]

theorem Path.next_mem {a b x : ι} (h : Path next a l b)
    (hx : x ∈ l) : next x ∈ l ∨ next x = b := by
  induction l generalizing a with
  | nil => cases hx
  | cons y ys ih =>
    rcases List.mem_cons.mp hx with rfl | hx
    · cases ys with
      | nil => exact Or.inr h.2
      | cons z zs =>
        left
        rw [h.2.1]
        simp
    · rcases ih h.2 hx with hm | hb
      · exact Or.inl (List.mem_cons_of_mem _ hm)
      · exact Or.inr hb

theorem Path.unique {l l' : List ι}
    (h : Path next a l b) (h' : Path next a l' b) (hb : b ∉ l) (hb' : b ∉ l') : l = l' := by
  induction l generalizing a l' with
  | nil =>
    cases l' with
    | nil => rfl
    | cons y ys =>
      obtain rfl : a = b := h
      exact absurd (by simp [h'.1]) hb'
  | cons x xs ih =>
    cases l' with
    | nil =>
      obtain rfl : a = b := h'
      exact absurd (by simp [h.1]) hb
    | cons y ys =>
      obtain ⟨rfl, ht⟩ := h
      obtain ⟨rfl, ht'⟩ := h'
      rw [ih ht ht' (fun hm => hb (by simp [hm])) (fun hm => hb' (by simp [hm]))]

theorem Path.nodup (h : Path next a l b) (hb : b ∉ l) :
    l.Nodup := by
  induction l generalizing a with
  | nil => exact List.nodup_nil
  | cons x xs ih =>
    obtain ⟨-, hxs⟩ := h
    have hbxs : b ∉ xs := fun hm => hb (by simp [hm])
    refine List.nodup_cons.mpr ⟨?_, ih hxs hbxs⟩
    intro hx
    obtain ⟨l₁, l₂, rfl⟩ := List.append_of_mem hx
    have hl₂ : Path next (next x) l₂ b := (path_append_cons.mp hxs).2
    have hsame := hxs.unique hl₂ hbxs fun hm => hbxs (by simp [hm])
    have hlen := congrArg List.length hsame
    rw [List.length_append, List.length_cons] at hlen
    omega

section Splice

variable [DecidableEq ι] {next : ι → ι} {a b i p v : ι} {l l₁ l₂ : List ι}

theorem path_update_iff (hi : i ∉ l) :
    Path (Function.update next i v) a l b ↔ Path next a l b := by
  apply path_congr
  intro x hx
  have hne : x ≠ i := by
    rintro rfl
    exact hi hx
  exact Function.update_of_ne hne _ _

theorem Path.insert_head (h : Path next a l b) (hi : i ∉ l) :
    Path (Function.update next i a) i (i :: l) b := by
  refine ⟨rfl, ?_⟩
  rw [Function.update_self]
  exact (path_update_iff hi).mpr h

theorem Path.insert_after (h : Path next a (l₁ ++ p :: l₂) b)
    (hnd : (l₁ ++ p :: l₂).Nodup) (hi : i ∉ l₁ ++ p :: l₂) :
    Path (Function.update (Function.update next i (next p)) p i) a
      (l₁ ++ p :: i :: l₂) b := by
  obtain ⟨h₁, h₂⟩ := path_append_cons.mp h
  have hp₁ : p ∉ l₁ := fun hm => by
    simp only [List.nodup_append, List.mem_cons] at hnd
    exact hnd.2.2 p hm p (Or.inl rfl) rfl
  have hp₂ : p ∉ l₂ := fun hm => by
    have := (List.nodup_append.mp hnd).2.1
    exact (List.nodup_cons.mp this).1 hm
  simp only [List.mem_append, List.mem_cons, not_or] at hi
  obtain ⟨hi₁, hip, hi₂⟩ := hi
  refine path_append_cons.mpr ⟨?_, ?_⟩
  · exact (path_update_iff hp₁).mpr ((path_update_iff hi₁).mpr h₁)
  · refine ⟨by rw [Function.update_self], ?_⟩
    rw [Function.update_of_ne hip, Function.update_self]
    exact (path_update_iff hp₂).mpr ((path_update_iff hi₂).mpr h₂)

theorem Path.remove_after (h : Path next a (l₁ ++ p :: i :: l₂) b)
    (hnd : (l₁ ++ p :: i :: l₂).Nodup) :
    Path (Function.update next p (next i)) a (l₁ ++ p :: l₂) b := by
  obtain ⟨h₁, -, h₂⟩ := path_append_cons.mp h
  have hp₁ : p ∉ l₁ := fun hm => by
    simp only [List.nodup_append, List.mem_cons] at hnd
    exact hnd.2.2 p hm p (Or.inl rfl) rfl
  have hp₂ : p ∉ l₂ := fun hm => by
    have := (List.nodup_append.mp hnd).2.1
    exact (List.nodup_cons.mp this).1 (by simp [hm])
  refine path_append_cons.mpr ⟨(path_update_iff hp₁).mpr h₁, ?_⟩
  rw [Function.update_self]
  exact (path_update_iff hp₂).mpr h₂

end Splice

theorem path_concat {a b x : ι} :
    Path next a (l ++ [x]) b ↔ Path next a l x ∧ next x = b := by
  rw [path_append_cons]
  rfl

end XrkMonitor.Library
