import Mathlib.Order.BooleanAlgebra.Set
import XrkMonitor.Timer.Wheel

/-!
# The slots of the wheels

`Links` says that the rings of the slots hold the linked nodes, each node in the
one slot `slotOf` names. `SlotOk` says which slot suits an expiry: on an upper
wheel `n` a slot is `span n` ticks long, and `K n` is the number of the next slot
that wheel is to cascade.
-/

namespace XrkMonitor.Timer

open Library

/-- Every slot but `skip` is a ring, and `slotOf` names the slot of each linked node. -/
structure Links (h : ListHeap Ptr) (skip : Ptr) (P : Set Nat) (L : Ptr → List Nat)
    (slotOf : Nat → Ptr) : Prop where
  ring : ∀ n i, Ptr.head n i ≠ skip → Ring h (.head n i) ((L (.head n i)).map .node)
  mem : ∀ p c, c ∈ L p ↔ c ∈ P ∧ slotOf c = p

section Links

variable {h : ListHeap Ptr} {skip : Ptr} {P : Set Nat} {L : Ptr → List Nat} {slotOf : Nat → Ptr}
  {n i c : Nat}

theorem node_mem_ring {n i : Nat} {l : List Nat} :
    Ptr.node c ∈ Ptr.head n i :: l.map Ptr.node ↔ c ∈ l := by
  simp

theorem Links.disjoint (hl : Links h skip P L slotOf) {n i m j : Nat}
    (hne : Ptr.head n i ≠ Ptr.head m j) :
    ∀ y ∈ Ptr.head n i :: (L (.head n i)).map Ptr.node,
      y ∉ Ptr.head m j :: (L (.head m j)).map Ptr.node := by
  intro y hy hy'
  rcases y with _ | ⟨a, b⟩ | d
  · simp at hy
  · have h₁ : Ptr.head a b = Ptr.head n i := by simpa using hy
    have h₂ : Ptr.head a b = Ptr.head m j := by simpa using hy'
    exact hne (h₁.symm.trans h₂)
  · rw [node_mem_ring] at hy hy'
    have h₁ := ((hl.mem _ _).mp hy).2
    have h₂ := ((hl.mem _ _).mp hy').2
    exact hne (h₁.symm.trans h₂)

theorem Links.add (hl : Links h skip P L slotOf) (hc : c ∉ P) (hp : Ptr.head n i ≠ skip) :
    Links (listAdd h (.node c) (h.prev (.head n i))) skip (insert c P)
      (Function.update L (.head n i) (L (.head n i) ++ [c]))
      (Function.update slotOf c (.head n i)) where
  ring := by
    intro m j hmj
    have hcL : ∀ p, c ∉ L p := fun p hm => hc ((hl.mem p c).mp hm).1
    have r := hl.ring n i hp
    by_cases heq : Ptr.head m j = Ptr.head n i
    · rw [heq, Function.update_self, List.map_append]
      exact r.addTail (by rw [node_mem_ring]; exact hcL _)
    · rw [Function.update_of_ne heq]
      apply r.keep_addTail (hl.ring m j hmj)
      · rw [node_mem_ring]
        exact hcL _
      · exact hl.disjoint heq
  mem := by
    intro p d
    by_cases hd : d = c
    · subst hd
      by_cases hpe : p = .head n i
      · simp [hpe]
      · rw [Function.update_of_ne hpe, Function.update_self, hl.mem]
        simp [hc, Ne.symm hpe]
    · rw [Function.update_of_ne hd, Set.mem_insert_iff, or_iff_right hd]
      by_cases hpe : p = .head n i
      · subst hpe
        rw [Function.update_self, List.mem_append, List.mem_singleton, or_iff_left hd, hl.mem]
      · rw [Function.update_of_ne hpe, hl.mem]

theorem mem_filter_slot (hmem : ∀ p c, c ∈ L p ↔ c ∈ P ∧ slotOf c = p) (c : Nat) (p : Ptr)
    (d : Nat) : d ∈ Function.update L (slotOf c) ((L (slotOf c)).filter (· ≠ c)) p ↔
      d ∈ P \ {c} ∧ slotOf d = p := by
  by_cases hp : p = slotOf c
  · subst hp
    rw [Function.update_self, List.mem_filter, hmem]
    simp only [Set.mem_sdiff, Set.mem_singleton_iff, decide_eq_true_eq]
    tauto
  · rw [Function.update_of_ne hp, hmem]
    simp only [Set.mem_sdiff, Set.mem_singleton_iff]
    constructor
    · rintro ⟨hd, rfl⟩
      refine ⟨⟨hd, ?_⟩, rfl⟩
      rintro rfl
      exact hp rfl
    · rintro ⟨⟨hd, -⟩, hs⟩
      exact ⟨hd, hs⟩

theorem filter_ne_split {l₁ l₂ : List Nat} (hnd : (l₁ ++ c :: l₂).Nodup) :
    (l₁ ++ c :: l₂).filter (· ≠ c) = l₁ ++ l₂ := by
  have hc : c ∉ l₁ ++ l₂ := (List.nodup_middle.mp hnd).notMem
  have hkeep : ∀ d ∈ l₁ ++ l₂, d ≠ c := by
    rintro d hd rfl
    exact hc hd
  rw [List.filter_append, List.filter_cons_of_neg (by simp), ← List.filter_append]
  apply List.filter_eq_self.mpr
  intro d hd
  simpa using hkeep d hd

theorem Links.del (hl : Links h skip P L slotOf) (hc : c ∈ P) (hs : slotOf c = .head n i)
    (hp : Ptr.head n i ≠ skip) :
    Links (listDel h (.node c)) skip (P \ {c})
      (Function.update L (slotOf c) ((L (slotOf c)).filter (· ≠ c))) slotOf where
  ring := by
    intro m j hmj
    have hcl : c ∈ L (.head n i) := (hl.mem _ _).mpr ⟨hc, hs⟩
    obtain ⟨l₁, l₂, hsplit⟩ := List.append_of_mem hcl
    have r := hl.ring n i hp
    have hnd : (L (.head n i)).Nodup := (List.nodup_cons.mp r.nodup).2.of_map _
    rw [hs]
    by_cases heq : Ptr.head m j = Ptr.head n i
    · rw [heq, Function.update_self]
      rw [hsplit] at r hnd ⊢
      rw [filter_ne_split hnd, List.map_append]
      rw [List.map_append, List.map_cons] at r
      exact r.del
    · rw [Function.update_of_ne heq]
      have hdis := hl.disjoint heq
      rw [hsplit, List.map_append, List.map_cons] at r hdis
      exact r.keep_del (hl.ring m j hmj) hdis
  mem := mem_filter_slot hl.mem c

theorem Links.clear (hl : Links h skip P L slotOf) (hc : c ∉ P) (p q : Ptr) :
    Links
      { next := Function.update h.next (.node c) p
        prev := Function.update h.prev (.node c) q } skip P L slotOf where
  ring := by
    intro n i hp
    have hne : ∀ y ∈ Ptr.head n i :: (L (.head n i)).map Ptr.node, y ≠ Ptr.node c := by
      rintro y hy rfl
      exact hc ((hl.mem _ _).mp (node_mem_ring.mp hy)).1
    apply (hl.ring n i hp).congr
    · intro y hy
      exact Function.update_of_ne (hne y hy) _ _
    · intro y hy
      exact Function.update_of_ne (hne y hy) _ _
  mem := hl.mem

end Links

/-- The length of a slot of an upper wheel in ticks. -/
def span : Nat → Nat
  | 1 => 2 ^ 8
  | 2 => 2 ^ 14
  | 3 => 2 ^ 20
  | _ => 2 ^ 26

theorem span_pos (n : Nat) : 0 < span n := by
  unfold span
  split <;> decide

/-- Slot `p` suits expiry `e` at tick `t`. -/
inductive SlotOk (K : Nat → Nat) (t e : Nat) : Ptr → Prop
  | near : t ≤ e → e < t + 256 → SlotOk K t e (.head 0 (e % 256))
  | late : e < t → SlotOk K t e (.head 0 (t % 256))
  | far (n : Nat) : 1 ≤ n → n ≤ 4 → K n ≤ e / span n → e / span n < K n + 64 →
      SlotOk K t e (.head n (e / span n % 64))

/-- The next slot of each upper wheel stands at the tick, or one slot ahead of it. -/
def Ahead (K : Nat → Nat) (t : Nat) : Prop :=
  ∀ n, 1 ≤ n → n ≤ 4 → t ≤ K n * span n ∧ K n * span n ≤ t + span n

section Slot

variable {K : Nat → Nat} {t : MtReportTimer} {e : Nat}

/-- Tick `u` of the wheels and expiry `e` are at most half the range of the ticks apart. -/
def InReach (u e : Nat) : Prop := e < 2 ^ 32 ∧ e < u + 2 ^ 31 ∧ u ≤ e + 2 ^ 31

theorem idx_of_le (h : t.uiCheckTime ≤ e) (he : InReach t.uiCheckTime e) :
    (e + 2 ^ 32 - t.uiCheckTime) % 2 ^ 32 = e - t.uiCheckTime := by
  rw [Nat.sub_add_comm h, Nat.add_mod_right]
  exact Nat.mod_eq_of_lt (by have := he.1; omega)

theorem vecOf_slotOk (hK : Ahead K t.uiCheckTime)
    (hindex : t.index 0 = t.uiCheckTime % 256) (he : InReach t.uiCheckTime e) :
    SlotOk K t.uiCheckTime e (vecOf t e) := by
  have h₁ : t.uiCheckTime ≤ K 1 * 256 ∧ K 1 * 256 ≤ t.uiCheckTime + 256 :=
    hK 1 (by decide) (by decide)
  have h₂ : t.uiCheckTime ≤ K 2 * 16384 ∧ K 2 * 16384 ≤ t.uiCheckTime + 16384 :=
    hK 2 (by decide) (by decide)
  have h₃ : t.uiCheckTime ≤ K 3 * 1048576 ∧ K 3 * 1048576 ≤ t.uiCheckTime + 1048576 :=
    hK 3 (by decide) (by decide)
  have h₄ : t.uiCheckTime ≤ K 4 * 67108864 ∧ K 4 * 67108864 ≤ t.uiCheckTime + 67108864 :=
    hK 4 (by decide) (by decide)
  obtain ⟨hword, habove, hbelow⟩ := he
  by_cases hle : t.uiCheckTime ≤ e
  · simp only [vecOf, idx_of_le hle ⟨hword, habove, hbelow⟩]
    split_ifs
    · exact SlotOk.near hle (by omega)
    · exact SlotOk.far 1 (by decide) (by decide) (by simp only [span]; omega)
        (by simp only [span]; omega)
    · exact SlotOk.far 2 (by decide) (by decide) (by simp only [span]; omega)
        (by simp only [span]; omega)
    · exact SlotOk.far 3 (by decide) (by decide) (by simp only [span]; omega)
        (by simp only [span]; omega)
    · omega
    · exact SlotOk.far 4 (by decide) (by decide) (by simp only [span]; omega)
        (by simp only [span]; omega)
  · have hidx : (e + 2 ^ 32 - t.uiCheckTime) % 2 ^ 32 = e + 2 ^ 32 - t.uiCheckTime :=
      Nat.mod_eq_of_lt (by omega)
    simp only [vecOf, hidx]
    rw [if_neg (by omega), if_neg (by omega), if_neg (by omega), if_neg (by omega),
      if_pos (by omega), hindex]
    exact SlotOk.late (by omega)

theorem vecOf_below {n : Nat} (hn : 1 ≤ n) (hn4 : n ≤ 4) (hle : t.uiCheckTime ≤ e)
    (hlt : e < t.uiCheckTime + span n) (he : InReach t.uiCheckTime e) :
    ∃ m i, vecOf t e = .head m i ∧ m < n := by
  simp only [vecOf, idx_of_le hle he]
  obtain ⟨-, habove, -⟩ := he
  have hspan : e - t.uiCheckTime < span n := by omega
  obtain rfl | rfl | rfl | rfl : n = 1 ∨ n = 2 ∨ n = 3 ∨ n = 4 := by omega
  all_goals
    simp only [span] at hspan
    split_ifs
    all_goals first | exact ⟨_, _, rfl, by decide⟩ | omega

end Slot

end XrkMonitor.Timer
