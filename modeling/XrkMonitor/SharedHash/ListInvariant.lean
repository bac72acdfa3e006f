import Mathlib.Data.Finset.Card
import Mathlib.Data.List.Perm.Subperm
import Mathlib.Data.List.Sort
import XrkMonitor.Library.IndexPath
import XrkMonitor.SharedHash.Table

/-!
# The list threaded through a shared hash table

`Linked t l` says that `l` is the used cells in list order: the forward links
visit `l` from the start index, the backward links visit its reverse from the
end index, and both walks end at the index `dwRealNodeCount`. Each operation
edits `l` at one place, and the edit is the abstract meaning of the code.
-/

namespace XrkMonitor.SharedHash

open Library SharedHashTable

variable {α : Type*} {t : SharedHashTable α} {l : List Nat} {i : Nat} {l₁ l₂ : List Nat}
  {t' : SharedHashTable α} {p c : Nat}

/-- `l` is the list of used cells in the order of the links. -/
structure Linked (t : SharedHashTable α) (l : List Nat) : Prop where
  fwd : Path t.next t.head.dwNodeStartIndex l t.dwRealNodeCount
  bwd : Path t.pre t.head.dwNodeEndIndex l.reverse t.dwRealNodeCount
  nodup : l.Nodup
  mem : ∀ i, i ∈ l ↔ i < t.dwRealNodeCount ∧ t.used i = true
  count : t.head.dwNodeUseCount = l.length

namespace Linked

theorem lt (h : Linked t l) (hi : i ∈ l) : i < t.dwRealNodeCount := ((h.mem i).mp hi).1

theorem used (h : Linked t l) (hi : i ∈ l) : t.used i = true := ((h.mem i).mp hi).2

theorem ne_real (h : Linked t l) (hi : i ∈ l) : i ≠ t.dwRealNodeCount := (h.lt hi).ne

theorem length_le (h : Linked t l) : l.length ≤ t.dwRealNodeCount := by
  have hsub : l ⊆ List.range t.dwRealNodeCount := fun x hx => List.mem_range.mpr (h.lt hx)
  simpa using (h.nodup.subperm hsub).length_le

theorem length_lt (h : Linked t l) (hi : i < t.dwRealNodeCount) (hn : i ∉ l) :
    l.length < t.dwRealNodeCount := by
  have hsub : i :: l ⊆ List.range t.dwRealNodeCount := by
    intro x hx
    rcases List.mem_cons.mp hx with rfl | hx
    · exact List.mem_range.mpr hi
    · exact List.mem_range.mpr (h.lt hx)
  have hnd : (i :: l).Nodup := List.nodup_cons.mpr ⟨hn, h.nodup⟩
  have := (hnd.subperm hsub).length_le
  simp only [List.length_cons, List.length_range] at this
  omega

theorem count_eq_card (h : Linked t l) :
    t.head.dwNodeUseCount =
      ((Finset.range t.dwRealNodeCount).filter fun i => t.used i = true).card := by
  have hset : (Finset.range t.dwRealNodeCount).filter (fun i => t.used i = true) =
      l.toFinset := by
    ext x
    simp [h.mem x]
  rw [hset, List.toFinset_card_of_nodup h.nodup, h.count]

theorem eq_nil_iff (h : Linked t l) :
    l = [] ↔ ∀ i < t.dwRealNodeCount, t.used i = false := by
  constructor
  · rintro rfl i hi
    by_contra hu
    have := (h.mem i).mpr ⟨hi, by simpa using hu⟩
    cases this
  · intro hall
    apply List.eq_nil_iff_forall_not_mem.mpr
    intro i hi
    have hu := h.used hi
    rw [hall i (h.lt hi)] at hu
    cases hu

theorem start_eq_iff (h : Linked t l) :
    t.head.dwNodeStartIndex = t.dwRealNodeCount ↔ l = [] := by
  constructor
  · intro hs
    cases l with
    | nil => rfl
    | cons x xs => exact absurd (h.fwd.1.symm.trans hs) (h.ne_real (by simp))
  · rintro rfl
    exact h.fwd

theorem end_eq_iff (h : Linked t l) :
    t.head.dwNodeEndIndex = t.dwRealNodeCount ↔ l = [] := by
  constructor
  · intro he
    rcases List.eq_nil_or_concat l with rfl | ⟨xs, x, rfl⟩
    · rfl
    · have hb := h.bwd
      rw [List.concat_eq_append, List.reverse_append] at hb
      exact absurd (hb.1.symm.trans he) (h.ne_real (by simp))
  · rintro rfl
    exact h.bwd

theorem of_head (h : Linked t l) (d : HashTableHead)
    (hs : d.dwNodeStartIndex = t.head.dwNodeStartIndex)
    (he : d.dwNodeEndIndex = t.head.dwNodeEndIndex)
    (hc : d.dwNodeUseCount = t.head.dwNodeUseCount) : Linked (t.setHead d) l where
  fwd := by simpa [hs] using h.fwd
  bwd := by simpa [he] using h.bwd
  nodup := h.nodup
  mem := by simpa using h.mem
  count := by simpa [hc] using h.count

end Linked

theorem Linked.fwd_split (l₁ l₂ : List Nat) {p : Nat} (h : Linked t (l₁ ++ p :: l₂)) :
    Path t.next t.head.dwNodeStartIndex l₁ p ∧ Path t.next (t.next p) l₂ t.dwRealNodeCount :=
  path_append_cons.mp h.fwd

theorem Linked.bwd_split (l₁ l₂ : List Nat) {p : Nat} (h : Linked t (l₁ ++ p :: l₂)) :
    Path t.pre t.head.dwNodeEndIndex l₂.reverse p ∧
      Path t.pre (t.pre p) l₁.reverse t.dwRealNodeCount := by
  have hb := h.bwd
  rw [List.reverse_append, List.reverse_cons, List.append_assoc] at hb
  exact path_append_cons.mp hb

theorem Linked.insert (l₁ l₂ : List Nat) (h : Linked t (l₁ ++ l₂))
    (hi : i < t.dwRealNodeCount) (hn : i ∉ l₁ ++ l₂)
    (hreal : t'.dwRealNodeCount = t.dwRealNodeCount)
    (hused : t'.used = Function.update t.used i true)
    (hcount : t'.head.dwNodeUseCount = t.head.dwNodeUseCount + 1)
    (hfwd : Path t'.next t'.head.dwNodeStartIndex (l₁ ++ i :: l₂) t.dwRealNodeCount)
    (hbwd : Path t'.pre t'.head.dwNodeEndIndex (l₁ ++ i :: l₂).reverse t.dwRealNodeCount) :
    Linked t' (l₁ ++ i :: l₂) where
  fwd := hreal ▸ hfwd
  bwd := hreal ▸ hbwd
  nodup := List.nodup_middle.mpr (List.nodup_cons.mpr ⟨hn, h.nodup⟩)
  mem := by
    intro j
    rw [hreal, hused]
    have hj := h.mem j
    by_cases hji : j = i
    · subst j
      simp [hi]
    · simpa [hji] using hj
  count := by
    rw [hcount, h.count]
    simp only [List.length_append, List.length_cons]
    omega

theorem link_first (h : Linked t []) (hi : i < t.dwRealNodeCount) :
    Linked ((((((t.setUseCount 1).setPre i t.dwRealNodeCount).setNext i
      t.dwRealNodeCount).setEnd i).setStart i).setUsed i true) [i] := by
  have hz : t.head.dwNodeUseCount = 0 := h.count
  refine Linked.insert [] [] h hi (by simp) ?_ ?_ ?_ ?_ ?_ <;>
    simp [setUseCount, setEnd, setStart, hz]

theorem link_last {l₁ : List Nat} (h : Linked t (l₁ ++ [p]))
    (hi : i < t.dwRealNodeCount) (hn : i ∉ l₁ ++ [p])
    (hc : c = t.head.dwNodeUseCount + 1) :
    Linked ((((((t.setUseCount c).setNext p i).setPre i p).setNext i
      t.dwRealNodeCount).setEnd i).setUsed i true) (l₁ ++ [p] ++ [i]) := by
  have hnp : t.next p = t.dwRealNodeCount := (h.fwd_split l₁ []).2
  have hep : t.head.dwNodeEndIndex = p := (h.bwd_split l₁ []).1
  have hip : p ≠ i := by
    rintro rfl
    exact hn (by simp)
  refine Linked.insert (l₁ ++ [p]) [] (by simpa using h) hi (by simpa using hn) ?_ ?_ ?_ ?_ ?_
  · simp [setUseCount, setEnd]
  · simp [setUseCount, setEnd]
  · simp [setUseCount, setEnd, hc]
  · have hf := h.fwd.insert_after h.nodup hn
    rw [hnp, Function.update_comm hip.symm] at hf
    simpa [setUseCount, setEnd] using hf
  · have hb := h.bwd.insert_head (i := i) (by simpa [and_comm] using hn)
    rw [hep] at hb
    simpa [setUseCount, setEnd] using hb

theorem link_front {l₂ : List Nat} (h : Linked t (p :: l₂))
    (hi : i < t.dwRealNodeCount) (hn : i ∉ p :: l₂)
    (hc : c = t.head.dwNodeUseCount + 1) :
    Linked ((((((t.setUseCount c).setPre p i).setPre i
      t.dwRealNodeCount).setNext i p).setStart i).setUsed i true) (i :: p :: l₂) := by
  have hpp : t.pre p = t.dwRealNodeCount := (h.bwd_split [] l₂).2
  have hsp : t.head.dwNodeStartIndex = p := h.fwd.1
  have hip : p ≠ i := by
    rintro rfl
    exact hn (by simp)
  refine Linked.insert [] (p :: l₂) h hi hn ?_ ?_ ?_ ?_ ?_
  · simp [setUseCount, setStart]
  · simp [setUseCount, setStart]
  · simp [setUseCount, setStart, hc]
  · have hf := h.fwd.insert_head hn
    rw [hsp] at hf
    simpa [setUseCount, setStart] using hf
  · have hb := h.bwd
    have hnd := List.nodup_reverse.mpr h.nodup
    rw [List.reverse_cons] at hb hnd
    have hb := hb.insert_after (i := i) hnd (by simpa [and_comm] using hn)
    rw [hpp, Function.update_comm hip.symm] at hb
    simpa [setUseCount, setStart] using hb

theorem link_between {p q c : Nat} (h : Linked t (l₁ ++ p :: q :: l₂))
    (hi : i < t.dwRealNodeCount) (hn : i ∉ l₁ ++ p :: q :: l₂)
    (hc : c = t.head.dwNodeUseCount + 1) :
    Linked ((((((t.setUseCount c).setNext i q).setPre i p).setPre
      q i).setNext p i).setUsed i true) (l₁ ++ p :: i :: q :: l₂) := by
  have hq : Linked t ((l₁ ++ [p]) ++ q :: l₂) := by simpa using h
  have hnp : t.next p = q := (h.fwd_split l₁ (q :: l₂)).2.1
  have hpq : t.pre q = p := by
    have := (hq.bwd_split (l₁ ++ [p]) l₂).2
    rw [List.reverse_append] at this
    exact this.1
  rw [show l₁ ++ p :: i :: q :: l₂ = (l₁ ++ [p]) ++ i :: q :: l₂ by simp]
  refine Linked.insert (l₁ ++ [p]) (q :: l₂) hq hi (by simpa using hn) ?_ ?_ ?_ ?_ ?_
  · simp [setUseCount]
  · simp [setUseCount]
  · simp [setUseCount, hc]
  · have hf := h.fwd.insert_after h.nodup hn
    rw [hnp] at hf
    simpa [setUseCount] using hf
  · have hb := hq.bwd
    have hnd := List.nodup_reverse.mpr hq.nodup
    rw [List.reverse_append, List.reverse_cons, List.append_assoc] at hb hnd
    have hb := Path.insert_after (i := i) hb hnd (by
      simpa [and_comm, and_left_comm, and_assoc] using hn)
    rw [hpq] at hb
    simpa [setUseCount] using hb

theorem Linked.erase (l₁ l₂ : List Nat) (h : Linked t (l₁ ++ i :: l₂))
    (hreal : t'.dwRealNodeCount = t.dwRealNodeCount)
    (hused : t'.used = Function.update t.used i false)
    (hcount : t'.head.dwNodeUseCount = t.head.dwNodeUseCount - 1)
    (hfwd : Path t'.next t'.head.dwNodeStartIndex (l₁ ++ l₂) t.dwRealNodeCount)
    (hbwd : Path t'.pre t'.head.dwNodeEndIndex (l₁ ++ l₂).reverse t.dwRealNodeCount) :
    Linked t' (l₁ ++ l₂) := by
  have hnd := List.nodup_middle.mp h.nodup
  rw [List.nodup_cons] at hnd
  refine ⟨hreal ▸ hfwd, hreal ▸ hbwd, hnd.2, ?_, ?_⟩
  · intro j
    rw [hreal, hused]
    by_cases hj : j = i
    · subst j
      simpa using hnd.1
    · have := h.mem j
      simpa [hj] using this
  · rw [hcount, h.count]
    simp only [List.length_append, List.length_cons]
    omega

/-- The last three writes of `RemoveHashNode`: the cell is free and unlinked. -/
def clearNode (t : SharedHashTable α) (i : Nat) : SharedHashTable α :=
  ((t.setUsed i false).setNext i t.dwRealNodeCount).setPre i t.dwRealNodeCount

theorem next_of_last {l₁ : List Nat} (h : Linked t (l₁ ++ [i])) :
    t.next i = t.dwRealNodeCount := (h.fwd_split l₁ []).2

theorem next_of_cons {q : Nat} (h : Linked t (l₁ ++ i :: q :: l₂)) :
    t.next i = q := (h.fwd_split l₁ (q :: l₂)).2.1

theorem pre_of_first {l₂ : List Nat} (h : Linked t (i :: l₂)) :
    t.pre i = t.dwRealNodeCount := (h.bwd_split [] l₂).2

theorem pre_of_concat {p : Nat} (h : Linked t (l₁ ++ p :: i :: l₂)) :
    t.pre i = p := by
  have hi : Linked t ((l₁ ++ [p]) ++ i :: l₂) := by simpa using h
  have := (hi.bwd_split (l₁ ++ [p]) l₂).2
  rw [List.reverse_append] at this
  exact this.1

theorem unlink_only {c : Nat} (h : Linked t [i]) (hc : c = t.head.dwNodeUseCount - 1) :
    Linked (clearNode (((t.setUseCount c).setStart t.dwRealNodeCount).setEnd
      t.dwRealNodeCount) i) [] := by
  refine Linked.erase [] [] h ?_ ?_ ?_ ?_ ?_ <;>
    simp [clearNode, setUseCount, setEnd, setStart, hc]

theorem unlink_last {l₁ : List Nat} (h : Linked t (l₁ ++ [p, i]))
    (hc : c = t.head.dwNodeUseCount - 1) :
    Linked (clearNode (((t.setUseCount c).setNext p t.dwRealNodeCount).setEnd p) i)
      (l₁ ++ [p]) := by
  have hi : Linked t ((l₁ ++ [p]) ++ [i]) := by simpa using h
  have hout : i ∉ l₁ ++ [p] := (List.nodup_cons.mp (List.nodup_middle.mp hi.nodup)).1 ∘ by simp
  rw [← List.append_nil (l₁ ++ [p])]
  refine Linked.erase (l₁ ++ [p]) [] hi ?_ ?_ ?_ ?_ ?_
  · simp [clearNode, setUseCount, setEnd]
  · simp [clearNode, setUseCount, setEnd]
  · simp [clearNode, setUseCount, setEnd, hc]
  · have hf := h.fwd.remove_after h.nodup
    rw [next_of_last hi] at hf
    simpa [clearNode, setUseCount, setEnd, path_update_iff hout] using hf
  · have hb := (hi.bwd_split (l₁ ++ [p]) []).2
    rw [pre_of_concat h] at hb
    have hr : i ∉ ((l₁ ++ [p]) ++ []).reverse := by simpa [and_comm] using hout
    have hb' : Path (Function.update t.pre i t.dwRealNodeCount) p ((l₁ ++ [p]) ++ []).reverse
        t.dwRealNodeCount := (path_update_iff hr).mpr (by simpa using hb)
    simpa [clearNode, setUseCount, setEnd] using hb'

theorem unlink_front {l₂ : List Nat} {q c : Nat} (h : Linked t (i :: q :: l₂))
    (hc : c = t.head.dwNodeUseCount - 1) :
    Linked (clearNode (((t.setUseCount c).setPre q t.dwRealNodeCount).setStart q) i)
      (q :: l₂) := by
  have hout : i ∉ q :: l₂ := (List.nodup_cons.mp h.nodup).1
  refine Linked.erase [] (q :: l₂) h ?_ ?_ ?_ ?_ ?_
  · simp [clearNode, setUseCount, setStart]
  · simp [clearNode, setUseCount, setStart]
  · simp [clearNode, setUseCount, setStart, hc]
  · have hf := (h.fwd_split [] (q :: l₂)).2
    rw [hf.1] at hf
    have hf' := (path_update_iff (v := t.dwRealNodeCount) hout).mpr hf
    simpa [clearNode, setUseCount, setStart] using hf'
  · have hb := h.bwd
    have hnd := List.nodup_reverse.mpr h.nodup
    rw [List.reverse_cons, List.reverse_cons, List.append_assoc] at hb hnd
    have hb := hb.remove_after hnd
    rw [pre_of_first h] at hb
    have hr : i ∉ l₂.reverse ++ [q] := by simpa [and_comm] using hout
    have hb' := (path_update_iff (v := t.dwRealNodeCount) hr).mpr hb
    simpa [clearNode, setUseCount, setStart] using hb'

theorem unlink_between {p q c : Nat} (h : Linked t (l₁ ++ p :: i :: q :: l₂))
    (hc : c = t.head.dwNodeUseCount - 1) :
    Linked (clearNode (((t.setUseCount c).setNext p q).setPre q p) i)
      (l₁ ++ p :: q :: l₂) := by
  have hi : Linked t ((l₁ ++ [p]) ++ i :: q :: l₂) := by simpa using h
  have hout : i ∉ l₁ ++ p :: q :: l₂ := by
    have := (List.nodup_cons.mp (List.nodup_middle.mp hi.nodup)).1
    simpa using this
  rw [show l₁ ++ p :: q :: l₂ = (l₁ ++ [p]) ++ q :: l₂ by simp]
  refine Linked.erase (l₁ ++ [p]) (q :: l₂) hi ?_ ?_ ?_ ?_ ?_
  · simp [clearNode, setUseCount]
  · simp [clearNode, setUseCount]
  · simp [clearNode, setUseCount, hc]
  · have hf := h.fwd.remove_after h.nodup
    rw [next_of_cons hi] at hf
    have hf' := (path_update_iff (v := t.dwRealNodeCount) hout).mpr hf
    simpa [clearNode, setUseCount] using hf'
  · have hb := hi.bwd
    have hnd := List.nodup_reverse.mpr hi.nodup
    simp only [List.reverse_append, List.reverse_cons, List.append_assoc,
      List.cons_append, List.nil_append] at hb hnd
    have hb := hb.remove_after hnd
    rw [pre_of_concat h] at hb
    have hr : i ∉ l₂.reverse ++ q :: p :: l₁.reverse := by
      simpa [and_comm, and_left_comm, and_assoc] using hout
    have hb' := (path_update_iff (v := t.dwRealNodeCount) hr).mpr hb
    simpa [clearNode, setUseCount] using hb'

end XrkMonitor.SharedHash
