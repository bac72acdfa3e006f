import XrkMonitor.Library.IndexPath

/-!
# Doubly linked lists threaded through memory

`Threaded nil pre next s e l` says that the successor links from `s` and the
predecessor links from `e` walk over the same list, in opposite directions,
and that both walks stop at `nil`. Exchanging the two directions reverses the
list, so every splice is proved for one direction only.
-/

namespace XrkMonitor.Library

variable {ι : Type*} {nil : ι} {pre next : ι → ι} {s e i : ι} {l l₁ l₂ : List ι}

/-- Both walks over a list that is threaded through memory by index. -/
structure Threaded (nil : ι) (pre next : ι → ι) (s e : ι) (l : List ι) : Prop where
  nodup : l.Nodup
  nil_notMem : nil ∉ l
  fwd : Path next s l nil
  bwd : Path pre e l.reverse nil

namespace Threaded

theorem reverse (h : Threaded nil pre next s e l) : Threaded nil next pre e s l.reverse where
  nodup := List.nodup_reverse.mpr h.nodup
  nil_notMem := by simpa using h.nil_notMem
  fwd := h.bwd
  bwd := by simpa using h.fwd

theorem start_cons {a : ι} (h : Threaded nil pre next s e (a :: l)) : s = a := h.fwd.1

theorem start_mem (h : Threaded nil pre next s e l) (hl : l ≠ []) : s ∈ l := by
  cases l with
  | nil => exact absurd rfl hl
  | cons a l => simp [h.start_cons]

theorem end_mem (h : Threaded nil pre next s e l) (hl : l ≠ []) : e ∈ l := by
  have hrev : l.reverse ≠ [] := by simpa using hl
  simpa using h.reverse.start_mem hrev

theorem next_mem (h : Threaded nil pre next s e l) (hi : i ∈ l) : next i ∈ l ∨ next i = nil :=
  h.fwd.next_mem hi

theorem pre_mem (h : Threaded nil pre next s e l) (hi : i ∈ l) : pre i ∈ l ∨ pre i = nil := by
  simpa using h.reverse.next_mem (by simpa using hi)

theorem next_last (h : Threaded nil pre next s e (l₁ ++ [i])) : next i = nil :=
  (path_concat.mp h.fwd).2

theorem next_cons {q : ι} (h : Threaded nil pre next s e (l₁ ++ i :: q :: l₂)) : next i = q :=
  (path_append_cons.mp h.fwd).2.1

theorem pre_first (h : Threaded nil pre next s e (i :: l₂)) : pre i = nil := by
  have hrev := h.reverse
  rw [List.reverse_cons] at hrev
  exact hrev.next_last

theorem pre_concat {p : ι} (h : Threaded nil pre next s e (l₁ ++ p :: i :: l₂)) : pre i = p := by
  have hrev := h.reverse
  simp only [List.reverse_append, List.reverse_cons, List.append_assoc, List.cons_append,
    List.nil_append] at hrev
  exact hrev.next_cons

theorem single [DecidableEq ι] (pre next : ι → ι) (hi : i ≠ nil) :
    Threaded nil (Function.update pre i nil) (Function.update next i nil) i i [i] where
  nodup := List.nodup_singleton i
  nil_notMem := by simpa using hi.symm
  fwd := ⟨rfl, by simp⟩
  bwd := ⟨rfl, by simp⟩

theorem pushFront [DecidableEq ι] (h : Threaded nil pre next s e l) (hl : l ≠ []) (hi : i ∉ l)
    (hnil : i ≠ nil) :
    Threaded nil (Function.update (Function.update pre i nil) s i) (Function.update next i s)
      i e (i :: l) := by
  obtain ⟨a, l, rfl⟩ := List.exists_cons_of_ne_nil hl
  obtain rfl : s = a := h.start_cons
  have hne : i ≠ s := fun heq => hi (by simp [heq])
  have hs : s ∉ l := (List.nodup_cons.mp h.nodup).1
  refine ⟨List.nodup_cons.mpr ⟨hi, h.nodup⟩, ?_, h.fwd.insert_head hi, ?_⟩
  · rw [List.mem_cons, not_or]
    exact ⟨hnil.symm, h.nil_notMem⟩
  · have hbwd := h.bwd
    rw [List.reverse_cons] at hbwd
    rw [List.reverse_cons, List.reverse_cons, List.append_assoc, List.singleton_append,
      path_append_cons]
    constructor
    · have hi' : i ∉ l.reverse := by simpa using fun hm => hi (List.mem_cons_of_mem _ hm)
      rw [path_update_iff (by simpa using hs), path_update_iff hi']
      exact (path_concat.mp hbwd).1
    · rw [Function.update_self]
      exact ⟨rfl, by simp [Function.update_of_ne hne]⟩

theorem pushBack [DecidableEq ι] (h : Threaded nil pre next s e l) (hl : l ≠ []) (hi : i ∉ l)
    (hnil : i ≠ nil) :
    Threaded nil (Function.update pre i e) (Function.update (Function.update next i nil) e i)
      s i (l ++ [i]) := by
  have hrev := (h.reverse.pushFront (by simpa using hl) (by simpa using hi) hnil).reverse
  simpa using hrev

theorem fwd_remove [DecidableEq ι] (h : Threaded nil pre next s e (l₁ ++ i :: l₂)) :
    Path (Function.update (if pre i = nil then next else Function.update next (pre i) (next i))
      i nil) (if pre i = nil then next i else s) (l₁ ++ l₂) nil := by
  have hi : i ∉ l₁ ++ l₂ := by
    have hnd := List.nodup_middle.mp h.nodup
    exact (List.nodup_cons.mp hnd).1
  rw [path_update_iff hi]
  obtain rfl | ⟨m, p, rfl⟩ := l₁.eq_nil_or_concat
  · have hpre : pre i = nil := h.pre_first
    rw [if_pos hpre, if_pos hpre]
    exact h.fwd.2
  · have hlist : m ++ [p] ++ i :: l₂ = m ++ p :: i :: l₂ := by simp
    rw [List.concat_eq_append] at h
    rw [hlist] at h
    have hpre : pre i = p := h.pre_concat
    have hp : p ≠ nil := fun heq => h.nil_notMem (by simp [heq])
    rw [hpre, if_neg hp, if_neg hp, List.concat_eq_append, List.append_assoc,
      List.singleton_append]
    exact h.fwd.remove_after h.nodup

theorem remove [DecidableEq ι] (h : Threaded nil pre next s e l) (hi : i ∈ l) :
    Threaded nil
      (Function.update (if next i = nil then pre else Function.update pre (next i) (pre i)) i nil)
      (Function.update (if pre i = nil then next else Function.update next (pre i) (next i)) i nil)
      (if pre i = nil then next i else s) (if next i = nil then pre i else e) (l.erase i) := by
  obtain ⟨l₁, l₂, rfl⟩ := List.append_of_mem hi
  have hi₁ : i ∉ l₁ := by
    have hnd := List.nodup_middle.mp h.nodup
    exact fun hm => (List.nodup_cons.mp hnd).1 (by simp [hm])
  have herase : (l₁ ++ i :: l₂).erase i = l₁ ++ l₂ := by
    rw [List.erase_append_right _ hi₁, List.erase_cons_head]
  have hrev := h.reverse
  rw [List.reverse_append, List.reverse_cons, List.append_assoc, List.singleton_append] at hrev
  refine ⟨h.nodup.erase i, fun hm => h.nil_notMem (List.mem_of_mem_erase hm), ?_, ?_⟩
  · rw [herase]
    exact h.fwd_remove
  · rw [herase, List.reverse_append]
    exact hrev.fwd_remove

end Threaded

end XrkMonitor.Library
