import Mathlib.Logic.Function.Iterate
import XrkMonitor.Library.IndexPath

/-!
# Circular doubly linked lists

The lists of `list.h`: a list is a ring of cells through its head, and a cell
is added or deleted by rewriting the links of its neighbours. `Ring h p l` says
that the ring through head `p` visits exactly `l` in both directions. Adding
before the head and deleting touch the links of one ring only, so every other
ring is kept.
-/

namespace XrkMonitor.Library

variable {ι : Type*} {l : List ι} {p : ι}

/-- The link fields of all list cells and heads. -/
structure ListHeap (ι : Type*) where
  next : ι → ι
  prev : ι → ι

/-- The ring through head `p` visits exactly `l`. -/
structure Ring (h : ListHeap ι) (p : ι) (l : List ι) : Prop where
  fwd : Path h.next p (p :: l) p
  bwd : Path h.prev p (p :: l.reverse) p
  nodup : (p :: l).Nodup

variable {h : ListHeap ι}

theorem Ring.congr {h h' : ListHeap ι} (r : Ring h p l)
    (hnext : ∀ x ∈ p :: l, h'.next x = h.next x) (hprev : ∀ x ∈ p :: l, h'.prev x = h.prev x) :
    Ring h' p l where
  fwd := (path_congr hnext).mpr r.fwd
  bwd := by
    apply (path_congr _).mpr r.bwd
    intro x hx
    apply hprev
    simpa using hx
  nodup := r.nodup

theorem Ring.nodup_reverse (r : Ring h p l) :
    (p :: l.reverse).Nodup := by
  have hnd := r.nodup
  rw [List.nodup_cons] at hnd ⊢
  exact ⟨fun hm => hnd.1 (List.mem_reverse.mp hm), List.nodup_reverse.mpr hnd.2⟩

/-- The last cell of a ring, or its head when the ring is empty. -/
def lastOf (p : ι) (l : List ι) : ι := (p :: l).getLast (by simp)

theorem exists_lastOf (p : ι) (l : List ι) : ∃ ys, p :: l = ys ++ [lastOf p l] :=
  ⟨(p :: l).dropLast, (List.dropLast_append_getLast (List.cons_ne_nil p l)).symm⟩

theorem lastOf_mem (p : ι) (l : List ι) : lastOf p l ∈ p :: l := List.getLast_mem _

theorem lastOf_reverse (p : ι) (l : List ι) : lastOf p l.reverse = l.headD p := by
  cases l with
  | nil => rfl
  | cons y ys => simp [lastOf]

theorem Ring.next_last (r : Ring h p l) :
    h.next (lastOf p l) = p := by
  obtain ⟨ys, hys⟩ := exists_lastOf p l
  have hf := r.fwd
  rw [hys] at hf
  exact (path_concat.mp hf).2

theorem Ring.neighbours {p x : ι} {l₁ l₂ : List ι}
    (r : Ring h p (l₁ ++ x :: l₂)) : h.prev x = lastOf p l₁ ∧ h.next x = l₂.headD p := by
  constructor
  · have hb := r.bwd
    rw [List.reverse_append, List.reverse_cons, List.append_assoc, ← List.cons_append] at hb
    have htail := (path_append_cons.mp hb).2
    rw [← List.reverse_reverse l₁, lastOf_reverse]
    cases hr : l₁.reverse with
    | nil =>
      rw [hr] at htail
      exact htail
    | cons y ys =>
      rw [hr] at htail
      exact htail.1
  · have hf := r.fwd
    rw [← List.cons_append] at hf
    have htail := (path_append_cons.mp hf).2
    cases l₂ with
    | nil => exact htail
    | cons y ys => exact htail.1

theorem Ring.prev_head (r : Ring h p l) :
    h.prev p = lastOf p l := by
  have hb := r.bwd.2
  rw [← List.reverse_reverse l, lastOf_reverse]
  cases hr : l.reverse with
  | nil =>
    rw [hr] at hb
    exact hb
  | cons y ys =>
    rw [hr] at hb
    exact hb.1

theorem Ring.next_head (r : Ring h p l) :
    h.next p = l.headD p := by
  have hf := r.fwd.2
  cases l with
  | nil => exact hf
  | cons x xs => exact hf.1

section Edit

variable [DecidableEq ι] {h : ListHeap ι} {p x : ι} {l : List ι} {l₁ l₂ : List ι} {y : ι}

/-- `INIT_LIST_HEAD`. -/
def initListHead (h : ListHeap ι) (p : ι) : ListHeap ι where
  next := Function.update h.next p p
  prev := Function.update h.prev p p

/-- `LIST_ADD`: link `x` behind `q`. -/
def listAdd (h : ListHeap ι) (x q : ι) : ListHeap ι :=
  let next := h.next q
  { next := Function.update (Function.update h.next x next) q x
    prev := Function.update (Function.update h.prev next x) x q }

/-- `LIST_DEL`: link the neighbours of `x` to each other. -/
def listDel (h : ListHeap ι) (x : ι) : ListHeap ι where
  next := Function.update h.next (h.prev x) (h.next x)
  prev := Function.update h.prev (h.next x) (h.prev x)

theorem ring_init (h : ListHeap ι) (p : ι) : Ring (initListHead h p) p [] where
  fwd := ⟨rfl, Function.update_self _ _ _⟩
  bwd := ⟨rfl, Function.update_self _ _ _⟩
  nodup := by simp

theorem initListHead_next_of_ne (hy : y ≠ p) : (initListHead h p).next y = h.next y :=
  Function.update_of_ne hy _ _

theorem initListHead_prev_of_ne (hy : y ≠ p) : (initListHead h p).prev y = h.prev y :=
  Function.update_of_ne hy _ _

theorem Ring.addTail (r : Ring h p l) (hx : x ∉ p :: l) :
    Ring (listAdd h x (h.prev p)) p (l ++ [x]) where
  fwd := by
    obtain ⟨ys, hys⟩ := exists_lastOf p l
    have hf := r.fwd
    have hnd := r.nodup
    rw [hys] at hf hnd
    have hins := hf.insert_after hnd (by rwa [← hys])
    have hcells : ys ++ [lastOf p l, x] = p :: (l ++ [x]) := by
      rw [← List.cons_append, hys, List.append_assoc]
      rfl
    rw [hcells, ← r.prev_head] at hins
    exact hins
  bwd := by
    have hxp : x ≠ p := by
      rintro rfl
      exact hx (by simp)
    have hlast : h.next (h.prev p) = p := by rw [r.prev_head, r.next_last]
    have hb : Path h.prev p ([] ++ p :: l.reverse) p := r.bwd
    have hins := hb.insert_after r.nodup_reverse (by simpa using hx)
    rw [Function.update_comm hxp] at hins
    rw [List.reverse_append, List.reverse_singleton]
    simpa only [listAdd, hlast, List.nil_append, List.cons_append] using hins
  nodup := by
    rw [← List.cons_append, List.nodup_append]
    refine ⟨r.nodup, List.nodup_singleton x, ?_⟩
    intro a ha b hb
    obtain rfl : b = x := by simpa using hb
    rintro rfl
    exact hx ha

theorem Ring.next_addTail_of_not_mem (r : Ring h p l) (hyx : y ≠ x) (hy : y ∉ p :: l) :
    (listAdd h x (h.prev p)).next y = h.next y := by
  have hyq : y ≠ h.prev p := by
    rintro rfl
    rw [r.prev_head] at hy
    exact hy (lastOf_mem p l)
  simp [listAdd, hyq, hyx]

theorem Ring.prev_addTail_of_not_mem (r : Ring h p l) (hyx : y ≠ x) (hy : y ∉ p :: l) :
    (listAdd h x (h.prev p)).prev y = h.prev y := by
  have hyp : y ≠ p := by
    rintro rfl
    exact hy (by simp)
  have hlast : h.next (h.prev p) = p := by rw [r.prev_head, r.next_last]
  simp [listAdd, hlast, hyp, hyx]

theorem Ring.del (r : Ring h p (l₁ ++ x :: l₂)) :
    Ring (listDel h x) p (l₁ ++ l₂) where
  fwd := by
    obtain ⟨ys, hys⟩ := exists_lastOf p l₁
    have hf := r.fwd
    have hnd := r.nodup
    rw [← List.cons_append, hys, List.append_assoc] at hf hnd
    have hrem := hf.remove_after hnd
    rw [← r.neighbours.1, ← List.singleton_append, ← List.append_assoc, r.neighbours.1,
      ← hys] at hrem
    simpa only [listDel, r.neighbours.1, List.cons_append] using hrem
  bwd := by
    obtain ⟨ys, hys⟩ := exists_lastOf p l₂.reverse
    have hb := r.bwd
    have hnd := r.nodup_reverse
    rw [List.reverse_append, List.reverse_cons, List.append_assoc, List.singleton_append,
      ← List.cons_append, hys, List.append_assoc] at hb hnd
    have hrem := hb.remove_after hnd
    rw [← List.singleton_append, ← List.append_assoc, ← hys, lastOf_reverse] at hrem
    rw [List.reverse_append]
    simpa only [listDel, r.neighbours.2, List.cons_append] using hrem
  nodup := by
    have hsub : (p :: (l₁ ++ l₂)).Sublist (p :: (l₁ ++ x :: l₂)) :=
      ((List.sublist_cons_self x l₂).append_left l₁).cons_cons p
    exact hsub.nodup r.nodup

theorem Ring.next_del_of_not_mem (r : Ring h p (l₁ ++ x :: l₂))
    (hy : y ∉ p :: (l₁ ++ x :: l₂)) : (listDel h x).next y = h.next y := by
  apply Function.update_of_ne
  rintro rfl
  apply hy
  rw [r.neighbours.1]
  rw [← List.cons_append]
  exact List.mem_append_left _ (lastOf_mem p l₁)

theorem Ring.prev_del_of_not_mem (r : Ring h p (l₁ ++ x :: l₂))
    (hy : y ∉ p :: (l₁ ++ x :: l₂)) : (listDel h x).prev y = h.prev y := by
  apply Function.update_of_ne
  rintro rfl
  apply hy
  rw [r.neighbours.2]
  cases l₂ with
  | nil => simp
  | cons z zs => simp

theorem Ring.keep_addTail (r : Ring h p l) {p' : ι} {l' : List ι} (r' : Ring h p' l')
    (hx : x ∉ p' :: l') (hd : ∀ y ∈ p' :: l', y ∉ p :: l) :
    Ring (listAdd h x (h.prev p)) p' l' := by
  have hne : ∀ y ∈ p' :: l', y ≠ x := by
    rintro y hy rfl
    exact hx hy
  apply r'.congr
  · intro y hy
    exact r.next_addTail_of_not_mem (hne y hy) (hd y hy)
  · intro y hy
    exact r.prev_addTail_of_not_mem (hne y hy) (hd y hy)

theorem Ring.keep_del (r : Ring h p (l₁ ++ x :: l₂)) {p' : ι} {l' : List ι}
    (r' : Ring h p' l') (hd : ∀ y ∈ p' :: l', y ∉ p :: (l₁ ++ x :: l₂)) :
    Ring (listDel h x) p' l' := by
  apply r'.congr
  · intro y hy
    exact r.next_del_of_not_mem (hd y hy)
  · intro y hy
    exact r.prev_del_of_not_mem (hd y hy)

end Edit

end XrkMonitor.Library
