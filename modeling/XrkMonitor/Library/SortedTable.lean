import Mathlib.Data.List.Nodup
import XrkMonitor.Library.BinarySearch

/-!
# Sorted tables

A table is a list of rows in the order of their keys, no key twice. It is kept
with `qsort` and `bsearch` of the C library, which call a comparison of keys; the
comparison need only be right on the keys that occur. `rowOf` looks a key up, and
says what an insertion, a change in place and a removal do.
-/

namespace XrkMonitor.Library

variable {ρ κ : Type*} [LinearOrder κ]

/-- The comparison gives the sign of two keys of `D`. -/
structure ComparesOn (c : κ → κ → Int) (D : Set κ) : Prop where
  neg_iff : ∀ a ∈ D, ∀ b ∈ D, c a b < 0 ↔ a < b
  pos_iff : ∀ a ∈ D, ∀ b ∈ D, 0 < c a b ↔ b < a

/-- The rows stand in the order of their keys, no key twice. -/
def SortedBy (key : ρ → κ) (rows : List ρ) : Prop := rows.Pairwise fun a b => key a < key b

instance (key : ρ → κ) (rows : List ρ) : Decidable (SortedBy key rows) :=
  inferInstanceAs (Decidable (rows.Pairwise _))

/-- The row of a key. -/
def rowOf (key : ρ → κ) (rows : List ρ) (k : κ) : Option ρ := rows.find? fun r => key r = k

/-- `qsort` of the rows by their keys. -/
def qsort (c : κ → κ → Int) (key : ρ → κ) (rows : List ρ) : List ρ :=
  rows.mergeSort fun a b => decide (c (key a) (key b) ≤ 0)

/-- `bsearch` of a key in the rows. -/
def searchKey (c : κ → κ → Int) (key : ρ → κ) (k : κ) (rows : List ρ) : Option Nat :=
  bsearch (fun r => c k (key r)) rows

section Rows

variable {key : ρ → κ} {rows l₁ l₂ : List ρ} {r : ρ} {k : κ}

theorem SortedBy.nodup (h : SortedBy key rows) : (rows.map key).Nodup :=
  List.pairwise_map.mpr (h.imp fun hlt => hlt.ne)

theorem rowOf_eq_some_of_mem (h : (rows.map key).Nodup) (hr : r ∈ rows) :
    rowOf key rows (key r) = some r := by
  induction rows with
  | nil => cases hr
  | cons a rows ih =>
    rw [List.map_cons, List.nodup_cons] at h
    rcases List.mem_cons.mp hr with rfl | hr
    · exact List.find?_cons_of_pos (by simp)
    · have hne : key a ≠ key r := by
        intro heq
        exact h.1 (heq ▸ List.mem_map_of_mem hr)
      rw [rowOf, List.find?_cons_of_neg (by simpa using hne)]
      exact ih h.2 hr

theorem rowOf_some (h : rowOf key rows k = some r) : r ∈ rows ∧ key r = k :=
  ⟨List.mem_of_find?_eq_some h, by simpa using List.find?_some h⟩

theorem rowOf_eq_none_iff : rowOf key rows k = none ↔ k ∉ rows.map key := by
  rw [rowOf, List.find?_eq_none, List.mem_map]
  constructor
  · rintro h ⟨r, hr, rfl⟩
    exact h r hr (by simp)
  · intro h r hr hk
    exact h ⟨r, hr, by simpa using hk⟩

theorem rowOf_append (l₁ l₂ : List ρ) (k : κ) :
    rowOf key (l₁ ++ l₂) k = (rowOf key l₁ k).or (rowOf key l₂ k) := by
  simp [rowOf, List.find?_append]

theorem rowOf_cons (r : ρ) (rows : List ρ) (k : κ) :
    rowOf key (r :: rows) k = if key r = k then some r else rowOf key rows k := by
  rw [rowOf, List.find?_cons]
  by_cases hk : key r = k
  · simp [hk]
  · simp [hk, rowOf]

theorem rowOf_perm {rows' : List ρ} (hperm : rows.Perm rows') (h : (rows.map key).Nodup) :
    rowOf key rows k = rowOf key rows' k := by
  have h' : (rows'.map key).Nodup := (hperm.map key).nodup_iff.mp h
  cases hrow : rowOf key rows k with
  | none =>
    rw [rowOf_eq_none_iff] at hrow
    refine (rowOf_eq_none_iff.mpr fun hk => hrow ?_).symm
    exact (hperm.map key).mem_iff.mpr hk
  | some r =>
    obtain ⟨hr, rfl⟩ := rowOf_some hrow
    exact (rowOf_eq_some_of_mem h' (hperm.mem_iff.mp hr)).symm

theorem mem_map_iff_rowOf {γ : Type*} {f : ρ → γ} {keyOf : γ → κ} (hf : ∀ r, keyOf (f r) = key r)
    (h : (rows.map key).Nodup) (y : γ) :
    y ∈ rows.map f ↔ (rowOf key rows (keyOf y)).map f = some y := by
  rw [List.mem_map, Option.map_eq_some_iff]
  constructor
  · rintro ⟨r, hr, rfl⟩
    exact ⟨r, by rw [hf]; exact rowOf_eq_some_of_mem h hr, rfl⟩
  · rintro ⟨r, hr, hy⟩
    exact ⟨r, (rowOf_some hr).1, hy⟩

omit [LinearOrder κ] in
theorem nodup_map_of_key {γ : Type*} {f : ρ → γ} {keyOf : γ → κ} (hf : ∀ r, keyOf (f r) = key r)
    (h : (rows.map key).Nodup) : (rows.map f).Nodup := by
  have hcomp : keyOf ∘ f = key := funext hf
  rw [← hcomp, ← List.map_map] at h
  exact List.Nodup.of_map keyOf h

theorem perm_map_iff_rowOf {σ γ : Type*} {id : σ → κ} {rows' : List σ} {f : ρ → γ} {g : σ → γ}
    {keyOf : γ → κ} (hf : ∀ r, keyOf (f r) = key r) (hg : ∀ s, keyOf (g s) = id s)
    (h : (rows.map key).Nodup) (h' : (rows'.map id).Nodup) :
    (rows.map f).Perm (rows'.map g) ↔
      ∀ k, (rowOf key rows k).map f = (rowOf id rows' k).map g := by
  rw [List.perm_ext_iff_of_nodup (nodup_map_of_key hf h) (nodup_map_of_key hg h')]
  constructor
  · intro hall k
    cases hrow : rowOf key rows k with
    | some r =>
      obtain ⟨hr, rfl⟩ := rowOf_some hrow
      have hin : f r ∈ rows'.map g := (hall (f r)).mp (List.mem_map_of_mem hr)
      rw [mem_map_iff_rowOf hg h', hf] at hin
      exact hin.symm
    | none =>
      cases hrow' : rowOf id rows' k with
      | none => rfl
      | some s =>
        obtain ⟨hs, rfl⟩ := rowOf_some hrow'
        have hin : g s ∈ rows.map f := (hall (g s)).mpr (List.mem_map_of_mem hs)
        rw [mem_map_iff_rowOf hf h, hg, hrow] at hin
        cases hin
  · intro hall y
    rw [mem_map_iff_rowOf hf h, mem_map_iff_rowOf hg h', hall]

end Rows

section Sorted

variable {c : κ → κ → Int} {D : Set κ} {key : ρ → κ} {rows : List ρ} {r v : ρ} {k : κ}

omit [LinearOrder κ] in
theorem qsort_perm (c : κ → κ → Int) (key : ρ → κ) (rows : List ρ) : (qsort c key rows).Perm rows :=
  List.mergeSort_perm rows _

theorem qsort_eq_mergeSort (hc : ComparesOn c D) (hD : ∀ x ∈ rows, key x ∈ D) :
    qsort c key rows = rows.mergeSort fun a b => decide (key a ≤ key b) := by
  have hmap := List.map_mergeSort (r := fun a b => decide (c (key a) (key b) ≤ 0))
    (s := fun a b => decide (key a ≤ key b)) (f := fun x : ρ => x) (l := rows) (by
      intro a ha b hb
      have hpos := hc.pos_iff _ (hD a ha) _ (hD b hb)
      rw [decide_eq_decide, ← not_lt, ← not_lt, hpos])
  rwa [List.map_id'', List.map_id''] at hmap
  · exact fun _ => rfl
  · exact fun _ => rfl

theorem pairwise_le_qsort (hc : ComparesOn c D) (hD : ∀ x ∈ rows, key x ∈ D) :
    (qsort c key rows).Pairwise fun a b => key a ≤ key b := by
  have hle : (qsort c key rows).Pairwise fun a b => decide (key a ≤ key b) = true := by
    rw [qsort_eq_mergeSort hc hD]
    apply List.pairwise_mergeSort
    · intro a b d hab hbd
      rw [decide_eq_true_eq] at hab hbd ⊢
      exact hab.trans hbd
    · intro a b
      rw [Bool.or_eq_true, decide_eq_true_eq, decide_eq_true_eq]
      exact le_total _ _
  exact hle.imp fun h => of_decide_eq_true h

theorem sortedBy_qsort (hc : ComparesOn c D) (hD : ∀ x ∈ rows, key x ∈ D)
    (h : (rows.map key).Nodup) : SortedBy key (qsort c key rows) := by
  have hne : (qsort c key rows).Pairwise fun a b => key a ≠ key b :=
    List.pairwise_map.mp (((qsort_perm c key rows).map key).nodup_iff.mpr h)
  refine ((pairwise_le_qsort hc hD).and hne).imp ?_
  rintro a b ⟨hab, hab'⟩
  exact lt_of_le_of_ne hab hab'

omit [LinearOrder κ] in
theorem exists_insert_of_sublist {l l' : List ρ} (h : l.Sublist l') (hlen : l'.length = l.length + 1) :
    ∃ a x b, l = a ++ b ∧ l' = a ++ x :: b := by
  induction h with
  | slnil => exact absurd hlen (by simp)
  | @cons l₁ l₂ x hsub ih =>
    have heq : l₁ = l₂ := hsub.eq_of_length (by simpa using hlen.symm)
    exact ⟨[], x, l₁, rfl, by rw [heq]; rfl⟩
  | @cons_cons l₁ l₂ y hsub ih =>
    obtain ⟨a, x, b, rfl, rfl⟩ := ih (by simpa using hlen)
    exact ⟨y :: a, x, b, rfl, rfl⟩

theorem getElem?_qsort_concat (hc : ComparesOn c D) (hD : ∀ x ∈ rows ++ [v], key x ∈ D)
    (hsort : rows.Pairwise fun a b => key a ≤ key b) {p : Nat} (hr : rows[p]? = some r)
    (hlt : key r < key v) : (qsort c key (rows ++ [v]))[p]? = some r := by
  have hsub : rows.Sublist (qsort c key (rows ++ [v])) := by
    rw [qsort_eq_mergeSort hc hD]
    refine List.sublist_mergeSort ?_ ?_ ?_ (List.sublist_append_left rows [v])
    · intro a b d hab hbd
      rw [decide_eq_true_eq] at hab hbd ⊢
      exact hab.trans hbd
    · intro a b
      rw [Bool.or_eq_true, decide_eq_true_eq, decide_eq_true_eq]
      exact le_total _ _
    · exact hsort.imp fun h => decide_eq_true h
  have hperm := qsort_perm c key (rows ++ [v])
  have hle := pairwise_le_qsort hc hD
  obtain ⟨a, x, b, hrows, hq⟩ := exists_insert_of_sublist hsub (by simp [hperm.length_eq])
  rw [hq] at hperm hle ⊢
  rw [hrows] at hr hperm
  by_cases hp : p < a.length
  · rw [List.getElem?_append_left hp] at hr ⊢
    exact hr
  · rw [List.getElem?_append_right (not_lt.mp hp)] at hr
    have hmem : r ∈ b := List.mem_of_getElem? hr
    have hx : key x ≤ key r := by
      rw [List.pairwise_append, List.pairwise_cons] at hle
      exact hle.2.1.1 r hmem
    have hcount := hperm.countP_eq fun y => decide (key y ≤ key r)
    simp [List.countP_append, List.countP_cons, hx, not_le.mpr hlt] at hcount

theorem searchKey_some (hc : ComparesOn c D) (hD : ∀ x ∈ rows, key x ∈ D) (hk : k ∈ D) {j : Nat}
    (h : searchKey c key k rows = some j) : ∃ l₁ r l₂, rows = l₁ ++ r :: l₂ ∧ l₁.length = j ∧
      key r = k := by
  obtain ⟨r, hr, hzero⟩ := bsearch_some h
  obtain ⟨hj, hget⟩ := List.getElem?_eq_some_iff.mp hr
  have hmem : r ∈ rows := hget ▸ List.getElem_mem hj
  refine ⟨rows.take j, r, rows.drop (j + 1), ?_, List.length_take_of_le hj.le, ?_⟩
  · rw [← hget, ← List.drop_eq_getElem_cons hj, List.take_append_drop]
  · have hneg := hc.neg_iff k hk _ (hD r hmem)
    have hpos := hc.pos_iff k hk _ (hD r hmem)
    rw [hzero] at hneg hpos
    exact le_antisymm (not_lt.mp fun h => absurd (hneg.mpr h) (by decide))
      (not_lt.mp fun h => absurd (hpos.mpr h) (by decide))

theorem searchKey_none (hc : ComparesOn c D) (hD : ∀ x ∈ rows, key x ∈ D) (hk : k ∈ D)
    (hsort : SortedBy key rows) (h : searchKey c key k rows = none) : k ∉ rows.map key := by
  have hpair : rows.Pairwise fun a b => (c k (key b)).sign ≤ (c k (key a)).sign := by
    refine hsort.imp_of_mem ?_
    intro a b ha hb hlt
    have hle : ∀ n : Int, -1 ≤ n.sign ∧ n.sign ≤ 1 := fun n => by
      rcases Int.sign_trichotomy n with h | h | h <;> simp [h]
    rcases lt_or_ge (key a) k with hka | hka
    · rw [Int.sign_eq_one_of_pos ((hc.pos_iff k hk _ (hD a ha)).mpr hka)]
      exact (hle _).2
    · rw [Int.sign_eq_neg_one_of_neg ((hc.neg_iff k hk _ (hD b hb)).mpr (hka.trans_lt hlt))]
      exact (hle _).1
  have hmiss := bsearch_none hpair (by rw [bsearch_sign]; exact h)
  rw [List.mem_map]
  rintro ⟨r, hr, rfl⟩
  have hneg := hc.neg_iff _ hk _ (hD r hr)
  have hpos := hc.pos_iff _ hk _ (hD r hr)
  apply hmiss r hr
  rw [Int.sign_eq_zero_iff_zero]
  have h1 : ¬ c (key r) (key r) < 0 := fun h => lt_irrefl _ (hneg.mp h)
  have h2 : ¬ 0 < c (key r) (key r) := fun h => lt_irrefl _ (hpos.mp h)
  omega

end Sorted

section Edit

variable {c : κ → κ → Int} {D : Set κ} {key : ρ → κ} {rows l₁ l₂ : List ρ} {r : ρ} {k : κ}

theorem SortedBy.insert (hc : ComparesOn c D) (hD : ∀ x ∈ rows, key x ∈ D) (hr : key r ∈ D)
    (hsort : SortedBy key rows) (hnew : key r ∉ rows.map key) :
    SortedBy key (qsort c key (rows ++ [r])) ∧
      ∀ k, rowOf key (qsort c key (rows ++ [r])) k =
        if k = key r then some r else rowOf key rows k := by
  have hnodup : ((rows ++ [r]).map key).Nodup := by
    rw [List.map_append, List.nodup_append]
    refine ⟨hsort.nodup, List.nodup_singleton _, ?_⟩
    rintro a ha b hb rfl
    rw [List.map_singleton, List.mem_singleton] at hb
    exact hnew (hb ▸ ha)
  have hmem : ∀ x ∈ rows ++ [r], key x ∈ D := by
    intro x hx
    rcases List.mem_append.mp hx with hx | hx
    · exact hD x hx
    · rw [List.mem_singleton.mp hx]
      exact hr
  refine ⟨sortedBy_qsort hc hmem hnodup, ?_⟩
  intro k
  have hperm := qsort_perm c key (rows ++ [r])
  rw [rowOf_perm hperm ((hperm.map key).nodup_iff.mpr hnodup), rowOf_append, rowOf_cons]
  by_cases hk : k = key r
  · subst hk
    rw [rowOf_eq_none_iff.mpr hnew, if_pos rfl, if_pos rfl, Option.none_or]
  · rw [if_neg (Ne.symm hk), if_neg hk]
    simp [rowOf]

theorem SortedBy.ne_around (hsort : SortedBy key (l₁ ++ r :: l₂)) :
    rowOf key l₁ (key r) = none ∧ rowOf key l₂ (key r) = none := by
  have hnodup := hsort.nodup
  rw [List.map_append, List.map_cons, List.nodup_append, List.nodup_cons] at hnodup
  refine ⟨rowOf_eq_none_iff.mpr ?_, rowOf_eq_none_iff.mpr hnodup.2.1.1⟩
  intro h
  exact hnodup.2.2 _ h _ List.mem_cons_self rfl

theorem SortedBy.modify {f : ρ → ρ} (hsort : SortedBy key (l₁ ++ r :: l₂)) (hf : key (f r) = key r) :
    SortedBy key ((l₁ ++ r :: l₂).modify l₁.length f) ∧
      ∀ k, rowOf key ((l₁ ++ r :: l₂).modify l₁.length f) k =
        if k = key r then some (f r) else rowOf key (l₁ ++ r :: l₂) k := by
  have hsplit : (l₁ ++ r :: l₂).modify l₁.length f = l₁ ++ f r :: l₂ := by
    rw [List.modify_eq_take_cons_drop (by simp)]
    simp
  rw [hsplit]
  refine ⟨?_, ?_⟩
  · unfold SortedBy at hsort ⊢
    rw [List.pairwise_append, List.pairwise_cons] at hsort ⊢
    refine ⟨hsort.1, ⟨fun b hb => hf ▸ hsort.2.1.1 b hb, hsort.2.1.2⟩, ?_⟩
    intro a ha b hb
    rcases List.mem_cons.mp hb with rfl | hb
    · rw [hf]
      exact hsort.2.2 a ha r List.mem_cons_self
    · exact hsort.2.2 a ha b (List.mem_cons_of_mem _ hb)
  · intro k
    rw [rowOf_append, rowOf_cons, rowOf_append, rowOf_cons, hf]
    by_cases hk : k = key r
    · subst hk
      rw [hsort.ne_around.1, if_pos rfl, if_pos rfl, Option.none_or]
    · rw [if_neg (Ne.symm hk), if_neg (Ne.symm hk), if_neg hk]

theorem SortedBy.eraseIdx (hsort : SortedBy key (l₁ ++ r :: l₂)) :
    SortedBy key ((l₁ ++ r :: l₂).eraseIdx l₁.length) ∧
      ∀ k, rowOf key ((l₁ ++ r :: l₂).eraseIdx l₁.length) k =
        if k = key r then none else rowOf key (l₁ ++ r :: l₂) k := by
  have hsplit : (l₁ ++ r :: l₂).eraseIdx l₁.length = l₁ ++ l₂ := by
    rw [List.eraseIdx_append_of_length_le le_rfl]
    simp
  rw [hsplit]
  refine ⟨?_, ?_⟩
  · exact List.Pairwise.sublist (List.Sublist.append_left (List.sublist_cons_self r l₂) l₁) hsort
  · intro k
    rw [rowOf_append, rowOf_append, rowOf_cons]
    by_cases hk : k = key r
    · subst hk
      rw [hsort.ne_around.1, hsort.ne_around.2, if_pos rfl, Option.none_or]
    · rw [if_neg (Ne.symm hk), if_neg hk]

end Edit

end XrkMonitor.Library
