import XrkMonitor.Attr.Report

/-!
# Sums of attribute counters

`TableOk t l` is the invariant of one attribute table with threaded list `l`.
The lemmas say how the sum of an attribute over a table, over the special list
and over a batch changes with each edit.
-/

namespace XrkMonitor.Attr

open Library SharedHash SharedHashTable

/-- What a node counts for an attribute. -/
def worth (attr : Int) (n : AttrNode) : Int := if n.iAttrID = attr then n.iCurValue else 0

section Sum

variable {attr : Int} {n : AttrNode} {nodes : List AttrNode} {f : Nat → AttrNode}

theorem int32_of_range {x : Int} (h0 : 0 ≤ x) (h : x < 2 ^ 31) : int32 x = x := by
  unfold int32
  apply Int.bmod_eq_of_le
  · omega
  · omega

@[simp] theorem sumOf_nil (attr : Int) : sumOf attr [] = 0 := rfl

@[simp] theorem sumOf_cons (attr : Int) (n : AttrNode) (nodes : List AttrNode) :
    sumOf attr (n :: nodes) = worth attr n + sumOf attr nodes := by
  simp [sumOf, worth]

@[simp] theorem sumOf_append (attr : Int) (ns ms : List AttrNode) :
    sumOf attr (ns ++ ms) = sumOf attr ns + sumOf attr ms := by
  simp [sumOf]

theorem sumOf_perm {ns ms : List AttrNode} (h : ns.Perm ms) (attr : Int) :
    sumOf attr ns = sumOf attr ms :=
  (h.map _).sum_eq

theorem worth_nonneg (h : 0 < n.iCurValue) (attr : Int) : 0 ≤ worth attr n := by
  unfold worth
  split
  · omega
  · omega

theorem sumOf_nonneg (h : ∀ n ∈ nodes, 0 < n.iCurValue) (attr : Int) : 0 ≤ sumOf attr nodes := by
  induction nodes with
  | nil => simp
  | cons n nodes ih =>
    have hn := worth_nonneg (h n (by simp)) attr
    have hns := ih fun m hm => h m (by simp [hm])
    rw [sumOf_cons]
    omega

theorem value_le_sumOf (h : ∀ n ∈ nodes, 0 < n.iCurValue) (hn : n ∈ nodes) :
    n.iCurValue ≤ sumOf n.iAttrID nodes := by
  induction nodes with
  | nil => cases hn
  | cons m nodes ih =>
    have hrest := sumOf_nonneg (fun k hk => h k (List.mem_cons_of_mem m hk)) n.iAttrID
    rw [sumOf_cons]
    rcases List.mem_cons.mp hn with rfl | hn
    · simp only [worth, if_true]
      omega
    · have hm := worth_nonneg (h m (by simp)) n.iAttrID
      have := ih (fun k hk => h k (List.mem_cons_of_mem m hk)) hn
      omega

theorem sumOf_map_update {l : List Nat} {c : Nat} (hnd : l.Nodup) (hc : c ∈ l)
    (n : AttrNode) (attr : Int) :
    sumOf attr (l.map (Function.update f c n)) =
      sumOf attr (l.map f) - worth attr (f c) + worth attr n := by
  obtain ⟨l₁, l₂, rfl⟩ := List.append_of_mem hc
  have hout := (List.nodup_middle.mp hnd).notMem
  have hkeep : ∀ l' : List Nat, (∀ d ∈ l', d ∈ l₁ ++ l₂) →
      l'.map (Function.update f c n) = l'.map f := by
    intro l' hl'
    apply List.map_congr_left
    intro d hd
    apply Function.update_of_ne
    rintro rfl
    exact hout (hl' d hd)
  rw [List.map_append, List.map_cons, Function.update_self, hkeep l₁ (by simp +contextual),
    hkeep l₂ (by simp +contextual), List.map_append, List.map_cons]
  simp only [sumOf_append, sumOf_cons]
  omega

theorem map_update_of_not_mem {l : List Nat} {c : Nat} (hc : c ∉ l)
    (n : AttrNode) : l.map (Function.update f c n) = l.map f := by
  apply List.map_congr_left
  intro d hd
  apply Function.update_of_ne
  rintro rfl
  exact hc hd

end Sum

section Table

variable {t : SharedHashTable AttrNode} {l : List Nat} {c : Nat} {env : LockEnv}

/-- An attribute table between two steps; its counters are positive. -/
structure TableOk (t : SharedHashTable AttrNode) (l : List Nat) : Prop where
  ready : Ready t l
  rows : RowsOk t
  cmp : t.funCmp = mtreportAttrCmp
  spec : t.attrSpec = []
  pos : ∀ c ∈ l, 0 < (t.node c).iCurValue

theorem TableOk.pos_nodes (h : TableOk t l) : ∀ n ∈ l.map t.node, 0 < n.iCurValue := by
  intro n hn
  obtain ⟨c, hc, rfl⟩ := List.mem_map.mp hn
  exact h.pos c hc

theorem perm_usedNodes (h : Linked t l) : (usedNodes t).Perm (l.map t.node) := by
  apply List.Perm.map
  apply (List.perm_ext_iff_of_nodup (List.nodup_range.filter _) h.nodup).mpr
  intro c
  rw [h.mem, List.mem_filter, List.mem_range]

theorem TableOk.setUsedNode (h : TableOk t l) (hc : c ∈ l) {n : AttrNode} (hn : 0 < n.iCurValue) :
    TableOk (t.setNode c n) l ∧ ∀ attr, sumOf attr (l.map (t.setNode c n).node) =
      sumOf attr (l.map t.node) - worth attr (t.node c) + worth attr n := by
  constructor
  · refine ⟨h.ready.setNode c n, ⟨h.rows.pos, h.rows.sum⟩, h.cmp, h.spec, ?_⟩
    intro d hd
    by_cases hdc : d = c
    · subst hdc
      simpa using hn
    · simpa [hdc] using h.pos d hd
  · intro attr
    exact sumOf_map_update h.ready.linked.nodup hc n attr

theorem TableOk.setFreeNode (h : TableOk t l) (hc : c ∉ l) (n : AttrNode) :
    TableOk (t.setNode c n) l ∧ l.map (t.setNode c n).node = l.map t.node := by
  have hkeep : l.map (t.setNode c n).node = l.map t.node := map_update_of_not_mem hc n
  refine ⟨⟨h.ready.setNode c n, ⟨h.rows.pos, h.rows.sum⟩, h.cmp, h.spec, ?_⟩, hkeep⟩
  intro d hd
  have hdc : d ≠ c := by
    rintro rfl
    exact hc hd
  simpa [hdc] using h.pos d hd

theorem TableOk.of_edit {t' : SharedHashTable AttrNode} {l' : List Nat} (h : TableOk t l)
    (he : LinkEdit t t') (hr : Ready t' l') (hpos : ∀ c ∈ l', 0 < (t.node c).iCurValue) :
    TableOk t' l' := by
  refine ⟨hr, ⟨?_, ?_⟩, ?_, ?_, ?_⟩
  · rw [he]
    exact h.rows.pos
  · rw [he]
    exact h.rows.sum
  · rw [he]
    exact h.cmp
  · rw [he]
    exact h.spec
  · rw [he.node]
    exact hpos

theorem TableOk.insert (h : TableOk t l) (hlt : c < t.dwRealNodeCount) (hc : t.used c = false)
    (henv : lockLoop env false = true) {n : AttrNode} (hn : 0 < n.iCurValue) :
    ∃ t', insertHashNode env (t.setNode c n) c = (0, t') ∧ TableOk t' (l ++ [c]) ∧
      (∀ attr, sumOf attr ((l ++ [c]).map t'.node) = sumOf attr (l.map t.node) + worth attr n) ∧
      t'.dwCurIndex = t.dwCurIndex ∧ t'.dwRealNodeCount = t.dwRealNodeCount := by
  have hout : c ∉ l := h.ready.not_mem hc
  obtain ⟨hfill, hkeep⟩ := h.setFreeNode hout n
  obtain ⟨t', ht', hr, he⟩ := insertHashNode_ready hfill.ready hlt hc henv
  have hcur := dwCurIndex_insertHashNode (i := c) hfill.ready henv
  rw [ht'] at hcur
  refine ⟨t', ht', hfill.of_edit he hr ?_, ?_, hcur, he.dwRealNodeCount⟩
  · intro d hd
    rcases List.mem_append.mp hd with hd | hd
    · exact hfill.pos d hd
    · obtain rfl : d = c := by simpa using hd
      simpa using hn
  · intro attr
    rw [he.node, List.map_append, hkeep, sumOf_append]
    simp

theorem TableOk.take (h : TableOk t l) (hc : c ∈ l) (hcur : t.dwCurIndex = c)
    (henv : lockLoop env false = true) :
    ∃ pNode t' l', takeNode env t c false = (pNode, t') ∧ TableOk t' l' ∧
      (∀ attr, sumOf attr (l'.map t'.node) + worth attr (t.node c) =
        sumOf attr (l.map t.node)) ∧
      ∀ d, pNode = some d → t'.dwCurIndex = d ∧ d ∈ l' := by
  obtain ⟨l₁, l₂, rfl⟩ := List.append_of_mem hc
  have hout := (List.nodup_middle.mp h.ready.linked.nodup).notMem
  obtain ⟨t₁, ht₁, hr, he, hnext⟩ := removeHashNode_cursor h.ready henv hcur
  have hok₁ : TableOk t₁ (l₁ ++ l₂) := by
    apply h.of_edit he hr
    intro d hd
    apply h.pos
    rcases List.mem_append.mp hd with hd | hd
    · simp [hd]
    · simp [hd]
  obtain ⟨hok₂, hkeep⟩ := hok₁.setFreeNode hout default
  obtain ⟨pNode, hget, hnode⟩ := getCurNode_linked hok₂.ready.linked hnext
  refine ⟨pNode, _, l₁ ++ l₂, ?_, hok₂, ?_, hnode⟩
  · simp only [takeNode, ht₁, Bool.false_eq_true, if_false, hget]
  · intro attr
    rw [hkeep, he.node]
    simp only [List.map_append, List.map_cons, sumOf_append, sumOf_cons]
    omega

end Table

section Batch

/-- A batch is sorted by attribute without duplicates, and its values are positive. -/
structure BatchOk (b : List AttrNode) : Prop where
  sorted : b.Pairwise fun x y => x.iAttrID < y.iAttrID
  pos : ∀ n ∈ b, 0 < n.iCurValue

variable {b : List AttrNode} {n : AttrNode}

theorem perm_sortAttr (b : List AttrNode) : (sortAttr b).Perm b := List.perm_insertionSort _ b

theorem length_sortAttr (b : List AttrNode) : (sortAttr b).length = b.length :=
  (perm_sortAttr b).length_eq

theorem batchOk_sortAttr (hnd : (b.map AttrNode.iAttrID).Nodup) (hpos : ∀ n ∈ b, 0 < n.iCurValue) :
    BatchOk (sortAttr b) := by
  have hle : (sortAttr b).Pairwise fun x y => x.iAttrID - y.iAttrID ≤ 0 := by
    have : Std.Total fun x y : AttrNode => x.iAttrID - y.iAttrID ≤ 0 := ⟨fun x y => by omega⟩
    have : IsTrans AttrNode fun x y => x.iAttrID - y.iAttrID ≤ 0 := ⟨fun x y z => by omega⟩
    exact List.pairwise_insertionSort _ b
  have hne : (sortAttr b).Pairwise fun x y => x.iAttrID ≠ y.iAttrID := by
    apply List.pairwise_map.mp
    exact ((perm_sortAttr b).map AttrNode.iAttrID).nodup_iff.mpr hnd
  constructor
  · apply (hle.and hne).imp
    rintro x y ⟨h₁, h₂⟩
    omega
  · intro n hn
    exact hpos n ((perm_sortAttr b).mem_iff.mp hn)

theorem BatchOk.ids_nodup (h : BatchOk b) : (b.map AttrNode.iAttrID).Nodup := by
  apply List.pairwise_map.mpr
  apply h.sorted.imp
  intro x y hxy
  omega

theorem BatchOk.modify (h : BatchOk b) {i : Nat} {x : AttrNode} (hx : b[i]? = some x) {v : Int}
    (hv : 0 < v) :
    BatchOk (b.modify i fun x => { x with iCurValue := x.iCurValue + v }) ∧
      ∀ attr, sumOf attr (b.modify i fun x => { x with iCurValue := x.iCurValue + v }) =
        sumOf attr b + if x.iAttrID = attr then v else 0 := by
  obtain ⟨hi, rfl⟩ := List.getElem?_eq_some_iff.mp hx
  have hsplit : b = b.take i ++ b[i] :: b.drop (i + 1) := by simp
  have hmod : b.modify i (fun x => { x with iCurValue := x.iCurValue + v }) =
      b.take i ++ { b[i] with iCurValue := b[i].iCurValue + v } :: b.drop (i + 1) :=
    List.modify_eq_take_cons_drop hi
  refine ⟨⟨?_, ?_⟩, ?_⟩
  · have hids : (b.modify i fun x => { x with iCurValue := x.iCurValue + v }).map
        AttrNode.iAttrID = b.map AttrNode.iAttrID := by
      rw [hmod]
      conv_rhs => rw [hsplit]
      simp only [List.map_append, List.map_cons]
    apply List.pairwise_map.mp
    rw [hids]
    exact List.pairwise_map.mpr h.sorted
  · intro n hn
    rw [hmod] at hn
    rcases List.mem_append.mp hn with hn | hn
    · exact h.pos n (List.mem_of_mem_take hn)
    · rcases List.mem_cons.mp hn with rfl | hn
      · have := h.pos b[i] (List.getElem_mem hi)
        show 0 < b[i].iCurValue + v
        omega
      · exact h.pos n (List.mem_of_mem_drop hn)
  · intro attr
    have hsum := congrArg (sumOf attr) hsplit
    rw [sumOf_append, sumOf_cons] at hsum
    rw [hmod, sumOf_append, sumOf_cons, hsum]
    simp only [worth]
    split
    · omega
    · omega

/-- A node goes into a batch whose sums stay within `int32_t`. -/
theorem BatchOk.merge (h : BatchOk b) (hn : 0 < n.iCurValue)
    (hsum : sumOf n.iAttrID b + n.iCurValue < 2 ^ 31) :
    BatchOk (mergeAttr b n) ∧ (mergeAttr b n).length ≤ b.length + 1 ∧
      ∀ attr, sumOf attr (mergeAttr b n) = sumOf attr b + worth attr n := by
  unfold mergeAttr
  cases hs : bsearch (fun x => n.iAttrID - x.iAttrID) b with
  | some i =>
    obtain ⟨x, hx, hid⟩ := bsearch_some hs
    have hid : n.iAttrID = x.iAttrID := by omega
    have hmem : x ∈ b := List.mem_of_getElem? hx
    have hle := value_le_sumOf h.pos hmem
    rw [← hid] at hle
    have hpos := h.pos x hmem
    have hcongr : (b.modify i fun x => { x with iCurValue := int32 (x.iCurValue + n.iCurValue) }) =
        b.modify i fun x => { x with iCurValue := x.iCurValue + n.iCurValue } := by
      obtain ⟨hi, rfl⟩ := List.getElem?_eq_some_iff.mp hx
      rw [List.modify_eq_take_cons_drop hi, List.modify_eq_take_cons_drop hi,
        int32_of_range (by omega) (by omega)]
    obtain ⟨hok, hsums⟩ := h.modify hx hn
    simp only [hcongr]
    refine ⟨hok, by simp, ?_⟩
    intro attr
    rw [hsums, worth, hid]
  | none =>
    have hnew : ∀ x ∈ b, n.iAttrID - x.iAttrID ≠ 0 := by
      apply bsearch_none _ hs
      apply h.sorted.imp
      intro x y hxy
      omega
    simp only [if_pos hn]
    refine ⟨?_, ?_, ?_⟩
    · apply batchOk_sortAttr
      · rw [List.map_append]
        apply List.nodup_append.mpr
        refine ⟨h.ids_nodup, List.nodup_singleton _, ?_⟩
        intro a ha a' ha' heq
        obtain ⟨x, hx, rfl⟩ := List.mem_map.mp ha
        have ha' : a' = n.iAttrID := by simpa using ha'
        exact hnew x hx (by omega)
      · intro x hx
        rcases List.mem_append.mp hx with hx | hx
        · exact h.pos x hx
        · obtain rfl : x = n := by simpa using hx
          exact hn
    · rw [length_sortAttr, List.length_append, List.length_singleton]
    · intro attr
      rw [sumOf_perm (perm_sortAttr _), sumOf_append]
      simp

end Batch

end XrkMonitor.Attr
