import XrkMonitor.Library.KeyedSum
import XrkMonitor.SharedHash.Cursor

/-!
# Tables of counters

A shared hash table whose nodes count something under a key. `CountersOk` is its
invariant between two steps, with the threaded list and positive counters. The
lemmas say how a write, an insertion and the round of a drain change the sums.
-/

namespace XrkMonitor.SharedHash

open Library SharedHashTable

variable {α κ : Type*} [DecidableEq κ]

/-- The nodes in use. -/
def SharedHashTable.usedNodes (t : SharedHashTable α) : List α :=
  ((List.range t.dwRealNodeCount).filter t.used).map t.node

/-- A node that a drain has read is removed and cleared; the drain goes on with the node under the
cursor. -/
def drainNode [Inhabited α] (env : LockEnv) (t : SharedHashTable α) (c : Nat) (bReverse : Bool) :
    Option Nat × SharedHashTable α :=
  let t := (removeHashNode env t c).2.setNode c default
  if bReverse then getCurNodeRevers t else getCurNode t

/-- The start of a drain. -/
def drainFirst [Inhabited α] (t : SharedHashTable α) : Bool × Option Nat × SharedHashTable α :=
  let (pNode, t) := getFirstNode t
  if pNode.isNone && decide (0 < t.head.dwNodeUseCount) then (true, getFirstNodeRevers t)
  else (false, pNode, t)

/-- The end of a drain. -/
def drainEnd [Inhabited α] (bReverse : Bool) (t : SharedHashTable α) : SharedHashTable α :=
  if bReverse && decide (t.head.dwNodeUseCount ≤ 1) then
    { resetHashTable t with bAccessCheck := true }
  else if !bReverse && decide (t.head.dwNodeUseCount ≤ 0) then { t with bAccessCheck := false }
  else t

/-- A cursor on a used cell stays on it from `t` to `t'`. -/
structure CursorKept (t t' : SharedHashTable α) : Prop where
  cur : t'.dwCurIndex = t.dwCurIndex
  real : t'.dwRealNodeCount = t.dwRealNodeCount
  used : ∀ c < t.dwRealNodeCount, t.used c = true → t'.used c = true

theorem CursorKept.setNode (t : SharedHashTable α) (c : Nat) (n : α) : CursorKept t (t.setNode c n) :=
  ⟨rfl, rfl, fun _ _ h => h⟩

/-- A table of counters between two steps. -/
structure CountersOk (cmp : α → α → Int) (val : α → Int) (t : SharedHashTable α) (l : List Nat) :
    Prop where
  ready : Ready t l
  rows : RowsOk t
  cmp_eq : t.funCmp = cmp
  pos : ∀ c ∈ l, 0 < val (t.node c)

namespace CountersOk

variable {cmp : α → α → Int} {val : α → Int} {t t' : SharedHashTable α}
  {l l' : List Nat} {c : Nat} {env : LockEnv} {n : α}

theorem pos_nodes (h : CountersOk cmp val t l) : ∀ n ∈ l.map t.node, 0 < val n := by
  intro n hn
  obtain ⟨c, hc, rfl⟩ := List.mem_map.mp hn
  exact h.pos c hc

theorem keyedSum_usedNodes (h : CountersOk cmp val t l) (key : α → κ) (k : κ) :
    keyedSum key val k t.usedNodes = keyedSum key val k (l.map t.node) := by
  apply keyedSum_perm
  apply List.Perm.map
  apply (List.perm_ext_iff_of_nodup (List.nodup_range.filter _) h.ready.linked.nodup).mpr
  intro c
  rw [h.ready.linked.mem, List.mem_filter, List.mem_range]

theorem sum_nonneg (h : CountersOk cmp val t l) (key : α → κ) (k : κ) :
    0 ≤ keyedSum key val k t.usedNodes := by
  rw [h.keyedSum_usedNodes key]
  exact keyedSum_nonneg h.pos_nodes k

theorem setUsedNode (h : CountersOk cmp val t l) (key : α → κ) (hc : c ∈ l) (hn : 0 < val n) :
    CountersOk cmp val (t.setNode c n) l ∧ ∀ k, keyedSum key val k (t.setNode c n).usedNodes =
      keyedSum key val k t.usedNodes - keyedWorth key val k (t.node c) +
        keyedWorth key val k n := by
  have hok : CountersOk cmp val (t.setNode c n) l := by
    refine ⟨h.ready.setNode c n, ⟨h.rows.pos, h.rows.sum⟩, h.cmp_eq, ?_⟩
    intro d hd
    by_cases hdc : d = c
    · subst hdc
      simpa using hn
    · simpa [hdc] using h.pos d hd
  refine ⟨hok, ?_⟩
  intro k
  rw [hok.keyedSum_usedNodes key, h.keyedSum_usedNodes key]
  exact keyedSum_map_update h.ready.linked.nodup hc n k

theorem setFreeNode (h : CountersOk cmp val t l) (hc : c ∉ l) (n : α) :
    CountersOk cmp val (t.setNode c n) l ∧ l.map (t.setNode c n).node = l.map t.node := by
  refine ⟨⟨h.ready.setNode c n, ⟨h.rows.pos, h.rows.sum⟩, h.cmp_eq, ?_⟩, map_update_outside hc n⟩
  intro d hd
  have hdc : d ≠ c := by
    rintro rfl
    exact hc hd
  simpa [hdc] using h.pos d hd

theorem usedNodes_setFreeNode (hc : t.used c = false) (n : α) :
    (t.setNode c n).usedNodes = t.usedNodes := by
  apply map_update_outside
  intro hmem
  simp [hc] at hmem

theorem of_edit (h : CountersOk cmp val t l) (he : LinkEdit t t') (hr : Ready t' l')
    (hpos : ∀ c ∈ l', 0 < val (t.node c)) : CountersOk cmp val t' l' := by
  refine ⟨hr, ⟨?_, ?_⟩, ?_, ?_⟩
  · rw [he]
    exact h.rows.pos
  · rw [he]
    exact h.rows.sum
  · rw [he]
    exact h.cmp_eq
  · rw [he.node]
    exact hpos

theorem report (h : CountersOk cmp val t l) (attr : Nat) :
    CountersOk cmp val (t.report attr) l :=
  ⟨⟨⟨h.ready.linked.fwd, h.ready.linked.bwd, h.ready.linked.nodup, h.ready.linked.mem,
    h.ready.linked.count⟩, h.ready.init, h.ready.free, h.ready.noWriter, h.ready.word⟩,
    ⟨h.rows.pos, h.rows.sum⟩, h.cmp_eq, h.pos⟩

theorem insert [Inhabited α] (h : CountersOk cmp val t l) (key : α → κ)
    (hlt : c < t.dwRealNodeCount) (hc : t.used c = false) (henv : lockLoop env false = true) (hn : 0 < val n) :
    ∃ t', insertHashNode env (t.setNode c n) c = (0, t') ∧ CountersOk cmp val t' (l ++ [c]) ∧
      (∀ k, keyedSum key val k t'.usedNodes =
        keyedSum key val k t.usedNodes + keyedWorth key val k n) ∧
      CursorKept t t' := by
  obtain ⟨hfill, hkeep⟩ := h.setFreeNode (h.ready.not_mem hc) n
  obtain ⟨t', ht', hr, he⟩ := insertHashNode_ready hfill.ready hlt hc henv
  have hcur := dwCurIndex_insertHashNode (i := c) hfill.ready henv
  rw [ht'] at hcur
  have hok : CountersOk cmp val t' (l ++ [c]) := by
    apply hfill.of_edit he hr
    intro d hd
    rcases List.mem_append.mp hd with hd | hd
    · exact hfill.pos d hd
    · obtain rfl : d = c := by simpa using hd
      simpa using hn
  refine ⟨t', ht', hok, ?_, hcur, he.dwRealNodeCount, ?_⟩
  · intro k
    rw [hok.keyedSum_usedNodes key, h.keyedSum_usedNodes key, he.node, List.map_append, hkeep,
      keyedSum_append]
    simp
  · intro d hd hdused
    have hmem := (h.ready.linked.mem d).mpr ⟨hd, hdused⟩
    exact hok.ready.linked.used (List.mem_append_left [c] hmem)

theorem drainNode [Inhabited α] (h : CountersOk cmp val t l) (key : α → κ) (hc : c ∈ l)
    (hcur : t.dwCurIndex = c) (henv : lockLoop env false = true) :
    ∃ pNode t' l', SharedHash.drainNode env t c false = (pNode, t') ∧ CountersOk cmp val t' l' ∧
      (∀ k, keyedSum key val k t'.usedNodes + keyedWorth key val k (t.node c) =
        keyedSum key val k t.usedNodes) ∧
      ∀ d, pNode = some d → t'.dwCurIndex = d ∧ d ∈ l' := by
  obtain ⟨l₁, l₂, rfl⟩ := List.append_of_mem hc
  have hout := (List.nodup_middle.mp h.ready.linked.nodup).notMem
  obtain ⟨t₁, ht₁, hr, he, hnext⟩ := removeHashNode_cursor h.ready henv hcur
  have hok₁ : CountersOk cmp val t₁ (l₁ ++ l₂) := by
    apply h.of_edit he hr
    intro d hd
    apply h.pos
    rcases List.mem_append.mp hd with hd | hd
    · simp [hd]
    · simp [hd]
  obtain ⟨hok₂, hkeep⟩ := hok₁.setFreeNode hout default
  obtain ⟨pNode, hget, hnode⟩ := getCurNode_linked hok₂.ready.linked hnext
  refine ⟨pNode, _, l₁ ++ l₂, ?_, hok₂, ?_, hnode⟩
  · simp only [SharedHash.drainNode, ht₁, Bool.false_eq_true, if_false, hget]
  · intro k
    rw [hok₂.keyedSum_usedNodes key, h.keyedSum_usedNodes key, hkeep, he.node]
    simp only [List.map_append, List.map_cons, keyedSum_append, keyedSum_cons]
    omega

theorem drainFirst [Inhabited α] (h : CountersOk cmp val t l) :
    SharedHash.drainFirst t = (false, l.head?, { t with dwCurIndex := t.head.dwNodeStartIndex }) ∧
      CountersOk cmp val { t with dwCurIndex := t.head.dwNodeStartIndex } l ∧
      ∀ c, l.head? = some c → t.head.dwNodeStartIndex = c ∧ c ∈ l := by
  obtain ⟨hfirst, hstart⟩ := getFirstNode_linked h.ready.linked
  have hcond : (l.head?.isNone && decide (0 < t.head.dwNodeUseCount)) = false := by
    cases l with
    | nil => simp [h.ready.linked.count]
    | cons c l => rfl
  refine ⟨?_, ⟨?_, ⟨h.rows.pos, h.rows.sum⟩, h.cmp_eq, h.pos⟩, ?_⟩
  · simp only [SharedHash.drainFirst, hfirst, hcond, Bool.false_eq_true, if_false]
  · exact ⟨h.ready.linked.setCursors _ t.dwCurIndexRevers, h.ready.init, h.ready.free,
      h.ready.noWriter, h.ready.word⟩
  · intro c hc
    exact ⟨hstart c hc, List.mem_of_mem_head? hc⟩

theorem drainEnd [Inhabited α] (h : CountersOk cmp val t l) :
    CountersOk cmp val (drainEnd false t) l ∧
      (SharedHash.drainEnd false t).usedNodes = t.usedNodes := by
  simp only [SharedHash.drainEnd, Bool.false_and, Bool.false_eq_true, if_false]
  split
  · exact ⟨⟨⟨⟨h.ready.linked.fwd, h.ready.linked.bwd, h.ready.linked.nodup, h.ready.linked.mem,
      h.ready.linked.count⟩, h.ready.init, h.ready.free, h.ready.noWriter, h.ready.word⟩,
      ⟨h.rows.pos, h.rows.sum⟩, h.cmp_eq, h.pos⟩, rfl⟩
  · exact ⟨h, rfl⟩

end CountersOk

end XrkMonitor.SharedHash
