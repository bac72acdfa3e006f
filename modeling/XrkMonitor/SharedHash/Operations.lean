import XrkMonitor.Library.Run
import XrkMonitor.SharedHash.ListInvariant

/-!
# The list operations of a shared hash table over whole runs

Each operation on a table between two operations either finds the flag held
for ten tries and returns `-33`, or edits the threaded list at one place and
returns `0`. The run theorem follows by induction, for every mix of the three
operations.
-/

namespace XrkMonitor.SharedHash

open Library SharedHashTable

variable {α : Type*} {t t' : SharedHashTable α} {l : List Nat} {i : Nat} {env : LockEnv}
  {l₁ l₂ : List Nat}

/-- A table between two operations: its list is linked, its flag is free, and
it is open to every process. -/
structure Ready (t : SharedHashTable α) (l : List Nat) : Prop where
  linked : Linked t l
  init : t.bInitSuccess = true
  free : t.head.bHashUseFlag = false
  noWriter : t.head.dwWriteProcessId = 0
  word : t.dwRealNodeCount < 2 ^ 32

/-- `t'` is `t` after an edit of the list: the links, the head and the cursors
may differ, the node data and the rest of the table do not. -/
def LinkEdit (t t' : SharedHashTable α) : Prop :=
  t' = { t with
    head := { t'.head with dwWriteProcessId := t.head.dwWriteProcessId }
    nodeHead := t'.nodeHead
    dwCurIndex := t'.dwCurIndex
    dwCurIndexRevers := t'.dwCurIndexRevers }

namespace LinkEdit

variable {v : Nat} {b : Bool} {h : HashTableHead}

theorem refl (t : SharedHashTable α) : LinkEdit t t := rfl

theorem trans {t'' : SharedHashTable α} (e : LinkEdit t t') (e' : LinkEdit t' t'') :
    LinkEdit t t'' := by
  calc
    t'' = { t' with
          head := { t''.head with dwWriteProcessId := t'.head.dwWriteProcessId }
          nodeHead := t''.nodeHead
          dwCurIndex := t''.dwCurIndex
          dwCurIndexRevers := t''.dwCurIndexRevers } := e'
    _ = _ := by rw [e]

theorem setNext (e : LinkEdit t t') : LinkEdit t (t'.setNext i v) := e.trans rfl

theorem setPre (e : LinkEdit t t') : LinkEdit t (t'.setPre i v) := e.trans rfl

theorem setUsed (e : LinkEdit t t') : LinkEdit t (t'.setUsed i b) := e.trans rfl

theorem setUseCount (e : LinkEdit t t') : LinkEdit t (t'.setUseCount v) := e.trans rfl

theorem setStart (e : LinkEdit t t') : LinkEdit t (t'.setStart v) := e.trans rfl

theorem setEnd (e : LinkEdit t t') : LinkEdit t (t'.setEnd v) := e.trans rfl

theorem unlock (e : LinkEdit t t') : LinkEdit t t'.unlock := e.trans rfl

theorem node (e : LinkEdit t t') : t'.node = t.node := by rw [e]

theorem funCmp (e : LinkEdit t t') : t'.funCmp = t.funCmp := by rw [e]

theorem dwRealNodeCount (e : LinkEdit t t') : t'.dwRealNodeCount = t.dwRealNodeCount := by rw [e]

theorem bInitSuccess (e : LinkEdit t t') : t'.bInitSuccess = t.bInitSuccess := by rw [e]

theorem dwWriteProcessId (e : LinkEdit t t') :
    t'.head.dwWriteProcessId = t.head.dwWriteProcessId := by rw [e]

end LinkEdit

/-- The head while an operation holds the flag. -/
def locked (h : HashTableHead) (now : Nat) : HashTableHead :=
  { h with bHashUseFlag := true, dwLastUseTimeSec := now }

theorem enterWrite_of_lock [Inhabited α] (h : Ready t l) (henv : lockLoop env false = true) :
    enterWrite env t = (true, t.setHead (locked t.head env.now)) := by
  simp [enterWrite, h.noWriter, h.free, henv, locked]

theorem enterWrite_of_busy [Inhabited α] (h : Ready t l) (henv : lockLoop env false = false) :
    enterWrite env t = (false, t.report 237) := by
  have hsame : t.setHead { t.head with bHashUseFlag := false } = t := by
    rw [← h.free]
    rfl
  unfold enterWrite
  rw [if_neg (by simp [h.noWriter]), h.free, henv]
  simp only [Bool.false_eq_true, if_false, hsame, ite_self]

theorem Ready.setHead_locked (h : Ready t l) (now : Nat) :
    Linked (t.setHead (locked t.head now)) l :=
  h.linked.of_head _ rfl rfl rfl

theorem LinkEdit.setHead_locked (t : SharedHashTable α) (now : Nat) :
    LinkEdit t (t.setHead (locked t.head now)) := rfl

theorem Ready.unlock_edit {l' : List Nat} (h : Ready t l) (e : LinkEdit t t')
    (hlink : Linked t' l') : Ready t'.unlock l' where
  linked := hlink.of_head _ rfl rfl rfl
  init := e.bInitSuccess.trans h.init
  free := rfl
  noWriter := e.dwWriteProcessId.trans h.noWriter
  word := e.dwRealNodeCount.symm ▸ h.word

theorem Ready.report (h : Ready t l) (attr : Nat) : Ready (t.report attr) l where
  linked := ⟨h.linked.fwd, h.linked.bwd, h.linked.nodup, h.linked.mem, h.linked.count⟩
  init := h.init
  free := h.free
  noWriter := h.noWriter
  word := h.word

theorem Ready.setNode (h : Ready t l) (i : Nat) (a : α) : Ready (t.setNode i a) l where
  linked := ⟨h.linked.fwd, h.linked.bwd, h.linked.nodup, h.linked.mem, h.linked.count⟩
  init := h.init
  free := h.free
  noWriter := h.noWriter
  word := h.word

theorem Ready.not_mem (h : Ready t l) (hn : t.used i = false) : i ∉ l := by
  intro hi
  have := h.linked.used hi
  rw [hn] at this
  cases this

theorem Ready.wordInc_count (h : Ready t l) (hi : i < t.dwRealNodeCount)
    (hn : t.used i = false) :
    wordInc 32 t.head.dwNodeUseCount = t.head.dwNodeUseCount + 1 := by
  have hlt := h.linked.length_lt hi (h.not_mem hn)
  have hword := h.word
  apply wordInc_of_lt
  rw [h.linked.count]
  omega

theorem linkLast_linked (h : Linked t l) (hi : i < t.dwRealNodeCount) (hn : i ∉ l)
    (hc : wordInc 32 t.head.dwNodeUseCount = t.head.dwNodeUseCount + 1) :
    Linked ((linkLast t i).setUsed i true) (l ++ [i]) := by
  rcases List.eq_nil_or_concat l with rfl | ⟨l₁, p, rfl⟩
  · have hz : t.head.dwNodeUseCount = 0 := h.count
    have := link_first h hi
    simpa [linkLast, hz, setUseCount, setEnd, setStart] using this
  · rw [List.concat_eq_append] at h hn ⊢
    have hpos : 0 < t.head.dwNodeUseCount := by
      rw [h.count]
      simp
    have hend : t.head.dwNodeEndIndex = p := (h.bwd_split l₁ []).1
    have := link_last h hi hn hc
    simpa [linkLast, hpos, hend, setUseCount, setEnd] using this

theorem LinkEdit.linkLast (e : LinkEdit t t') : LinkEdit t (linkLast t' i) := by
  unfold SharedHash.linkLast
  split
  · exact e.setUseCount.setNext.setPre.setNext.setEnd
  · exact e.setUseCount.setPre.setNext.setEnd.setStart

theorem insertHashNode_ready [Inhabited α] (h : Ready t l) (hi : i < t.dwRealNodeCount)
    (hn : t.used i = false) (henv : lockLoop env false = true) :
    ∃ t', insertHashNode env t i = (0, t') ∧ Ready t' (l ++ [i]) ∧ LinkEdit t t' := by
  have hlink := linkLast_linked (h.setHead_locked env.now) hi (h.not_mem hn)
    (h.wordInc_count hi hn)
  have hedit : LinkEdit t ((linkLast (t.setHead (locked t.head env.now)) i).setUsed i true) :=
    (LinkEdit.setHead_locked t env.now).linkLast.setUsed
  refine ⟨_, ?_, h.unlock_edit hedit hlink, hedit.unlock⟩
  simp [insertHashNode, h.init, enterWrite_of_lock h henv]

theorem insertHashNode_busy [Inhabited α] (h : Ready t l) (henv : lockLoop env false = false) :
    insertHashNode env t i = (-33, t.report 237) := by
  simp [insertHashNode, h.init, enterWrite_of_busy h henv]

/-- The comparison that makes the scan of `InsertHashNodeSort` step back. -/
def After (t : SharedHashTable α) (i x : Nat) : Prop := t.funCmp (t.node x) (t.node i) > 0

theorem sortScan_spec (fuel a : Nat) (r : List Nat) (hp : Path t.pre a r t.dwRealNodeCount)
    (hr : ∀ x ∈ r, x ≠ t.dwRealNodeCount) (hne : r ≠ []) (hf : r.length ≤ fuel) :
    (∃ l₂ p l₁, r = l₂ ++ p :: l₁ ∧ (∀ x ∈ l₂, After t i x) ∧ ¬ After t i p ∧
        sortScan t i fuel a = some (p, true)) ∨
      (∃ l₂ p, r = l₂ ++ [p] ∧ (∀ x ∈ r, After t i x) ∧
        sortScan t i fuel a = some (p, false)) := by
  induction r generalizing a fuel with
  | nil => exact absurd rfl hne
  | cons x xs ih =>
    obtain ⟨rfl, hp⟩ := hp
    obtain ⟨fuel, rfl⟩ : ∃ k, fuel = k + 1 := ⟨fuel - 1, by simp at hf; omega⟩
    by_cases hx : After t i a
    · have hx' : t.funCmp (t.node a) (t.node i) > 0 := hx
      cases xs with
      | nil =>
        have hpre : t.pre a = t.dwRealNodeCount := hp
        refine Or.inr ⟨[], a, rfl, by simpa using hx, ?_⟩
        simp [sortScan, hx', hpre]
      | cons y ys =>
        have hpre : t.pre a ≠ t.dwRealNodeCount := by
          rw [hp.1]
          exact hr y (by simp)
        have hscan : sortScan t i (fuel + 1) a = sortScan t i fuel (t.pre a) := by
          simp [sortScan, hx', hpre]
        rw [hscan]
        rcases ih fuel (t.pre a) hp (fun z hz => hr z (by simp [hz])) (by simp)
          (by simp at hf ⊢; omega) with ⟨l₂, p, l₁, hl, hall, hnot, hs⟩ | ⟨l₂, p, hl, hall, hs⟩
        · refine Or.inl ⟨a :: l₂, p, l₁, by simp [hl], ?_, hnot, hs⟩
          intro z hz
          rcases List.mem_cons.mp hz with rfl | hz
          · exact hx
          · exact hall z hz
        · refine Or.inr ⟨a :: l₂, p, by simp [hl], ?_, hs⟩
          intro z hz
          rcases List.mem_cons.mp hz with rfl | hz
          · exact hx
          · exact hall z hz
    · have hx' : ¬ t.funCmp (t.node a) (t.node i) > 0 := hx
      refine Or.inl ⟨[], a, xs, rfl, by simp, hx, ?_⟩
      simp [sortScan, hx']

theorem sortScan_setHead (d : HashTableHead) (fuel a : Nat) :
    sortScan (t.setHead d) i fuel a = sortScan t i fuel a := by
  induction fuel generalizing a with
  | zero => rfl
  | succ fuel ih => simp [sortScan, ih]

theorem Linked.sortScan (h : Linked t l) (hne : l ≠ []) :
    (∃ l₁ p l₂, l = l₁ ++ p :: l₂ ∧ (∀ x ∈ l₂, After t i x) ∧ ¬ After t i p ∧
        sortScan t i (t.dwRealNodeCount + 1) t.head.dwNodeEndIndex = some (p, true)) ∨
      (∃ p l₂, l = p :: l₂ ∧ (∀ x ∈ l, After t i x) ∧
        sortScan t i (t.dwRealNodeCount + 1) t.head.dwNodeEndIndex = some (p, false)) := by
  have hlen := h.length_le
  rcases sortScan_spec (t := t) (i := i) (t.dwRealNodeCount + 1) t.head.dwNodeEndIndex l.reverse
    h.bwd (fun x hx => h.ne_real (List.mem_reverse.mp hx)) (by simpa using hne)
    (by simp; omega) with ⟨l₂, p, l₁, hl, hall, hnot, hs⟩ | ⟨l₂, p, hl, hall, hs⟩
  · refine Or.inl ⟨l₁.reverse, p, l₂.reverse, ?_, ?_, hnot, hs⟩
    · rw [← List.reverse_reverse l, hl]
      simp
    · intro x hx
      exact hall x (List.mem_reverse.mp hx)
  · refine Or.inr ⟨p, l₂.reverse, ?_, ?_, hs⟩
    · rw [← List.reverse_reverse l, hl]
      simp
    · intro x hx
      exact hall x (List.mem_reverse.mpr hx)

theorem linkSorted_after [Inhabited α] {p c : Nat}
    (h : Linked t (l₁ ++ p :: l₂)) (hi : i < t.dwRealNodeCount) (hn : i ∉ l₁ ++ p :: l₂)
    (hc : c = t.head.dwNodeUseCount + 1) :
    ∃ t', linkSorted (t.setUseCount c) i p true = (0, t') ∧
      Linked (t'.setUsed i true) (l₁ ++ p :: i :: l₂) ∧ LinkEdit t t' := by
  have hip : i ≠ p := by
    rintro rfl
    exact hn (by simp)
  cases l₂ with
  | nil =>
    have hnext : t.next p = t.dwRealNodeCount := next_of_last h
    have hend : t.head.dwNodeEndIndex = p := (h.bwd_split l₁ []).1
    refine ⟨((((t.setUseCount c).setNext p i).setNext i t.dwRealNodeCount).setPre i
      p).setEnd i, ?_, ?_, ?_⟩
    · simp [linkSorted, setUseCount, hnext, hend]
    · have hlink := link_last h hi hn hc
      rw [setPre_setNext]
      simpa using hlink
    · exact (LinkEdit.refl t).setUseCount.setNext.setNext.setPre.setEnd
  | cons q l₂ =>
    have hnext : t.next p = q := next_of_cons h
    have hq : q ≠ t.dwRealNodeCount := h.ne_real (by simp)
    have hlink := link_between h hi hn hc
    refine ⟨_, ?_, hlink, ?_⟩
    · simp [linkSorted, setUseCount, hnext, hq, hip.symm]
    · exact (LinkEdit.refl t).setUseCount.setNext.setPre.setPre.setNext

theorem linkSorted_first [Inhabited α] {l₂ : List Nat} {p c : Nat}
    (h : Linked t (p :: l₂)) (hi : i < t.dwRealNodeCount) (hn : i ∉ p :: l₂)
    (hc : c = t.head.dwNodeUseCount + 1) :
    ∃ t', linkSorted (t.setUseCount c) i p false = (0, t') ∧
      Linked (t'.setUsed i true) (i :: p :: l₂) ∧ LinkEdit t t' := by
  have hstart : t.head.dwNodeStartIndex = p := h.fwd.1
  refine ⟨_, ?_, link_front h hi hn hc, ?_⟩
  · simp [linkSorted, setUseCount, hstart]
  · exact (LinkEdit.refl t).setUseCount.setPre.setPre.setNext.setStart

theorem insertHashNodeSort_eq [Inhabited α] (h : Ready t l) (henv : lockLoop env false = true)
    (hpos : 0 < t.head.dwNodeUseCount) :
    insertHashNodeSort env t i =
      (sortScan (t.setHead (locked t.head env.now)) i (t.dwRealNodeCount + 1)
        t.head.dwNodeEndIndex).map fun stop =>
          let r := linkSorted ((t.setHead (locked t.head env.now)).setUseCount
            (wordInc 32 t.head.dwNodeUseCount)) i stop.1 stop.2
          if r.1 = 0 then (0, (r.2.setUsed i true).unlock) else r := by
  have hpos' : 0 < (t.setHead (locked t.head env.now)).head.dwNodeUseCount := hpos
  unfold insertHashNodeSort
  rw [enterWrite_of_lock h henv, h.init]
  simp only [Bool.not_true, Bool.false_eq_true, if_false, if_pos hpos']
  congr 1
  exact sortScan_setHead _ _ _

/-- `InsertHashNodeSort` on an unused cell ends, and puts the cell behind the
last node of the list that may stand before it. -/
theorem insertHashNodeSort_ready [Inhabited α] (h : Ready t l) (hi : i < t.dwRealNodeCount)
    (hn : t.used i = false) (henv : lockLoop env false = true) :
    ∃ t' l₁ l₂, insertHashNodeSort env t i = some (0, t') ∧ l = l₁ ++ l₂ ∧
      Ready t' (l₁ ++ i :: l₂) ∧ LinkEdit t t' ∧
      (∀ x ∈ l₂, After t i x) ∧ ∀ p ∈ l₁.getLast?, ¬ After t i p := by
  have hlock := h.setHead_locked env.now
  have hout := h.not_mem hn
  have hedit := LinkEdit.setHead_locked t env.now
  have hc := h.wordInc_count hi hn
  by_cases hne : l = []
  · subst hne
    have hz : t.head.dwNodeUseCount = 0 := h.linked.count
    have hlink := link_first hlock hi
    refine ⟨_, [], [], ?_, rfl, h.unlock_edit ?_ hlink, ?_, by simp, by simp⟩
    · simp [insertHashNodeSort, h.init, enterWrite_of_lock h henv, hz, locked, setUseCount, setEnd,
        setStart]
    · exact hedit.setUseCount.setPre.setNext.setEnd.setStart.setUsed
    · exact hedit.setUseCount.setPre.setNext.setEnd.setStart.setUsed.unlock
  · have hpos : 0 < t.head.dwNodeUseCount := by
      rw [h.linked.count]
      exact List.length_pos_of_ne_nil hne
    have hscan : ∀ p found,
        sortScan (t.setHead (locked t.head env.now)) i (t.dwRealNodeCount + 1)
          t.head.dwNodeEndIndex = some (p, found) → ∀ t',
        linkSorted ((t.setHead (locked t.head env.now)).setUseCount
          (wordInc 32 t.head.dwNodeUseCount)) i p found = (0, t') →
        insertHashNodeSort env t i = some (0, (t'.setUsed i true).unlock) := by
      intro p found hs t' hl
      rw [insertHashNodeSort_eq h henv hpos, hs, Option.map_some, hl]
      rfl
    rcases hlock.sortScan (i := i) hne with ⟨l₁, p, l₂, rfl, hall, hnot, hs⟩ | ⟨p, l₂, rfl, hall, hs⟩
    · obtain ⟨t', hl, hlink, he⟩ := linkSorted_after hlock hi hout hc
      refine ⟨_, l₁ ++ [p], l₂, hscan p true hs t' hl, by simp, ?_,
        ((hedit.trans he).setUsed).unlock, hall, ?_⟩
      · have := h.unlock_edit ((hedit.trans he).setUsed) hlink
        simpa using this
      · intro q hq
        obtain rfl : p = q := by simpa using hq
        exact hnot
    · obtain ⟨t', hl, hlink, he⟩ := linkSorted_first hlock hi hout hc
      exact ⟨_, [], p :: l₂, hscan p false hs t' hl, rfl,
        h.unlock_edit ((hedit.trans he).setUsed) hlink, ((hedit.trans he).setUsed).unlock, hall,
        by simp⟩

theorem insertHashNodeSort_busy [Inhabited α] (h : Ready t l)
    (henv : lockLoop env false = false) :
    insertHashNodeSort env t i = some (-33, t.report 237) := by
  simp [insertHashNodeSort, h.init, enterWrite_of_busy h henv]

/-- Both cursors of the process, moved off cell `i`. -/
def stepCursors (t : SharedHashTable α) (i : Nat) : SharedHashTable α :=
  { t with
    dwCurIndex := if t.dwCurIndex = i then t.next i else t.dwCurIndex
    dwCurIndexRevers := if t.dwCurIndexRevers = i then t.pre i else t.dwCurIndexRevers }

theorem LinkEdit.stepCursors (e : LinkEdit t t') : LinkEdit t (stepCursors t' i) := e.trans rfl

theorem Linked.used_next (h : Linked t (l₁ ++ i :: l₂))
    (hne : t.next i ≠ t.dwRealNodeCount) : t.used (t.next i) = true := by
  cases l₂ with
  | nil => exact absurd (next_of_last h) hne
  | cons q l₂ =>
    rw [next_of_cons h]
    exact h.used (by simp)

theorem Linked.used_pre (h : Linked t (l₁ ++ i :: l₂))
    (hne : t.pre i ≠ t.dwRealNodeCount) : t.used (t.pre i) = true := by
  rcases List.eq_nil_or_concat l₁ with rfl | ⟨l₁, p, rfl⟩
  · exact absurd (pre_of_first h) hne
  · rw [List.concat_eq_append, List.append_assoc] at h
    rw [pre_of_concat h]
    exact h.used (by simp)

theorem getNextNode_linked [Inhabited α] (h : Linked t (l₁ ++ i :: l₂))
    (hcur : t.dwCurIndex = i) : getNextNode t = { t with dwCurIndex := t.next i } := by
  have hr : i ≠ t.dwRealNodeCount := h.ne_real (by simp)
  have hi : t.used i = true := h.used (by simp)
  unfold getNextNode
  rw [hcur, if_neg hr]
  by_cases hne : t.next i = t.dwRealNodeCount
  · exact if_pos hne
  · have hn : t.used (t.next i) = true := h.used_next hne
    refine (if_neg hne).trans (if_neg ?_)
    change ¬ (t.bAccessCheck && (!t.used i || !t.used (t.next i))) = true
    simp [hi, hn]

theorem getNextNodeRevers_linked [Inhabited α]
    (h : Linked t (l₁ ++ i :: l₂)) (hcur : t.dwCurIndexRevers = i) :
    getNextNodeRevers t = { t with dwCurIndexRevers := t.pre i } := by
  have hr : i ≠ t.dwRealNodeCount := h.ne_real (by simp)
  have hi : t.used i = true := h.used (by simp)
  unfold getNextNodeRevers
  rw [hcur, if_neg hr]
  by_cases hne : t.pre i = t.dwRealNodeCount
  · exact if_pos hne
  · have hn : t.used (t.pre i) = true := h.used_pre hne
    refine (if_neg hne).trans (if_neg ?_)
    change ¬ (t.bAccessCheck && (!t.used i || !t.used (t.pre i))) = true
    simp [hi, hn]

theorem Linked.setCursors (h : Linked t l) (cur rev : Nat) :
    Linked { t with dwCurIndex := cur, dwCurIndexRevers := rev } l :=
  ⟨h.fwd, h.bwd, h.nodup, h.mem, h.count⟩

theorem moveCursors_linked [Inhabited α] (h : Linked t (l₁ ++ i :: l₂)) :
    moveCursors t i = stepCursors t i := by
  have hrev : ∀ cur, (if t.dwCurIndexRevers = i
      then getNextNodeRevers { t with dwCurIndex := cur } else { t with dwCurIndex := cur }) =
      { t with
        dwCurIndex := cur
        dwCurIndexRevers := if t.dwCurIndexRevers = i then t.pre i else t.dwCurIndexRevers } := by
    intro cur
    split_ifs with hc
    · exact getNextNodeRevers_linked (h.setCursors cur t.dwCurIndexRevers) hc
    · rfl
  unfold moveCursors
  by_cases hc : t.dwCurIndex = i
  · rw [if_pos hc, getNextNode_linked h hc]
    simpa [stepCursors, hc] using hrev (t.next i)
  · rw [if_neg hc]
    simpa [stepCursors, hc] using hrev t.dwCurIndex

/-- The branches of `RemoveHashNode` take the cell out of the list. -/
theorem unlinkNode_linked [Inhabited α] (h : Linked t (l₁ ++ i :: l₂))
    (hc : wordDec 32 t.head.dwNodeUseCount = t.head.dwNodeUseCount - 1) :
    ∃ t', unlinkNode t i = (0, t') ∧ Linked (clearNode t' i) (l₁ ++ l₂) ∧ LinkEdit t t' ∧
      t'.dwCurIndex = t.dwCurIndex := by
  have hcount := h.count
  unfold unlinkNode
  rw [hc]
  rcases List.eq_nil_or_concat l₁ with rfl | ⟨l₁, p, rfl⟩
  · cases l₂ with
    | nil =>
      refine ⟨_, ?_, unlink_only h rfl, ?_, rfl⟩
      · simp [setUseCount, hcount]
      · exact (LinkEdit.refl t).setUseCount.setStart.setEnd
    | cons q l₂ =>
      have hz : ¬ t.head.dwNodeUseCount - 1 ≤ 0 := by
        simp [hcount]
      have hnext : t.next i = q := next_of_cons h
      have hpre : t.pre i = t.dwRealNodeCount := pre_of_first h
      have hq : q ≠ t.dwRealNodeCount := h.ne_real (by simp)
      have hu : t.used q = true := h.used (by simp)
      refine ⟨_, ?_, unlink_front h rfl, ?_, rfl⟩
      · simp [setUseCount, hz, hnext, hpre, hq, hu]
      · exact (LinkEdit.refl t).setUseCount.setPre.setStart
  · rw [List.concat_eq_append, List.append_assoc] at h ⊢
    have hz : ¬ t.head.dwNodeUseCount - 1 ≤ 0 := by
      simp [hcount]
    have hpre : t.pre i = p := pre_of_concat h
    have hp : p ≠ t.dwRealNodeCount := h.ne_real (by simp)
    have hup : t.used p = true := h.used (by simp)
    cases l₂ with
    | nil =>
      have hi : Linked t ((l₁ ++ [p]) ++ [i]) := by simpa using h
      have hnext : t.next i = t.dwRealNodeCount := next_of_last hi
      refine ⟨_, ?_, unlink_last h rfl, ?_, rfl⟩
      · simp [setUseCount, hz, hnext, hpre, hup]
      · exact (LinkEdit.refl t).setUseCount.setNext.setEnd
    | cons q l₂ =>
      have hi : Linked t ((l₁ ++ [p]) ++ i :: q :: l₂) := by simpa using h
      have hnext : t.next i = q := next_of_cons hi
      have hq : q ≠ t.dwRealNodeCount := h.ne_real (by simp)
      have huq : t.used q = true := h.used (by simp)
      refine ⟨_, ?_, unlink_between h rfl, ?_, rfl⟩
      · simp [setUseCount, hz, hnext, hpre, hp, hq, hup, huq]
      · exact (LinkEdit.refl t).setUseCount.setNext.setPre

theorem removeHashNode_ready [Inhabited α] (h : Ready t (l₁ ++ i :: l₂))
    (henv : lockLoop env false = true) :
    ∃ t', removeHashNode env t i = (0, t') ∧ Ready t' (l₁ ++ l₂) ∧ LinkEdit t t' ∧
      t'.dwCurIndex = if t.dwCurIndex = i then t.next i else t.dwCurIndex := by
  have hlock := h.setHead_locked env.now
  have hmove : Linked (stepCursors (t.setHead (locked t.head env.now)) i) (l₁ ++ i :: l₂) :=
    hlock.setCursors _ _
  have hc : wordDec 32 t.head.dwNodeUseCount = t.head.dwNodeUseCount - 1 := by
    have hlen := h.linked.length_le
    have hword := h.word
    have hcount := h.linked.count
    simp only [List.length_append, List.length_cons] at hlen hcount
    exact wordDec_of_pos (by omega) (by omega)
  obtain ⟨t', ht', hlink, he, hcur⟩ := unlinkNode_linked hmove hc
  have hedit : LinkEdit t t' := (LinkEdit.setHead_locked t env.now).stepCursors.trans he
  refine ⟨_, ?_, h.unlock_edit hedit.setUsed.setNext.setPre hlink,
    hedit.setUsed.setNext.setPre.unlock, hcur⟩
  unfold removeHashNode
  rw [enterWrite_of_lock h henv, h.init]
  simp only [Bool.not_true, Bool.false_eq_true, if_false, moveCursors_linked hlock, ht']
  rfl

theorem removeHashNode_busy [Inhabited α] (h : Ready t l) (henv : lockLoop env false = false) :
    removeHashNode env t i = (-33, t.report 237) := by
  simp [removeHashNode, h.init, enterWrite_of_busy h henv]

end XrkMonitor.SharedHash
