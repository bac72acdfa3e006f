import XrkMonitor.SharedHash.Counters
import XrkMonitor.StrAttr.ClearChain
import XrkMonitor.StrAttr.Runs

/-!
# Saving the string attributes

`WriteStrAttrToDb` goes over the table of string attributes from time to time. It saves the
pairs that were reported since they were saved, clears the chains of the day before, and
takes these pairs from the table. `RemoveHashNode` moves the cursor of the loop on when it
takes the node under it, and the loop then moves it once more, so that the pair behind one
that was taken is not looked at.

## Implementation notes

The hash table is one of `SharedHash`, with a pair in each node. The pairs that the loop
looks at and those it saves are kept in the order in which it does so; what the database
gets is left out. Whether the flag of the table is free for a removal is an input.
-/

namespace XrkMonitor.StrAttr

open Library SharedHash SharedHashTable

/-- A pair with the time at which it was saved. -/
structure SavedStrAttr extends TStrAttrReportInfo where
  dwLastSaveDbTime : Nat
deriving DecidableEq

instance : Inhabited SavedStrAttr := ⟨⟨⟨0, 0, 0, 0, 0, 0⟩, 0⟩⟩

/-- Something was reported for the pair since it was saved. -/
def needsSave (node : SavedStrAttr) : Bool := node.dwLastSaveDbTime < node.dwLastReportTime

/-- The table and the array in the course of `WriteStrAttrToDb`. -/
structure FlushPass where
  table : SharedHashTable SavedStrAttr
  pool : StrAttrNodeValShmInfo
  visited : List Nat
  saved : List Nat

/-- The table when a node that was looked at is taken from it or not. -/
def checkedTable (env : LockEnv) (cleared : Bool) (table : SharedHashTable SavedStrAttr) (c : Nat) :
    SharedHashTable SavedStrAttr :=
  if cleared then (removeHashNode env table c).2 else table

/-- What the loop of `WriteStrAttrToDb` does with one node. -/
def flushNode (env : LockEnv) (now mday : Nat) (f : FlushPass) (c : Nat) : Option FlushPass := do
  let node := f.table.node c
  let (pool, info) ← checkClearStrAttrNodeShm f.pool node.toTStrAttrReportInfo now mday
  let table := f.table.setNode c
    ⟨info, if needsSave node then now % 2 ^ 32 else node.dwLastSaveDbTime⟩
  some
    { table := checkedTable env (dayChanged node.toTStrAttrReportInfo now mday) table c
      pool := pool
      visited := f.visited ++ [c]
      saved := if needsSave node then f.saved ++ [c] else f.saved }

/-- The loop of `WriteStrAttrToDb`. -/
def flushLoop (env : Nat → LockEnv) (now mday : Nat) (bReverse : Bool) :
    Nat → FlushPass → Option Nat → Option FlushPass
  | _, f, none => some f
  | 0, _, some _ => none
  | fuel + 1, f, some c => do
      let f ← flushNode (env c) now mday f c
      let (pNode, table) := if bReverse then nextNodeRevers f.table else nextNode f.table
      flushLoop env now mday bReverse fuel
        { f with
          table := table }
        pNode

/-- `WriteStrAttrToDb`, when it is time for it; no result stands for a loop that outlives every cell
of the table. -/
def writeStrAttrToDb (env : Nat → LockEnv) (now mday : Nat) (table : SharedHashTable SavedStrAttr)
    (pool : StrAttrNodeValShmInfo) : Option FlushPass :=
  let (bReverse, pNode, t) := drainFirst table
  flushLoop env now mday bReverse (t.dwRealNodeCount + 1) ⟨t, pool, [], []⟩ pNode

/-- The chain of a pair ends. -/
def ChainEnds (pool : StrAttrNodeValShmInfo) (e : TStrAttrReportInfo) : Prop :=
  ∃ nodes, Path (nextOf pool.stInfo) e.iReportIdx nodes (-1) ∧ ∀ i ∈ nodes, validIdx i

/-- A table of pairs, the nodes on its list, and the array with their chains. -/
structure StrAttrTable where
  table : SharedHashTable SavedStrAttr
  nodes : List Nat
  pool : StrAttrNodeValShmInfo
  ready : Ready table nodes
  chains : ∀ c ∈ nodes, ChainEnds pool (table.node c).toTStrAttrReportInfo

/-- The chain of a node is to be cleared. -/
def toClear (s : StrAttrTable) (now mday : Nat) (c : Nat) : Bool :=
  dayChanged (s.table.node c).toTStrAttrReportInfo now mday

/-- Every node on the list is looked at once, those with new reports are saved, and exactly those
that are to be cleared leave the list. -/
def FlushRight (s : StrAttrTable) (env : Nat → LockEnv) (now mday : Nat) : Prop :=
  ∃ f, writeStrAttrToDb env now mday s.table s.pool = some f ∧
    f.visited.Perm s.nodes ∧
    (∀ c ∈ s.nodes, needsSave (s.table.node c) = true → c ∈ f.saved) ∧
    Ready f.table (s.nodes.filter fun c => !toClear s now mday c)

section Skips

/-- The nodes that the loop looks at, when it takes those of `taken` from the list. -/
def visits (taken : Nat → Bool) : List Nat → List Nat
  | [] => []
  | [c] => [c]
  | c :: d :: l => if taken c then c :: visits taken l else c :: visits taken (d :: l)

/-- The nodes that the loop leaves on the list. -/
def leaves (taken : Nat → Bool) : List Nat → List Nat
  | [] => []
  | [c] => if taken c then [] else [c]
  | c :: d :: l => if taken c then d :: leaves taken l else c :: leaves taken (d :: l)

variable {taken : Nat → Bool} {l : List Nat}

theorem visits_length_le (taken : Nat → Bool) (l : List Nat) :
    (visits taken l).length ≤ l.length := by
  induction l using visits.induct taken with
  | case1 => simp [visits]
  | case2 c => simp [visits]
  | case3 c d l hc ih =>
    simp only [visits, hc, if_true, List.length_cons]
    omega
  | case4 c d l hc ih =>
    simp only [visits, hc, List.length_cons] at ih ⊢
    simpa using ih

theorem visits_cons (taken : Nat → Bool) (c : Nat) (l : List Nat) :
    visits taken (c :: l) = c :: visits taken (if taken c then l.drop 1 else l) := by
  cases l with
  | nil => simp [visits]
  | cons d l =>
    rw [visits]
    split
    · rfl
    · rfl

theorem leaves_cons (taken : Nat → Bool) (c : Nat) (l : List Nat) :
    leaves taken (c :: l) =
      if taken c then l.take 1 ++ leaves taken (l.drop 1) else c :: leaves taken l := by
  cases l with
  | nil => simp [leaves]
  | cons d l => simp [leaves]

theorem mem_of_mem_visits {c : Nat} (h : c ∈ visits taken l) : c ∈ l := by
  induction l using visits.induct taken with
  | case1 => simp [visits] at h
  | case2 d => simpa [visits] using h
  | case3 d e l hd ih =>
    simp only [visits, hd, if_true, List.mem_cons] at h
    rcases h with rfl | h
    · simp
    · simp [ih h]
  | case4 d e l hd ih =>
    simp only [visits, hd, Bool.false_eq_true, if_false, List.mem_cons] at h ih
    rcases h with rfl | h
    · simp
    · exact List.mem_cons_of_mem d (List.mem_cons.mpr (ih h))

theorem visits_eq (h : ∀ c ∈ l.dropLast, taken c = false) : visits taken l = l := by
  induction l using visits.induct taken with
  | case1 => rfl
  | case2 c => rfl
  | case3 c d l hc ih => simp [h c (by simp)] at hc
  | case4 c d l hc ih =>
    have htail : ∀ e ∈ (d :: l).dropLast, taken e = false := fun e he => h e (by simp [he])
    simp [visits, hc, ih htail]

theorem not_taken_of_visits (h : (visits taken l).Perm l) : ∀ c ∈ l.dropLast, taken c = false := by
  induction l using visits.induct taken with
  | case1 => simp
  | case2 c => simp
  | case3 c d l hc ih =>
    have hlen := h.length_eq
    have hle := visits_length_le taken l
    simp only [visits, hc, if_true, List.length_cons] at hlen
    omega
  | case4 c d l hc ih =>
    simp only [visits, hc, Bool.false_eq_true, if_false] at h
    have htail := ih ((List.perm_cons c).mp h)
    intro e he
    rw [List.dropLast_cons_cons, List.mem_cons] at he
    rcases he with rfl | he
    · simpa using hc
    · exact htail e he

theorem leaves_eq (h : ∀ c ∈ l.dropLast, taken c = false) :
    leaves taken l = l.filter fun c => !taken c := by
  induction l using leaves.induct taken with
  | case1 => rfl
  | case2 c hc => simp [leaves, hc]
  | case3 c hc => simp [leaves, hc]
  | case4 c d l hc ih => simp [h c (by simp)] at hc
  | case5 c d l hc ih =>
    have htail : ∀ e ∈ (d :: l).dropLast, taken e = false := fun e he => h e (by simp [he])
    simp only [leaves, hc, Bool.false_eq_true, if_false, ih htail]
    simp [hc]

end Skips

section Clearing

variable {pool pool' : StrAttrNodeValShmInfo} {e : TStrAttrReportInfo}

theorem ChainEnds.of_nextOf (h : ChainEnds pool e) (hnext : nextOf pool'.stInfo = nextOf pool.stInfo) :
    ChainEnds pool' e := by
  rw [ChainEnds, hnext]
  exact h

theorem ChainEnds.checkClear (h : ChainEnds pool e) (now mday : Nat) :
    ∃ pool' e', checkClearStrAttrNodeShm pool e now mday = some (pool', e') ∧
      nextOf pool'.stInfo = nextOf pool.stInfo := by
  obtain ⟨nodes, hpath, hvalid⟩ := h
  have hend : (-1 : Int) ∉ nodes := fun hmem => not_validIdx_end (hvalid (-1) hmem)
  have hnodup : nodes.Nodup := hpath.nodup hend
  have hlen : nodes.length ≤ MAX_STR_ATTR_ARRY_NODE_VAL_COUNT := length_le_of_valid hnodup hvalid
  have hclear := clearNodes_path hpath hnodup hvalid (Nat.lt_succ_of_le hlen)
  unfold checkClearStrAttrNodeShm
  split
  · rw [hclear]
    refine ⟨_, _, rfl, ?_⟩
    funext i
    simp only [nextOf, clearedInfo]
    split
    · rfl
    · rfl
  · exact ⟨pool, e, rfl, rfl⟩

end Clearing

section Loop

/-- The loop stands before `l₂`, with `l₁` behind it, and `taken` tells which nodes it takes from
the list. -/
structure FlushAt (env : Nat → LockEnv) (now mday : Nat) (taken : Nat → Bool) (f : FlushPass)
    (l₁ l₂ : List Nat) : Prop where
  ready : Ready f.table (l₁ ++ l₂)
  cursor : CursorAt f.table l₂
  chains : ∀ c ∈ l₂, ChainEnds f.pool (f.table.node c).toTStrAttrReportInfo
  taken_eq : ∀ c ∈ l₂, taken c =
    (dayChanged (f.table.node c).toTStrAttrReportInfo now mday && lockLoop (env c) false)

variable {env : Nat → LockEnv} {now mday : Nat} {taken : Nat → Bool} {f : FlushPass} {c : Nat}
  {l₁ l₂ : List Nat}

theorem checkedTable_spec {t : SharedHashTable SavedStrAttr} {e : LockEnv} {cleared : Bool}
    (h : Ready t (l₁ ++ c :: l₂)) (hcur : CursorAt t (c :: l₂)) :
    (checkedTable e cleared t c).node = t.node ∧
      ((cleared && lockLoop e false) = true →
        Ready (checkedTable e cleared t c) (l₁ ++ l₂) ∧ CursorAt (checkedTable e cleared t c) l₂) ∧
      ((cleared && lockLoop e false) = false →
        Ready (checkedTable e cleared t c) (l₁ ++ c :: l₂) ∧
          CursorAt (checkedTable e cleared t c) (c :: l₂)) := by
  have hcell : t.dwCurIndex = c := hcur
  cases cleared with
  | false => exact ⟨rfl, by simp, fun _ => ⟨h, hcur⟩⟩
  | true =>
    simp only [checkedTable, if_true, Bool.true_and]
    cases hlock : lockLoop e false with
    | false =>
      rw [removeHashNode_busy h hlock]
      exact ⟨rfl, by simp, fun _ => ⟨h.report 237, hcur⟩⟩
    | true =>
      obtain ⟨t', ht', hready, hedit, hmoved⟩ := removeHashNode_ready h hlock
      rw [if_pos hcell] at hmoved
      rw [ht']
      refine ⟨hedit.node, fun _ => ⟨hready, ?_⟩, by simp⟩
      rw [CursorAt, hmoved, hedit.dwRealNodeCount]
      cases l₂ with
      | nil => exact next_of_last h.linked
      | cons d l₂ => exact next_of_cons h.linked

theorem FlushAt.moved {f' : FlushPass} {l₁' l₂' : List Nat}
    (h : FlushAt env now mday taken f l₁ (c :: l₂)) (hready : Ready f'.table (l₁' ++ l₂'))
    (hcur : CursorAt f'.table l₂') (hsub : ∀ d ∈ l₂', d ∈ l₂)
    (hnode : ∀ d ∈ l₂, f'.table.node d = f.table.node d)
    (hnext : nextOf f'.pool.stInfo = nextOf f.pool.stInfo) :
    FlushAt env now mday taken f' l₁' l₂' where
  ready := hready
  cursor := hcur
  chains := by
    intro d hd
    have hmem : d ∈ c :: l₂ := List.mem_cons_of_mem c (hsub d hd)
    rw [hnode d (hsub d hd)]
    exact (h.chains d hmem).of_nextOf hnext
  taken_eq := by
    intro d hd
    have hmem : d ∈ c :: l₂ := List.mem_cons_of_mem c (hsub d hd)
    rw [hnode d (hsub d hd)]
    exact h.taken_eq d hmem

theorem ready_setCursor {t : SharedHashTable SavedStrAttr} {l : List Nat} (h : Ready t l)
    (cur : Nat) : Ready { t with dwCurIndex := cur } l :=
  ⟨h.linked.setCursors cur t.dwCurIndexRevers, h.init, h.free, h.noWriter, h.word⟩

/-- The loop at one node: it goes on with the node behind, or with the one behind that when it has
taken the node. -/
theorem FlushAt.round (h : FlushAt env now mday taken f l₁ (c :: l₂)) :
    ∃ f' pNode table, flushNode (env c) now mday f c = some f' ∧
      nextNode f'.table = (pNode, table) ∧
      f'.visited = f.visited ++ [c] ∧
      f'.saved = (if needsSave (f.table.node c) then f.saved ++ [c] else f.saved) ∧
      (∀ d ∈ l₂, table.node d = f.table.node d) ∧
      (taken c = false → pNode = l₂.head? ∧
        FlushAt env now mday taken { f' with table := table } (l₁ ++ [c]) l₂) ∧
      (taken c = true → pNode = (l₂.drop 1).head? ∧
        FlushAt env now mday taken { f' with table := table } (l₁ ++ l₂.take 1) (l₂.drop 1)) := by
  obtain ⟨pool', info, hclear, hlinks⟩ := (h.chains c (by simp)).checkClear now mday
  have hout : c ∉ l₂ := (List.nodup_cons.mp (h.ready.linked.nodup.of_append_right)).1
  let node : SavedStrAttr := ⟨info, if needsSave (f.table.node c) then now % 2 ^ 32
    else (f.table.node c).dwLastSaveDbTime⟩
  let cleared := dayChanged (f.table.node c).toTStrAttrReportInfo now mday
  let table₁ := checkedTable (env c) cleared (f.table.setNode c node) c
  let f' : FlushPass := ⟨table₁, pool', f.visited ++ [c],
    if needsSave (f.table.node c) then f.saved ++ [c] else f.saved⟩
  have hrun : flushNode (env c) now mday f c = some f' := by
    simp only [flushNode, hclear]
    rfl
  obtain ⟨hdata, hgone, hkept⟩ := @checkedTable_spec c l₁ l₂ _ (env c) cleared
    (h.ready.setNode c node) (show CursorAt (f.table.setNode c node) (c :: l₂) from h.cursor)
  have hnode : ∀ d ∈ l₂, table₁.node d = f.table.node d := by
    intro d hd
    have hne : d ≠ c := fun heq => hout (heq ▸ hd)
    rw [hdata]
    simp [hne]
  have htaken : taken c = (cleared && lockLoop (env c) false) := h.taken_eq c (by simp)
  cases hc : taken c with
  | false =>
    obtain ⟨hready, hcur⟩ := hkept (htaken.symm.trans hc)
    obtain ⟨table, hnextNode, hcur', rfl⟩ := nextNode_linked hready.linked hcur
    refine ⟨f', l₂.head?, _, hrun, hnextNode, rfl, rfl, hnode, fun _ => ⟨rfl, ?_⟩, by simp⟩
    apply h.moved _ hcur' (fun d hd => hd) hnode hlinks
    rw [List.append_assoc]
    exact ready_setCursor hready _
  | true =>
    obtain ⟨hready, hcur⟩ := hgone (htaken.symm.trans hc)
    cases l₂ with
    | nil =>
      refine ⟨f', none, table₁, hrun, nextNode_end hcur, rfl, rfl, hnode, by simp,
        fun _ => ⟨rfl, ?_⟩⟩
      exact h.moved (by simpa using hready) hcur (by simp) hnode hlinks
    | cons d l₂ =>
      obtain ⟨table, hnextNode, hcur', rfl⟩ := nextNode_linked hready.linked hcur
      refine ⟨f', l₂.head?, _, hrun, hnextNode, rfl, rfl, hnode, by simp, fun _ => ⟨rfl, ?_⟩⟩
      apply h.moved _ hcur' (fun e he => List.mem_cons_of_mem d he) hnode hlinks
      have hlist : l₁ ++ (d :: l₂).take 1 ++ l₂ = l₁ ++ d :: l₂ := by simp
      rw [hlist]
      exact ready_setCursor hready _

/-- What the loop has done when it reaches the end of the list. -/
structure Flushed (taken : Nat → Bool) (f : FlushPass) (l₁ l₂ : List Nat) (f' : FlushPass) : Prop where
  visited : f'.visited = f.visited ++ visits taken l₂
  kept : ∀ c ∈ f.saved, c ∈ f'.saved
  saved : ∀ c ∈ visits taken l₂, needsSave (f.table.node c) = true → c ∈ f'.saved
  ready : Ready f'.table (l₁ ++ leaves taken l₂)

theorem Flushed.cons {f₁ f₂ : FlushPass} {table : SharedHashTable SavedStrAttr} {l₁' l : List Nat}
    (hvisited : f₁.visited = f.visited ++ [c])
    (hsaved : f₁.saved = if needsSave (f.table.node c) then f.saved ++ [c] else f.saved)
    (hnode : ∀ d ∈ visits taken l, table.node d = f.table.node d)
    (h : Flushed taken { f₁ with table := table } l₁' l f₂)
    (hvisits : visits taken (c :: l₂) = c :: visits taken l)
    (hleaves : l₁ ++ leaves taken (c :: l₂) = l₁' ++ leaves taken l) :
    Flushed taken f l₁ (c :: l₂) f₂ where
  visited := by
    rw [h.visited, hvisits]
    simp [hvisited]
  kept := by
    intro d hd
    apply h.kept
    rw [hsaved]
    split
    · exact List.mem_append_left [c] hd
    · exact hd
  saved := by
    intro d hd hneeds
    rw [hvisits, List.mem_cons] at hd
    rcases hd with rfl | hd
    · apply h.kept
      rw [hsaved, if_pos hneeds]
      simp
    · apply h.saved d hd
      rw [hnode d hd]
      exact hneeds
  ready := by
    rw [hleaves]
    exact h.ready

/-- The loop looks at the nodes of `visits` and leaves those of `leaves`. -/
theorem flushLoop_run (fuel : Nat) (h : FlushAt env now mday taken f l₁ l₂)
    (hfuel : l₂.length ≤ fuel) :
    ∃ f', flushLoop env now mday false fuel f l₂.head? = some f' ∧ Flushed taken f l₁ l₂ f' := by
  induction fuel generalizing f l₁ l₂ with
  | zero =>
    obtain rfl : l₂ = [] := List.eq_nil_of_length_eq_zero (Nat.le_zero.mp hfuel)
    exact ⟨f, rfl, by simp [visits], fun _ hc => hc, by simp [visits], h.ready⟩
  | succ fuel ih =>
    cases l₂ with
    | nil => exact ⟨f, rfl, by simp [visits], fun _ hc => hc, by simp [visits], h.ready⟩
    | cons c l =>
      obtain ⟨f₁, pNode, table, hrun, hnext, hvisited, hsaved, hnode, hkept, htaken⟩ := h.round
      have hloop : flushLoop env now mday false (fuel + 1) f (some c) =
          flushLoop env now mday false fuel { f₁ with table := table } pNode := by
        simp only [flushLoop, hrun, Option.bind_eq_bind, Option.bind_some, Bool.false_eq_true,
          if_false, hnext]
      rw [List.length_cons] at hfuel
      cases hc : taken c with
      | false =>
        obtain ⟨rfl, hat⟩ := hkept hc
        obtain ⟨f₂, hrest, hflushed⟩ := ih hat (by omega)
        refine ⟨f₂, hloop.trans hrest, ?_⟩
        apply Flushed.cons hvisited hsaved _ hflushed
        · rw [visits_cons, hc]
          simp
        · rw [leaves_cons, hc]
          simp
        · intro d hd
          exact hnode d (mem_of_mem_visits hd)
      | true =>
        obtain ⟨rfl, hat⟩ := htaken hc
        have hle : (l.drop 1).length ≤ fuel := by
          rw [List.length_drop]
          omega
        obtain ⟨f₂, hrest, hflushed⟩ := ih hat hle
        refine ⟨f₂, hloop.trans hrest, ?_⟩
        apply Flushed.cons hvisited hsaved _ hflushed
        · rw [visits_cons, hc]
          simp
        · rw [leaves_cons, hc]
          simp
        · intro d hd
          exact hnode d (List.mem_of_mem_drop (mem_of_mem_visits hd))

end Loop

section Pass

variable (s : StrAttrTable) (env : Nat → LockEnv) (now mday : Nat)

/-- The nodes that `RemoveHashNode` takes from the list when it is asked to. -/
def takes (c : Nat) : Bool := toClear s now mday c && lockLoop (env c) false

theorem writeStrAttrToDb_run :
    ∃ f, writeStrAttrToDb env now mday s.table s.pool = some f ∧
      f.visited = visits (takes s env now mday) s.nodes ∧
      (∀ c ∈ visits (takes s env now mday) s.nodes,
        needsSave (s.table.node c) = true → c ∈ f.saved) ∧
      Ready f.table (leaves (takes s env now mday) s.nodes) := by
  obtain ⟨hfirst, hstart⟩ := getFirstNode_linked s.ready.linked
  have hcond : (s.nodes.head?.isNone && decide (0 < s.table.head.dwNodeUseCount)) = false := by
    cases hnodes : s.nodes with
    | nil => simp [s.ready.linked.count, hnodes]
    | cons c l => rfl
  have hdrain : drainFirst s.table =
      (false, s.nodes.head?, { s.table with dwCurIndex := s.table.head.dwNodeStartIndex }) := by
    simp only [drainFirst, hfirst, hcond, Bool.false_eq_true, if_false]
  have hcursor : s.table.head.dwNodeStartIndex = s.nodes.head?.getD s.table.dwRealNodeCount := by
    cases hnodes : s.nodes with
    | nil => exact s.ready.linked.start_eq_iff.mpr hnodes
    | cons c l => exact hstart c (by simp [hnodes])
  have hat : FlushAt env now mday (takes s env now mday)
      ⟨{ s.table with dwCurIndex := s.table.head.dwNodeStartIndex }, s.pool, [], []⟩ [] s.nodes :=
    ⟨ready_setCursor s.ready _, hcursor, s.chains, fun _ _ => rfl⟩
  obtain ⟨f, hrun, hflushed⟩ := flushLoop_run (s.table.dwRealNodeCount + 1) hat
    (Nat.le_succ_of_le s.ready.linked.length_le)
  refine ⟨f, ?_, ?_, hflushed.saved, ?_⟩
  · simp only [writeStrAttrToDb, hdrain]
    exact hrun
  · simpa using hflushed.visited
  · simpa using hflushed.ready

theorem mem_dropLast_or_getLast? {c : Nat} {l : List Nat} (h : c ∈ l) :
    c ∈ l.dropLast ∨ c ∈ l.getLast? := by
  have hne : l ≠ [] := List.ne_nil_of_mem h
  rw [← List.dropLast_append_getLast hne, List.mem_append, List.mem_singleton] at h
  rcases h with h | rfl
  · exact Or.inl h
  · exact Or.inr (List.getLast?_eq_some_getLast hne)

theorem ready_unique {t : SharedHashTable SavedStrAttr} {l l' : List Nat} (h : Ready t l)
    (h' : Ready t l') : l = l' :=
  Path.unique h.linked.fwd h'.linked.fwd (fun hmem => h.linked.ne_real hmem rfl)
    (fun hmem => h'.linked.ne_real hmem rfl)

/-- A pass is right when no node but the last one is to be cleared, and the last one gets the flag
when it is. -/
theorem flushRight_iff :
    FlushRight s env now mday ↔
      (∀ c ∈ s.nodes.dropLast, toClear s now mday c = false) ∧
        ∀ c ∈ s.nodes.getLast?, toClear s now mday c = true → lockLoop (env c) false = true := by
  obtain ⟨f, hrun, hvisited, hsaved, hready⟩ := writeStrAttrToDb_run s env now mday
  constructor
  · rintro ⟨f', hrun', hperm, -, hleft⟩
    obtain rfl : f = f' := Option.some.inj (hrun.symm.trans hrun')
    rw [hvisited] at hperm
    have hlast := not_taken_of_visits hperm
    have hlists := ready_unique hready hleft
    rw [leaves_eq hlast] at hlists
    have hsame : ∀ c ∈ s.nodes, toClear s now mday c = true →
        takes s env now mday c = true := by
      intro c hc hclear
      by_contra hkept
      have hmem : c ∈ s.nodes.filter fun c => !takes s env now mday c := by
        simpa [hc] using hkept
      rw [hlists] at hmem
      simp [hclear] at hmem
    constructor
    · intro c hc
      by_contra hclear
      have htaken := hsame c (List.mem_of_mem_dropLast hc) (by simpa using hclear)
      rw [hlast c hc] at htaken
      cases htaken
    · intro c hc hclear
      have htaken := hsame c (List.mem_of_mem_getLast? hc) hclear
      rw [takes, hclear] at htaken
      simpa using htaken
  · rintro ⟨hkept, hfree⟩
    have hnone : ∀ c ∈ s.nodes.dropLast, takes s env now mday c = false := by
      intro c hc
      rw [takes, hkept c hc]
      rfl
    rw [visits_eq hnone] at hvisited hsaved
    refine ⟨f, hrun, ?_, hsaved, ?_⟩
    · rw [hvisited]
    · rw [leaves_eq hnone] at hready
      have hfilter : (s.nodes.filter fun c => !takes s env now mday c) =
          s.nodes.filter fun c => !toClear s now mday c := by
        apply List.filter_congr
        intro c hc
        cases hclear : toClear s now mday c with
        | false => simp [takes, hclear]
        | true =>
          rcases mem_dropLast_or_getLast? hc with hinner | hlast
          · rw [hkept c hinner] at hclear
            cases hclear
          · simp [takes, hclear, hfree c hlast hclear]
      rw [hfilter] at hready
      exact hready

end Pass

section TwoPairs

/-- Two pairs without strings, which were last reported on the third of a month. -/
def twoPairs : StrAttrTable where
  table :=
    { dwNodeSize := 20
      dwRealNodeCount := 3
      dwShareMemBytes := 200
      dwNodeNums := [3]
      bInitSuccess := true
      bAccessCheck := false
      dwCurIndex := 3
      dwCurIndexRevers := 3
      funCmp := fun a b => if a.iAttrId = b.iAttrId then 0 else 1
      head := ⟨0, 1, 2, 0, 0, false⟩
      nodeHead := fun i => ⟨i < 2, if i = 1 then 0 else 3, if i = 0 then 1 else 3⟩
      node := fun i => ⟨⟨i + 1, 1, 1000, 0, -1, 3⟩, 0⟩
      attrSpec := [] }
  nodes := [0, 1]
  pool := ⟨0, 0, fun _ => ⟨[], 0, 0⟩⟩
  ready :=
    { linked :=
        { fwd := by simp [Library.Path, next]
          bwd := by simp [Library.Path, pre]
          nodup := by decide
          mem := by
            intro i
            simp only [used, decide_eq_true_eq, List.mem_cons, List.not_mem_nil, or_false]
            omega
          count := rfl }
      init := rfl
      free := rfl
      noWriter := rfl
      word := by decide }
  chains := fun c _ => ⟨[], rfl, by simp⟩

/-- On the fourth day both are to be cleared, but the second one is not looked at and stays. -/
theorem twoPairs_skipped :
    (writeStrAttrToDb (fun _ => ⟨fun _ => false, 2000, 7⟩) 2000 4 twoPairs.table twoPairs.pool).map
        (fun f => (f.visited, f.saved, f.table.used 0, f.table.used 1)) =
      some ([0], [0], false, true) ∧
      ¬ FlushRight twoPairs (fun _ => ⟨fun _ => false, 2000, 7⟩) 2000 4 := by
  have hrun : (writeStrAttrToDb (fun _ => ⟨fun _ => false, 2000, 7⟩) 2000 4 twoPairs.table
      twoPairs.pool).map (fun f => (f.visited, f.saved, f.table.used 0, f.table.used 1)) =
      some ([0], [0], false, true) := by
    decide +kernel
  refine ⟨hrun, ?_⟩
  rintro ⟨f, hf, hperm, -, -⟩
  rw [hf, Option.map_some, Option.some.injEq, Prod.mk.injEq] at hrun
  rw [hrun.1] at hperm
  exact absurd hperm.length_eq (by decide)

end TwoPairs

end XrkMonitor.StrAttr
