import XrkMonitor.StrAttr.Chain

/-!
# Runs of string reports

The pairs of the table share the array of nodes. A report finds its pair or takes a free
slot of the table, and a pair whose chain is cleared by the check that the server makes
from time to time leaves the table. Every run whose reports meet `ReportOk` keeps the
chains apart, counted, and with the sums of what was reported.

## Implementation notes

The order of the pairs in the table does not matter here, so a pair that was reported
comes first. The state also keeps what was reported for each string since it was cleared
or removed; the code does not read it. A slot that is not in use has no strings: it was
never used, or its chain was cleared.
-/

namespace XrkMonitor.StrAttr

open Library

/-- The pair that a slot of the table is for. -/
def keyOf (e : TStrAttrReportInfo) : Int × Int := (e.iAttrId, e.iMachineId)

/-- A slot of the table that is not in use. -/
abbrev FreeSlot : Type := { e : TStrAttrReportInfo // e.bStrCount = 0 }

/-- The indices that `n` steps along a chain meet. -/
def chainIdx (stInfo : Int → StrAttrNodeVal) : Nat → Int → List Int
  | 0, _ => []
  | n + 1, idx => idx :: chainIdx stInfo n (stInfo idx).iNextStrAttr

/-- The nodes of a pair. -/
def chain (p : StrAttrNodeValShmInfo) (e : TStrAttrReportInfo) : List Int :=
  chainIdx p.stInfo e.bStrCount e.iReportIdx

/-- The strings of a pair with their values. -/
def strsOf (p : StrAttrNodeValShmInfo) (e : TStrAttrReportInfo) : List (CStr × Int) :=
  contents p.stInfo (chain p e)

/-- The array, the pairs of the table, and what was reported for the strings of a pair since they
were cleared or removed. -/
structure StrState where
  p : StrAttrNodeValShmInfo
  entries : List TStrAttrReportInfo
  sums : Int × Int → CStr → Int

/-- What happens to the table. -/
inductive StrEvent
  | report (key : Int × Int) (pstr : CStr) (val now mday reportTime : Nat) (slot : Option FreeSlot)
  | checkClear (key : Int × Int) (now mday : Nat)

/-- The strings of the reported pair when its chain was checked, and after the report. -/
structure StrOut where
  before : List (CStr × Int)
  after : List (CStr × Int)
deriving Repr, DecidableEq

/-- The sums of a pair after its chain was checked. -/
def clearedSums (sums : CStr → Int) (cleared : Bool) (str : CStr) : Int :=
  if cleared then 0 else sums str

/-- A string is among some strings with values. -/
def hasStr (xs : List (CStr × Int)) (str : CStr) : Bool := xs.any fun x => decide (x.1 = str)

variable {xs : List (CStr × Int)}

@[simp] theorem hasStr_eq_true {str : CStr} :
    hasStr xs str = true ↔ str ∈ xs.map Prod.fst := by
  simp [hasStr]

@[simp] theorem hasStr_eq_false {str : CStr} :
    hasStr xs str = false ↔ str ∉ xs.map Prod.fst := by
  rw [← Bool.not_eq_true, hasStr_eq_true]

/-- The sums of a pair after a report: a string that was there and is gone starts anew. -/
def reportedSums (sums : CStr → Int) (o : StrOut) (pstr : CStr) (val : Int) (str : CStr) : Int :=
  (if hasStr o.before str = true ∧ hasStr o.after str = false then 0 else sums str) +
    if str = pstr then val else 0

/-- The chain of a pair is given back. -/
def clears (e : TStrAttrReportInfo) (now mday : Nat) : Bool :=
  dayChanged e now mday && decide (0 < e.bStrCount)

/-- A report for the pair in `e`. -/
def reportStep (s : StrState) (key : Int × Int) (e : TStrAttrReportInfo) (dwIsFind : Bool)
    (pstr : CStr) (val now mday reportTime : Nat) : Option (StrOut × StrState) := do
  let (p₁, e₁) ← checkClearStrAttrNodeShm s.p e now mday
  let (p₂, e₂) ← addStrAttrReportToShm s.p e dwIsFind pstr val now mday
  let o : StrOut := ⟨if dwIsFind then strsOf p₁ e₁ else [], strsOf p₂ e₂⟩
  some
    (o,
      { p := p₂
        entries :=
          { e₂ with
            dwLastReportTime := reportTime % 2 ^ 32 } ::
              s.entries.filter fun e' => keyOf e' ≠ key
        sums := Function.update s.sums key
          (reportedSums (clearedSums (s.sums key) (clears e now mday)) o pstr val) })

/-- One event; a report for which the table has no slot is dropped. -/
def strStep (s : StrState) : StrEvent → Option (StrOut × StrState)
  | .report key pstr val now mday reportTime slot =>
    match s.entries.find? fun e => keyOf e = key, slot with
    | some e, _ => reportStep s key e true pstr val now mday reportTime
    | none, none => some (⟨[], []⟩, s)
    | none, some slot =>
      reportStep s key
        { slot.1 with
          iAttrId := key.1
          iMachineId := key.2 }
        false pstr val now mday reportTime
  | .checkClear key now mday =>
    match s.entries.find? fun e => keyOf e = key with
    | none => some (⟨[], []⟩, s)
    | some e => do
        let (p₁, e₁) ← checkClearStrAttrNodeShm s.p e now mday
        let rest := s.entries.filter fun e' => keyOf e' ≠ key
        some
          (⟨strsOf p₁ e₁, strsOf p₁ e₁⟩,
            { p := p₁
              entries := if dayChanged e now mday then rest else e₁ :: rest
              sums := Function.update s.sums key
                (clearedSums (s.sums key) (clears e now mday)) })

/-- The empty array and the empty table. -/
def emptyState : StrState where
  p := ⟨0, 0, fun _ => ⟨[], 0, 0⟩⟩
  entries := []
  sums := fun _ _ => 0

section Invariant

/-- The chains of some pairs stand apart in the array, and the other nodes are free. -/
structure PoolInv (p : StrAttrNodeValShmInfo) (entries : List TStrAttrReportInfo) : Prop where
  keys : (entries.map keyOf).Nodup
  path : ∀ e ∈ entries, Path (nextOf p.stInfo) e.iReportIdx (chain p e) (-1)
  countLe : ∀ e ∈ entries,
    e.bStrCount ≤ STR_ATTR_COUNT_FOR_SELECT_STR + MAX_STR_ATTR_STR_COUNT
  strs : ∀ e ∈ entries, ((strsOf p e).map Prod.fst).Nodup
  nodup : (entries.flatMap (chain p)).Nodup
  valid : ∀ i ∈ entries.flatMap (chain p), validIdx i
  used : ∀ i ∈ entries.flatMap (chain p), 0 < (p.stInfo i).iStrVal
  free : ∀ i, validIdx i → i ∉ entries.flatMap (chain p) → (p.stInfo i).iStrVal ≤ 0
  nodeUse : p.iNodeUse = (entries.flatMap (chain p)).length
  write : validIdx p.iWriteIdx

/-- The values of the strings are the sums, and other strings have none. -/
structure SumsOf (sums : CStr → Int) (xs : List (CStr × Int)) : Prop where
  value : ∀ x ∈ xs, sums x.1 = x.2
  other : ∀ str, str ∉ xs.map Prod.fst → sums str = 0

/-- The invariant of the runs. -/
structure StrInv (s : StrState) : Prop where
  pool : PoolInv s.p s.entries
  sums : ∀ e ∈ s.entries, SumsOf (s.sums (keyOf e)) (strsOf s.p e)
  fresh : ∀ key, key ∉ s.entries.map keyOf → ∀ str, s.sums key str = 0

variable {p p' : StrAttrNodeValShmInfo} {e e' : TStrAttrReportInfo}
  {rest : List TStrAttrReportInfo} {l : List Int}

@[simp] theorem chain_length (p : StrAttrNodeValShmInfo) (e : TStrAttrReportInfo) :
    (chain p e).length = e.bStrCount := by
  have hlen : ∀ (n : Nat) (idx : Int), (chainIdx p.stInfo n idx).length = n := by
    intro n
    induction n with
    | zero => simp [chainIdx]
    | succ n ih =>
      intro idx
      simp [chainIdx, ih]
  exact hlen e.bStrCount e.iReportIdx

theorem chainIdx_of_path {stInfo : Int → StrAttrNodeVal} {idx c : Int}
    (h : Path (nextOf stInfo) idx l c) : chainIdx stInfo l.length idx = l := by
  induction l generalizing idx with
  | nil => rfl
  | cons a l ih =>
    obtain ⟨rfl, htail⟩ := h
    simpa [chainIdx, nextOf] using ih htail

theorem Owned.chain_eq {others : List Int} (h : Owned p e l others) : chain p e = l := by
  rw [chain, ← h.count]
  exact chainIdx_of_path h.path

theorem chain_eq_nil (h : e.bStrCount = 0) : chain p e = [] := by
  rw [← List.length_eq_zero_iff, chain_length, h]

theorem PoolInv.owned (h : PoolInv p (e :: rest)) :
    Owned p e (chain p e) (rest.flatMap (chain p)) where
  path := h.path e (by simp)
  count := chain_length p e
  countLe := h.countLe e (by simp)
  strs := h.strs e (by simp)
  nodup := h.nodup
  valid := h.valid
  used := h.used
  free := h.free
  nodeUse := h.nodeUse
  write := h.write

theorem chain_frame (hpath : Path (nextOf p.stInfo) e.iReportIdx (chain p e) (-1))
    (hframe : ∀ i ∈ chain p e, p'.stInfo i = p.stInfo i) :
    Path (nextOf p'.stInfo) e.iReportIdx (chain p e) (-1) ∧ chain p' e = chain p e ∧
      strsOf p' e = strsOf p e := by
  have hpath' : Path (nextOf p'.stInfo) e.iReportIdx (chain p e) (-1) := by
    refine (path_congr ?_).mp hpath
    intro i hi
    rw [nextOf, nextOf, hframe i hi]
  have hchain : chain p' e = chain p e := by
    have hidx := chainIdx_of_path hpath'
    rwa [chain_length] at hidx
  refine ⟨hpath', hchain, ?_⟩
  rw [strsOf, hchain]
  exact contents_congr fun i hi => by simp [hframe i hi]

/-- The first pair may be replaced by what an operation on its chain gives. -/
theorem PoolInv.replace (h : PoolInv p (e :: rest)) (ho : Owned p' e' l (rest.flatMap (chain p)))
    (hframe : ∀ i ∈ rest.flatMap (chain p), p'.stInfo i = p.stInfo i)
    (hkey : keyOf e' = keyOf e) :
    PoolInv p' (e' :: rest) ∧ ∀ r ∈ rest, strsOf p' r = strsOf p r := by
  have hother : ∀ r ∈ rest, Path (nextOf p'.stInfo) r.iReportIdx (chain p r) (-1) ∧
      chain p' r = chain p r ∧ strsOf p' r = strsOf p r := by
    intro r hr
    apply chain_frame (h.path r (by simp [hr]))
    intro i hi
    exact hframe i (List.mem_flatMap.mpr ⟨r, hr, hi⟩)
  have hflat : (e' :: rest).flatMap (chain p') = l ++ rest.flatMap (chain p) := by
    rw [List.flatMap_cons, ho.chain_eq]
    congr 1
    exact List.flatMap_congr fun r hr => (hother r hr).2.1
  refine ⟨?_, fun r hr => (hother r hr).2.2⟩
  constructor
  · have hkeys := h.keys
    rwa [List.map_cons, ← hkey] at hkeys
  · intro r hr
    obtain rfl | hr := List.mem_cons.mp hr
    · rw [ho.chain_eq]
      exact ho.path
    · rw [(hother r hr).2.1]
      exact (hother r hr).1
  · intro r hr
    obtain rfl | hr := List.mem_cons.mp hr
    · exact ho.countLe
    · exact h.countLe r (by simp [hr])
  · intro r hr
    obtain rfl | hr := List.mem_cons.mp hr
    · rw [strsOf, ho.chain_eq]
      exact ho.strs
    · rw [(hother r hr).2.2]
      exact h.strs r (by simp [hr])
  · rw [hflat]
    exact ho.nodup
  · rw [hflat]
    exact ho.valid
  · rw [hflat]
    exact ho.used
  · rw [hflat]
    exact ho.free
  · rw [hflat]
    exact ho.nodeUse
  · exact ho.write

theorem PoolInv.cons_empty (h : PoolInv p rest) (hcount : e.bStrCount = 0)
    (hidx : e.iReportIdx = -1) (hkey : keyOf e ∉ rest.map keyOf) : PoolInv p (e :: rest) := by
  have hnil : chain p e = [] := chain_eq_nil hcount
  have hflat : (e :: rest).flatMap (chain p) = rest.flatMap (chain p) := by
    rw [List.flatMap_cons, hnil, List.nil_append]
  constructor
  · exact List.nodup_cons.mpr ⟨hkey, h.keys⟩
  · intro r hr
    obtain rfl | hr := List.mem_cons.mp hr
    · rw [hnil]
      exact hidx
    · exact h.path r hr
  · intro r hr
    obtain rfl | hr := List.mem_cons.mp hr
    · rw [hcount]
      exact Nat.zero_le _
    · exact h.countLe r hr
  · intro r hr
    obtain rfl | hr := List.mem_cons.mp hr
    · rw [strsOf, hnil]
      exact List.nodup_nil
    · exact h.strs r hr
  · rw [hflat]
    exact h.nodup
  · rw [hflat]
    exact h.valid
  · rw [hflat]
    exact h.used
  · rw [hflat]
    exact h.free
  · rw [hflat]
    exact h.nodeUse
  · exact h.write

theorem PoolInv.tail (h : PoolInv p (e :: rest)) (hcount : e.bStrCount = 0) : PoolInv p rest := by
  have hflat : (e :: rest).flatMap (chain p) = rest.flatMap (chain p) := by
    rw [List.flatMap_cons, chain_eq_nil hcount, List.nil_append]
  constructor
  · exact (List.nodup_cons.mp h.keys).2
  · exact fun r hr => h.path r (by simp [hr])
  · exact fun r hr => h.countLe r (by simp [hr])
  · exact fun r hr => h.strs r (by simp [hr])
  · rw [← hflat]
    exact h.nodup
  · rw [← hflat]
    exact h.valid
  · rw [← hflat]
    exact h.used
  · rw [← hflat]
    exact h.free
  · rw [← hflat]
    exact h.nodeUse
  · exact h.write

theorem PoolInv.perm {entries entries' : List TStrAttrReportInfo} (h : PoolInv p entries)
    (hperm : entries.Perm entries') : PoolInv p entries' := by
  have hflat : (entries.flatMap (chain p)).Perm (entries'.flatMap (chain p)) :=
    hperm.flatMap_right _
  constructor
  · exact (hperm.map keyOf).nodup_iff.mp h.keys
  · exact fun e he => h.path e (hperm.mem_iff.mpr he)
  · exact fun e he => h.countLe e (hperm.mem_iff.mpr he)
  · exact fun e he => h.strs e (hperm.mem_iff.mpr he)
  · exact hflat.nodup_iff.mp h.nodup
  · exact fun i hi => h.valid i (hflat.mem_iff.mpr hi)
  · exact fun i hi => h.used i (hflat.mem_iff.mpr hi)
  · exact fun i hi hnot => h.free i hi fun hin => hnot (hflat.mem_iff.mp hin)
  · rw [← hflat.length_eq]
    exact h.nodeUse
  · exact h.write

theorem perm_of_find {entries : List TStrAttrReportInfo} {key : Int × Int}
    (hnd : (entries.map keyOf).Nodup)
    (hfind : (entries.find? fun e => keyOf e = key) = some e) :
    keyOf e = key ∧ entries.Perm (e :: entries.filter fun e' => keyOf e' ≠ key) := by
  have hkey : keyOf e = key := by simpa using List.find?_some hfind
  refine ⟨hkey, ?_⟩
  induction entries with
  | nil => simp at hfind
  | cons a entries ih =>
    obtain ⟨ha, hnd'⟩ := List.nodup_cons.mp hnd
    by_cases hak : keyOf a = key
    · rw [List.find?_cons_of_pos (by simpa using hak)] at hfind
      obtain rfl := Option.some.inj hfind
      have hall : (entries.filter fun e' => keyOf e' ≠ key) = entries := by
        apply List.filter_eq_self.mpr
        intro e' he'
        have hne : keyOf e' ≠ key := by
          intro heq
          apply ha
          rw [hak, ← heq]
          exact List.mem_map_of_mem he'
        simpa using hne
      rw [List.filter_cons_of_neg (by simpa using hak), hall]
    · rw [List.find?_cons_of_neg (by simpa using hak)] at hfind
      rw [List.filter_cons_of_pos (by simpa using hak)]
      exact ((ih hnd' hfind).cons a).trans (List.Perm.swap _ _ _)

end Invariant

section Sums

variable {f : CStr → Int} {xs : List (CStr × Int)} {pstr : CStr} {val : Int}

/-- A string that is reported adds its value to its sum. -/
theorem SumsOf.report (h : SumsOf f xs) :
    SumsOf (reportedSums f ⟨xs, reportContent xs pstr val⟩ pstr val)
      (reportContent xs pstr val) := by
  by_cases hmem : pstr ∈ xs.map Prod.fst
  · have hcont : reportContent xs pstr val =
        xs.map fun x => if x.1 = pstr then (x.1, x.2 + val) else x := if_pos hmem
    have hfst : (reportContent xs pstr val).map Prod.fst = xs.map Prod.fst := by
      rw [hcont, List.map_map]
      apply List.map_congr_left
      intro x _
      by_cases hx : x.1 = pstr <;> simp [hx]
    constructor
    · intro x hx
      rw [hcont] at hx
      obtain ⟨y, hy, rfl⟩ := List.mem_map.mp hx
      have hval := h.value y hy
      by_cases hys : y.1 = pstr
      · simp [reportedSums, hfst, hys, ← hval]
      · simp [reportedSums, hfst, hys, hval]
    · intro str hstr
      rw [hfst] at hstr
      have hne : str ≠ pstr := fun heq => hstr (heq ▸ hmem)
      simp [reportedSums, hfst, hne, h.other str hstr]
  · obtain ⟨kept, hcont, hsub⟩ : ∃ kept, reportContent xs pstr val = kept ++ [(pstr, val)] ∧
        ∀ x ∈ kept, x ∈ xs := by
      refine ⟨_, if_neg hmem, ?_⟩
      intro x hx
      split at hx
      · exact (List.perm_insertionSort _ _).mem_iff.mp (List.mem_of_mem_drop hx)
      · exact hx
    rw [hcont]
    constructor
    · intro x hx
      obtain hx | hx := List.mem_append.mp hx
      · have hin : x.1 ∈ kept.map Prod.fst := List.mem_map_of_mem hx
        have hne : x.1 ≠ pstr := by
          intro heq
          exact hmem (heq ▸ List.mem_map_of_mem (hsub x hx))
        simp only [reportedSums, hasStr_eq_true, hasStr_eq_false, List.map_append, List.mem_append,
          hin, true_or, not_true, and_false, reduceIte, hne, Int.add_zero]
        exact h.value x (hsub x hx)
      · obtain rfl := List.mem_singleton.mp hx
        simp [reportedSums, h.other pstr hmem]
    · intro str hstr
      simp only [List.map_append, List.map_cons, List.map_nil, List.mem_append,
        List.mem_singleton, not_or] at hstr
      simp only [reportedSums, hasStr_eq_true, hasStr_eq_false, List.map_append, List.map_cons,
        List.map_nil, List.mem_append, List.mem_singleton, hstr, or_self, not_false_iff, and_true, reduceIte, Int.add_zero]
      split
      · rfl
      · next hnot => exact h.other str hnot

theorem sumsOf_nil (sums : CStr → Int) : SumsOf (clearedSums sums true) [] := by
  constructor
  · simp
  · intro str _
    rfl

/-- The strings that a full chain gives up for a new one have the smallest values, and the others
stay. -/
def EvictsSmallest (o : StrOut) (pstr : CStr) (val : Int) : Prop :=
  pstr ∉ o.before.map Prod.fst →
  STR_ATTR_COUNT_FOR_SELECT_STR + MAX_STR_ATTR_STR_COUNT ≤ o.before.length →
  ∃ removed kept, o.before.Perm (removed ++ kept) ∧
    removed.length = STR_ATTR_COUNT_FOR_SELECT_STR ∧
    (∀ r ∈ removed, ∀ k ∈ kept, r.2 ≤ k.2) ∧ o.after = kept ++ [(pstr, val)]

theorem reportContent_evicts : EvictsSmallest ⟨xs, reportContent xs pstr val⟩ pstr val := by
  intro hmem hfull
  have hsorted : (sortContent xs).Pairwise fun a b => a.2 ≤ b.2 := by
    have : Std.Total fun a b : CStr × Int => a.2 ≤ b.2 := ⟨fun a b => Int.le_total a.2 b.2⟩
    have : IsTrans (CStr × Int) fun a b => a.2 ≤ b.2 := ⟨fun _ _ _ => Int.le_trans⟩
    exact List.pairwise_insertionSort _ xs
  have hsplit := List.take_append_drop STR_ATTR_COUNT_FOR_SELECT_STR (sortContent xs)
  have hperm : (sortContent xs).Perm xs := List.perm_insertionSort _ _
  refine ⟨(sortContent xs).take STR_ATTR_COUNT_FOR_SELECT_STR,
    (sortContent xs).drop STR_ATTR_COUNT_FOR_SELECT_STR, ?_, ?_, ?_, ?_⟩
  · rw [hsplit]
    exact hperm.symm
  · rw [List.length_take, hperm.length_eq]
    exact Nat.min_eq_left (Nat.le_of_add_right_le hfull)
  · rw [← hsplit] at hsorted
    exact fun r hr k hk => (List.pairwise_append.mp hsorted).2.2 r hr k hk
  · exact (if_neg hmem).trans (by rw [if_pos hfull])

end Sums

section Steps

/-- A new string of a pair has a node: there is a free one, or the chain is full and does not run
through node 0. -/
def NodeAtHand (p : StrAttrNodeValShmInfo) (e : TStrAttrReportInfo) (pstr : CStr) : Prop :=
  pstr ∉ (strsOf p e).map Prod.fst →
    if e.bStrCount < STR_ATTR_COUNT_FOR_SELECT_STR + MAX_STR_ATTR_STR_COUNT then
      p.iNodeUse < MAX_STR_ATTR_ARRY_NODE_VAL_COUNT
    else (0 : Int) ∉ chain p e

instance (p : StrAttrNodeValShmInfo) (e : TStrAttrReportInfo) (pstr : CStr) :
    Decidable (NodeAtHand p e pstr) := inferInstanceAs (Decidable (_ → _))

/-- What was reported for a string before this report, as far as it still counts. -/
def sumBefore (s : StrState) (key : Int × Int) (pstr : CStr) (now mday : Nat) : Int :=
  match s.entries.find? fun e => keyOf e = key with
  | some e => clearedSums (s.sums key) (clears e now mday) pstr
  | none => 0

/-- Reported values are positive and their sums fit. -/
def ValueFits (s : StrState) : StrEvent → Prop
  | .report key pstr val now mday _ _ => 0 < val ∧ sumBefore s key pstr now mday + val < 2 ^ 31
  | .checkClear _ _ _ => True

instance (s : StrState) : ∀ a, Decidable (ValueFits s a)
  | .report _ _ _ _ _ _ _ => inferInstanceAs (Decidable (_ ∧ _))
  | .checkClear _ _ _ => inferInstanceAs (Decidable True)

/-- There is a node for a string of the pair that is found, or of one that takes a slot. -/
def SlotFits (p : StrAttrNodeValShmInfo) (pstr : CStr) (now mday : Nat) (slot : Option FreeSlot) :
    Option TStrAttrReportInfo → Prop
  | some e => clears e now mday = true ∨ NodeAtHand p e pstr
  | none => slot = none ∨ p.iNodeUse < MAX_STR_ATTR_ARRY_NODE_VAL_COUNT

instance (p : StrAttrNodeValShmInfo) (pstr : CStr) (now mday : Nat) (slot : Option FreeSlot) :
    ∀ r, Decidable (SlotFits p pstr now mday slot r)
  | some _ => inferInstanceAs (Decidable (_ ∨ _))
  | none => inferInstanceAs (Decidable (_ ∨ _))

/-- The reported string fits into a node, and there is one for it. -/
def NodeFits (s : StrState) : StrEvent → Prop
  | .report key pstr _ now mday _ slot =>
    pstr.length ≤ 64 ∧
    SlotFits s.p pstr now mday slot (s.entries.find? fun e => keyOf e = key)
  | .checkClear _ _ _ => True

instance (s : StrState) : ∀ a, Decidable (NodeFits s a)
  | .report _ _ _ _ _ _ _ => inferInstanceAs (Decidable (_ ∧ _))
  | .checkClear _ _ _ => inferInstanceAs (Decidable True)

/-- What an event gives: a full chain makes room as it should. -/
def OutRight : StrEvent → StrOut → Prop
  | .report _ pstr val _ _ _ _, o => EvictsSmallest o pstr val
  | .checkClear _ _ _, _ => True

variable {p : StrAttrNodeValShmInfo} {e : TStrAttrReportInfo} {rest : List TStrAttrReportInfo}
  {f : CStr → Int} {pstr : CStr} {val : Nat}

theorem Owned.setReportTime {l others : List Int} (h : Owned p e l others) (t : Nat) :
    Owned p
      { e with
        dwLastReportTime := t } l others :=
  ⟨h.path, h.count, h.countLe, h.strs, h.nodup, h.valid, h.used, h.free, h.nodeUse, h.write⟩

theorem PoolInv.sums_nonneg (h : PoolInv p (e :: rest)) (hsums : SumsOf f (strsOf p e))
    (str : CStr) : 0 ≤ f str := by
  by_cases hmem : str ∈ (strsOf p e).map Prod.fst
  · obtain ⟨x, hx, rfl⟩ := List.mem_map.mp hmem
    rw [hsums.value x hx]
    obtain ⟨i, hi, rfl⟩ := List.mem_map.mp hx
    exact Int.le_of_lt (h.owned.used i (List.mem_append_left _ hi))
  · rw [hsums.other str hmem]

theorem PoolInv.addStr (h : PoolInv p (e :: rest)) (hsums : SumsOf f (strsOf p e)) (mday t : Nat)
    (hlen : pstr.length ≤ 64) (hval : 0 < val) (hfits : f pstr + val < 2 ^ 31)
    (hnode : NodeAtHand p e pstr) :
    ∃ p' e', addStr p e pstr val mday = some (p', e') ∧
      PoolInv p'
        ({ e' with
          dwLastReportTime := t } :: rest) ∧
      (∀ r ∈ rest, strsOf p' r = strsOf p r) ∧
      strsOf p' e' = reportContent (strsOf p e) pstr val ∧ keyOf e' = keyOf e := by
  have howned := h.owned
  have hpos := h.sums_nonneg hsums pstr
  have hgrow : ∀ x ∈ strsOf p e, x.1 = pstr → x.2 + val < 2 ^ 31 := by
    intro x hx hxs
    rw [← hsums.value x hx, hxs]
    exact hfits
  have hnew : pstr ∉ (strsOf p e).map Prod.fst →
      if e.bStrCount < STR_ATTR_COUNT_FOR_SELECT_STR + MAX_STR_ATTR_STR_COUNT then
        ∃ i, validIdx i ∧ (p.stInfo i).iStrVal ≤ 0
      else (0 : Int) ∉ chain p e := by
    intro hmem
    have hn := hnode hmem
    split
    · next hroom =>
      rw [if_pos hroom] at hn
      exact howned.exists_free hn
    · next hroom =>
      rw [if_neg hroom] at hn
      exact hn
  obtain ⟨p', e', l', hadd, howned', hframe, hcont, hkey⟩ :=
    howned.addStr mday hlen hval hgrow (by omega) hnew
  obtain ⟨hinv, hother⟩ := h.replace (howned'.setReportTime t) hframe hkey
  refine ⟨p', e', hadd, hinv, hother, ?_, hkey⟩
  rw [strsOf, howned'.chain_eq]
  exact hcont

theorem PoolInv.clear (h : PoolInv p (e :: rest)) (hsums : SumsOf f (strsOf p e)) (now mday : Nat) :
    ∃ p' e', checkClearStrAttrNodeShm p e now mday = some (p', e') ∧ PoolInv p' (e' :: rest) ∧
      (∀ r ∈ rest, strsOf p' r = strsOf p r) ∧ keyOf e' = keyOf e ∧
      SumsOf (clearedSums f (clears e now mday)) (strsOf p' e') ∧
      (clears e now mday = true →
        e'.bStrCount = 0 ∧ p'.iNodeUse < MAX_STR_ATTR_ARRY_NODE_VAL_COUNT) ∧
      (clears e now mday = false → p' = p ∧ e' = e) := by
  have hiff : clears e now mday = true ↔ dayChanged e now mday = true ∧ 0 < e.bStrCount := by
    simp [clears]
  obtain ⟨p', e', l', hclear, howned, hframe, hcont, hkey, hkeep⟩ := h.owned.clear now mday
  obtain ⟨hinv, hother⟩ := h.replace howned hframe hkey
  have hstrs : strsOf p' e' = contents p'.stInfo l' := by
    rw [strsOf, howned.chain_eq]
  refine ⟨p', e', hclear, hinv, hother, hkey, ?_, ?_, ?_⟩
  · rw [hstrs, hcont]
    by_cases hc : clears e now mday = true
    · rw [if_pos (hiff.mp hc), hc]
      exact sumsOf_nil f
    · rw [if_neg fun hd => hc (hiff.mpr hd), Bool.eq_false_iff.mpr hc]
      exact hsums
  · intro hc
    rw [if_pos (hiff.mp hc)] at hcont
    have hl' : l' = [] := by
      rw [← List.length_eq_zero_iff, ← contents_length p'.stInfo, hcont]
      rfl
    subst hl'
    refine ⟨howned.count.symm, ?_⟩
    have hall := length_le_of_valid h.owned.nodup h.owned.valid
    have huse := howned.nodeUse
    have hcount := (hiff.mp hc).2
    rw [List.length_append, chain_length] at hall
    rw [List.nil_append] at huse
    omega
  · intro hc
    obtain ⟨hp, he, -⟩ := hkeep fun hd => by simp [hiff.mpr hd] at hc
    exact ⟨hp, he⟩

variable {s : StrState} {key : Int × Int}

theorem StrInv.set (h : StrInv s)
    (hpool : PoolInv p (e :: s.entries.filter fun e' => keyOf e' ≠ key))
    (hother : ∀ r ∈ s.entries.filter fun e' => keyOf e' ≠ key, strsOf p r = strsOf s.p r)
    (hkey : keyOf e = key) (hsums : SumsOf f (strsOf p e)) :
    StrInv
      { p := p
        entries := e :: s.entries.filter fun e' => keyOf e' ≠ key
        sums := Function.update s.sums key f } := by
  constructor
  · exact hpool
  · intro r hr
    obtain rfl | hr := List.mem_cons.mp hr
    · simpa [hkey] using hsums
    · obtain ⟨hmem, hne⟩ := List.mem_filter.mp hr
      have hne : keyOf r ≠ key := by simpa using hne
      simp only [Function.update_of_ne hne, hother r hr]
      exact h.sums r hmem
  · intro key' hnot str
    simp only [List.map_cons, List.mem_cons, not_or, hkey] at hnot
    change Function.update s.sums key f key' str = 0
    rw [Function.update_of_ne hnot.1]
    apply h.fresh key'
    intro hin
    obtain ⟨r, hr, rfl⟩ := List.mem_map.mp hin
    apply hnot.2
    apply List.mem_map_of_mem
    exact List.mem_filter.mpr ⟨hr, by simpa using hnot.1⟩

theorem StrInv.remove (h : StrInv s)
    (hpool : PoolInv p (s.entries.filter fun e' => keyOf e' ≠ key))
    (hother : ∀ r ∈ s.entries.filter fun e' => keyOf e' ≠ key, strsOf p r = strsOf s.p r)
    (hsums : ∀ str, f str = 0) :
    StrInv
      { p := p
        entries := s.entries.filter fun e' => keyOf e' ≠ key
        sums := Function.update s.sums key f } := by
  constructor
  · exact hpool
  · intro r hr
    obtain ⟨hmem, hne⟩ := List.mem_filter.mp hr
    have hne : keyOf r ≠ key := by simpa using hne
    simp only [Function.update_of_ne hne, hother r hr]
    exact h.sums r hmem
  · intro key' hnot str
    change Function.update s.sums key f key' str = 0
    by_cases hkey : key' = key
    · rw [hkey, Function.update_self]
      exact hsums str
    · rw [Function.update_of_ne hkey]
      apply h.fresh key'
      intro hin
      obtain ⟨r, hr, rfl⟩ := List.mem_map.mp hin
      apply hnot
      apply List.mem_map_of_mem
      exact List.mem_filter.mpr ⟨hr, by simpa using hkey⟩

theorem StrInv.report_found (h : StrInv s) (now mday reportTime : Nat)
    (hfind : (s.entries.find? fun e => keyOf e = key) = some e)
    (hlen : pstr.length ≤ 64) (hval : 0 < val)
    (hfits : clearedSums (s.sums key) (clears e now mday) pstr + val < 2 ^ 31)
    (hnode : clears e now mday = true ∨ NodeAtHand s.p e pstr) :
    ∃ o s', reportStep s key e true pstr val now mday reportTime = some (o, s') ∧
      EvictsSmallest o pstr val ∧ StrInv s' := by
  obtain ⟨hkey, hperm⟩ := perm_of_find h.pool.keys hfind
  have hmem : e ∈ s.entries := List.mem_of_find?_eq_some hfind
  have hsums := h.sums e hmem
  rw [hkey] at hsums
  obtain ⟨p₁, e₁, hclear, hpool₁, hother₁, hkey₁, hsums₁, hempty, hkeep⟩ :=
    (h.pool.perm hperm).clear hsums now mday
  have hnode₁ : NodeAtHand p₁ e₁ pstr := by
    cases hc : clears e now mday with
    | true =>
      obtain ⟨hcount, huse⟩ := hempty hc
      intro _
      rw [hcount, if_pos (by decide)]
      exact huse
    | false =>
      obtain ⟨rfl, rfl⟩ := hkeep hc
      simpa [hc] using hnode
  obtain ⟨p₂, e₂, hadd, hpool₂, hother₂, hcont, hkey₂⟩ :=
    hpool₁.addStr hsums₁ mday (reportTime % 2 ^ 32) hlen hval hfits hnode₁
  have hreport : SumsOf _ (reportContent (strsOf p₁ e₁) pstr val) := hsums₁.report
  rw [← hcont] at hreport
  have hinv := h.set hpool₂ (fun r hr => (hother₂ r hr).trans (hother₁ r hr))
    (hkey₂.trans (hkey₁.trans hkey)) hreport
  refine ⟨⟨strsOf p₁ e₁, strsOf p₂ e₂⟩, _, ?_, ?_, hinv⟩
  · simp [reportStep, addStrAttrReportToShm, hclear, hadd]
  · rw [hcont]
    exact reportContent_evicts

/-- A report for a pair that is not in the table. -/
theorem StrInv.report_new (h : StrInv s) (slot : FreeSlot) (now mday reportTime : Nat)
    (hfind : (s.entries.find? fun e => keyOf e = key) = none)
    (hlen : pstr.length ≤ 64) (hval : 0 < val) (hfits : (val : Int) < 2 ^ 31)
    (huse : s.p.iNodeUse < MAX_STR_ATTR_ARRY_NODE_VAL_COUNT) :
    ∃ o s',
      reportStep s key
        { slot.1 with
          iAttrId := key.1
          iMachineId := key.2 }
        false pstr val now mday reportTime = some (o, s') ∧
      EvictsSmallest o pstr val ∧ StrInv s' := by
  obtain ⟨e₀, he₀⟩ : ∃ e₀ : TStrAttrReportInfo, e₀ =
      { slot.1 with
        iAttrId := key.1
        iMachineId := key.2 } := ⟨_, rfl⟩
  rw [← he₀]
  have hcount₀ : e₀.bStrCount = 0 := by
    rw [he₀]
    exact slot.2
  have hkey₀ : keyOf e₀ = key := by rw [he₀]; rfl
  have hne : ∀ e ∈ s.entries, keyOf e ≠ key := by simpa using hfind
  have hrest : (s.entries.filter fun e' => keyOf e' ≠ key) = s.entries := by
    apply List.filter_eq_self.mpr
    intro e he
    simpa using hne e he
  have hnotin : key ∉ s.entries.map keyOf := by
    intro hin
    obtain ⟨e, he, hk⟩ := List.mem_map.mp hin
    exact hne e he hk
  have hno : clears e₀ now mday = false := by simp [clears, hcount₀]
  have hclear : checkClearStrAttrNodeShm s.p e₀ now mday = some (s.p, e₀) := by
    simp [checkClearStrAttrNodeShm, hcount₀]
  obtain ⟨e₁, he₁⟩ : ∃ e₁ : TStrAttrReportInfo, e₁ =
      { e₀ with
        bStrCount := 0
        iReportIdx := -1 } := ⟨_, rfl⟩
  have hcount₁ : e₁.bStrCount = 0 := by rw [he₁]
  have hkey₁ : keyOf e₁ = key := by
    rw [he₁]
    exact hkey₀
  have hpool₁ : PoolInv s.p (e₁ :: s.entries) := by
    apply h.pool.cons_empty hcount₁
    · rw [he₁]
    · rw [hkey₁]
      exact hnotin
  have hstrs₁ : strsOf s.p e₁ = [] := by
    rw [strsOf, chain_eq_nil hcount₁]
    rfl
  have hsums₁ : SumsOf (clearedSums (s.sums key) (clears e₀ now mday)) (strsOf s.p e₁) := by
    rw [hno, hstrs₁]
    constructor
    · simp
    · intro str _
      exact h.fresh key hnotin str
  have hfits₁ : clearedSums (s.sums key) (clears e₀ now mday) pstr + val < 2 ^ 31 := by
    rw [hsums₁.other pstr (by simp [hstrs₁])]
    omega
  have hnode₁ : NodeAtHand s.p e₁ pstr := by
    intro _
    rw [hcount₁, if_pos (by decide)]
    exact huse
  obtain ⟨p₂, e₂, hadd, hpool₂, hother₂, hcont, hkey₂⟩ :=
    hpool₁.addStr hsums₁ mday (reportTime % 2 ^ 32) hlen hval hfits₁ hnode₁
  have hreport : SumsOf _ (reportContent (strsOf s.p e₁) pstr val) := hsums₁.report
  rw [← hcont, hstrs₁] at hreport
  rw [← hrest] at hpool₂ hother₂
  have hinv := h.set hpool₂ hother₂ (hkey₂.trans hkey₁) hreport
  refine ⟨⟨[], strsOf p₂ e₂⟩, _, ?_, ?_, hinv⟩
  · simp [reportStep, addStrAttrReportToShm, hclear, ← he₁, hadd]
  · rw [hcont, hstrs₁]
    exact reportContent_evicts

theorem StrInv.checkClear (h : StrInv s) (key : Int × Int) (now mday : Nat) :
    ∃ o s', strStep s (.checkClear key now mday) = some (o, s') ∧ StrInv s' := by
  cases hfind : s.entries.find? fun e => keyOf e = key with
  | none => exact ⟨⟨[], []⟩, s, by simp only [strStep, hfind], h⟩
  | some e =>
    obtain ⟨hkey, hperm⟩ := perm_of_find h.pool.keys hfind
    have hsums := h.sums e (List.mem_of_find?_eq_some hfind)
    rw [hkey] at hsums
    obtain ⟨p₁, e₁, hclear, hpool₁, hother₁, hkey₁, hsums₁, hempty, hkeep⟩ :=
      (h.pool.perm hperm).clear hsums now mday
    simp only [strStep, hfind, hclear, Option.bind_eq_bind, Option.bind_some]
    refine ⟨_, _, rfl, ?_⟩
    cases hday : dayChanged e now mday with
    | false =>
      simp only [Bool.false_eq_true, reduceIte]
      exact h.set hpool₁ hother₁ (hkey₁.trans hkey) hsums₁
    | true =>
      have hcount₁ : e₁.bStrCount = 0 := by
        cases hc : clears e now mday with
        | true => exact (hempty hc).1
        | false =>
          obtain ⟨rfl, rfl⟩ := hkeep hc
          simpa [clears, hday] using hc
      simp only [reduceIte]
      apply h.remove (hpool₁.tail hcount₁) hother₁
      intro str
      apply hsums₁.other
      simp [strsOf, chain_eq_nil hcount₁, contents]

theorem strStep_spec (s : StrState) (a : StrEvent) (h : StrInv s)
    (hok : ValueFits s a ∧ NodeFits s a) :
    ∃ o s', strStep s a = some (o, s') ∧ OutRight a o ∧ StrInv s' := by
  cases a with
  | checkClear key now mday =>
    obtain ⟨o, s', hstep, hinv⟩ := h.checkClear key now mday
    exact ⟨o, s', hstep, trivial, hinv⟩
  | report key pstr val now mday reportTime slot =>
    obtain ⟨⟨hval, hfits⟩, hlen, hnode⟩ := hok
    cases hfind : s.entries.find? fun e => keyOf e = key with
    | some e =>
      simp only [sumBefore, SlotFits, hfind] at hfits hnode
      simp only [strStep, hfind]
      exact h.report_found now mday reportTime hfind hlen hval hfits hnode
    | none =>
      simp only [sumBefore, SlotFits, hfind] at hfits hnode
      cases slot with
      | none =>
        refine ⟨⟨[], []⟩, s, by simp only [strStep, hfind], ?_, h⟩
        intro _ hfull
        simp [STR_ATTR_COUNT_FOR_SELECT_STR] at hfull
      | some slot =>
        simp only [strStep, hfind]
        apply h.report_new slot now mday reportTime hfind hlen hval (by omega)
        simpa using hnode

end Steps

section Results

/-- The chains of the pairs stand apart, end where they should and are counted, and every string
occurs once in its chain, with the sum of its reports. -/
structure PoolRight (s : StrState) : Prop where
  disjoint : s.entries.Pairwise fun e e' => List.Disjoint (chain s.p e) (chain s.p e')
  ends : ∀ e ∈ s.entries, Path (nextOf s.p.stInfo) e.iReportIdx (chain s.p e) (-1) ∧
    ∀ i ∈ chain s.p e, validIdx i
  count : ∀ e ∈ s.entries, (chain s.p e).length = e.bStrCount ∧
    e.bStrCount ≤ MAX_STR_ATTR_STR_COUNT + STR_ATTR_COUNT_FOR_SELECT_STR
  nodeUse : s.p.iNodeUse = ((s.entries.map fun e => (chain s.p e).length).sum : Nat)
  once : ∀ e ∈ s.entries, ((strsOf s.p e).map Prod.fst).Nodup
  sums : ∀ e ∈ s.entries, ∀ x ∈ strsOf s.p e, x.2 = s.sums (keyOf e) x.1

theorem StrInv.right {s : StrState} (h : StrInv s) : PoolRight s := by
  constructor
  · have hnd := h.pool.nodup
    rw [List.nodup_flatMap] at hnd
    exact hnd.2
  · intro e he
    refine ⟨h.pool.path e he, ?_⟩
    intro i hi
    exact h.pool.valid i (List.mem_flatMap.mpr ⟨e, he, hi⟩)
  · intro e he
    exact ⟨chain_length s.p e, h.pool.countLe e he⟩
  · rw [h.pool.nodeUse, List.length_flatMap]
  · exact h.pool.strs
  · intro e he x hx
    exact ((h.sums e he).value x hx).symm

theorem emptyState_inv : StrInv emptyState := by
  constructor
  · constructor <;> simp [emptyState, validIdx, MAX_STR_ATTR_ARRY_NODE_VAL_COUNT]
  · simp [emptyState]
  · simp [emptyState]

/-- In every run whose strings fit into the nodes and find one, the chains stay apart, counted and
with the sums of the reports, and a full chain gives up the smallest values. -/
theorem string_pool_right (as : List StrEvent)
    (hok : Admissible strStep (fun s a => ValueFits s a ∧ NodeFits s a) emptyState as) :
    ∃ os s', runSteps strStep emptyState as = some (os, s') ∧
      List.Forall₂ OutRight as os ∧ PoolRight s' := by
  obtain ⟨os, s', hrun, hout, hinv⟩ := run_invariant strStep_spec as emptyState emptyState_inv hok
  exact ⟨os, s', hrun, hout, hinv.right⟩

/-- Reports of the strings `1`, `2`, … for a pair, each with its own number as the value. -/
def countedReports (key : Int × Int) (n : Nat) : List StrEvent :=
  (List.range n).map fun i =>
    .report key [UInt8.ofNat (i + 1)] (i + 1) 100 1 100 (some ⟨⟨0, 0, 0, 0, 0, 0⟩, rfl⟩)

/-- A pair whose chain does not run through node 0 makes room for its 29th string. -/
theorem string_pool_right_eviction :
    ∃ os s', runSteps strStep emptyState (countedReports (1, 1) 1 ++ countedReports (2, 1) 29) =
        some (os, s') ∧
      List.Forall₂ OutRight (countedReports (1, 1) 1 ++ countedReports (2, 1) 29) os ∧
      PoolRight s' :=
  string_pool_right _ (by decide +kernel)

/-- The chain of the first pair runs through node 0: its 29th string reads behind the end of the
multimap. -/
theorem string_pool_first_pair_lost :
    Admissible strStep ValueFits emptyState (countedReports (1, 1) 29) ∧
    ¬ ∃ os s', runSteps strStep emptyState (countedReports (1, 1) 29) = some (os, s') ∧
      List.Forall₂ OutRight (countedReports (1, 1) 29) os ∧ PoolRight s' := by
  have hnone : Admissible strStep ValueFits emptyState (countedReports (1, 1) 29) ∧
      (runSteps strStep emptyState (countedReports (1, 1) 29)).isNone = true := by decide +kernel
  refine ⟨hnone.1, ?_⟩
  rintro ⟨os, s', hrun, -⟩
  have hsome := hnone.2
  rw [hrun] at hsome
  cases hsome

end Results

end XrkMonitor.StrAttr
