import Mathlib.Data.Nat.Sqrt
import XrkMonitor.SharedHash.ListInvariant

/-!
# Attaching to a table that another process left

`MtReport_CreateHashTable` may find a segment that a process left in the middle of an
operation. With `bAccessCheck` it walks the links in both directions, counts the used
cells and resets the table when one of the counts is not `dwNodeUseCount`. The walks
have no bound, the counts say nothing about cells outside the list, and the reset
clears as many cells as one row has; `create_recovers_iff` says when the table is in
order afterwards.

## Implementation notes

`HashShm` is the segment: every content of it is a value of that type. The indices of the
walks are `int`, so an index above the range of `int` is negative there. A walk that
passes more used cells than the table has goes round a cycle and never ends, which
`checkWalk_none` states; `none` stands for it. The lock loops end holding the flag,
which is cleared by force after two seconds.
-/

namespace XrkMonitor.SharedHash

open Library SharedHashTable

/-- `(int)` of an unsigned word of 32 bits. -/
def toInt (w : Nat) : Int := if w < 2 ^ 31 then w else (w : Int) - 2 ^ 32

/-- `_HashNodeHead` as it lies in the segment. -/
structure ShmNodeHead where
  bIsUsed : UInt8
  dwNodePreIndex : UInt32
  dwNodeNextIndex : UInt32

/-- The segment of a table: `_HashTableHead` and the cells. -/
structure HashShm (α : Type*) where
  dwNodeStartIndex : UInt32
  dwNodeEndIndex : UInt32
  dwNodeUseCount : UInt32
  dwNodeSize : UInt32
  dwNodeCount : UInt32
  dwWriteProcessId : UInt32
  dwLastUseTimeSec : UInt32
  bHashUseFlag : UInt8
  nodeHead : Nat → ShmNodeHead
  node : Nat → α

/-- The sizes a caller asks for. The size of the segment they give fits into
`dwShareMemBytes`. -/
structure HashSize where
  dwNodeSize : UInt32
  dwNodeCount : UInt32
  size_ne : dwNodeSize ≠ 0
  count_ne : dwNodeCount ≠ 0
  fits : 29 + dwNodeCount.toNat * (dwNodeSize.toNat + 9) < 2 ^ 32

/-- The trial division of `IsPrime`. -/
def isPrime (dwNum : Nat) : Bool :=
  (List.range' 2 (Nat.sqrt dwNum - 1)).all fun i => dwNum % i != 0

/-- The inner loop over `dwTmp`: down to a prime, or to the first number below `1002`. -/
def rowFrom : Nat → Nat
  | 0 => 0
  | n + 1 => if 1002 ≤ n + 1 && !isPrime (n + 1) then rowFrom n else n + 1

/-- `dwNodeNums`, for the rows that are left. -/
def rowNums : Nat → Nat → List Nat
  | 0, _ => []
  | rows + 1, dwTmp => rowFrom (wordDec 32 dwTmp) :: rowNums rows (rowFrom (wordDec 32 dwTmp))

variable {α : Type*} {t : SharedHashTable α}

/-- The table as `MtReport_CreateHashTable` sets it up over a segment, before the check. -/
def attach (size : HashSize) (bAccessCheck : Bool) (cmp : α → α → Int) (shm : HashShm α) :
    SharedHashTable α :=
  let dwNodeNums := rowNums STATIC_HASH_ROW_MAX size.dwNodeCount.toNat
  let dwRealNodeCount := dwNodeNums.sum % 2 ^ 32
  { dwNodeSize := size.dwNodeSize.toNat
    dwRealNodeCount := dwRealNodeCount
    dwShareMemBytes := 29 + size.dwNodeCount.toNat * (size.dwNodeSize.toNat + 9)
    dwNodeNums := dwNodeNums
    bInitSuccess := true
    bAccessCheck := bAccessCheck
    dwCurIndex := dwRealNodeCount
    dwCurIndexRevers := dwRealNodeCount
    funCmp := cmp
    head :=
      { dwNodeStartIndex := shm.dwNodeStartIndex.toNat
        dwNodeEndIndex := shm.dwNodeEndIndex.toNat
        dwNodeUseCount := shm.dwNodeUseCount.toNat
        dwWriteProcessId := shm.dwWriteProcessId.toNat
        dwLastUseTimeSec := shm.dwLastUseTimeSec.toNat
        bHashUseFlag := shm.bHashUseFlag != 0 }
    nodeHead := fun i =>
      { bIsUsed := (shm.nodeHead i).bIsUsed != 0
        dwNodePreIndex := (shm.nodeHead i).dwNodePreIndex.toNat
        dwNodeNextIndex := (shm.nodeHead i).dwNodeNextIndex.toNat }
    node := shm.node
    attrSpec := [] }

/-- The condition of the walks of `CheckHashTable`, on `int`. -/
def inTable (t : SharedHashTable α) (i : Nat) : Bool :=
  0 ≤ toInt i && toInt i < toInt t.dwRealNodeCount

/-- One walk of `CheckHashTable`: the number of used cells it passes. -/
def checkWalk (t : SharedHashTable α) (link : Nat → Nat) : Nat → Nat → Option Nat
  | 0, _ => none
  | fuel + 1, i =>
    if inTable t i && t.used i then (checkWalk t link fuel (link i)).map (· + 1) else some 0

/-- `CheckHashTable` with the flag held; the second component is the table with the flag given
back. -/
def checkHashTable (now : Nat) (t : SharedHashTable α) : Option (Int × SharedHashTable α) :=
  if !t.bInitSuccess then some (-1, t)
  else
    let t' := t.setHead { t.head with
      dwLastUseTimeSec := now
      bHashUseFlag := false }
    let dwNodeUseCount := toInt t.head.dwNodeUseCount
    (checkWalk t t.next (t.dwRealNodeCount + 1) t.head.dwNodeStartIndex).bind fun forward =>
      if (forward : Int) ≠ dwNodeUseCount then some (-1, t')
      else
        (checkWalk t t.pre (t.dwRealNodeCount + 1) t.head.dwNodeEndIndex).bind fun backward =>
          if (backward : Int) ≠ dwNodeUseCount then some (-2, t') else some (0, t')

/-- `MtReport_CreateHashTable` over a segment that exists (`cShmInit` is 1). -/
def createHashTable [Inhabited α] (size : HashSize) (bAccessCheck : Bool) (cmp : α → α → Int)
    (now : Nat) (shm : HashShm α) : Option (Int × Option (SharedHashTable α)) :=
  if shm.dwNodeSize ≠ size.dwNodeSize ∨ shm.dwNodeCount ≠ size.dwNodeCount then some (-3, none)
  else
    let t := attach size bAccessCheck cmp shm
    if t.bAccessCheck then
      (checkHashTable now t).map fun check =>
        (0, some (if check.1 ≠ 0 then resetHashTable check.2 else check.2))
    else some (0, some t)

/-- A cell that a walk passes. -/
def Passes (t : SharedHashTable α) (i : Nat) : Prop := inTable t i = true ∧ t.used i = true

/-- A walk along the links passes the cells of `l` and ends. -/
def WalkEnds (t : SharedHashTable α) (link : Nat → Nat) (start : Nat) (l : List Nat) : Prop :=
  ∃ stop, Path link start l stop ∧ (∀ i ∈ l, Passes t i) ∧ ¬ Passes t stop

/-- No cell behind those that the reset clears is used. -/
def RestUnused (t : SharedHashTable α) : Prop :=
  ∀ i, resetCells t ≤ i → i < t.dwRealNodeCount → t.used i = false

/-- Both walks end; where a count is not `dwNodeUseCount`, the cells the reset leaves are unused,
and where both counts are right, the list is in order already. -/
def Recoverable (t : SharedHashTable α) : Prop :=
  ∃ l, WalkEnds t t.next t.head.dwNodeStartIndex l ∧
    if l.length ≠ t.head.dwNodeUseCount then RestUnused t
    else
      ∃ l', WalkEnds t t.pre t.head.dwNodeEndIndex l' ∧
        if l'.length ≠ t.head.dwNodeUseCount then RestUnused t else ∃ k, Linked t k

section Walks

variable {t : SharedHashTable α} {link : Nat → Nat} {start i n fuel : Nat} {l : List Nat}

theorem checkWalk_some (h : checkWalk t link fuel start = some n) :
    ∃ l, WalkEnds t link start l ∧ l.length = n := by
  induction fuel generalizing start n with
  | zero => cases h
  | succ fuel ih =>
    rw [checkWalk] at h
    split at h
    · rename_i hpass
      obtain ⟨m, hm, rfl⟩ := Option.map_eq_some_iff.mp h
      obtain ⟨l, ⟨stop, hpath, hall, hstop⟩, rfl⟩ := ih hm
      refine ⟨start :: l, ⟨stop, ⟨rfl, hpath⟩, ?_, hstop⟩, rfl⟩
      intro j hj
      obtain rfl | hj := List.mem_cons.mp hj
      · simpa [Passes] using hpass
      · exact hall j hj
    · rename_i hpass
      obtain rfl : 0 = n := Option.some.inj h
      exact ⟨[], ⟨start, rfl, by simp, by simpa [Passes] using hpass⟩, rfl⟩

theorem WalkEnds.checkWalk_eq (h : WalkEnds t link start l) (hfuel : l.length < fuel) :
    checkWalk t link fuel start = some l.length := by
  obtain ⟨stop, hpath, hall, hstop⟩ := h
  induction l generalizing start fuel with
  | nil =>
    obtain rfl : start = stop := hpath
    obtain ⟨fuel, rfl⟩ := Nat.exists_eq_add_of_lt hfuel
    have hpass : (inTable t start && t.used start) = false := by simpa [Passes] using hstop
    simp [checkWalk, hpass]
  | cons x xs ih =>
    obtain ⟨rfl, hpath⟩ := hpath
    obtain ⟨fuel, rfl⟩ : ∃ k, fuel = k + 1 := ⟨fuel - 1, by omega⟩
    have hpass : (inTable t start && t.used start) = true := by
      simpa [Passes] using hall start (by simp)
    have hrest : checkWalk t link fuel (link start) = some xs.length :=
      ih (by simpa using hfuel) hpath fun j hj => hall j (List.mem_cons_of_mem _ hj)
    simp [checkWalk, hpass, hrest]

theorem forall_lt_of_path {b bound : Nat} (hpath : Path link start l b) (hstart : start < bound)
    (hlink : ∀ i, link i < bound) : ∀ i ∈ l, i < bound := by
  induction l generalizing start with
  | nil => simp
  | cons x xs ih =>
    obtain ⟨rfl, hxs⟩ := hpath
    intro i hi
    obtain rfl | hi := List.mem_cons.mp hi
    · exact hstart
    · exact ih hxs (hlink start) i hi

theorem lt_of_inTable (hi : i < 2 ^ 32) (h : inTable t i = true) :
    (i : Int) < toInt t.dwRealNodeCount := by
  simp only [inTable, Bool.and_eq_true, decide_eq_true_eq] at h
  obtain ⟨hpos, hlt⟩ := h
  have hcast : toInt i = i := by
    unfold toInt at hpos ⊢
    split at hpos
    · rename_i hsmall
      rw [if_pos hsmall]
    · omega
  rwa [hcast] at hlt

theorem WalkEnds.length_lt (h : WalkEnds t link start l) (hreal : t.dwRealNodeCount < 2 ^ 32)
    (hstart : start < 2 ^ 32) (hlink : ∀ i, link i < 2 ^ 32) :
    l.length ≤ t.dwRealNodeCount ∧ l.length < 2 ^ 31 := by
  obtain ⟨stop, hpath, hall, hstop⟩ := h
  have hnd : l.Nodup := hpath.nodup fun hm => hstop (hall stop hm)
  have hsub : l ⊆ List.range (toInt t.dwRealNodeCount).toNat := by
    intro i hi
    have hlt := lt_of_inTable (forall_lt_of_path hpath hstart hlink i hi) (hall i hi).1
    exact List.mem_range.mpr (by omega)
  have hlen := (hnd.subperm hsub).length_le
  rw [List.length_range] at hlen
  unfold toInt at hlen
  split at hlen
  · omega
  · omega

theorem checkWalk_iff (hreal : t.dwRealNodeCount < 2 ^ 32) (hstart : start < 2 ^ 32)
    (hlink : ∀ i, link i < 2 ^ 32) :
    checkWalk t link (t.dwRealNodeCount + 1) start = some n ↔
      ∃ l, WalkEnds t link start l ∧ l.length = n := by
  constructor
  · exact checkWalk_some
  · rintro ⟨l, hl, rfl⟩
    exact hl.checkWalk_eq (by have := (hl.length_lt hreal hstart hlink).1; omega)

theorem cast_eq_toInt_iff {count : Nat} (hn : n < 2 ^ 31) (hcount : count < 2 ^ 32) :
    (n : Int) = toInt count ↔ n = count := by
  unfold toInt
  split
  · exact Nat.cast_inj
  · omega

/-- A walk of the check and the comparison of its count, in terms of the cells it passes. -/
theorem checkWalk_bind_iff {β : Type*} {count : Nat} {bad : β} {good : Option β} {P : β → Prop}
    (hreal : t.dwRealNodeCount < 2 ^ 32) (hcount : count < 2 ^ 32) (hstart : start < 2 ^ 32)
    (hlink : ∀ i, link i < 2 ^ 32) :
    (∃ b, ((checkWalk t link (t.dwRealNodeCount + 1) start).bind fun n =>
        if (n : Int) ≠ toInt count then some bad else good) = some b ∧ P b) ↔
      ∃ l, WalkEnds t link start l ∧
        if l.length ≠ count then P bad else ∃ b, good = some b ∧ P b := by
  have hcompare : ∀ l, WalkEnds t link start l → ((l.length : Int) ≠ toInt count ↔ l.length ≠ count) :=
    fun l hl => not_congr (cast_eq_toInt_iff (hl.length_lt hreal hstart hlink).2 hcount)
  constructor
  · rintro ⟨b, hb, hP⟩
    obtain ⟨n, hn, hb⟩ := Option.bind_eq_some_iff.mp hb
    obtain ⟨l, hl, rfl⟩ := checkWalk_some hn
    refine ⟨l, hl, ?_⟩
    by_cases hne : l.length ≠ count
    · rw [if_pos hne]
      rw [if_pos ((hcompare l hl).mpr hne)] at hb
      exact Option.some.inj hb ▸ hP
    · rw [if_neg hne]
      rw [if_neg (mt (hcompare l hl).mp hne)] at hb
      exact ⟨b, hb, hP⟩
  · rintro ⟨l, hl, hP⟩
    have hwalk := (checkWalk_iff hreal hstart hlink).mpr ⟨l, hl, rfl⟩
    rw [hwalk, Option.bind_some]
    by_cases hne : l.length ≠ count
    · rw [if_pos hne] at hP
      exact ⟨bad, if_pos ((hcompare l hl).mpr hne), hP⟩
    · rw [if_neg hne] at hP
      rw [if_neg (mt (hcompare l hl).mp hne)]
      exact hP

end Walks

section Create

variable [Inhabited α] {t : SharedHashTable α} {now : Nat}

/-- The reset leaves a table in order exactly if it clears every used cell. -/
theorem resetHashTable_linked_iff (hinit : t.bInitSuccess = true) :
    (∃ l, Linked (resetHashTable t) l) ↔ RestUnused t := by
  have hused : ∀ i, (resetHashTable t).used i = if i < resetCells t then false else t.used i := by
    intro i
    simp only [resetHashTable, hinit, if_true, used_report]
    simp only [used]
    split
    · rfl
    · rfl
  have hhead : (resetHashTable t).head.dwNodeStartIndex = t.dwRealNodeCount ∧
      (resetHashTable t).head.dwNodeEndIndex = t.dwRealNodeCount ∧
      (resetHashTable t).head.dwNodeUseCount = 0 ∧
      (resetHashTable t).dwRealNodeCount = t.dwRealNodeCount := by
    simp [resetHashTable, hinit]
  obtain ⟨hstart, hend, hcount, hreal⟩ := hhead
  constructor
  · rintro ⟨l, hl⟩ i hle hlt
    obtain rfl : l = [] := List.length_eq_zero_iff.mp (hl.count.symm.trans hcount)
    have hunused := hl.eq_nil_iff.mp rfl i (hreal ▸ hlt)
    rwa [hused, if_neg (Nat.not_lt.mpr hle)] at hunused
  · intro hrest
    refine ⟨[], hstart.trans hreal.symm, hend.trans hreal.symm, List.nodup_nil, ?_, hcount⟩
    intro i
    rw [hused, hreal]
    by_cases hlt : i < resetCells t
    · simp [hlt]
    · simpa [hlt] using hrest i (Nat.not_lt.mp hlt)

omit [Inhabited α] in
theorem linked_unlock_iff {l : List Nat} :
    Linked (t.setHead { t.head with
      dwLastUseTimeSec := now
      bHashUseFlag := false }) l ↔ Linked t l :=
  ⟨fun h => h.of_head t.head rfl rfl rfl, fun h => h.of_head _ rfl rfl rfl⟩

theorem check_recovers_iff (now : Nat) (hinit : t.bInitSuccess = true)
    (hreal : t.dwRealNodeCount < 2 ^ 32) (hcount : t.head.dwNodeUseCount < 2 ^ 32)
    (hstart : t.head.dwNodeStartIndex < 2 ^ 32) (hend : t.head.dwNodeEndIndex < 2 ^ 32)
    (hnext : ∀ i, t.next i < 2 ^ 32) (hpre : ∀ i, t.pre i < 2 ^ 32) :
    (∃ check, checkHashTable now t = some check ∧
      ∃ l, Linked (if check.1 ≠ 0 then resetHashTable check.2 else check.2) l) ↔
        Recoverable t := by
  obtain ⟨t', ht'⟩ : ∃ t', t' = t.setHead { t.head with
      dwLastUseTimeSec := now
      bHashUseFlag := false } := ⟨_, rfl⟩
  have hreset : (∃ l, Linked (resetHashTable t') l) ↔ RestUnused t := by
    subst ht'
    exact resetHashTable_linked_iff (t := t.setHead _) hinit
  have hkeep : (∃ l, Linked t' l) ↔ ∃ l, Linked t l := by
    subst ht'
    exact exists_congr fun l => linked_unlock_iff
  have hcheck : checkHashTable now t =
      (checkWalk t t.next (t.dwRealNodeCount + 1) t.head.dwNodeStartIndex).bind fun forward =>
        if (forward : Int) ≠ toInt t.head.dwNodeUseCount then some (-1, t')
        else (checkWalk t t.pre (t.dwRealNodeCount + 1) t.head.dwNodeEndIndex).bind fun backward =>
          if (backward : Int) ≠ toInt t.head.dwNodeUseCount then some (-2, t')
          else some (0, t') := by
    simp only [checkHashTable, hinit, Bool.not_true, Bool.false_eq_true, if_false, ht']
  rw [hcheck, checkWalk_bind_iff hreal hcount hstart hnext, checkWalk_bind_iff hreal hcount hend hpre]
  simp [Recoverable, hreset, hkeep]

theorem createHashTable_eq (size : HashSize) (cmp : α → α → Int) (now : Nat) (shm : HashShm α)
    (hsize : shm.dwNodeSize = size.dwNodeSize) (hcount : shm.dwNodeCount = size.dwNodeCount) :
    createHashTable size true cmp now shm =
      (checkHashTable now (attach size true cmp shm)).map fun check =>
        (0, some (if check.1 ≠ 0 then resetHashTable check.2 else check.2)) := by
  rw [createHashTable, if_neg (by simp [hsize, hcount])]
  rfl

end Create

/-- For every segment whose head has the sizes the caller asks for: with `bAccessCheck`,
`MtReport_CreateHashTable` ends and leaves a table whose list is in order exactly if both walks
end and, where a count is wrong, the reset clears every used cell, and where both counts are
right, the list was in order already. -/
theorem create_recovers_iff [Inhabited α] (size : HashSize) (cmp : α → α → Int) (now : Nat)
    (shm : HashShm α) (hsize : shm.dwNodeSize = size.dwNodeSize)
    (hcount : shm.dwNodeCount = size.dwNodeCount) :
    (∃ t, createHashTable size true cmp now shm = some (0, some t) ∧ ∃ l, Linked t l) ↔
      Recoverable (attach size true cmp shm) := by
  rw [← check_recovers_iff (t := attach size true cmp shm) now rfl
    (Nat.mod_lt _ (by decide)) (UInt32.toNat_lt _) (UInt32.toNat_lt _) (UInt32.toNat_lt _)
    (fun _ => UInt32.toNat_lt _) (fun _ => UInt32.toNat_lt _)]
  rw [createHashTable_eq size cmp now shm hsize hcount]
  constructor
  · rintro ⟨t, ht, hl⟩
    obtain ⟨check, hcheck, heq⟩ := Option.map_eq_some_iff.mp ht
    obtain rfl := Option.some.inj (Prod.mk.inj heq).2
    exact ⟨check, hcheck, hl⟩
  · rintro ⟨check, hcheck, hl⟩
    exact ⟨_, by rw [hcheck]; rfl, hl⟩

/-- `MTATTR_HASH_NODE` nodes of 16 bytes. -/
def attrHashSize : HashSize where
  dwNodeSize := 16
  dwNodeCount := 2000
  size_ne := by decide
  count_ne := by decide
  fits := by decide

/-- The comparator of a table of numbers. -/
def numCmp (pKey pNode : Nat) : Int := if pKey = pNode then 0 else 1

/-- A segment of numbers that a process left, by its list fields and used cells. -/
def leftShm (dwNodeStartIndex dwNodeEndIndex dwNodeUseCount : UInt32)
    (nodeHead : Nat → ShmNodeHead) : HashShm Nat where
  dwNodeStartIndex := dwNodeStartIndex
  dwNodeEndIndex := dwNodeEndIndex
  dwNodeUseCount := dwNodeUseCount
  dwNodeSize := 16
  dwNodeCount := 2000
  dwWriteProcessId := 0
  dwLastUseTimeSec := 0
  bHashUseFlag := 0
  nodeHead := nodeHead
  node := fun _ => 0

/-- A process counted its first node and died before it linked it. -/
theorem create_recovers_iff_firstInsert :
    ∃ t, createHashTable attrHashSize true numCmp 100 (leftShm 19692 19692 1 fun _ => ⟨0, 0, 0⟩) =
        some (0, some t) ∧ ∃ l, Linked t l := by
  apply (create_recovers_iff attrHashSize numCmp 100 _ rfl rfl).mpr
  refine ⟨[], ⟨19692, rfl, by simp, ?_⟩, ?_⟩
  · rintro ⟨-, hused⟩
    cases hused
  · rw [if_pos (by decide)]
    exact fun _ _ _ => rfl

theorem checkWalk_self {link : Nat → Nat} {i : Nat} (hpass : Passes t i)
    (hlink : link i = i) (fuel : Nat) : checkWalk t link fuel i = none := by
  induction fuel with
  | zero => rfl
  | succ fuel ih =>
    rw [checkWalk, if_pos (by simpa [Passes] using hpass), hlink, ih]
    rfl

theorem checkHashTable_eq_none {now : Nat} (hinit : t.bInitSuccess = true)
    (h : checkWalk t t.next (t.dwRealNodeCount + 1) t.head.dwNodeStartIndex = none) :
    checkHashTable now t = none := by
  simp only [checkHashTable, hinit, Bool.not_true, Bool.false_eq_true, if_false, h, Option.bind_none]

/-- One node in row 1; a process counted a second one and died before it linked it. -/
def secondInsertShm : HashShm Nat :=
  leftShm 2000 2000 2 fun i => if i = 2000 then ⟨1, 19692, 19692⟩ else ⟨0, 0, 0⟩

/-- One node, which links to itself. -/
def selfLinkedShm : HashShm Nat := leftShm 0 0 1 fun i => if i = 0 then ⟨1, 0, 0⟩ else ⟨0, 0, 0⟩

/-- The count of used cells is wrong, and the reset clears only as many cells as the caller asked
for, so the used cell of row 1 is left and in no list. Over a cell that links to itself the
check never ends. -/
theorem create_leaves_used_cell :
    (∃ t, createHashTable attrHashSize true numCmp 100 secondInsertShm = some (0, some t) ∧
      t.used 2000 = true ∧ t.head.dwNodeUseCount = 0 ∧ ¬ ∃ l, Linked t l) ∧
    createHashTable attrHashSize true numCmp 100 selfLinkedShm = none := by
  constructor
  · have hread : ((createHashTable attrHashSize true numCmp 100 secondInsertShm).map
        fun r => (r.1, r.2.map fun t => (t.used 2000, t.head.dwNodeUseCount, t.dwRealNodeCount))) =
        some (0, some (true, 0, 19692)) := by
      decide +kernel
    obtain ⟨⟨ret, found⟩, hcreate, hr⟩ := Option.map_eq_some_iff.mp hread
    obtain ⟨rfl, hfound⟩ := Prod.mk.inj hr
    obtain ⟨t, rfl, ht⟩ := Option.map_eq_some_iff.mp hfound
    obtain ⟨hused, ht⟩ := Prod.mk.inj ht
    obtain ⟨hcount, hreal⟩ := Prod.mk.inj ht
    refine ⟨t, hcreate, hused, hcount, ?_⟩
    rintro ⟨l, hl⟩
    have hmem : 2000 ∈ l := (hl.mem 2000).mpr ⟨by rw [hreal]; decide, hused⟩
    obtain rfl : l = [] := List.length_eq_zero_iff.mp (hl.count.symm.trans hcount)
    cases hmem
  · have hpass : Passes (attach attrHashSize true numCmp selfLinkedShm) 0 :=
      ⟨by decide +kernel, by decide⟩
    rw [createHashTable_eq _ _ _ _ rfl rfl, checkHashTable_eq_none rfl (checkWalk_self hpass rfl _)]
    rfl

end XrkMonitor.SharedHash
