import XrkMonitor.Attr.Sums

/-!
# The special list between its callers and the drain

Any number of processes call `MtReport_Attr_Spec` while the agent drains the list.
The count of the list is read and written without a lock. `iAttrSpecialCount++`
is not taken back where the list is full, the drain subtracts 120 from a count
that may have become smaller since its check, and it moves as many slots as the
count says at that time.

## Implementation notes

A step is one access to the shared memory, or a test of local values only. The
copy of `memcpy` and `memmove` goes slot by slot; its length is a product in
`unsigned`. A slot outside the list is a place of other memory. What the drain
does with its copies is in `ReadAttr` of the batches, and left out here.
-/

namespace XrkMonitor.Attr

open Library

/-- `MYSIZEOF(AttrNode)`. -/
def sizeofAttrNode : Nat := 9

/-- The count and the slots of the special list. -/
structure SpecShm where
  iAttrSpecialCount : Int
  sArrtListSpec : Int → AttrNode

/-- The arguments of a call of `MtReport_Attr_Spec`. -/
structure SpecCall where
  attr : Int
  iValue : Int
deriving Repr, DecidableEq

/-- Where a caller of `MtReport_Attr_Spec` stands: idle with its last result, or in front of the
test of its loop, of the comparison with a slot, of the test behind the loop, of the two halves of
`iAttrSpecialCount++`, of the test of the old count, and of the accesses to the slot that it has
chosen. -/
inductive CallerAt
  | idle (iRet : Int)
  | loopTest (call : SpecCall) (i : Int)
  | compare (call : SpecCall) (i : Int)
  | foundTest (call : SpecCall) (i : Int)
  | loadCount (call : SpecCall)
  | storeCount (call : SpecCall) (i : Int)
  | fullTest (call : SpecCall) (i : Int)
  | writeId (call : SpecCall) (i : Int)
  | writeValue (call : SpecCall) (i : Int)
  | loadValue (call : SpecCall) (i : Int)
  | storeValue (i iCurValue : Int)
deriving Repr, DecidableEq

/-- Where the drain stands: in front of its three tests of the count, in the two copies, and in
front of its accesses to the count. -/
inductive DrainAt
  | idle
  | smallTest
  | largeTest
  | loadAll
  | copyAll (iLen j : Nat)
  | loadRead
  | storeZero
  | copyPart (j : Nat)
  | loadPart
  | storePart (iCount : Int)
  | loadMove
  | move (iLen j : Nat)
deriving Repr, DecidableEq

def SpecShm.setCount (m : SpecShm) (iAttrSpecialCount : Int) : SpecShm :=
  { m with iAttrSpecialCount := int32 iAttrSpecialCount }

def SpecShm.setSlot (m : SpecShm) (i : Int) (node : AttrNode) : SpecShm :=
  { m with sArrtListSpec := Function.update m.sArrtListSpec i node }

/-- The start of `MtReport_Attr_Spec`. -/
def callerStart (call : SpecCall) : CallerAt :=
  if call.attr ≤ 0 ∨ call.iValue ≤ 0 then .idle (-1) else .loopTest call 0

/-- The next step of a caller. -/
def callerStep (m : SpecShm) : CallerAt → CallerAt × SpecShm
  | .idle iRet => (.idle iRet, m)
  | .loopTest call i =>
    (if i < m.iAttrSpecialCount then .compare call i else .foundTest call i, m)
  | .compare call i =>
    (if (m.sArrtListSpec i).iAttrID = call.attr then .foundTest call i
      else .loopTest call (i + 1), m)
  | .foundTest call i =>
    (if m.iAttrSpecialCount ≤ i then .loadCount call else .loadValue call i, m)
  | .loadCount call => (.storeCount call m.iAttrSpecialCount, m)
  | .storeCount call i => (.fullTest call i, m.setCount (i + 1))
  | .fullTest call i => (if MTATTR_SPECIAL_COUNT ≤ i then .idle (-1) else .writeId call i, m)
  | .writeId call i =>
    (.writeValue call i, m.setSlot i { m.sArrtListSpec i with iAttrID := call.attr })
  | .writeValue call i =>
    (.idle 0, m.setSlot i { m.sArrtListSpec i with iCurValue := call.iValue })
  | .loadValue call i =>
    (.storeValue i (int32 ((m.sArrtListSpec i).iCurValue + call.iValue)), m)
  | .storeValue i iCurValue =>
    (.idle 0, m.setSlot i { m.sArrtListSpec i with iCurValue := iCurValue })

/-- The slot that the next step of a caller reads or writes. -/
def callerSlot : CallerAt → Option Int
  | .compare _ i | .writeId _ i | .writeValue _ i | .loadValue _ i | .storeValue i _ => some i
  | _ => none

/-- The bytes that `memcpy` or `memmove` gets for `n` slots. -/
def copyLen (n : Int) : Nat := (sizeofAttrNode * n % 2 ^ 32).toNat

/-- The next step of the drain; from `idle` it begins. -/
def drainStep (m : SpecShm) : DrainAt → DrainAt × SpecShm
  | .idle => (if 0 < m.iAttrSpecialCount then .smallTest else .largeTest, m)
  | .smallTest =>
    (if m.iAttrSpecialCount ≤ MAX_ATTR_READ_PER_EACH then .loadAll else .largeTest, m)
  | .largeTest =>
    (if MAX_ATTR_READ_PER_EACH < m.iAttrSpecialCount then .copyPart 0 else .idle, m)
  | .loadAll => (.copyAll (copyLen m.iAttrSpecialCount) 0, m)
  | .copyAll iLen j => (if sizeofAttrNode * j < iLen then .copyAll iLen (j + 1) else .loadRead, m)
  | .loadRead => (.storeZero, m)
  | .storeZero => (.idle, m.setCount 0)
  | .copyPart j => (if j < MAX_ATTR_READ_PER_EACH then .copyPart (j + 1) else .loadPart, m)
  | .loadPart => (.storePart m.iAttrSpecialCount, m)
  | .storePart iCount => (.loadMove, m.setCount (iCount - MAX_ATTR_READ_PER_EACH))
  | .loadMove => (.move (copyLen m.iAttrSpecialCount) 0, m)
  | .move iLen j =>
    if sizeofAttrNode * j < iLen then
      (.move iLen (j + 1), m.setSlot j (m.sArrtListSpec (MAX_ATTR_READ_PER_EACH + j)))
    else (.idle, m)

/-- The slots that the next step of the drain reads or writes. -/
def drainSlots : DrainAt → List Int
  | .copyAll iLen j => if sizeofAttrNode * j < iLen then [(j : Int)] else []
  | .copyPart j => if j < MAX_ATTR_READ_PER_EACH then [(j : Int)] else []
  | .move iLen j =>
    if sizeofAttrNode * j < iLen then [(j : Int), (MAX_ATTR_READ_PER_EACH : Int) + j] else []
  | _ => []

variable {ι : Type} [DecidableEq ι]

/-- The shared list with its callers and the drain. -/
structure SpecList (ι : Type) where
  shm : SpecShm
  callers : ι → CallerAt
  drain : DrainAt

/-- A caller that is idle makes a call; a caller goes on; the drain goes on. -/
inductive SpecStep (ι : Type)
  | call (p : ι) (call : SpecCall)
  | caller (p : ι)
  | drain

def SpecList.setCaller (s : SpecList ι) (p : ι) (r : CallerAt × SpecShm) : SpecList ι :=
  { s with callers := Function.update s.callers p r.1, shm := r.2 }

/-- One step of one of the processes. -/
def specStep (s : SpecList ι) : SpecStep ι → SpecList ι
  | .call p call =>
    match s.callers p with
    | .idle _ => s.setCaller p (callerStart call, s.shm)
    | _ => s
  | .caller p => s.setCaller p (callerStep s.shm (s.callers p))
  | .drain =>
    { s with drain := (drainStep s.shm s.drain).1, shm := (drainStep s.shm s.drain).2 }

/-- The cleared list, with nobody at work. -/
def emptyList : SpecList ι where
  shm := ⟨0, fun _ => default⟩
  callers := fun _ => .idle 0
  drain := .idle

/-- A slot of the list. -/
def InList (i : Int) : Prop := 0 ≤ i ∧ i < MTATTR_SPECIAL_COUNT

/-- The count is within its bounds, and the slots that the next steps read or write are inside the
list. -/
structure SpecBounded (s : SpecList ι) : Prop where
  count : 0 ≤ s.shm.iAttrSpecialCount ∧ s.shm.iAttrSpecialCount ≤ MTATTR_SPECIAL_COUNT
  callers : ∀ p, ∀ i ∈ callerSlot (s.callers p), InList i
  drain : ∀ i ∈ drainSlots s.drain, InList i

/-- A caller that stores the count has found it below 200. -/
def callerOk : CallerAt → Bool
  | .storeCount _ i => decide (i < MTATTR_SPECIAL_COUNT)
  | _ => true

/-- The drain has found at least 120 when it subtracts them, and finds at most 80 left when it
moves. -/
def drainOk (m : SpecShm) : DrainAt → Bool
  | .storePart iCount => decide ((MAX_ATTR_READ_PER_EACH : Int) ≤ iCount)
  | .loadMove =>
    decide (m.iAttrSpecialCount ≤ (MTATTR_SPECIAL_COUNT : Int) - MAX_ATTR_READ_PER_EACH)
  | _ => true

/-- The state before a step lets the step be. -/
def specStepOk (s : SpecList ι) : SpecStep ι → Bool
  | .call _ _ => true
  | .caller p => callerOk (s.callers p)
  | .drain => drainOk s.shm s.drain

section Accesses

variable {m m' : SpecShm}

end Accesses

section Bounds

/-- The places that a caller holds are inside the list, or at its end where they are not tested. -/
def CallerIn : CallerAt → Prop
  | .loopTest _ i | .foundTest _ i | .storeCount _ i | .fullTest _ i =>
    0 ≤ i ∧ i ≤ MTATTR_SPECIAL_COUNT
  | .compare _ i | .writeId _ i | .writeValue _ i | .loadValue _ i | .storeValue i _ => InList i
  | .idle _ | .loadCount _ => True

/-- The lengths that the drain holds stay inside the list. -/
def DrainIn : DrainAt → Prop
  | .copyAll iLen _ => iLen ≤ sizeofAttrNode * MTATTR_SPECIAL_COUNT
  | .storePart iCount => iCount ≤ MTATTR_SPECIAL_COUNT
  | .move iLen _ => iLen ≤ sizeofAttrNode * (MTATTR_SPECIAL_COUNT - MAX_ATTR_READ_PER_EACH)
  | _ => True

/-- The count is within its bounds. -/
def CountIn (m : SpecShm) : Prop :=
  0 ≤ m.iAttrSpecialCount ∧ m.iAttrSpecialCount ≤ MTATTR_SPECIAL_COUNT

/-- The invariant: all that the processes hold is inside the list. -/
structure SpecInv (s : SpecList ι) : Prop where
  count : CountIn s.shm
  callers : ∀ p, CallerIn (s.callers p)
  drain : DrainIn s.drain

variable {m : SpecShm} {n : Int} {s : SpecList ι}

theorem count_setCount (h0 : 0 ≤ n) (h : n < 2 ^ 31) :
    (m.setCount n).iAttrSpecialCount = n := int32_of_range h0 h

theorem countIn_setCount (h0 : 0 ≤ n) (h : n ≤ MTATTR_SPECIAL_COUNT) :
    CountIn (m.setCount n) := by
  have hn : n ≤ 200 := h
  rw [CountIn, count_setCount h0 (by omega)]
  exact ⟨h0, h⟩

theorem copyLen_eq (h0 : 0 ≤ n) (h : n ≤ MTATTR_SPECIAL_COUNT) :
    (copyLen n : Int) = sizeofAttrNode * n := by
  have hn : n ≤ 200 := h
  change (((9 * n) % 2 ^ 32).toNat : Int) = 9 * n
  rw [Int.emod_eq_of_lt (by omega) (by omega)]
  exact Int.toNat_of_nonneg (by omega)

theorem callerIn_start (call : SpecCall) : CallerIn (callerStart call) := by
  unfold callerStart
  split
  · trivial
  · exact ⟨le_refl 0, by decide⟩

/-- A step of a caller keeps the count and its own places in their bounds. -/
theorem callerStep_in (c : CallerAt) (hm : CountIn m) (hc : CallerIn c)
    (hok : callerOk c = true) :
    CallerIn (callerStep m c).1 ∧ CountIn (callerStep m c).2 := by
  obtain ⟨h0, hle⟩ := hm
  cases c with
  | idle iRet => exact ⟨trivial, h0, hle⟩
  | loopTest call i =>
    refine ⟨?_, h0, hle⟩
    rw [callerStep]
    split
    · rename_i hlt
      exact ⟨hc.1, lt_of_lt_of_le hlt hle⟩
    · exact hc
  | compare call i =>
    obtain ⟨hi0, hi⟩ : 0 ≤ i ∧ i < MTATTR_SPECIAL_COUNT := hc
    refine ⟨?_, h0, hle⟩
    rw [callerStep]
    split
    · exact ⟨hi0, hi.le⟩
    · exact ⟨by omega, by omega⟩
  | foundTest call i =>
    refine ⟨?_, h0, hle⟩
    rw [callerStep]
    split
    · trivial
    · rename_i hlt
      exact ⟨hc.1, lt_of_lt_of_le (Int.not_le.mp hlt) hle⟩
  | loadCount call => exact ⟨⟨h0, hle⟩, h0, hle⟩
  | storeCount call i =>
    have hi : i < MTATTR_SPECIAL_COUNT := of_decide_eq_true hok
    obtain ⟨hi0, -⟩ : 0 ≤ i ∧ i ≤ MTATTR_SPECIAL_COUNT := hc
    exact ⟨⟨hi0, hi.le⟩, countIn_setCount (by omega) (by omega)⟩
  | fullTest call i =>
    refine ⟨?_, h0, hle⟩
    rw [callerStep]
    split
    · trivial
    · rename_i hlt
      exact ⟨hc.1, Int.not_le.mp hlt⟩
  | writeId call i => exact ⟨hc, h0, hle⟩
  | writeValue call i => exact ⟨trivial, h0, hle⟩
  | loadValue call i => exact ⟨hc, h0, hle⟩
  | storeValue i v => exact ⟨trivial, h0, hle⟩

theorem drainStep_in (d : DrainAt) (hm : CountIn m) (hd : DrainIn d) (hok : drainOk m d = true) :
    DrainIn (drainStep m d).1 ∧ CountIn (drainStep m d).2 := by
  obtain ⟨h0, hle⟩ := hm
  have hlen := copyLen_eq h0 hle
  cases d with
  | idle | smallTest | largeTest | copyPart j =>
    refine ⟨?_, h0, hle⟩
    rw [drainStep]
    split <;> trivial
  | loadAll =>
    refine ⟨?_, h0, hle⟩
    change copyLen m.iAttrSpecialCount ≤ 9 * 200
    have hle : m.iAttrSpecialCount ≤ 200 := hle
    have hlen : (copyLen m.iAttrSpecialCount : Int) = 9 * m.iAttrSpecialCount := hlen
    omega
  | copyAll iLen j =>
    refine ⟨?_, h0, hle⟩
    rw [drainStep]
    split
    · exact hd
    · trivial
  | loadRead => exact ⟨trivial, h0, hle⟩
  | storeZero => exact ⟨trivial, countIn_setCount (le_refl 0) (by decide)⟩
  | loadPart => exact ⟨hle, h0, hle⟩
  | storePart iCount =>
    have hge : (MAX_ATTR_READ_PER_EACH : Int) ≤ iCount := of_decide_eq_true hok
    have hcount : iCount ≤ MTATTR_SPECIAL_COUNT := hd
    exact ⟨trivial, countIn_setCount (by omega) (by omega)⟩
  | loadMove =>
    refine ⟨?_, h0, hle⟩
    change copyLen m.iAttrSpecialCount ≤ 9 * (200 - 120)
    have hmove : m.iAttrSpecialCount ≤ 200 - 120 := of_decide_eq_true hok
    have hlen : (copyLen m.iAttrSpecialCount : Int) = 9 * m.iAttrSpecialCount := hlen
    omega
  | move iLen j =>
    rw [drainStep]
    split
    · exact ⟨hd, h0, hle⟩
    · exact ⟨trivial, h0, hle⟩

omit [DecidableEq ι] in
/-- Processes whose places are inside the list read and write inside it. -/
theorem SpecInv.bounded (h : SpecInv s) : SpecBounded s where
  count := h.count
  callers := by
    intro p i hi
    have hp := h.callers p
    generalize s.callers p = c at hi hp
    cases c with
    | compare call j | writeId call j | writeValue call j | loadValue call j | storeValue j v =>
      obtain rfl : j = i := Option.some.inj hi
      exact hp
    | _ => cases hi
  drain := by
    intro i hi
    have hd := h.drain
    unfold InList
    generalize s.drain = d at hi hd
    cases d with
    | copyAll iLen j =>
      have hd : iLen ≤ 9 * 200 := hd
      rw [drainSlots] at hi
      split at hi
      · rename_i hlt
        have hlt : 9 * j < iLen := hlt
        obtain rfl := List.mem_singleton.mp hi
        change 0 ≤ (j : Int) ∧ (j : Int) < 200
        omega
      · cases hi
    | copyPart j =>
      rw [drainSlots] at hi
      split at hi
      · rename_i hlt
        have hlt : j < 120 := hlt
        obtain rfl := List.mem_singleton.mp hi
        change 0 ≤ (j : Int) ∧ (j : Int) < 200
        omega
      · cases hi
    | move iLen j =>
      have hd : iLen ≤ 9 * (200 - 120) := hd
      rw [drainSlots] at hi
      split at hi
      · rename_i hlt
        have hlt : 9 * j < iLen := hlt
        change 0 ≤ i ∧ i < 200
        rcases List.mem_cons.mp hi with rfl | hi
        · omega
        · obtain rfl := List.mem_singleton.mp hi
          change 0 ≤ (120 : Int) + j ∧ (120 : Int) + j < 200
          omega
      · cases hi
    | _ => cases hi

theorem specInv_setCaller (h : SpecInv s) (p : ι) {r : CallerAt × SpecShm}
    (hr : CallerIn r.1) (hcount : CountIn r.2) : SpecInv (s.setCaller p r) where
  count := hcount
  callers := by
    intro q
    by_cases hq : q = p
    · subst hq
      have heq : (s.setCaller q r).callers q = r.1 := Function.update_self _ _ _
      rw [heq]
      exact hr
    · have heq : (s.setCaller p r).callers q = s.callers q := Function.update_of_ne hq _ _
      rw [heq]
      exact h.callers q
  drain := h.drain

theorem specStep_inv (s : SpecList ι) (a : SpecStep ι) (h : SpecInv s)
    (hok : specStepOk s a = true) : SpecInv (specStep s a) := by
  cases a with
  | call p call =>
    rw [specStep]
    split
    · exact specInv_setCaller h p (callerIn_start call) h.count
    · exact h
  | caller p =>
    obtain ⟨hc, hm⟩ := callerStep_in (s.callers p) h.count (h.callers p) hok
    exact specInv_setCaller h p hc hm
  | drain =>
    obtain ⟨hd, hm⟩ := drainStep_in s.drain h.count h.drain hok
    exact ⟨hm, h.callers, hd⟩

omit [DecidableEq ι] in
theorem specInv_emptyList : SpecInv (emptyList : SpecList ι) where
  count := by
    change (0 : Int) ≤ 0 ∧ (0 : Int) ≤ 200
    omega
  callers := fun _ => trivial
  drain := trivial

/-- For every interleaving of any number of callers with the drain, from the cleared list on: as
long as the steps find the states that they need, the count is within its bounds in every state, and
every slot that is read or written is inside the list. -/
theorem spec_list_bounded (ι : Type) [DecidableEq ι] (as : List (SpecStep ι))
    (hok : Along specStep (fun s a => specStepOk s a = true) emptyList as) (n : Nat) :
    SpecBounded ((as.take n).foldl specStep (emptyList : SpecList ι)) := by
  have hinv := Along.invariant specStep_inv (hok.take n) specInv_emptyList
  exact hinv.bounded

/-- Two callers with their scans side by side, and a drain. -/
def twoCallers : List (SpecStep Nat) :=
  [.call 0 ⟨5, 1⟩, .call 1 ⟨6, 2⟩, .caller 0, .caller 1, .caller 0, .caller 1] ++
    List.replicate 5 (.caller 0) ++ List.replicate 5 (.caller 1) ++ List.replicate 9 .drain

theorem spec_list_bounded_twoCallers :
    SpecBounded ((twoCallers.take 25).foldl specStep (emptyList : SpecList Nat)) :=
  spec_list_bounded Nat twoCallers (by decide +kernel) 25

end Bounds

section Alone

/-- Steps of one caller while nobody else is at work. -/
def callerRun : Nat → CallerAt × SpecShm → CallerAt × SpecShm
  | 0, r => r
  | k + 1, r => callerRun k (callerStep r.2 r.1)

variable {s : SpecList ι} {p : ι}

theorem setCaller_self (r : CallerAt × SpecShm) : (s.setCaller p r).callers p = r.1 :=
  Function.update_self _ _ _

theorem setCaller_shm (r : CallerAt × SpecShm) : (s.setCaller p r).shm = r.2 := rfl

theorem setCaller_setCaller (r r' : CallerAt × SpecShm) :
    (s.setCaller p r).setCaller p r' = s.setCaller p r' := by
  unfold SpecList.setCaller
  simp only [Function.update_idem]

theorem specStep_caller {c : CallerAt} (h : s.callers p = c) :
    specStep s (.caller p) = s.setCaller p (callerStep s.shm c) := by
  rw [specStep, h]

theorem foldl_caller (k : Nat) (r : CallerAt × SpecShm) :
    (List.replicate k (.caller p)).foldl specStep (s.setCaller p r) =
      s.setCaller p (callerRun k r) := by
  induction k generalizing r with
  | zero => rfl
  | succ k ih =>
    rw [List.replicate_succ, List.foldl_cons, specStep_caller (setCaller_self r),
      setCaller_setCaller]
    exact ih _

theorem foldl_call {iRet : Int} (hp : s.callers p = .idle iRet) (call : SpecCall) (k : Nat) :
    (.call p call :: List.replicate k (.caller p)).foldl specStep s =
      s.setCaller p (callerRun k (callerStart call, s.shm)) := by
  have hfirst : specStep s (.call p call) = s.setCaller p (callerStart call, s.shm) := by
    rw [specStep, hp]
  rw [List.foldl_cons, hfirst, foldl_caller]

/-- The list of the calls that are one step each. -/
def shmOf (a : AttrShm) : SpecShm where
  iAttrSpecialCount := a.iAttrSpecialCount
  sArrtListSpec := fun i => if 0 ≤ i then a.sArrtListSpec i.toNat else default

variable {a : AttrShm} {call : SpecCall}

end Alone

section Overrun

/-- The first `n` callers begin at the empty list and come to `iAttrSpecialCount++`. -/
def joinSteps (n : Nat) : List (SpecStep Nat) :=
  (List.range n).flatMap fun p => .call p ⟨1, 1⟩ :: List.replicate 2 (.caller p)

/-- The first `n` callers advance the count one after the other. -/
def advanceSteps (n : Nat) : List (SpecStep Nat) :=
  (List.range n).flatMap fun p => List.replicate 2 (.caller p)

theorem foldl_joinSteps (n : Nat) :
    (joinSteps n).foldl specStep emptyList =
      { (emptyList : SpecList Nat) with
        callers := fun p => if p < n then .loadCount ⟨1, 1⟩ else .idle 0 } := by
  induction n with
  | zero => rfl
  | succ n ih =>
    have hidle : (if n < n then CallerAt.loadCount ⟨1, 1⟩ else .idle 0) = .idle 0 :=
      if_neg (lt_irrefl n)
    rw [joinSteps, List.range_succ, List.flatMap_append, List.foldl_append, ← joinSteps, ih,
      List.flatMap_singleton, foldl_call hidle]
    unfold SpecList.setCaller
    congr 1
    funext p
    dsimp only
    by_cases hp : p = n
    · subst hp
      rw [Function.update_self, if_pos (Nat.lt_succ_self p)]
      rfl
    · rw [Function.update_of_ne hp]
      congr 1
      simp only [eq_iff_iff]
      omega

theorem count_advanceSteps {n : Nat} (hn : n < 2 ^ 31) (k : Nat) (hk : k ≤ n) :
    ((joinSteps n ++ advanceSteps k).foldl specStep emptyList).shm.iAttrSpecialCount = k ∧
      ∀ q, k ≤ q → q < n →
        ((joinSteps n ++ advanceSteps k).foldl specStep emptyList).callers q =
          .loadCount ⟨1, 1⟩ := by
  induction k with
  | zero =>
    rw [List.foldl_append, foldl_joinSteps]
    exact ⟨rfl, fun q _ hq => if_pos hq⟩
  | succ k ih =>
    obtain ⟨hcount, hcallers⟩ := ih (by omega)
    rw [advanceSteps, List.range_succ, List.flatMap_append, ← List.append_assoc, ← advanceSteps,
      List.foldl_append, List.flatMap_singleton]
    generalize (joinSteps n ++ advanceSteps k).foldl specStep emptyList = s at hcount hcallers
    have hself : s.setCaller k (.loadCount ⟨1, 1⟩, s.shm) = s := by
      unfold SpecList.setCaller
      rw [← hcallers k (le_refl k) (by omega), Function.update_eq_self]
    have hrun : (List.replicate 2 (.caller k)).foldl specStep s =
        s.setCaller k (.fullTest ⟨1, 1⟩ k, s.shm.setCount (k + 1)) := by
      rw [← hself, foldl_caller, setCaller_setCaller, callerRun, callerStep, callerRun,
        callerStep, callerRun, hself, hcount]
    rw [hrun]
    constructor
    · rw [setCaller_shm, count_setCount (by omega) (by omega)]
      omega
    · intro q hq hqn
      have hne : q ≠ k := by omega
      rw [← hcallers q (by omega) hqn]
      exact Function.update_of_ne hne _ _

/-- 201 callers that begin at the empty list bring the count beyond the list. -/
theorem count_overruns :
    ((joinSteps 201 ++ advanceSteps 201).foldl specStep emptyList).shm.iAttrSpecialCount = 201 ∧
      ¬ SpecBounded ((joinSteps 201 ++ advanceSteps 201).foldl specStep emptyList) := by
  have hcount := (count_advanceSteps (n := 201) (by omega) 201 (le_refl 201)).1
  generalize (joinSteps 201 ++ advanceSteps 201).foldl specStep emptyList = s at hcount ⊢
  refine ⟨hcount, ?_⟩
  intro h
  have hle : s.shm.iAttrSpecialCount ≤ 200 := h.count.2
  rw [hcount] at hle
  exact absurd hle (by decide)

end Overrun

end XrkMonitor.Attr
