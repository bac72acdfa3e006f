import XrkMonitor.Library.DoublyLinked
import XrkMonitor.Library.MachineWord

/-!
# Lists linked by slot index

The configuration tables keep their slots in arrays and thread the slots in use
into one list by index. The macros `ILINK_SET_FIRST`, `ILINK_INSERT_FIRST`,
`ILINK_INSERT_LAST` and `ILINK_DELETE_NODE` edit such a list, and `Linked` says
that its two directions walk over the same slots and end at `-1`.

## Implementation notes

The head of a list and the link fields of all slots are one record, `ILinks`. A
slot is its number. The macros take the slots that the callers look up from an
index, and `slotRef` is that look-up: it has no result for an index outside the
array.
-/

namespace XrkMonitor.Config

open Library

/-- The start and end index of a list in `MtSystemConfig` and the links of the slots. -/
structure ILinks where
  iIndexStart : Int
  iIndexEnd : Int
  iPreIndex : Int → Int
  iNextIndex : Int → Int

/-- Zeroed memory. -/
def ILinks.zero : ILinks where
  iIndexStart := 0
  iIndexEnd := 0
  iPreIndex := fun _ => 0
  iNextIndex := fun _ => 0

def ilinkSetFirst (head : ILinks) (nidx : Int) : ILinks where
  iIndexStart := nidx
  iIndexEnd := nidx
  iPreIndex := Function.update head.iPreIndex nidx (-1)
  iNextIndex := Function.update head.iNextIndex nidx (-1)

def ilinkInsertFirst (head : ILinks) (first nodeIdx : Int) : ILinks where
  iIndexStart := nodeIdx
  iIndexEnd := head.iIndexEnd
  iPreIndex := Function.update (Function.update head.iPreIndex nodeIdx (-1)) first nodeIdx
  iNextIndex := Function.update head.iNextIndex nodeIdx head.iIndexStart

def ilinkInsertLast (head : ILinks) (last nodeIdx : Int) : ILinks where
  iIndexStart := head.iIndexStart
  iIndexEnd := nodeIdx
  iPreIndex := Function.update head.iPreIndex nodeIdx head.iIndexEnd
  iNextIndex := Function.update (Function.update head.iNextIndex nodeIdx (-1)) last nodeIdx

/-- The first half of `ILINK_DELETE_NODE`. -/
def ilinkCutPrev (head : ILinks) (node : Int) : Option Int → ILinks
  | none =>
    { head with
      iIndexStart := head.iNextIndex node }
  | some pPrev =>
    { head with
      iNextIndex := Function.update head.iNextIndex pPrev (head.iNextIndex node) }

/-- The second half of `ILINK_DELETE_NODE`. -/
def ilinkCutNext (head : ILinks) (node : Int) : Option Int → ILinks
  | none =>
    { head with
      iIndexEnd := head.iPreIndex node }
  | some pNext =>
    { head with
      iPreIndex := Function.update head.iPreIndex pNext (head.iPreIndex node) }

def ilinkDeleteNode (head : ILinks) (node : Int) (pPrev pNext : Option Int) : ILinks :=
  let cut := ilinkCutNext (ilinkCutPrev head node pPrev) node pNext
  { cut with
    iPreIndex := Function.update cut.iPreIndex node (-1)
    iNextIndex := Function.update cut.iNextIndex node (-1) }

/-- The slot of an index that the callers use without a test. -/
def slotRef (count : Nat) (index : Int) : Option Int :=
  if 0 ≤ index ∧ index < count then some index else none

/-- `pPrev` and `pNext`: null for a negative index, else the slot of the index. -/
def slotLink (count : Nat) (index : Int) : Option (Option Int) :=
  if 0 ≤ index then (slotRef count index).map some else some none

/-- The callers' use of `ILINK_DELETE_NODE`. -/
def ilinkUnlink (count : Nat) (head : ILinks) (node : Int) : Option ILinks := do
  let pPrev ← slotLink count (head.iPreIndex node)
  let pNext ← slotLink count (head.iNextIndex node)
  some (ilinkDeleteNode head node pPrev pNext)

/-- Both directions of the list walk over `l` and end at `-1`. -/
def Linked (head : ILinks) (l : List Nat) : Prop :=
  Threaded (-1) head.iPreIndex head.iNextIndex head.iIndexStart head.iIndexEnd
    (l.map Nat.cast)

section Splices

variable {head : ILinks} {count c : Nat} {l : List Nat}

theorem mem_cast_iff : (c : Int) ∈ l.map Nat.cast ↔ c ∈ l := by
  rw [List.mem_map_of_injective Nat.cast_injective]

theorem cast_ne_neg (c : Nat) : (c : Int) ≠ -1 := by omega

theorem Linked.start_eq (h : Linked head l) (hl : l ≠ []) :
    ∃ c ∈ l, head.iIndexStart = (c : Int) := by
  obtain ⟨c, hc, heq⟩ := List.mem_map.mp (Threaded.start_mem h (by simpa using hl))
  exact ⟨c, hc, heq.symm⟩

theorem Linked.end_eq (h : Linked head l) (hl : l ≠ []) :
    ∃ c ∈ l, head.iIndexEnd = (c : Int) := by
  obtain ⟨c, hc, heq⟩ := List.mem_map.mp (Threaded.end_mem h (by simpa using hl))
  exact ⟨c, hc, heq.symm⟩

theorem Linked.start_neg_iff (h : Linked head l) : head.iIndexStart < 0 ↔ l = [] := by
  constructor
  · intro hneg
    by_contra hl
    obtain ⟨c, -, hc⟩ := h.start_eq hl
    omega
  · rintro rfl
    have hs : head.iIndexStart = -1 := Threaded.fwd h
    omega

theorem linked_setFirst (head : ILinks) (c : Nat) : Linked (ilinkSetFirst head c) [c] :=
  Threaded.single _ _ (cast_ne_neg c)

theorem Linked.insertFirst (h : Linked head l) (hl : l ≠ []) (hc : c ∉ l) :
    Linked (ilinkInsertFirst head head.iIndexStart c) (c :: l) :=
  Threaded.pushFront h (by simpa using hl) (mt mem_cast_iff.mp hc) (cast_ne_neg c)

theorem Linked.insertLast (h : Linked head l) (hl : l ≠ []) (hc : c ∉ l) :
    Linked (ilinkInsertLast head head.iIndexEnd c) (l ++ [c]) := by
  have hback := Threaded.pushBack h (by simpa using hl) (mt mem_cast_iff.mp hc) (cast_ne_neg c)
  rw [Linked, List.map_append]
  exact hback

theorem slotLink_eq {i : Int} (hlt : ∀ c ∈ l, c < count)
    (hi : i ∈ l.map Nat.cast ∨ i = -1) :
    slotLink count i = some (if i = -1 then none else some i) := by
  obtain hi | rfl := hi
  · obtain ⟨c, hc, rfl⟩ := List.mem_map.mp hi
    have hbound : (0 : Int) ≤ (c : Int) ∧ (c : Int) < count := by
      have := hlt c hc
      omega
    rw [slotLink, if_pos hbound.1, slotRef, if_pos hbound, if_neg (cast_ne_neg c)]
    rfl
  · rfl

theorem Linked.unlink (h : Linked head l) (hlt : ∀ c ∈ l, c < count) (hc : c ∈ l) :
    ∃ head', ilinkUnlink count head c = some head' ∧ Linked head' (l.erase c) := by
  have hmem : (c : Int) ∈ l.map Nat.cast := mem_cast_iff.mpr hc
  have hpre := slotLink_eq hlt (Threaded.pre_mem h hmem)
  have hnext := slotLink_eq hlt (Threaded.next_mem h hmem)
  refine ⟨_, by rw [ilinkUnlink, hpre, hnext]; rfl, ?_⟩
  have hremove := Threaded.remove h hmem
  rw [Linked, List.map_erase Nat.cast_injective]
  by_cases hp : head.iPreIndex c = -1
  · by_cases hn : head.iNextIndex c = -1
    · simpa [ilinkDeleteNode, ilinkCutNext, ilinkCutPrev, hp, hn] using hremove
    · simpa [ilinkDeleteNode, ilinkCutNext, ilinkCutPrev, hp, hn] using hremove
  · by_cases hn : head.iNextIndex c = -1
    · simpa [ilinkDeleteNode, ilinkCutNext, ilinkCutPrev, hp, hn] using hremove
    · simpa [ilinkDeleteNode, ilinkCutNext, ilinkCutPrev, hp, hn] using hremove

end Splices

end XrkMonitor.Config
