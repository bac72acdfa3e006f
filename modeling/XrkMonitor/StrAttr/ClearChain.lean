import XrkMonitor.StrAttr.Chain

/-!
# Clearing a chain from the configuration process

`ClearStrAttrNodeVal` frees the nodes of a chain when its attribute is deleted. It goes on
to the next node before it cuts the link, so that it cuts the link of the next node
instead of the one it comes from: the second node of a chain loses its successor, and the
link behind the last node that is reached is written outside the array, where the write
index of the pool stands.

## Implementation notes

The nodes that are written are collected beside the array. An index outside the array
stands for the memory before and behind it. The pool is attached; without it the function
returns at once.
-/

namespace XrkMonitor.StrAttr

open Library

/-- The loop of `ClearStrAttrNodeVal`, with the nodes that it wrote. -/
def clearStrAttrNodeVal : Nat → (Int → StrAttrNodeVal) → Int → List Int →
    Option ((Int → StrAttrNodeVal) × List Int)
  | 0, _, _, _ => none
  | fuel + 1, stInfo, idx, writes =>
    if validIdx idx then
      let stInfo := Function.update stInfo idx
        { stInfo idx with
          iStrVal := -1 }
      let next := (stInfo idx).iNextStrAttr
      let stInfo := Function.update stInfo next
        { stInfo next with
          iNextStrAttr := -1 }
      clearStrAttrNodeVal fuel stInfo next (writes ++ [idx, next])
    else some (stInfo, writes)

/-- A chain of nodes of the array that begins at an index and ends at -1; an index outside the array
has no nodes. -/
structure StrChain where
  stInfo : Int → StrAttrNodeVal
  start : Int
  nodes : List Int
  nodup : nodes.Nodup
  valid : ∀ i ∈ nodes, validIdx i
  path : validIdx start → Path (nextOf stInfo) start nodes (-1)
  nil : ¬ validIdx start → nodes = []

/-- The nodes of the chain and no others are free in the end, and only nodes of the array were
written. -/
def ClearRight (c : StrChain) : Prop :=
  ∃ fuel stInfo writes, clearStrAttrNodeVal fuel c.stInfo c.start [] = some (stInfo, writes) ∧
    (∀ i ∈ c.nodes, (stInfo i).iStrVal = -1 ∧ (stInfo i).iNextStrAttr = -1) ∧
    (∀ i, i ∉ c.nodes → stInfo i = c.stInfo i) ∧ ∀ i ∈ writes, validIdx i

section Effect

variable {stInfo : Int → StrAttrNodeVal} {idx : Int} {writes : List Int}
  {stInfo' : Int → StrAttrNodeVal} {writes' : List Int} {fuel : Nat}

theorem not_validIdx_end : ¬ validIdx (-1) := by decide

theorem clear_end (h : ¬ validIdx idx)
    (hrun : clearStrAttrNodeVal fuel stInfo idx writes = some (stInfo', writes')) :
    stInfo' = stInfo ∧ writes' = writes := by
  cases fuel with
  | zero => simp [clearStrAttrNodeVal] at hrun
  | succ fuel =>
    rw [clearStrAttrNodeVal, if_neg h, Option.some.injEq, Prod.mk.injEq] at hrun
    exact ⟨hrun.1.symm, hrun.2.symm⟩

theorem clear_turn (h : validIdx idx)
    (hrun : clearStrAttrNodeVal fuel stInfo idx writes = some (stInfo', writes')) :
    ∃ fuel' stInfo'', (stInfo'' (nextOf stInfo idx)).iNextStrAttr = -1 ∧
      clearStrAttrNodeVal fuel' stInfo'' (nextOf stInfo idx) (writes ++ [idx, nextOf stInfo idx]) =
        some (stInfo', writes') := by
  have hlink : (Function.update stInfo idx
      { stInfo idx with
        iStrVal := -1 } idx).iNextStrAttr = nextOf stInfo idx := by
    rw [Function.update_self]
    rfl
  cases fuel with
  | zero => simp [clearStrAttrNodeVal] at hrun
  | succ fuel =>
    rw [clearStrAttrNodeVal, if_pos h] at hrun
    simp only [hlink] at hrun
    refine ⟨fuel, _, ?_, hrun⟩
    rw [Function.update_self]

theorem clear_stray (hvalid : validIdx idx)
    (hnext : nextOf stInfo idx = -1 ∨ validIdx (nextOf stInfo idx))
    (hrun : clearStrAttrNodeVal fuel stInfo idx writes = some (stInfo', writes')) :
    (-1 : Int) ∈ writes' := by
  obtain ⟨fuel₁, stInfo₁, hcut, hrun₁⟩ := clear_turn hvalid hrun
  rcases hnext with hlast | hmore
  · rw [hlast] at hrun₁
    obtain ⟨-, hwrites⟩ := clear_end not_validIdx_end hrun₁
    simp [hwrites]
  · obtain ⟨fuel₂, stInfo₂, -, hrun₂⟩ := clear_turn hmore hrun₁
    have hnone : nextOf stInfo₁ (nextOf stInfo idx) = -1 := hcut
    rw [hnone] at hrun₂
    obtain ⟨-, hwrites⟩ := clear_end not_validIdx_end hrun₂
    simp [hwrites]

end Effect

theorem StrChain.next_start (c : StrChain) (hstart : validIdx c.start) :
    nextOf c.stInfo c.start = -1 ∨ validIdx (nextOf c.stInfo c.start) := by
  have hpath := c.path hstart
  have hvalid := c.valid
  rcases hnodes : c.nodes with _ | ⟨first, _ | ⟨second, rest⟩⟩
  · rw [hnodes] at hpath
    have hend : c.start = -1 := by simpa [Library.Path] using hpath
    rw [hend] at hstart
    exact absurd hstart not_validIdx_end
  · rw [hnodes] at hpath
    simp only [Library.Path] at hpath
    left
    rw [hpath.1]
    exact hpath.2
  · rw [hnodes] at hpath hvalid
    simp only [Library.Path] at hpath
    right
    rw [hpath.1, hpath.2.1]
    exact hvalid second (by simp)

/-- A chain is cleared as it should be only when it has no nodes. -/
theorem clearRight_iff (c : StrChain) : ClearRight c ↔ ¬ validIdx c.start := by
  constructor
  · rintro ⟨fuel, stInfo, writes, hrun, -, -, hwrites⟩ hstart
    have hstray : (-1 : Int) ∈ writes := clear_stray hstart (c.next_start hstart) hrun
    exact not_validIdx_end (hwrites (-1) hstray)
  · intro hstart
    refine ⟨1, c.stInfo, [], ?_, ?_, fun _ _ => rfl, by simp⟩
    · rw [clearStrAttrNodeVal, if_neg hstart]
    · rw [c.nil hstart]
      simp

/-- A chain of three nodes. -/
def threeNodes : StrChain where
  stInfo i := ⟨[], 5, if i = 3 then 4 else if i = 4 then 7 else -1⟩
  start := 3
  nodes := [3, 4, 7]
  nodup := by decide
  valid := by decide
  path _ := by simp [Library.Path, nextOf]
  nil h := absurd (by decide) h

/-- Of three nodes the first stays linked, the third stays in use, and the last link that is cut
is before the array. -/
theorem threeNodes_cleared :
    ((clearStrAttrNodeVal 9 threeNodes.stInfo threeNodes.start []).map fun r =>
      (((r.1 3).iStrVal, (r.1 3).iNextStrAttr), ((r.1 7).iStrVal, (r.1 7).iNextStrAttr), r.2)) =
        some ((-1, 4), (5, -1), [3, 4, 4, -1]) ∧
      ¬ ClearRight threeNodes := by
  refine ⟨by decide, ?_⟩
  rintro ⟨fuel, stInfo, writes, hrun, -, -, hwrites⟩
  have hstart : validIdx threeNodes.start := by decide
  have hstray : (-1 : Int) ∈ writes := clear_stray hstart (threeNodes.next_start hstart) hrun
  exact not_validIdx_end (hwrites (-1) hstray)

end XrkMonitor.StrAttr
