import XrkMonitor.AttrTree.Edit
import XrkMonitor.ServerVmem.Calls

/-!
# The stored tree of attribute types

`DealUserAttrTypeTree` loads the serialised tree from the variable-length
memory, edits it, saves the result as a new string and then frees the old one.

## Implementation notes

The serialisation is a parameter. `ParseFromArray` yields its flag together
with what it left in the message, since a failed parse may leave a part of it.
The loading buffer has `1024` bytes. `none` stands for a walk in the memory
that does not end.
-/

namespace XrkMonitor.AttrTree

open Vmem ServerVmem

/-- The serialisation of the message `MmapUserAttrTypeTree`. -/
structure TreeCodec where
  appendToString : TypeTree → Option (List UInt8)
  parseFromArray : List UInt8 → Bool × TypeTree

/-- What was serialised parses back. -/
def TreeCodec.RoundTrips (codec : TreeCodec) : Prop :=
  ∀ t bytes, codec.appendToString t = some bytes → codec.parseFromArray bytes = (true, t)

/-- The field of `MtSystemConfig` that the function uses, and the memory. -/
structure TreeState where
  iAttrTypeTreeVmemIdx : Int
  vmem : VmemBuf

/-- The outcomes of compare-and-swap and the clock during a save and a free. -/
structure TreeEnv where
  save : Nat → VmemEnv
  free : VmemEnv

/-- `sizeof(szShmValBuf)`. -/
def szShmValBufLen : Nat := 1024

/-- `bFindTypeTree` and `stTypeTree` after the load. -/
def loadTypeTree (codec : TreeCodec) (σ : TreeState) : Option (Bool × TypeTree) :=
  if 0 < σ.iAttrTypeTreeVmemIdx then
    (getFromVmemZeroCp σ.vmem σ.iAttrTypeTreeVmemIdx szShmValBufLen).map fun
      | .error _ => (false, .node 0 [])
      | .ok bytes => if 0 < bytes.length then codec.parseFromArray bytes else (false, .node 0 [])
  else some (false, .node 0 [])

/-- The last part of `DealUserAttrTypeTree`, with `bUpdateTypeTree` set. -/
def storeTypeTree (codec : TreeCodec) (env : TreeEnv) (σ : TreeState) (stTypeTree : TypeTree) :
    Option TreeState :=
  match codec.appendToString stTypeTree with
  | none => some σ
  | some strval =>
    let r := saveToVmem env.save σ.vmem strval
    if 0 ≤ r.1 then
      (freeVmem env.free r.2 σ.iAttrTypeTreeVmemIdx).map fun f => ⟨r.1, f.2⟩
    else some { σ with vmem := r.2 }

/-- `DealUserAttrTypeTree`. -/
def dealUserAttrTypeTree (codec : TreeCodec) (env : TreeEnv) (σ : TreeState)
    (iTypeParent iType : Int) (bDeleteType : Bool) : Option TreeState :=
  (loadTypeTree codec σ).bind fun r =>
    let bFindTypeTree := r.1
    let stTypeTree := if bFindTypeTree then r.2 else r.2.set_attr_type_id 1
    if bDeleteType then
      storeTypeTree codec env σ (deleteAttrTypeTree iType stTypeTree).2
    else
      let a := tryAddAttrTypeTree iTypeParent iType stTypeTree
      if !bFindTypeTree ∨ 0 < a.1 then storeTypeTree codec env σ a.2 else some σ

section Holds

variable {codec : TreeCodec} {σ σ' : TreeState} {others : SegId → List Chain} {t t' : TypeTree}
  {strval : List UInt8}

/-- The memory stores the tree `t` under its index and `others` beside it. -/
def HoldsTree (codec : TreeCodec) (σ : TreeState) (others : SegId → List Chain) (t : TypeTree) :
    Prop :=
  ∃ g c l₁ l₂, g.2 < ServerVmem.VMEM_SHM_COUNT ∧ others g = l₁ ++ l₂ ∧
    BufInv σ.vmem (Function.update others g (l₁ ++ c :: l₂)) ∧
    σ.iAttrTypeTreeVmemIdx = chainIndex g c ∧ codec.appendToString t = some c.data

/-- No string for `t` can be made or saved. -/
def SaveFails (codec : TreeCodec) (env : TreeEnv) (σ : TreeState) (t : TypeTree) : Prop :=
  ∀ strval, codec.appendToString t = some strval → (saveToVmem env.save σ.vmem strval).1 < 0

theorem HoldsTree.read (h : HoldsTree codec σ others t)
    (hstr : codec.appendToString t = some strval) {iBufLen : Nat}
    (hbuf : strval.length ≤ iBufLen) :
    getFromVmemZeroCp σ.vmem σ.iAttrTypeTreeVmemIdx iBufLen = some (.ok strval) := by
  obtain ⟨g, c, l₁, l₂, hg, -, hinv, hidx, hdata⟩ := h
  obtain rfl : strval = c.data := by simpa [hstr] using hdata
  rw [hidx]
  exact getFromVmemZeroCp_stored hinv hg (by simp) hbuf

theorem HoldsTree.unique (hround : codec.RoundTrips) {others' : SegId → List Chain}
    (h : HoldsTree codec σ others t) (h' : HoldsTree codec σ others' t') : t = t' := by
  obtain ⟨-, c, -, -, -, -, -, -, hdata⟩ := id h
  obtain ⟨-, c', -, -, -, -, -, -, hdata'⟩ := id h'
  have hread := h.read hdata (le_max_left c.data.length c'.data.length)
  rw [h'.read hdata' (le_max_right c.data.length c'.data.length)] at hread
  have hsame : c'.data = c.data := by simpa using hread
  have hparse := hround t' c'.data hdata'
  rw [hsame, hround t c.data hdata] at hparse
  simpa using hparse

theorem HoldsTree.length_pos (h : HoldsTree codec σ others t)
    (hstr : codec.appendToString t = some strval) : 0 < strval.length := by
  obtain ⟨g, c, l₁, l₂, hg, -, hinv, -, hdata⟩ := h
  obtain rfl : strval = c.data := by simpa [hstr] using hdata
  obtain ⟨w, hw, hl⟩ := hinv.seg g hg
  have hc : c ∈ w.live := by simp [hl]
  exact hw.data_pos hc

/-- Saving a tree replaces the stored one, or fails and keeps it. -/
theorem storeTypeTree_holds (env : TreeEnv) (h : HoldsTree codec σ others t) (t' : TypeTree) :
    ∃ σ', storeTypeTree codec env σ t' = some σ' ∧
      (HoldsTree codec σ' others t' ∨
        (SaveFails codec env σ t' ∧ HoldsTree codec σ' others t)) := by
  obtain ⟨g, c, l₁, l₂, hg, hothers, hinv, hidx, hdata⟩ := h
  unfold storeTypeTree
  cases hstr : codec.appendToString t' with
  | none =>
    refine ⟨σ, rfl, Or.inr ⟨?_, g, c, l₁, l₂, hg, hothers, hinv, hidx, hdata⟩⟩
    intro strval hsome
    rw [hstr] at hsome
    exact absurd hsome (by simp)
  | some strval =>
    have hfails : ∀ bytes, codec.appendToString t' = some bytes → bytes = strval := by
      intro bytes hbytes
      rw [hstr] at hbytes
      exact (Option.some.inj hbytes).symm
    rcases saveToVmem_outcome env.save strval hinv with ⟨hneg, hkeep⟩ |
      ⟨g', c', hg', hdata', hr, hnew⟩
    · dsimp only
      rw [if_neg (by omega)]
      refine ⟨_, rfl, Or.inr ⟨?_, g, c, l₁, l₂, hg, hothers, hkeep, hidx, hdata⟩⟩
      intro bytes hbytes
      rw [hfails bytes hbytes]
      exact hneg
    · have hpos := chainIndex_pos g' c'
      dsimp only
      rw [if_pos (by omega), hidx]
      have hold : ∃ k₁ k₂, Function.update (Function.update others g (l₁ ++ c :: l₂)) g'
            (c' :: Function.update others g (l₁ ++ c :: l₂) g') g = k₁ ++ c :: k₂ ∧
          Function.update (Function.update (Function.update others g (l₁ ++ c :: l₂)) g'
            (c' :: Function.update others g (l₁ ++ c :: l₂) g')) g (k₁ ++ k₂) =
          Function.update others g' (c' :: others g') := by
        by_cases hgg : g' = g
        · subst hgg
          refine ⟨c' :: l₁, l₂, by simp, ?_⟩
          simp [hothers]
        · refine ⟨l₁, l₂, by simp [Ne.symm hgg], ?_⟩
          rw [← hothers, Function.update_of_ne hgg]
          funext x
          by_cases hx : x = g
          · subst hx
            simp [Ne.symm hgg]
          · by_cases hx' : x = g'
            · subst hx'
              simp [hx]
            · simp [hx, hx']
      obtain ⟨k₁, k₂, hlive, hrest⟩ := hold
      obtain ⟨b', hfree, hinv'⟩ := freeVmem_stored env.free hnew hg k₁ k₂ hlive
      rw [hfree]
      rw [hrest] at hinv'
      refine ⟨_, rfl, Or.inl ⟨g', c', [], others g', hg', rfl, hinv', hr, ?_⟩⟩
      rw [hdata']
      exact hstr

/-- What is to hold after an edit of a stored tree: the memory stores the
edited tree, or still the old one when the edited one cannot be saved. -/
def EditOutcome (codec : TreeCodec) (env : TreeEnv) (σ : TreeState) (others : SegId → List Chain)
    (iTypeParent iType : Int) (bDeleteType : Bool) (t : TypeTree) : Prop :=
  ∃ σ' t', dealUserAttrTypeTree codec env σ iTypeParent iType bDeleteType = some σ' ∧
    TreeEdit iTypeParent iType bDeleteType t t' ∧
    (HoldsTree codec σ' others t' ∨ (SaveFails codec env σ t' ∧ HoldsTree codec σ' others t))

/-- Every edit of the stored tree `t` does what it is to do, wherever the tree
is stored. -/
def TreeKept (codec : TreeCodec) (t : TypeTree) : Prop :=
  ∀ (env : TreeEnv) (σ : TreeState) (others : SegId → List Chain) (iTypeParent iType : Int)
    (bDeleteType : Bool), HoldsTree codec σ others t →
    (bDeleteType = true → OneSubtree iType t) →
    EditOutcome codec env σ others iTypeParent iType bDeleteType t

theorem HoldsTree.load (hround : codec.RoundTrips) (h : HoldsTree codec σ others t)
    (hstr : codec.appendToString t = some strval)
    (hfit : strval.length ≤ szShmValBufLen) : loadTypeTree codec σ = some (true, t) := by
  have hpos := h.length_pos hstr
  have hread := h.read hstr hfit
  obtain ⟨g, c, -, -, -, -, -, hidx, -⟩ := h
  have hidx0 := chainIndex_pos g c
  unfold loadTypeTree
  rw [if_pos (by omega), hread]
  simp only [Option.map_some, if_pos hpos, hround t strval hstr]

theorem treeKept_of_fits (hround : codec.RoundTrips)
    (hstr : codec.appendToString t = some strval) (hfit : strval.length ≤ szShmValBufLen) :
    TreeKept codec t := by
  intro env σ others iTypeParent iType bDeleteType h hone
  have hload := h.load hround hstr hfit
  unfold EditOutcome dealUserAttrTypeTree
  rw [hload]
  simp only [Option.bind_some, if_true]
  cases bDeleteType with
  | true =>
    have hdel := deleteAttrTypeTree_outcome t (hone rfl).1 (hone rfl).2
    obtain ⟨σ', hstore, hσ'⟩ := storeTypeTree_holds env h (deleteAttrTypeTree iType t).2
    exact ⟨σ', _, hstore, hdel, hσ'⟩
  | false =>
    simp only [Bool.false_eq_true, if_false, Bool.not_true, false_or]
    rcases tryAddAttrTypeTree_outcome iTypeParent iType t with
      ⟨hr, hp, -⟩ | ⟨hr, hsub, -⟩ | ⟨hr, hadd⟩
    · rw [if_neg (by omega)]
      exact ⟨σ, t, rfl, Or.inl ⟨Or.inl hp, rfl⟩, Or.inl h⟩
    · rw [if_neg (by omega)]
      exact ⟨σ, t, rfl, Or.inl ⟨Or.inr hsub, rfl⟩, Or.inl h⟩
    · rw [if_pos (by omega)]
      obtain ⟨σ', hstore, hσ'⟩ :=
        storeTypeTree_holds env h (tryAddAttrTypeTree iTypeParent iType t).2
      exact ⟨σ', _, hstore, Or.inr hadd, hσ'⟩

end Holds

end XrkMonitor.AttrTree
