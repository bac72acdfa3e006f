import XrkMonitor.AttrTree.Store

/-!
# Trees longer than the loading buffer

A tree whose string has more than `1024` bytes is not loaded. The edit then
starts from an empty tree, and the result takes the place of the stored one.
So the edits keep exactly the trees that fit the loading buffer.

## Implementation notes

`wireCodec` is the wire format of the serialisation: field 1 is a varint,
field 2 a message with its length in front. A tree whose string does not parse
back, such as one with an id outside of 32 bits, is refused.
-/

namespace XrkMonitor.AttrTree

open Vmem ServerVmem

variable {codec : TreeCodec} {t : TypeTree} {strval : List UInt8} {live : SegId → List Chain}

/-- The tree of an edit that found no tree and added `iType` to the root. -/
def freshTree (iType : Int) : TypeTree := .node 1 [.node iType []]

/-- The smallest trees have short strings. -/
def TreeCodec.SmallTrees (codec : TreeCodec) : Prop :=
  ∀ t ∈ [.node 1 [], freshTree 2],
    ∃ strval, codec.appendToString t = some strval ∧ 0 < strval.length ∧ strval.length ≤ 16

/-- Every compare-and-swap succeeds. -/
def idleEnv : TreeEnv where
  save := fun _ => ⟨fun _ _ _ => true, fun _ _ _ => 0⟩
  free := ⟨fun _ _ _ => true, fun _ _ _ => 0⟩

theorem saveAttempts_long {n : Nat} (h : szShmValBufLen < n) :
    ∃ as bs, (saveAttempts n).zipIdx = as ++ ((true, .v255), 6) :: bs ∧
      ∀ a ∈ as, a.1.1 = false := by
  have h' : 1024 < n := h
  refine ⟨((saveAttempts n).zipIdx).take 6, ((saveAttempts n).zipIdx).drop 7, ?_, ?_⟩
  · simp [saveAttempts, List.zipIdx_cons]
    omega
  · simp [saveAttempts, List.zipIdx_cons]
    omega

theorem saveToVmem_long (hlong : szShmValBufLen < strval.length)
    (hmax : strval.length ≤ VMEM_MAX_DATA_LEN) :
    ∃ s c, ServerVmem.saveToVmem idleEnv.save ServerVmem.initVmem strval =
        (chainIndex (.v255, 0) c, ServerVmem.initVmem.setShm .v255 0 s) ∧ c.data = strval ∧
      BufInv (ServerVmem.initVmem.setShm .v255 0 s)
        (Function.update (fun _ => []) (.v255, 0) [c]) := by
  have hpos : 0 < strval.length := by omega
  obtain ⟨k, hneed, hlo, -⟩ := needCount_spec (VmemType.len_pos .v255) hpos hmax
  have hroom : (ServerVmem.initVmem.shm .v255 0).wNodeUsed +
      needCount VmemType.v255.len strval.length ≤ nodeCount .v255 := by
    have hmax' : strval.length ≤ 65000 := hmax
    have hk : k * 255 < strval.length := hlo
    change 1 + needCount VmemType.v255.len strval.length ≤ 10000
    omega
  have hcas : (idleEnv.save 6).cas .v255 0 0 = true := rfl
  obtain ⟨s, c, hsave, hdata, hinv⟩ := saveDataToVmem_first initVmem_bufInv hpos hmax hcas hroom
  obtain ⟨as, bs, hsplit, has⟩ := saveAttempts_long hlong
  have hidx := chainIndex_pos (.v255, 0) c
  refine ⟨s, c, ?_, hdata, hinv⟩
  rw [← hsave]
  apply saveToVmem_eq initVmem_bufInv hpos hmax hsplit has
  rw [hsave]
  exact Int.le_of_lt hidx

theorem dealUserAttrTypeTree_long (codec : TreeCodec) (σ : TreeState) {c : Chain}
    (hinv : BufInv σ.vmem live) (hc : c ∈ live (.v255, 0))
    (hidx : σ.iAttrTypeTreeVmemIdx = chainIndex (.v255, 0) c)
    (hlong : szShmValBufLen < c.data.length) (env : TreeEnv) (iType : Int) :
    dealUserAttrTypeTree codec env σ 1 iType false =
      storeTypeTree codec env σ (freshTree iType) := by
  have hread := getFromVmemZeroCp_short hinv (show 0 < ServerVmem.VMEM_SHM_COUNT by decide) hc hlong
    (by decide) (by decide)
  have hpos := chainIndex_pos (.v255, 0) c
  have hload : loadTypeTree codec σ = some (false, .node 0 []) := by
    unfold loadTypeTree
    rw [if_pos (by omega), hidx, hread]
    rfl
  have hadd : tryAddAttrTypeTree 1 iType (.node 1 []) = (1, freshTree iType) := by
    simp [tryAddAttrTypeTree, freshTree]
  unfold dealUserAttrTypeTree
  rw [hload]
  simp [TypeTree.set_attr_type_id, hadd]

theorem not_saveFails_short {s : VmemSegment} {idx : Int}
    (hinv : BufInv (ServerVmem.initVmem.setShm .v255 0 s) live)
    (hstr : codec.appendToString t = some strval) (hpos : 0 < strval.length)
    (hshort : strval.length ≤ 16) :
    ¬ SaveFails codec idleEnv ⟨idx, ServerVmem.initVmem.setShm .v255 0 s⟩ t := by
  intro hfails
  have hsaved : 0 ≤ (ServerVmem.saveToVmem idleEnv.save
      (ServerVmem.initVmem.setShm .v255 0 s) strval).1 := by
    apply saveToVmem_short hinv hpos hshort rfl
    change 1 + 1 ≤ 30000
    decide
  exact absurd (hfails strval hstr) (Int.not_lt.mpr hsaved)

theorem eq_root_of_addLeaf {iType : Int} (h : AddLeaf 1 iType t (freshTree iType)) :
    t = .node 1 [] := by
  generalize hu : freshTree iType = u at h
  cases h with
  | @here subs _ =>
    have hsubs : [TypeTree.node iType []] = subs ++ [.node iType []] := (TypeTree.node.inj hu).2
    have hnil : subs = [] := by simpa using hsubs.symm
    rw [hnil]
  | @sub id v v' l₁ l₂ hv =>
    exfalso
    have hsubs : [TypeTree.node iType []] = l₁ ++ v' :: l₂ := (TypeTree.node.inj hu).2
    have hv' : v' = .node iType [] := by
      cases l₁ with
      | nil => exact (List.cons.inj hsubs).1.symm
      | cons a l₁ => simp at hsubs
    rw [hv'] at hv
    generalize hw : TypeTree.node iType [] = w at hv
    cases hv with
    | here _ => simp at hw
    | sub l₁ l₂ _ => simp at hw

theorem edit_loses_long (hround : codec.RoundTrips) (hsmall : codec.SmallTrees)
    (hstr : codec.appendToString t = some strval) (hlong : szShmValBufLen < strval.length)
    (hmax : strval.length ≤ VMEM_MAX_DATA_LEN) :
    ∃ σ, ServerVmem.saveToVmem idleEnv.save ServerVmem.initVmem strval =
        (σ.iAttrTypeTreeVmemIdx, σ.vmem) ∧ HoldsTree codec σ (fun _ => []) t ∧
      ¬ EditOutcome codec idleEnv σ (fun _ => []) 1 2 false t := by
  have hlong' : 1024 < strval.length := hlong
  have hne : ∀ u ∈ [.node 1 [], freshTree 2], t ≠ u := by
    rintro u hu rfl
    obtain ⟨bytes, hbytes, -, hlen⟩ := hsmall t hu
    rw [hstr] at hbytes
    obtain rfl : strval = bytes := Option.some.inj hbytes
    omega
  obtain ⟨bytes, hbytes, hpos, hlen⟩ := hsmall (freshTree 2) (by simp)
  obtain ⟨s, c, hsave, hdata, hinv⟩ := saveToVmem_long hlong hmax
  have hholds : HoldsTree codec ⟨chainIndex (.v255, 0) c, ServerVmem.initVmem.setShm .v255 0 s⟩
      (fun _ => []) t :=
    ⟨(.v255, 0), c, [], [], show 0 < ServerVmem.VMEM_SHM_COUNT by decide, rfl, hinv, rfl,
      by rw [hdata]; exact hstr⟩
  refine ⟨⟨chainIndex (.v255, 0) c, ServerVmem.initVmem.setShm .v255 0 s⟩, hsave, hholds, ?_⟩
  rintro ⟨σ', t', hdeal, hedit, hout⟩
  have hread := dealUserAttrTypeTree_long codec
    ⟨chainIndex (.v255, 0) c, ServerVmem.initVmem.setShm .v255 0 s⟩ hinv (c := c) (by simp)
    rfl (by rw [hdata]; exact hlong) idleEnv 2
  rw [hread] at hdeal
  obtain ⟨σ'', hstore, hnew⟩ := storeTypeTree_holds idleEnv hholds (freshTree 2)
  obtain rfl : σ' = σ'' := by
    rw [hdeal] at hstore
    exact Option.some.inj hstore
  have hfresh : HoldsTree codec σ' (fun _ => []) (freshTree 2) := by
    rcases hnew with hnew | ⟨hfails, -⟩
    · exact hnew
    · exact absurd hfails (not_saveFails_short hinv hbytes hpos hlen)
  have ht' : t' = freshTree 2 := by
    rcases hout with hout | ⟨-, hout⟩
    · exact hout.unique hround hfresh
    · exact absurd (hout.unique hround hfresh) (hne _ (by simp))
  subst ht'
  rcases hedit with ⟨-, hsame⟩ | hadd
  · exact hne _ (by simp) hsame.symm
  · exact hne _ (by simp) (eq_root_of_addLeaf hadd)

/-- Every edit of a stored tree does what it is to do, wherever the tree is
stored, exactly when the tree's string fits the loading buffer. -/
theorem tree_kept_iff (hround : codec.RoundTrips) (hsmall : codec.SmallTrees)
    (hstr : codec.appendToString t = some strval) (hmax : strval.length ≤ VMEM_MAX_DATA_LEN) :
    TreeKept codec t ↔ strval.length ≤ szShmValBufLen := by
  constructor
  · intro hkept
    by_contra hlong
    obtain ⟨σ, -, hholds, hlost⟩ := edit_loses_long hround hsmall hstr (by omega) hmax
    exact hlost (hkept idleEnv σ _ 1 2 false hholds (by simp))
  · exact treeKept_of_fits hround hstr

section Wire

/-- A varint of at most `k` bytes. -/
def encodeVarint : Nat → Nat → List UInt8
  | 0, _ => []
  | k + 1, n =>
    if n < 128 then [UInt8.ofNat n] else UInt8.ofNat (n % 128 + 128) :: encodeVarint k (n / 128)

def decodeVarint : Nat → List UInt8 → Option (Nat × List UInt8)
  | 0, _ => none
  | _ + 1, [] => none
  | k + 1, b :: bs =>
    if b.toNat < 128 then some (b.toNat, bs)
    else (decodeVarint k bs).map fun r => (b.toNat - 128 + 128 * r.1, r.2)

mutual

def encodeTree : TypeTree → List UInt8
  | .node id subs => 0x08 :: (encodeVarint 10 (id % 2 ^ 64).toNat ++ encodeSubTypes subs)

def encodeSubTypes : List TypeTree → List UInt8
  | [] => []
  | t :: ts =>
    0x12 :: (encodeVarint 10 (encodeTree t).length ++ (encodeTree t ++ encodeSubTypes ts))

end

/-- The low 32 bits as a signed number. -/
def toInt32 (n : Nat) : Int :=
  if n % 2 ^ 32 < 2 ^ 31 then (n % 2 ^ 32 : Nat) else (n % 2 ^ 32 : Nat) - 2 ^ 32

/-- The fields of a message, merged one after the other. -/
def decodeFields : Nat → List UInt8 → TypeTree → Option TypeTree
  | _, [], t => some t
  | 0, _ :: _, _ => none
  | k + 1, tag :: bs, .node id subs =>
    match decodeVarint 10 bs with
    | none => none
    | some (n, rest) =>
      if tag = 0x08 then decodeFields k rest (.node (toInt32 n) subs)
      else if tag = 0x12 ∧ n ≤ rest.length then
        match decodeFields k (rest.take n) (.node 0 []) with
        | none => none
        | some t => decodeFields k (rest.drop n) (.node id (subs ++ [t]))
      else none

def parseTree (bytes : List UInt8) : Option TypeTree :=
  decodeFields bytes.length bytes (.node 0 [])

/-- The wire format, refusing what does not parse back. -/
def wireCodec : TreeCodec where
  appendToString := fun t => if parseTree (encodeTree t) = some t then some (encodeTree t) else none
  parseFromArray := fun bytes =>
    match parseTree bytes with
    | some t => (true, t)
    | none => (false, .node 0 [])

theorem wireCodec_append (h : parseTree (encodeTree t) = some t) :
    wireCodec.appendToString t = some (encodeTree t) := if_pos h

theorem wireCodec_roundTrips : wireCodec.RoundTrips := by
  intro t bytes h
  simp only [wireCodec, Option.ite_none_right_eq_some] at h ⊢
  obtain ⟨hparse, hbytes⟩ := h
  rw [← Option.some.inj hbytes, hparse]

theorem wireCodec_smallTrees : wireCodec.SmallTrees := by
  intro t ht
  have hsmall : ∀ u ∈ [.node 1 [], freshTree 2], parseTree (encodeTree u) = some u ∧
      0 < (encodeTree u).length ∧ (encodeTree u).length ≤ 16 := by decide +kernel
  obtain ⟨hparse, hlen⟩ := hsmall t ht
  exact ⟨encodeTree t, wireCodec_append hparse, hlen⟩

end Wire

/-- A tree of three types fits the loading buffer. -/
theorem tree_kept_iff_smallTree :
    wireCodec.appendToString (.node 1 [.node 2 [.node 3 []]]) =
        some [8, 1, 18, 6, 8, 2, 18, 2, 8, 3] ∧
      (TreeKept wireCodec (.node 1 [.node 2 [.node 3 []]]) ↔
        ([8, 1, 18, 6, 8, 2, 18, 2, 8, 3] : List UInt8).length ≤ szShmValBufLen) := by
  have hstr : wireCodec.appendToString (.node 1 [.node 2 [.node 3 []]]) =
      some [8, 1, 18, 6, 8, 2, 18, 2, 8, 3] := by decide +kernel
  exact ⟨hstr, tree_kept_iff wireCodec_roundTrips wireCodec_smallTrees hstr (by decide)⟩

/-- A root with the 260 sub types from 2 on. -/
def wideTree : TypeTree := .node 1 ((List.range 260).map fun k => .node (k + 2) [])

/-- The wide tree is stored and then lost when type 2 is added, which it has. -/
theorem wide_tree_lost :
    ∃ strval σ, wireCodec.appendToString wideTree = some strval ∧ strval.length = 1176 ∧
      ServerVmem.saveToVmem idleEnv.save ServerVmem.initVmem strval =
        (σ.iAttrTypeTreeVmemIdx, σ.vmem) ∧ HoldsTree wireCodec σ (fun _ => []) wideTree ∧
      ¬ EditOutcome wireCodec idleEnv σ (fun _ => []) 1 2 false wideTree := by
  have hparse : parseTree (encodeTree wideTree) = some wideTree ∧
      (encodeTree wideTree).length = 1176 := by decide +kernel
  have hstr := wireCodec_append hparse.1
  have hmax : (encodeTree wideTree).length ≤ VMEM_MAX_DATA_LEN := by
    rw [hparse.2]
    decide
  have hlong : szShmValBufLen < (encodeTree wideTree).length := by
    rw [hparse.2]
    decide
  obtain ⟨σ, hsave, hholds, hlost⟩ :=
    edit_loses_long wireCodec_roundTrips wireCodec_smallTrees hstr hlong hmax
  exact ⟨_, σ, hstr, hparse.2, hsave, hholds, hlost⟩

end XrkMonitor.AttrTree
