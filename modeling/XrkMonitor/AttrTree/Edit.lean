import Mathlib.Data.List.Basic
import Mathlib.Data.List.Count
import Mathlib.Data.List.Perm.Basic
import Mathlib.Tactic.Common

/-!
# Edits of the tree of attribute types

A node of the tree is a type id with the list of its sub types. An add looks
for the parent from the root down and puts a leaf behind its sub types. A
delete takes the node of the type out of its parent's list, where the last sub
type then takes its place.

## Implementation notes

`sub_type_list` is a list; swapping an element with the last one and removing
the last one is done on the part of the list that starts with that element.
-/

namespace XrkMonitor.AttrTree

/-- `MmapUserAttrTypeTree`. -/
inductive TypeTree where
  | node (attr_type_id : Int) (sub_type_list : List TypeTree)
deriving Repr

namespace TypeTree

mutual

/-- Whether two trees are equal. -/
def decEq : (t u : TypeTree) → Decidable (t = u)
  | .node i ts, .node j us =>
    if hij : i = j then
      match decEqList ts us with
      | isTrue h => isTrue (by rw [hij, h])
      | isFalse h => isFalse fun heq => h (TypeTree.node.inj heq).2
    else isFalse fun heq => hij (TypeTree.node.inj heq).1

def decEqList : (ts us : List TypeTree) → Decidable (ts = us)
  | [], [] => isTrue rfl
  | [], _ :: _ => isFalse (List.cons_ne_nil _ _).symm
  | _ :: _, [] => isFalse (List.cons_ne_nil _ _)
  | t :: ts, u :: us =>
    match decEq t u, decEqList ts us with
    | isTrue h, isTrue hs => isTrue (by rw [h, hs])
    | isFalse h, _ => isFalse fun heq => h (List.cons.inj heq).1
    | _, isFalse hs => isFalse fun heq => hs (List.cons.inj heq).2

end

instance : DecidableEq TypeTree := decEq

def attr_type_id : TypeTree → Int
  | .node id _ => id

def sub_type_list : TypeTree → List TypeTree
  | .node _ subs => subs

/-- `set_attr_type_id`. -/
def set_attr_type_id (id : Int) : TypeTree → TypeTree
  | .node _ subs => .node id subs

theorem induct {P : TypeTree → Prop}
    (h : ∀ id subs, (∀ t ∈ subs, P t) → P (.node id subs)) (t : TypeTree) : P t := by
  refine @TypeTree.rec P (fun ts => ∀ t ∈ ts, P t) ?_ ?_ ?_ t
  · exact h
  · simp
  · intro t ts ht hts u hu
    rcases List.mem_cons.mp hu with rfl | hu
    · exact ht
    · exact hts u hu

end TypeTree

/-- `SwapElements(i, size - 1)` and `RemoveLast` for the element in front of
`ts`. -/
def swapRemove (ts : List TypeTree) : List TypeTree :=
  match ts.getLast? with
  | none => []
  | some last => last :: ts.dropLast

mutual

/-- `DeleteAttrTypeTree`. -/
def deleteAttrTypeTree (iType : Int) : TypeTree → Int × TypeTree
  | .node id subs =>
    if iType = id then (1, .node id subs) else (0, .node id (deleteSubTypes iType subs))

/-- The loop of `DeleteAttrTypeTree` over the sub types. -/
def deleteSubTypes (iType : Int) : List TypeTree → List TypeTree
  | [] => []
  | t :: ts =>
    let r := deleteAttrTypeTree iType t
    if 0 < r.1 then swapRemove ts else r.2 :: deleteSubTypes iType ts

end

mutual

/-- `TryAddAttrTypeTree`. -/
def tryAddAttrTypeTree (iTypeParent iType : Int) : TypeTree → Int × TypeTree
  | .node id subs =>
    if iTypeParent = id then
      if ∃ t ∈ subs, iType = t.attr_type_id then (0, .node id subs)
      else (1, .node id (subs ++ [.node iType []]))
    else
      let r := tryAddSubTypes iTypeParent iType subs
      (r.1, .node id r.2)

/-- The second loop of `TryAddAttrTypeTree`, which goes into the sub types. -/
def tryAddSubTypes (iTypeParent iType : Int) : List TypeTree → Int × List TypeTree
  | [] => (-1, [])
  | t :: ts =>
    let r := tryAddAttrTypeTree iTypeParent iType t
    if 0 ≤ r.1 then (r.1, r.2 :: ts)
    else
      let q := tryAddSubTypes iTypeParent iType ts
      (q.1, r.2 :: q.2)

end

mutual

/-- The type ids of a tree. -/
def typeIds : TypeTree → List Int
  | .node id subs => id :: subTypeIds subs

def subTypeIds : List TypeTree → List Int
  | [] => []
  | t :: ts => typeIds t ++ subTypeIds ts

end

/-- `t'` is `t` with the leaf `type` added behind the sub types of a node
`parent` that did not have it. -/
inductive AddLeaf (parent type : Int) : TypeTree → TypeTree → Prop where
  | here {subs : List TypeTree} : (∀ t ∈ subs, t.attr_type_id ≠ type) →
      AddLeaf parent type (.node parent subs) (.node parent (subs ++ [.node type []]))
  | sub {id : Int} {t t' : TypeTree} (l₁ l₂ : List TypeTree) : AddLeaf parent type t t' →
      AddLeaf parent type (.node id (l₁ ++ t :: l₂)) (.node id (l₁ ++ t' :: l₂))

/-- Some node `parent` has `type` among its sub types. -/
inductive HasSubType (parent type : Int) : TypeTree → Prop where
  | here {t : TypeTree} {subs : List TypeTree} : t ∈ subs → t.attr_type_id = type →
      HasSubType parent type (.node parent subs)
  | sub {id : Int} {t : TypeTree} {subs : List TypeTree} : t ∈ subs → HasSubType parent type t →
      HasSubType parent type (.node id subs)

/-- `t'` is `t` with one subtree rooted at `type` taken out of its parent's sub
types, whose order may change. -/
inductive RemoveSubtree (type : Int) : TypeTree → TypeTree → Prop where
  | here {id : Int} {t : TypeTree} {l₁ l₂ subs : List TypeTree} : t.attr_type_id = type →
      subs.Perm (l₁ ++ l₂) → RemoveSubtree type (.node id (l₁ ++ t :: l₂)) (.node id subs)
  | sub {id : Int} {t t' : TypeTree} (l₁ l₂ : List TypeTree) : RemoveSubtree type t t' →
      RemoveSubtree type (.node id (l₁ ++ t :: l₂)) (.node id (l₁ ++ t' :: l₂))

section Add

variable {iTypeParent iType : Int}

theorem subTypeIds_eq (ts : List TypeTree) : subTypeIds ts = ts.flatMap typeIds := by
  induction ts with
  | nil => rfl
  | cons t ts ih => rw [subTypeIds, ih, List.flatMap_cons]

theorem typeIds_node (id : Int) (subs : List TypeTree) :
    typeIds (.node id subs) = id :: subs.flatMap typeIds := by
  rw [typeIds, subTypeIds_eq]

/-- The three outcomes of `TryAddAttrTypeTree`. -/
def AddOutcome (iTypeParent iType : Int) (t : TypeTree) (r : Int × TypeTree) : Prop :=
  (r.1 = -1 ∧ iTypeParent ∉ typeIds t ∧ r.2 = t) ∨
    (r.1 = 0 ∧ HasSubType iTypeParent iType t ∧ r.2 = t) ∨
    (r.1 = 1 ∧ AddLeaf iTypeParent iType t r.2)

/-- The three outcomes of the loop over the sub types of a node. -/
def AddSubsOutcome (iTypeParent iType : Int) (ts : List TypeTree) (r : Int × List TypeTree) :
    Prop :=
  (r.1 = -1 ∧ iTypeParent ∉ ts.flatMap typeIds ∧ r.2 = ts) ∨
    (r.1 = 0 ∧ (∃ t ∈ ts, HasSubType iTypeParent iType t) ∧ r.2 = ts) ∨
    (r.1 = 1 ∧ ∃ l₁ t t' l₂, ts = l₁ ++ t :: l₂ ∧ r.2 = l₁ ++ t' :: l₂ ∧
      AddLeaf iTypeParent iType t t')

theorem tryAddSubTypes_outcome (ts : List TypeTree)
    (h : ∀ t ∈ ts, AddOutcome iTypeParent iType t (tryAddAttrTypeTree iTypeParent iType t)) :
    AddSubsOutcome iTypeParent iType ts (tryAddSubTypes iTypeParent iType ts) := by
  induction ts with
  | nil => exact Or.inl ⟨rfl, by simp, rfl⟩
  | cons t ts ih =>
    have hts := ih fun u hu => h u (List.mem_cons_of_mem _ hu)
    rw [tryAddSubTypes]
    rcases h t (by simp) with ⟨hr, hp, ht⟩ | ⟨hr, hsub, ht⟩ | ⟨hr, hadd⟩
    · rw [hr, ht]
      simp only [show ¬ (0 : Int) ≤ -1 by decide, if_false]
      rcases hts with ⟨hq, hp', hts⟩ | ⟨hq, ⟨u, hu, hsub⟩, hts⟩ | ⟨hq, l₁, u, u', l₂, hl, hl', hadd⟩
      · refine Or.inl ⟨hq, ?_, by rw [hts]⟩
        rw [List.flatMap_cons, List.mem_append, not_or]
        exact ⟨hp, hp'⟩
      · exact Or.inr (Or.inl ⟨hq, ⟨u, List.mem_cons_of_mem _ hu, hsub⟩, by rw [hts]⟩)
      · refine Or.inr (Or.inr ⟨hq, t :: l₁, u, u', l₂, ?_, ?_, hadd⟩)
        · rw [hl, List.cons_append]
        · rw [hl', List.cons_append]
    · rw [hr, ht]
      exact Or.inr (Or.inl ⟨rfl, ⟨t, by simp, hsub⟩, rfl⟩)
    · rw [hr]
      exact Or.inr (Or.inr ⟨rfl, [], t, _, ts, rfl, rfl, hadd⟩)

theorem tryAddAttrTypeTree_outcome (iTypeParent iType : Int) (t : TypeTree) :
    AddOutcome iTypeParent iType t (tryAddAttrTypeTree iTypeParent iType t) := by
  induction t using TypeTree.induct with
  | h id subs ih =>
    rw [tryAddAttrTypeTree]
    split
    · rename_i hid
      subst hid
      split
      · rename_i hsub
        obtain ⟨t, ht, htype⟩ := hsub
        exact Or.inr (Or.inl ⟨rfl, .here ht htype.symm, rfl⟩)
      · rename_i hsub
        refine Or.inr (Or.inr ⟨rfl, .here ?_⟩)
        intro t ht htype
        exact hsub ⟨t, ht, htype.symm⟩
    · rename_i hid
      dsimp only
      rcases tryAddSubTypes_outcome subs ih with
        ⟨hr, hp, hs⟩ | ⟨hr, ⟨t, ht, hsub⟩, hs⟩ | ⟨hr, l₁, t, t', l₂, hl, hl', hadd⟩
      · refine Or.inl ⟨hr, ?_, by rw [hs]⟩
        rw [typeIds_node, List.mem_cons, not_or]
        exact ⟨hid, hp⟩
      · exact Or.inr (Or.inl ⟨hr, .sub ht hsub, by rw [hs]⟩)
      · refine Or.inr (Or.inr ⟨hr, ?_⟩)
        rw [hl', hl]
        exact .sub l₁ l₂ hadd

end Add

section Delete

variable {iType : Int} {t t' : TypeTree}

theorem swapRemove_perm (ts : List TypeTree) : (swapRemove ts).Perm ts := by
  rcases List.eq_nil_or_concat ts with rfl | ⟨us, last, rfl⟩
  · exact List.Perm.refl _
  · rw [List.concat_eq_append, swapRemove, List.getLast?_concat, List.dropLast_concat]
    exact (List.perm_append_singleton last us).symm

theorem deleteAttrTypeTree_of_eq {t : TypeTree} (h : iType = t.attr_type_id) :
    deleteAttrTypeTree iType t = (1, t) := by
  obtain ⟨id, subs⟩ := t
  exact if_pos h

theorem deleteAttrTypeTree_of_ne {t : TypeTree} (h : iType ≠ t.attr_type_id) :
    (deleteAttrTypeTree iType t).1 = 0 := by
  obtain ⟨id, subs⟩ := t
  have hid : iType ≠ id := h
  rw [deleteAttrTypeTree, if_neg hid]

theorem RemoveSubtree.mem (h : RemoveSubtree iType t t') :
    iType ∈ t.sub_type_list.flatMap typeIds := by
  induction h with
  | @here id t l₁ l₂ subs htype _ =>
    refine List.mem_flatMap.mpr ⟨t, by simp [TypeTree.sub_type_list], ?_⟩
    obtain ⟨id', subs'⟩ := t
    rw [typeIds_node]
    exact List.mem_cons.mpr (Or.inl htype.symm)
  | @sub id t t' l₁ l₂ _ ih =>
    refine List.mem_flatMap.mpr ⟨t, by simp [TypeTree.sub_type_list], ?_⟩
    obtain ⟨id', subs'⟩ := t
    rw [typeIds_node]
    exact List.mem_cons_of_mem _ ih

theorem RemoveSubtree.mem_typeIds (h : RemoveSubtree iType t t') :
    iType ∈ typeIds t := by
  have hmem := h.mem
  obtain ⟨id, subs⟩ := t
  rw [typeIds_node]
  exact List.mem_cons_of_mem _ hmem

theorem RemoveSubtree.cons {id : Int} {ts ts' : List TypeTree}
    (h : RemoveSubtree iType (.node id ts) (.node id ts')) (t : TypeTree) :
    RemoveSubtree iType (.node id (t :: ts)) (.node id (t :: ts')) := by
  cases h with
  | @here _ u l₁ l₂ subs htype hperm =>
    rw [← List.cons_append]
    exact RemoveSubtree.here htype (hperm.cons t)
  | sub l₁ l₂ hrem => exact RemoveSubtree.sub (t :: l₁) l₂ hrem

/-- What `DeleteAttrTypeTree` leaves of a node that is not the one to delete. -/
def DeleteOutcome (iType : Int) (t t' : TypeTree) : Prop :=
  (iType ∉ typeIds t ∧ t' = t) ∨ RemoveSubtree iType t t'

theorem deleteSubTypes_outcome (id : Int) (ts : List TypeTree)
    (hone : (ts.flatMap typeIds).count iType ≤ 1)
    (h : ∀ t ∈ ts, iType ≠ t.attr_type_id → (typeIds t).count iType ≤ 1 →
      DeleteOutcome iType t (deleteAttrTypeTree iType t).2) :
    (iType ∉ ts.flatMap typeIds ∧ deleteSubTypes iType ts = ts) ∨
      RemoveSubtree iType (.node id ts) (.node id (deleteSubTypes iType ts)) := by
  induction ts with
  | nil => exact Or.inl ⟨by simp, by rw [deleteSubTypes]⟩
  | cons t ts ih =>
    rw [List.flatMap_cons, List.count_append] at hone
    have hts := ih (by omega) fun u hu => h u (List.mem_cons_of_mem _ hu)
    rw [deleteSubTypes]
    by_cases hid : iType = t.attr_type_id
    · rw [deleteAttrTypeTree_of_eq hid]
      right
      rw [← List.nil_append (t :: ts)]
      exact RemoveSubtree.here hid.symm (swapRemove_perm ts)
    · have hzero : ¬ 0 < (deleteAttrTypeTree iType t).1 := by
        rw [deleteAttrTypeTree_of_ne hid]
        decide
      rw [if_neg hzero]
      rcases h t (by simp) hid (by omega) with ⟨hnot, hsame⟩ | hrem
      · rw [hsame]
        rcases hts with ⟨hnots, hsames⟩ | hrem
        · left
          rw [hsames, List.flatMap_cons, List.mem_append, not_or]
          exact ⟨⟨hnot, hnots⟩, rfl⟩
        · exact Or.inr (hrem.cons t)
      · have hmem := List.count_pos_iff.mpr hrem.mem_typeIds
        rcases hts with ⟨-, hsames⟩ | hrem'
        · rw [hsames]
          exact Or.inr (.sub [] ts hrem)
        · have hmem' := List.count_pos_iff.mpr hrem'.mem
          simp only [TypeTree.sub_type_list] at hmem'
          omega

theorem deleteAttrTypeTree_outcome (t : TypeTree) (hroot : iType ≠ t.attr_type_id)
    (hone : (typeIds t).count iType ≤ 1) :
    DeleteOutcome iType t (deleteAttrTypeTree iType t).2 := by
  induction t using TypeTree.induct with
  | h id subs ih =>
    have hid : iType ≠ id := hroot
    rw [typeIds_node, List.count_cons] at hone
    rw [deleteAttrTypeTree, if_neg hid]
    rcases deleteSubTypes_outcome id subs (by omega) ih with ⟨hnot, hsame⟩ | hrem
    · left
      rw [hsame, typeIds_node, List.mem_cons, not_or]
      exact ⟨⟨hid, hnot⟩, rfl⟩
    · exact Or.inr hrem

end Delete

/-- What an edit is to make of a tree. -/
def TreeEdit (iTypeParent iType : Int) (bDeleteType : Bool) (t t' : TypeTree) : Prop :=
  if bDeleteType then (iType ∉ typeIds t ∧ t' = t) ∨ RemoveSubtree iType t t'
  else ((iTypeParent ∉ typeIds t ∨ HasSubType iTypeParent iType t) ∧ t' = t) ∨
    AddLeaf iTypeParent iType t t'

/-- A type to delete is not the root's and is in the tree at most once. -/
def OneSubtree (iType : Int) (t : TypeTree) : Prop :=
  iType ≠ t.attr_type_id ∧ (typeIds t).count iType ≤ 1

end XrkMonitor.AttrTree
