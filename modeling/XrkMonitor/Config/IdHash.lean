import XrkMonitor.Config.SlotList
import XrkMonitor.SharedHash.NoListKeys

/-!
# Hash tables of slots with an id

Machines, attributes, warnings and the views of a machine are kept in `_NoList`
hash tables whose nodes start with an id; an id of `0` marks an empty node. The
index of a node is its number in the table. `searchEx` and `search` are the
look-ups of the shared hash table on the column of the ids.
-/

namespace XrkMonitor.Config

open Library SharedHash

/-- The comparators of these tables, such as `MachineHashCmp`. -/
def idCmp (pKey pNode : Int) : Int := if pKey = pNode then 0 else 1

/-- An id as the unsigned short key. -/
def shortKey (id : Int) : Nat := (id % 2 ^ 32).toNat

/-- The ids of the nodes as a hash table. -/
def idHash (dwNodeNums : List Nat) (id : Nat → Int) : SharedHashTableNoList Int where
  dwRealNodeCount := dwNodeNums.sum
  dwNodeNums := dwNodeNums
  bInitSuccess := true
  funCmp := idCmp
  node := id

/-- `HashTableSearchEx_NoList` for an id: whether it is found, and its node or an empty one. -/
def searchEx (dwNodeNums : List Nat) (id : Nat → Int) (key : Int) : Bool × Option Nat :=
  NoList.hashTableSearchEx (idHash dwNodeNums id) key 0 (shortKey key)

/-- `HashTableSearch_NoList` for an id. -/
def search (dwNodeNums : List Nat) (id : Nat → Int) (key : Int) : Option Nat :=
  NoList.hashTableSearch (idHash dwNodeNums id) key (shortKey key)

/-- The nodes an id may lie in. -/
def idPath (dwNodeNums : List Nat) (key : Int) : List Nat := rowCells (shortKey key) dwNodeNums 0

section Search

variable {rows : List Nat} {id : Nat → Int} {key : Int} {c : Nat}

theorem idCmp_eq_zero {a b : Int} : (idCmp a b == 0) = true ↔ b = a := by
  unfold idCmp
  by_cases h : a = b
  · simp [h]
  · simp [h, Ne.symm h]

theorem lt_of_mem_idPath (hpos : ∀ n ∈ rows, 0 < n) (hc : c ∈ idPath rows key) : c < rows.sum := by
  have hlt := lt_of_mem_rowCells hpos hc
  omega

theorem searchEx_eq (rows : List Nat) (id : Nat → Int) (key : Int) :
    searchEx rows id key =
      probe (fun c => id c == key) (fun c => id c == 0) (idPath rows key) none := by
  have hbeq : ∀ k, (fun c => idCmp k (id c) == 0) = fun c => id c == k := by
    intro k
    funext c
    rw [Bool.eq_iff_iff, idCmp_eq_zero, beq_iff_eq]
  have hinit : (idHash rows id).bInitSuccess = true := rfl
  rw [searchEx, NoList.hashTableSearchEx, if_pos hinit, NoList.searchRows_eq_probe]
  change probe (fun c => idCmp key (id c) == 0) (fun c => idCmp 0 (id c) == 0) _ none = _
  rw [hbeq, hbeq]
  rfl

theorem search_eq (rows : List Nat) (id : Nat → Int) (key : Int) :
    search rows id key = (idPath rows key).find? fun c => id c == key := by
  have hinit : (idHash rows id).bInitSuccess = true := rfl
  rw [search, NoList.hashTableSearch, if_pos hinit, NoList.searchRow_eq_find?]
  change (idPath rows key).find? (fun c => idCmp key (id c) == 0) = _
  congr 1
  funext c
  rw [Bool.eq_iff_iff, idCmp_eq_zero, beq_iff_eq]

theorem searchEx_of_some (h : search rows id key = some c) : searchEx rows id key = (true, some c) := by
  rw [search_eq] at h
  rw [searchEx_eq, probe_eq, h]

theorem searchEx_of_none (h : search rows id key = none) :
    searchEx rows id key = (false, (idPath rows key).find? fun c => id c == 0) := by
  rw [search_eq] at h
  rw [searchEx_eq, probe_eq, h, Option.none_or]

theorem search_some (h : search rows id key = some c) : c ∈ idPath rows key ∧ id c = key := by
  rw [search_eq] at h
  exact ⟨List.mem_of_find?_eq_some h, by simpa using List.find?_some h⟩

theorem searchEx_free (h : ((idPath rows key).find? fun c => id c == 0) = some c) :
    c ∈ idPath rows key ∧ id c = 0 :=
  ⟨List.mem_of_find?_eq_some h, by simpa using List.find?_some h⟩

/-- A node in use. -/
def UsedNode (rows : List Nat) (id : Nat → Int) (c : Nat) : Prop := c < rows.sum ∧ id c ≠ 0

/-- Every id in use lies on its path, in one node only. -/
def IdsPlaced (rows : List Nat) (id : Nat → Int) : Prop :=
  Placed (fun a b => a = b) (idPath rows) (UsedNode rows id) id

theorem idsPlaced_zero (rows : List Nat) : IdsPlaced rows fun _ => 0 :=
  ⟨fun _ hc => absurd rfl hc.2, fun _ _ hc => absurd rfl hc.2⟩

theorem IdsPlaced.search_iff (h : IdsPlaced rows id) (hpos : ∀ n ∈ rows, 0 < n) (hkey : key ≠ 0) :
    search rows id key = some c ↔ c < rows.sum ∧ id c = key := by
  constructor
  · intro hfind
    obtain ⟨hpath, hid⟩ := search_some hfind
    exact ⟨lt_of_mem_idPath hpos hpath, hid⟩
  · rintro ⟨hlt, rfl⟩
    have hused : UsedNode rows id c := ⟨hlt, hkey⟩
    cases hfind : search rows id (id c) with
    | none =>
      rw [search_eq] at hfind
      have hmiss := List.find?_eq_none.mp hfind c (h.onPath c hused)
      simp at hmiss
    | some d =>
      obtain ⟨hpath, hid⟩ := search_some hfind
      have hd : UsedNode rows id d := ⟨lt_of_mem_idPath hpos hpath, hid ▸ hkey⟩
      rw [h.unique d c hd hused hid]

theorem IdsPlaced.search_none (h : IdsPlaced rows id) (hpos : ∀ n ∈ rows, 0 < n) (hkey : key ≠ 0)
    (hfind : search rows id key = none) : ∀ c < rows.sum, id c ≠ key := by
  intro c hc heq
  rw [(h.search_iff hpos hkey).mpr ⟨hc, heq⟩] at hfind
  cases hfind

theorem IdsPlaced.insert (h : IdsPlaced rows id) (hpath : c ∈ idPath rows key)
    (hnew : ∀ d < rows.sum, id d ≠ key) : IdsPlaced rows (Function.update id c key) := by
  apply (Placed.insert h (fun _ _ heq => heq.symm) hpath
    (fun d hd heq => hnew d hd.1 heq.symm)).mono
  · rintro d ⟨hlt, hne⟩
    by_cases hdc : d = c
    · exact Or.inl hdc
    · rw [Function.update_of_ne hdc] at hne
      exact Or.inr ⟨hlt, hne⟩
  · intro d _
    rfl

theorem IdsPlaced.erase (h : IdsPlaced rows id) (c : Nat) :
    IdsPlaced rows (Function.update id c 0) := by
  have hne : ∀ d, UsedNode rows (Function.update id c 0) d → d ≠ c := by
    rintro d ⟨-, hd⟩ rfl
    simp at hd
  apply Placed.mono h
  · intro d hd
    have hused := hd.2
    rw [Function.update_of_ne (hne d hd)] at hused
    exact ⟨hd.1, hused⟩
  · intro d hd
    exact Function.update_of_ne (hne d hd) _ _

end Search

end XrkMonitor.Config
