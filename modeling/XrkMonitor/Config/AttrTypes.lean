import XrkMonitor.Config.IdHash
import XrkMonitor.Config.Apps

/-!
# Attributes and the lists of their types

`ReadTableAttr` keeps every attribute on two lists: the list of all attributes and the
list of its type. Its test for an empty type asks whether an unsigned count is below
zero, so the first attribute of a type is put in front of whatever the start index of
the type holds. `attr_type_lists_iff` says what this means for a run that starts with
types that have no attributes.

## Implementation notes

The links of the second list are fields of the attributes, so all types share them.
The type of a row is the key of a type and not `0`. Rows with exception values also
keep a warning configuration in another table, which no list depends on. `none` stands
for the use of a node index outside the table.
-/

namespace XrkMonitor.Config

open Library SharedHash

/-- The rows of the attribute table; `ATTR_HASH_NODE_COUNT` is prime. -/
def attrRows : List Nat := List.replicate STATIC_HASH_ROW_MAX 20011

def attrNodes : Nat := attrRows.sum

/-- The rows of the type table: the largest prime up to `ATTRTYPE_HASH_NODE_COUNT`, 1711. -/
def attrTypeRows : List Nat := List.replicate STATIC_HASH_ROW_MAX 1709

/-- The list fields of `AttrTypeInfo`. -/
structure AttrTypeInfo where
  wAttrCount : Nat
  iAttrIndexStart : Int
  iAttrIndexEnd : Int

/-- The fields of `AttrInfoBin` besides its id and links. -/
structure AttrInfoBin where
  iAttrType : Int
  iDataType : Int
  iStaticTime : Int
  iNameVmemIdx : Int
  dwLastModTime : Nat

/-- The attributes with their list in `MtSystemConfig`, and the types with their lists. -/
structure AttrTables where
  list : SlotList
  attr : Nat → AttrInfoBin
  iAttrTypePreIndex : Int → Int
  iAttrTypeNextIndex : Int → Int
  typeId : Nat → Int
  attrType : Nat → AttrTypeInfo

/-- A row of `mt_attr`. -/
structure AttrRow where
  xrk_id : Int
  xrk_status : Int
  attr_type : Int
  data_type : Int
  static_time : Int
  attr_name : Option String
  update_time : Nat
  xrk_id_ne : xrk_id ≠ 0
  attr_type_ne : attr_type ≠ 0

structure AttrEnv where
  saveToVmem : String → Int
  getFromVmem : Int → Option String

namespace AttrTables

/-- The list of one type. -/
def typeLinks (s : AttrTables) (pAttrType : Nat) : ILinks where
  iIndexStart := (s.attrType pAttrType).iAttrIndexStart
  iIndexEnd := (s.attrType pAttrType).iAttrIndexEnd
  iPreIndex := s.iAttrTypePreIndex
  iNextIndex := s.iAttrTypeNextIndex

def setTypeLinks (s : AttrTables) (pAttrType : Nat) (links : ILinks) (wAttrCount : Nat) :
    AttrTables :=
  { s with
    iAttrTypePreIndex := links.iPreIndex
    iAttrTypeNextIndex := links.iNextIndex
    attrType := Function.update s.attrType pAttrType
      { wAttrCount := wAttrCount
        iAttrIndexStart := links.iIndexStart
        iAttrIndexEnd := links.iIndexEnd } }

def getAttrTypeInfo (s : AttrTables) (id : Int) : Option Nat := search attrTypeRows s.typeId id

def getAttrInfo (s : AttrTables) (id : Int) : Bool × Option Nat := searchEx attrRows s.list.id id

/-- An attribute goes to the front of the list of a type. -/
def linkType (s : AttrTables) (pAttrType iHashIndex : Nat) : Option AttrTables :=
  let wAttrCount := (s.attrType pAttrType).wAttrCount
  if (wAttrCount : Int) < 0 then
    some (s.setTypeLinks pAttrType (ilinkSetFirst (s.typeLinks pAttrType) iHashIndex) 1)
  else do
    let first ← slotRef attrNodes (s.attrType pAttrType).iAttrIndexStart
    some (s.setTypeLinks pAttrType (ilinkInsertFirst (s.typeLinks pAttrType) first iHashIndex)
      (wordInc 16 wAttrCount))

/-- An attribute is taken out of the list of a type. -/
def unlinkType (s : AttrTables) (pAttrType iHashIndex : Nat) : Option AttrTables := do
  let links ← ilinkUnlink attrNodes (s.typeLinks pAttrType) iHashIndex
  some (s.setTypeLinks pAttrType links (wordDec 16 (s.attrType pAttrType).wAttrCount))

/-- A new attribute takes an empty node and goes on both lists. -/
def addAttr (env : AttrEnv) (row : AttrRow) (s : AttrTables) (pAttrType pInfo : Nat) :
    Option AttrTables := do
  let list ← s.list.addFirst attrNodes (s.list.wCount == 0) pInfo
  linkType
    { s with
      list := list.setId pInfo row.xrk_id
      attr := Function.update s.attr pInfo
        { iAttrType := row.attr_type
          iDataType := row.data_type
          iStaticTime := row.static_time
          iNameVmemIdx := saveName env.saveToVmem row.attr_name
          dwLastModTime := row.update_time } } pAttrType pInfo

/-- An attribute whose type has changed moves from the list of one type to that of the other. -/
def moveAttr (s : AttrTables) (pAttrType pInfo : Nat) : Option AttrTables := do
  let s' ← (s.getAttrTypeInfo (s.attr pInfo).iAttrType).elim (some s) fun pAttrTypeOld =>
    s.unlinkType pAttrTypeOld pInfo
  s'.linkType pAttrType pInfo

def updateAttr (env : AttrEnv) (row : AttrRow) (s : AttrTables) (pAttrType pInfo : Nat) :
    Option AttrTables := do
  let info := s.attr pInfo
  let s' ← if info.iAttrType ≠ row.attr_type then s.moveAttr pAttrType pInfo else some s
  some
    { s' with
      attr := Function.update s'.attr pInfo
        { iAttrType := row.attr_type
          iDataType := row.data_type
          iStaticTime := row.static_time
          iNameVmemIdx :=
            updateName env.saveToVmem env.getFromVmem info.iNameVmemIdx row.attr_name
          dwLastModTime := row.update_time } }

/-- An attribute leaves its node, the list of all attributes and the list of the row's type. -/
def removeAttr (s : AttrTables) (pAttrType : Option Nat) (pInfo : Nat) : Option AttrTables := do
  let list ← s.list.removeSlot attrNodes pInfo
  let s' : AttrTables :=
    { s with
      list := list
      attr := Function.update s.attr pInfo
        { s.attr pInfo with
          iNameVmemIdx := -1 } }
  pAttrType.elim (some s') fun c => s'.unlinkType c pInfo

/-- One row of `ReadTableAttr`; a row in use whose type is not known is taken as deleted. -/
def readAttrRow (env : AttrEnv) (s : AttrTables) (row : AttrRow) : Option AttrTables :=
  let pAttrType := s.getAttrTypeInfo row.attr_type
  let found := s.getAttrInfo row.xrk_id
  if row.xrk_status = RECORD_STATUS_USE then
    match pAttrType, found with
    | some c, (false, some pInfo) => addAttr env row s c pInfo
    | some c, (true, some pInfo) =>
      if (s.attr pInfo).dwLastModTime ≠ row.update_time then updateAttr env row s c pInfo
      else some s
    | none, (true, some pInfo) => removeAttr s none pInfo
    | _, _ => some s
  else
    match found with
    | (true, some pInfo) => removeAttr s pAttrType pInfo
    | _ => some s

def attrStep (s : AttrTables) (a : AttrEnv × AttrRow) : Option (Unit × AttrTables) :=
  (readAttrRow a.1 s a.2).map fun s' => ((), s')

/-- The chain of a type visits exactly its attributes, once each, before it ends at a negative
index, and the count is their number; a type that counts no attribute has no chain to follow. -/
def TypeListOk (s : AttrTables) (c : Nat) : Prop :=
  ∃ l : List Nat, l.Nodup ∧
    (∀ a, a ∈ l ↔ s.list.Live attrNodes a ∧ (s.attr a).iAttrType = s.typeId c) ∧
    (s.attrType c).wAttrCount = l.length ∧
    (l ≠ [] → ∃ b < 0, Path s.iAttrTypeNextIndex (s.attrType c).iAttrIndexStart
      (l.map Nat.cast) b)

/-- The lists of all types of the table. -/
def TypeListsOk (s : AttrTables) : Prop :=
  ∀ iAttrType c, iAttrType ≠ 0 → s.getAttrTypeInfo iAttrType = some c → s.TypeListOk c

/-- No attribute is stored, and no type counts one. -/
structure NoAttrs (s : AttrTables) : Prop where
  free : ∀ a, s.list.id a = 0
  sysCount : s.list.wCount = 0
  typeCount : ∀ c, (s.attrType c).wAttrCount = 0

/-- The row is in use, with a type that the table has. -/
def Adds (s : AttrTables) (row : AttrRow) : Prop :=
  row.xrk_status = RECORD_STATUS_USE ∧ (s.getAttrTypeInfo row.attr_type).isSome = true

section Runs

variable {s : AttrTables} {env : AttrEnv} {row : AttrRow} {s' : AttrTables}

theorem NoAttrs.typeListsOk (h : s.NoAttrs) : s.TypeListsOk := by
  intro iAttrType c _ _
  refine ⟨[], List.nodup_nil, ?_, h.typeCount c, by simp⟩
  intro a
  simp [SlotList.Live, h.free a]

theorem NoAttrs.search_none (h : s.NoAttrs) : search attrRows s.list.id row.xrk_id = none := by
  cases hfind : search attrRows s.list.id row.xrk_id with
  | none => rfl
  | some c => exact absurd ((search_some hfind).2.symm.trans (h.free c)) row.xrk_id_ne

theorem NoAttrs.getAttrInfo_eq (h : s.NoAttrs) :
    s.getAttrInfo row.xrk_id = (false, some (shortKey row.xrk_id % 20011)) := by
  have hpath : idPath attrRows row.xrk_id = shortKey row.xrk_id % 20011 ::
      rowCells (shortKey row.xrk_id) (List.replicate 9 20011) 20011 := by
    rw [idPath, attrRows, show STATIC_HASH_ROW_MAX = 9 + 1 from rfl, List.replicate_succ, rowCells,
      Nat.zero_add, Nat.zero_add]
  rw [getAttrInfo, searchEx_of_none h.search_none, hpath,
    List.find?_cons_of_pos (by simp [h.free])]

theorem NoAttrs.attrStep_of_not_adds (h : s.NoAttrs) (hadd : ¬ s.Adds row) :
    attrStep s (env, row) = some ((), s) := by
  have hread : readAttrRow env s row = some s := by
    unfold readAttrRow
    simp only [h.getAttrInfo_eq]
    by_cases hstatus : row.xrk_status = RECORD_STATUS_USE
    · cases htype : s.getAttrTypeInfo row.attr_type with
      | some c => exact absurd ⟨hstatus, by rw [htype]; rfl⟩ hadd
      | none => simp
    · simp [hstatus]
  rw [attrStep, hread]
  rfl

theorem NoAttrs.addAttr_broken (h : s.NoAttrs) {c pInfo : Nat}
    (htype : s.getAttrTypeInfo row.attr_type = some c) (hlt : pInfo < attrNodes)
    (hadd : addAttr env row s c pInfo = some s') : ¬ s'.TypeListsOk := by
  have hcell : s.typeId c = row.attr_type := (search_some htype).2
  rw [addAttr, h.sysCount] at hadd
  simp only [SlotList.addFirst, beq_self_eq_true, if_true, linkType, h.typeCount,
    Nat.cast_zero, lt_irrefl, if_false, Option.bind_eq_bind, Option.bind_some,
    Option.bind_eq_some_iff] at hadd
  obtain ⟨first, hfirst, hs'⟩ := hadd
  obtain rfl := Option.some.inj hs'
  have hstart : 0 ≤ (s.attrType c).iAttrIndexStart := by
    rw [slotRef] at hfirst
    split at hfirst
    · rename_i hbound
      exact hbound.1
    · cases hfirst
  intro hok
  obtain ⟨l, hnd, hmem, -, hpath⟩ := hok row.attr_type c row.attr_type_ne htype
  have hmemIff : ∀ a, a ∈ l ↔ a = pInfo := by
    intro a
    rw [hmem a]
    by_cases ha : a = pInfo
    · subst ha
      simp [SlotList.Live, setTypeLinks, SlotList.setId, hlt, row.xrk_id_ne, hcell]
    · simp [SlotList.Live, setTypeLinks, SlotList.setId, ha, h.free]
  have hl : l = [pInfo] := by
    apply List.perm_singleton.mp
    rw [List.perm_ext_iff_of_nodup hnd (List.nodup_singleton _)]
    intro a
    rw [hmemIff, List.mem_singleton]
  subst hl
  obtain ⟨b, hb, hwalk⟩ := hpath (by simp)
  have hnext : (s.attrType c).iAttrIndexStart = b := by
    simpa [setTypeLinks, typeLinks, ilinkInsertFirst] using hwalk
  omega

theorem NoAttrs.attrStep_of_adds (h : s.NoAttrs) (hadd : s.Adds row) {o : Unit}
    (hstep : attrStep s (env, row) = some (o, s')) : ¬ s'.TypeListsOk := by
  obtain ⟨hstatus, hsome⟩ := hadd
  obtain ⟨c, htype⟩ := Option.isSome_iff_exists.mp hsome
  obtain ⟨s₁, hread, hs₁⟩ := Option.map_eq_some_iff.mp hstep
  obtain ⟨-, rfl⟩ := Prod.mk.inj hs₁
  simp only [readAttrRow, hstatus, if_true, htype, h.getAttrInfo_eq] at hread
  refine h.addAttr_broken htype ?_ hread
  have hlt : shortKey row.xrk_id % 20011 < 20011 := Nat.mod_lt _ (by decide)
  exact Nat.lt_of_lt_of_le hlt (by decide)

/-- Every state of a run from types without attributes has the lists of its types in order
exactly if no row adds an attribute. -/
theorem attr_type_lists_iff (s : AttrTables) (h : s.NoAttrs) (rows : List (AttrEnv × AttrRow)) :
    (∀ n, ∃ os s', runSteps attrStep s (rows.take n) = some (os, s') ∧ s'.TypeListsOk) ↔
      ∀ a ∈ rows, ¬ s.Adds a.2 := by
  induction rows with
  | nil => simpa [runSteps] using h.typeListsOk
  | cons a rows ih =>
    obtain ⟨env, row⟩ := a
    rw [List.forall_mem_cons]
    by_cases hadd : s.Adds row
    · simp only [hadd, not_true_eq_false, false_and, iff_false, not_forall]
      refine ⟨1, ?_⟩
      rintro ⟨os, s', hrun, hok⟩
      simp only [List.take_succ_cons, List.take_zero, runSteps, Option.bind_eq_bind,
        Option.bind_eq_some_iff] at hrun
      obtain ⟨⟨o, s₁⟩, hstep, ⟨os₁, s₂⟩, hnil, hout⟩ := hrun
      obtain ⟨-, rfl⟩ := Prod.mk.inj (Option.some.inj hnil)
      obtain ⟨-, rfl⟩ := Prod.mk.inj (Option.some.inj hout)
      exact h.attrStep_of_adds hadd hstep hok
    · have hstep : attrStep s (env, row) = some ((), s) := h.attrStep_of_not_adds hadd
      have hrun : ∀ n, runSteps attrStep s (((env, row) :: rows).take (n + 1)) =
          (runSteps attrStep s (rows.take n)).map fun r => (() :: r.1, r.2) := by
        intro n
        have hone : runSteps attrStep s [(env, row)] = some ([()], s) := by
          simp [runSteps, hstep]
        exact runSteps_append hone (rows.take n)
      rw [← ih]
      constructor
      · intro hall
        refine ⟨hadd, fun n => ?_⟩
        obtain ⟨os, s', hr, hok⟩ := hall (n + 1)
        rw [hrun] at hr
        obtain ⟨⟨os₁, s₁⟩, hr₁, heq⟩ := Option.map_eq_some_iff.mp hr
        obtain ⟨-, rfl⟩ := Prod.mk.inj heq
        exact ⟨os₁, s₁, hr₁, hok⟩
      · rintro ⟨-, hall⟩ n
        cases n with
        | zero => exact ⟨[], s, rfl, h.typeListsOk⟩
        | succ n =>
          obtain ⟨os, s', hr, hok⟩ := hall n
          exact ⟨() :: os, s', by rw [hrun, hr]; rfl, hok⟩

end Runs

/-- Type 1 in its node of zeroed memory. -/
def oneType : AttrTables where
  list := SlotList.empty
  attr := fun _ =>
    { iAttrType := 0
      iDataType := 0
      iStaticTime := 0
      iNameVmemIdx := 0
      dwLastModTime := 0 }
  iAttrTypePreIndex := fun _ => 0
  iAttrTypeNextIndex := fun _ => 0
  typeId := fun c => if c = 1 then 1 else 0
  attrType := fun _ =>
    { wAttrCount := 0
      iAttrIndexStart := 0
      iAttrIndexEnd := 0 }

theorem oneType_noAttrs : oneType.NoAttrs := ⟨fun _ => rfl, rfl, fun _ => rfl⟩

/-- Attribute 5 in use, with a type. -/
def fifthAttr (attr_type : Int) (htype : attr_type ≠ 0) : AttrEnv × AttrRow :=
  ({ saveToVmem := fun _ => -1
     getFromVmem := fun _ => none },
   { xrk_id := 5
     xrk_status := 0
     attr_type := attr_type
     data_type := 1
     static_time := 1
     attr_name := none
     update_time := 7
     xrk_id_ne := by decide
     attr_type_ne := htype })

theorem attr_type_lists_iff_unknownType :
    (∀ n, ∃ os s', runSteps attrStep oneType ([fifthAttr 2 (by decide)].take n) = some (os, s') ∧
        s'.TypeListsOk) ↔
      ∀ a ∈ [fifthAttr 2 (by decide)], ¬ oneType.Adds a.2 :=
  attr_type_lists_iff oneType oneType_noAttrs [fifthAttr 2 (by decide)]

/-- The first attribute of type 1 is linked to node 0, which is no attribute. -/
theorem first_attr_linked_to_node_zero :
    ∃ s', runSteps attrStep oneType [fifthAttr 1 (by decide)] = some ([()], s') ∧
      (s'.attrType 1).iAttrIndexStart = 5 ∧ s'.iAttrTypeNextIndex 5 = 0 ∧ s'.list.id 0 = 0 ∧
      ¬ s'.TypeListsOk := by
  have hrun : ((attrStep oneType (fifthAttr 1 (by decide))).map fun r =>
      ((r.2.attrType 1).iAttrIndexStart, r.2.iAttrTypeNextIndex 5, r.2.list.id 0)) =
        some (5, 0, 0) := by decide +kernel
  obtain ⟨⟨o, s'⟩, hstep, hvalues⟩ := Option.map_eq_some_iff.mp hrun
  obtain ⟨hstart, hrest⟩ := Prod.mk.inj hvalues
  obtain ⟨hnext, hzero⟩ := Prod.mk.inj hrest
  refine ⟨s', by simp [runSteps, hstep], hstart, hnext, hzero, ?_⟩
  exact oneType_noAttrs.attrStep_of_adds ⟨rfl, by decide +kernel⟩ hstep

end AttrTables

end XrkMonitor.Config
