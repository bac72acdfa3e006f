import XrkMonitor.Config.IdHash
import XrkMonitor.Config.Reload
import XrkMonitor.WarnAttr.Scan

/-!
# Alarms of exception attributes

`ReadTableAttr` keeps an entry of the warn-config hash for each exception attribute, under
the warn id `0`. The entry is looked up with the flag `t_dwIsFind` only for rows in use, so a
deleted row never finds it; rows of other data types do not look at all, and an entry is
read again only when its update time changes.

## Implementation notes

The node data are the configuration of the warning checker with the update time. Whether
`GetAttrTypeInfo` finds the type of a row and how the lock of the list behaves belong to the
row that is read.
-/

namespace XrkMonitor.Config

open Library SharedHash SharedHashTable
open WarnAttr (TWarnConfig hasFlag ATTR_WARN_FLAG_MASK_WARN)

def EX_REPORT : Int := 3

/-- `TWarnConfig` as the hash stores it. -/
structure WarnConfigNode extends TWarnConfig where
  dwLastUpdateTime : Nat
deriving DecidableEq

/-- A node of memory that is set to zero, with the key of an attribute. -/
def warnKey (iWarnId iAttrId : Int) : WarnConfigNode where
  iWarnId := iWarnId
  iAttrId := iAttrId
  iWarnMax := 0
  iWarnMin := 0
  iWarnWave := 0
  iWarnConfigFlag := 0
  iWarnConfigId := 0
  dwReserved1 := 0
  dwReserved2 := 0
  dwReserved3 := 0
  dwLastUpdateTime := 0

instance : Inhabited WarnConfigNode := ⟨warnKey 0 0⟩

/-- `WarnConfigHashCmp`. -/
def warnConfigHashCmp (pKey pNode : WarnConfigNode) : Int :=
  if pKey.iWarnId = pNode.iWarnId ∧ pKey.iAttrId = pNode.iAttrId then 0 else 1

def warnShortKey (stKey : WarnConfigNode) : Nat := shortKey (stKey.iWarnId + stKey.iAttrId)

/-- The columns of `mt_attr` an exception attribute depends on, and what reading the row meets. -/
structure ExcepRow where
  xrk_id : Int
  xrk_status : Int
  data_type : Int
  excep_attr_mask : Int
  update_time : Nat
  attrTypeFound : Bool
  lock : LockEnv

section Functions

/-- `GetWarnConfigInfo`; `bIsFind` tells whether the caller passes `piIsFind`. -/
def getWarnConfigNode (lock : LockEnv) (t : SharedHashTable WarnConfigNode)
    (iWarnId iAttrId : Int) (bIsFind : Bool) :
    (Bool × Option Nat) × SharedHashTable WarnConfigNode :=
  let stKey := warnKey iWarnId iAttrId
  if bIsFind then
    match hashTableSearchEx t stKey (warnShortKey stKey) with
    | (false, some pNode) =>
      let x := insertHashNode lock t pNode
      if x.1 < 0 then ((false, none), x.2) else ((false, some pNode), x.2)
    | found => (found, t)
  else ((false, hashTableSearch t stKey (warnShortKey stKey)), t)

/-- `iStatus` of a row: a row in use whose type is not known is taken as deleted. -/
def ExcepRow.iStatus (row : ExcepRow) : Int :=
  if row.xrk_status = RECORD_STATUS_USE ∧ row.attrTypeFound = false then RECORD_STATUS_DELETE
  else row.xrk_status

/-- What a row does to the warn-config hash in `ReadTableAttr`. -/
def readExcepAttr (t : SharedHashTable WarnConfigNode) (row : ExcepRow) :
    SharedHashTable WarnConfigNode :=
  if row.data_type = EX_REPORT then
    let inUse := row.iStatus == RECORD_STATUS_USE
    let ((t_dwIsFind, pConfig), t) := getWarnConfigNode row.lock t 0 row.xrk_id inUse
    match pConfig with
    | none => t
    | some c =>
      let pNode := t.node c
      if inUse && !t_dwIsFind then
        t.setNode c
          { pNode with
            iWarnId := 0
            iAttrId := row.xrk_id
            dwLastUpdateTime := row.update_time
            iWarnConfigFlag :=
              if row.excep_attr_mask ≠ 0 then pNode.iWarnConfigFlag ||| ATTR_WARN_FLAG_MASK_WARN
              else pNode.iWarnConfigFlag }
      else if inUse && t_dwIsFind && pNode.dwLastUpdateTime != row.update_time then
        t.setNode c
          { pNode with
            dwLastUpdateTime := row.update_time
            iWarnConfigFlag :=
              if row.excep_attr_mask ≠ 0 then pNode.iWarnConfigFlag ||| ATTR_WARN_FLAG_MASK_WARN
              else 0 }
      else if !inUse && t_dwIsFind then
        (removeHashNode row.lock (t.setNode c (warnKey 0 0)) c).2
      else t
  else t

/-- `GetWarnConfigInfo` as a reader calls it for an exception attribute. -/
def findExcep (t : SharedHashTable WarnConfigNode) (iAttrId : Int) : Option Nat :=
  hashTableSearch t (warnKey 0 iAttrId) (warnShortKey (warnKey 0 iAttrId))

/-- The row that was read last among those of an attribute. -/
def latestRow (rows : List ExcepRow) (iAttrId : Int) : Option ExcepRow :=
  rows.reverse.find? fun row => row.xrk_id == iAttrId

/-- An exception attribute in use. -/
def ExcepRow.isExcep (row : ExcepRow) : Bool :=
  row.iStatus == RECORD_STATUS_USE && row.data_type == EX_REPORT

/-- The entry has the mask of the row. -/
def MaskOf (pNode : WarnConfigNode) (row : ExcepRow) : Prop :=
  hasFlag pNode.iWarnConfigFlag ATTR_WARN_FLAG_MASK_WARN = true ↔ row.excep_attr_mask ≠ 0

instance (pNode : WarnConfigNode) (row : ExcepRow) : Decidable (MaskOf pNode row) :=
  inferInstanceAs (Decidable (_ ↔ _))

/-- What the rows that were read should have made of the hash. -/
structure EntriesRight (t : SharedHashTable WarnConfigNode) (rows : List ExcepRow) : Prop where
  entry : ∀ iAttrId,
    (findExcep t iAttrId).isSome = (latestRow rows iAttrId).any ExcepRow.isExcep
  mask : ∀ iAttrId c row, findExcep t iAttrId = some c → latestRow rows iAttrId = some row →
    MaskOf (t.node c) row
  list : ∃ l, Ready t l

/-- A hash that was just made. -/
structure FreshConfigs (t : SharedHashTable WarnConfigNode) : Prop where
  empty : EmptyTable t
  rows : SharedHash.RowsOk t
  funCmp : t.funCmp = warnConfigHashCmp
  zero : ∀ c < t.dwRealNodeCount, t.node c = warnKey 0 0

/-- An attribute with an entry stays an exception attribute in use, and its mask changes only
with its update time; an entry that is new has a free node, and the lock of the list is got. -/
def RowHandled (t : SharedHashTable WarnConfigNode) (row : ExcepRow) : Prop :=
  match findExcep t row.xrk_id with
  | some c => row.isExcep = true ∧
      ((t.node c).dwLastUpdateTime ≠ row.update_time ∨ MaskOf (t.node c) row)
  | none => row.isExcep = true →
      (candidates t (warnShortKey (warnKey 0 row.xrk_id))).any (fun c => !t.used c) = true ∧
        lockLoop row.lock false = true

instance (t : SharedHashTable WarnConfigNode) (row : ExcepRow) : Decidable (RowHandled t row) := by
  unfold RowHandled
  cases findExcep t row.xrk_id <;> infer_instance

end Functions

section Keys

variable {t t' : SharedHashTable WarnConfigNode} {iAttrId : Int} {c : Nat}

theorem warnConfigHashCmp_eq_zero {a b : WarnConfigNode} :
    warnConfigHashCmp a b = 0 ↔ a.iWarnId = b.iWarnId ∧ a.iAttrId = b.iAttrId := by
  rw [warnConfigHashCmp]
  split_ifs with h
  · exact ⟨fun _ => h, fun _ => rfl⟩
  · exact ⟨fun h1 => absurd h1 one_ne_zero, fun hab => absurd hab h⟩

theorem warnConfig_keyCmp : KeyCmp warnConfigHashCmp warnShortKey where
  refl a := warnConfigHashCmp_eq_zero.mpr ⟨rfl, rfl⟩
  symm a b h := by
    obtain ⟨hw, ha⟩ := warnConfigHashCmp_eq_zero.mp h
    exact warnConfigHashCmp_eq_zero.mpr ⟨hw.symm, ha.symm⟩
  trans a b d hab hbd := by
    obtain ⟨hw, ha⟩ := warnConfigHashCmp_eq_zero.mp hab
    obtain ⟨hw', ha'⟩ := warnConfigHashCmp_eq_zero.mp hbd
    exact warnConfigHashCmp_eq_zero.mpr ⟨hw.trans hw', ha.trans ha'⟩
  short a b h := by
    obtain ⟨hw, ha⟩ := warnConfigHashCmp_eq_zero.mp h
    rw [warnShortKey, warnShortKey, hw, ha]

/-- The keys of the hash are apart and on their nodes, and a free node is zero. -/
structure ConfigsOk (t : SharedHashTable WarnConfigNode) : Prop where
  keys : KeyInv warnShortKey ⟨t, none, none⟩
  funCmp : t.funCmp = warnConfigHashCmp
  free : ∀ c < t.dwRealNodeCount, t.used c = false → t.node c = warnKey 0 0

theorem ConfigsOk.init (h : ConfigsOk t) : t.bInitSuccess = true := by
  obtain ⟨l, hl⟩ := h.keys.ready
  exact hl.init

theorem FreshConfigs.configsOk (h : FreshConfigs t) : ConfigsOk t where
  keys := h.empty.keyInv h.rows (by rw [h.funCmp]; exact warnConfig_keyCmp)
  funCmp := h.funCmp
  free c hc _ := h.zero c hc

theorem ConfigsOk.findExcep_eq_some (h : ConfigsOk t) :
    findExcep t iAttrId = some c ↔
      InUse t c ∧ (t.node c).iWarnId = 0 ∧ (t.node c).iAttrId = iAttrId := by
  have hsearch := h.keys.keysOk.search (warnKey 0 iAttrId) c
  rw [h.funCmp, warnConfigHashCmp_eq_zero] at hsearch
  rw [findExcep, hsearch]
  exact and_congr_right fun _ => and_congr eq_comm eq_comm

theorem ConfigsOk.findExcep_inj (h : ConfigsOk t) {a b : Int} (ha : findExcep t a = some c)
    (hb : findExcep t b = some c) : a = b := by
  obtain ⟨_, _, hca⟩ := h.findExcep_eq_some.mp ha
  obtain ⟨_, _, hcb⟩ := h.findExcep_eq_some.mp hb
  exact hca.symm.trans hcb

end Keys

section Rows

variable {t : SharedHashTable WarnConfigNode} {row : ExcepRow} {c : Nat}

theorem readExcepAttr_other (hrow : row.isExcep = false) : readExcepAttr t row = t := by
  by_cases htype : row.data_type = EX_REPORT
  · have huse : (row.iStatus == RECORD_STATUS_USE) = false := by
      rw [ExcepRow.isExcep, htype, beq_self_eq_true, Bool.and_true] at hrow
      exact hrow
    simp only [readExcepAttr, if_pos htype, huse, getWarnConfigNode, Bool.false_eq_true, if_false,
      Bool.false_and, Bool.and_false]
    cases hashTableSearch t (warnKey 0 row.xrk_id) (warnShortKey (warnKey 0 row.xrk_id)) <;> rfl
  · exact if_neg htype

/-- The node of an exception attribute whose update time has changed. -/
def updatedNode (pNode : WarnConfigNode) (row : ExcepRow) : WarnConfigNode :=
  { pNode with
    dwLastUpdateTime := row.update_time
    iWarnConfigFlag :=
      if row.excep_attr_mask ≠ 0 then pNode.iWarnConfigFlag ||| ATTR_WARN_FLAG_MASK_WARN else 0 }

/-- The node of an exception attribute that is new. -/
def addedNode (row : ExcepRow) : WarnConfigNode :=
  { warnKey 0 row.xrk_id with
    dwLastUpdateTime := row.update_time
    iWarnConfigFlag := if row.excep_attr_mask ≠ 0 then ATTR_WARN_FLAG_MASK_WARN else 0 }

theorem isExcep_iff :
    row.isExcep = true ↔ row.iStatus = RECORD_STATUS_USE ∧ row.data_type = EX_REPORT := by
  rw [ExcepRow.isExcep, Bool.and_eq_true, beq_iff_eq, beq_iff_eq]

theorem readExcepAttr_found (h : ConfigsOk t) (hrow : row.isExcep = true)
    (hc : findExcep t row.xrk_id = some c) :
    readExcepAttr t row =
      if (t.node c).dwLastUpdateTime ≠ row.update_time then
        t.setNode c (updatedNode (t.node c) row)
      else t := by
  obtain ⟨huse, htype⟩ := isExcep_iff.mp hrow
  have hfind : getWarnConfigNode row.lock t 0 row.xrk_id true = ((true, some c), t) := by
    rw [findExcep] at hc
    rw [getWarnConfigNode, if_pos rfl, hashTableSearchEx_eq h.init, hc]
  simp only [readExcepAttr, if_pos htype, huse, beq_self_eq_true, hfind, Bool.not_true,
    Bool.and_false, Bool.false_eq_true, if_false, Bool.true_and, bne_iff_ne, Bool.false_and]
  rfl

theorem readExcepAttr_new (h : ConfigsOk t) (hrow : row.isExcep = true)
    (hnone : findExcep t row.xrk_id = none)
    (hfree : (candidates t (warnShortKey (warnKey 0 row.xrk_id))).find? (fun c => !t.used c) =
      some c) (hlock : lockLoop row.lock false = true) :
    ∃ t' l, insertHashNode row.lock t c = (0, t') ∧ Ready t' l ∧ SameCells t t' ∧
      (∀ d, InUse t' d ↔ d = c ∨ InUse t d) ∧
      readExcepAttr t row = t'.setNode c (addedNode row) := by
  obtain ⟨huse, htype⟩ := isExcep_iff.mp hrow
  obtain ⟨l, hl⟩ := h.keys.ready
  have hfor := h.keys.freeFor hnone hfree
  have hlt : c < t.dwRealNodeCount := h.keys.rows.lt_of_mem hfor.1
  obtain ⟨t', ht', hr, he⟩ := insertHashNode_ready hl hlt hfor.2.1 hlock
  refine ⟨t', l ++ [c], ht', hr, he.sameCells, ?_, ?_⟩
  · intro d
    rw [InUse, InUse, ← hr.linked.mem, ← hl.linked.mem, List.mem_append, List.mem_singleton,
      or_comm]
  · have hfind : getWarnConfigNode row.lock t 0 row.xrk_id true = ((false, some c), t') := by
      rw [findExcep] at hnone
      simp only [getWarnConfigNode, if_true, hashTableSearchEx_eq h.init, hnone, hfree, ht']
      rfl
    have hzero : t'.node c = warnKey 0 0 := by
      rw [he.sameCells.node]
      exact h.free c hlt hfor.2.1
    simp only [readExcepAttr, if_pos htype, huse, beq_self_eq_true, hfind, Bool.not_false,
      Bool.and_self, if_true, hzero]
    simp only [addedNode, warnKey, Nat.zero_or]

theorem ConfigsOk.update (h : ConfigsOk t) (hc : InUse t c) {n : WarnConfigNode}
    (hw : n.iWarnId = (t.node c).iWarnId) (ha : n.iAttrId = (t.node c).iAttrId) :
    ConfigsOk (t.setNode c n) := by
  refine ⟨h.keys.setNode ?_, h.funCmp, ?_⟩
  · rw [h.funCmp]
    exact warnConfigHashCmp_eq_zero.mpr ⟨hw, ha⟩
  · intro d hd hfree
    have hdc : d ≠ c := by
      rintro rfl
      rw [used_setNode, hc.2] at hfree
      cases hfree
    rw [node_setNode, Function.update_of_ne hdc]
    exact h.free d hd hfree

theorem hasFlag_zero : hasFlag 0 ATTR_WARN_FLAG_MASK_WARN = false := by decide

theorem hasFlag_mask : hasFlag ATTR_WARN_FLAG_MASK_WARN ATTR_WARN_FLAG_MASK_WARN = true := by
  decide

theorem maskOf_addedNode (row : ExcepRow) : MaskOf (addedNode row) row := by
  rw [MaskOf, addedNode]
  split_ifs with hmask
  · exact iff_of_true hasFlag_mask hmask
  · exact iff_of_false (ne_true_of_eq_false hasFlag_zero) hmask

theorem hasFlag_or (iWarnConfigFlag : Nat) :
    hasFlag (iWarnConfigFlag ||| ATTR_WARN_FLAG_MASK_WARN) ATTR_WARN_FLAG_MASK_WARN = true := by
  rw [hasFlag, Nat.and_or_distrib_right, Nat.and_self, decide_eq_true_iff]
  intro hzero
  exact absurd (Nat.or_eq_zero_iff.mp hzero).2 (by decide)

theorem maskOf_updatedNode (pNode : WarnConfigNode) (row : ExcepRow) :
    MaskOf (updatedNode pNode row) row := by
  rw [MaskOf, updatedNode]
  split_ifs with hmask
  · exact iff_of_true (hasFlag_or _) hmask
  · exact iff_of_false (ne_true_of_eq_false hasFlag_zero) hmask

end Rows

section Runs

variable {t : SharedHashTable WarnConfigNode} {row : ExcepRow} {past : List ExcepRow}

theorem latestRow_concat (past : List ExcepRow) (row : ExcepRow) (iAttrId : Int) :
    latestRow (past ++ [row]) iAttrId =
      if row.xrk_id = iAttrId then some row else latestRow past iAttrId := by
  simp only [latestRow, List.reverse_append, List.reverse_cons, List.reverse_nil, List.nil_append,
    List.singleton_append, List.find?_cons]
  by_cases hid : row.xrk_id = iAttrId
  · simp only [hid, beq_self_eq_true, if_true]
  · simp only [beq_eq_false_iff_ne.mpr hid, if_neg hid]

/-- What holds of the hash after the rows that were read. -/
structure RowsRead (t : SharedHashTable WarnConfigNode) (past : List ExcepRow) : Prop where
  configs : ConfigsOk t
  entry : ∀ iAttrId,
    (findExcep t iAttrId).isSome = (latestRow past iAttrId).any ExcepRow.isExcep
  mask : ∀ iAttrId c row, findExcep t iAttrId = some c → latestRow past iAttrId = some row →
    MaskOf (t.node c) row

theorem RowsRead.entriesRight (h : RowsRead t past) : EntriesRight t past :=
  ⟨h.entry, h.mask, h.configs.keys.ready⟩

theorem RowsRead.own {t' : SharedHashTable WarnConfigNode} (h : RowsRead t past)
    (hconf : ConfigsOk t')
    (hother : ∀ a ≠ row.xrk_id, findExcep t' a = findExcep t a)
    (hnode : ∀ a ≠ row.xrk_id, ∀ d, findExcep t a = some d → t'.node d = t.node d)
    (hentry : (findExcep t' row.xrk_id).isSome = row.isExcep)
    (hmask : ∀ c, findExcep t' row.xrk_id = some c → MaskOf (t'.node c) row) :
    RowsRead t' (past ++ [row]) := by
  refine ⟨hconf, ?_, ?_⟩
  · intro a
    rw [latestRow_concat]
    split_ifs with ha
    · rw [← ha, Option.any_some]
      exact hentry
    · rw [hother a (Ne.symm ha)]
      exact h.entry a
  · intro a c row' hc hrow'
    rw [latestRow_concat] at hrow'
    split_ifs at hrow' with ha
    · obtain rfl := Option.some.inj hrow'
      rw [← ha] at hc
      exact hmask c hc
    · rw [hother a (Ne.symm ha)] at hc
      rw [hnode a (Ne.symm ha) c hc]
      exact h.mask a c row' hc hrow'

theorem ConfigsOk.findExcep_update {c : Nat} {n : WarnConfigNode} (h : ConfigsOk t)
    (hc : InUse t c) (hw : n.iWarnId = (t.node c).iWarnId) (ha : n.iAttrId = (t.node c).iAttrId)
    (iAttrId : Int) : findExcep (t.setNode c n) iAttrId = findExcep t iAttrId := by
  apply Option.ext
  intro d
  rw [(h.update hc hw ha).findExcep_eq_some, h.findExcep_eq_some, node_setNode]
  by_cases hd : d = c
  · subst hd
    rw [Function.update_self, hw, ha]
    rfl
  · rw [Function.update_of_ne hd]
    rfl

theorem RowsRead.found {c : Nat} (h : RowsRead t past) (hrow : row.isExcep = true)
    (hc : findExcep t row.xrk_id = some c)
    (htime : (t.node c).dwLastUpdateTime ≠ row.update_time ∨ MaskOf (t.node c) row) :
    RowsRead (readExcepAttr t row) (past ++ [row]) := by
  obtain ⟨huse, hw, ha⟩ := h.configs.findExcep_eq_some.mp hc
  rw [readExcepAttr_found h.configs hrow hc]
  split_ifs with hchanged
  · have hfind := h.configs.findExcep_update (n := updatedNode (t.node c) row) huse rfl rfl
    refine h.own (h.configs.update huse rfl rfl) (fun a _ => hfind a) ?_ ?_ ?_
    · intro a hne d hd
      have hdc : d ≠ c := by
        rintro rfl
        exact hne (h.configs.findExcep_inj hd hc)
      rw [node_setNode, Function.update_of_ne hdc]
    · rw [hfind, hc, hrow]
      rfl
    · intro d hd
      rw [hfind, hc] at hd
      obtain rfl := Option.some.inj hd
      rw [node_setNode, Function.update_self]
      exact maskOf_updatedNode _ row
  · refine h.own h.configs (fun _ _ => rfl) (fun _ _ _ _ => rfl) ?_ ?_
    · rw [hc, hrow]
      rfl
    · intro d hd
      rw [hc] at hd
      obtain rfl := Option.some.inj hd
      exact htime.resolve_left hchanged

section Added

variable {t' : SharedHashTable WarnConfigNode} {c : Nat}

theorem ConfigsOk.added (h : ConfigsOk t) (hfor : FreeFor warnShortKey t (addedNode row) c)
    (hr : ∃ l, Ready t' l) (he : SameCells t t') (hused : ∀ d, InUse t' d ↔ d = c ∨ InUse t d) :
    ConfigsOk (t'.setNode c (addedNode row)) := by
  refine ⟨h.keys.link hfor hr he hused, he.funCmp.trans h.funCmp, ?_⟩
  intro d hd hfree
  have hlt : d < t'.dwRealNodeCount := hd
  have hfree' : ¬ InUse t' d := by
    intro huse
    rw [used_setNode, huse.2] at hfree
    cases hfree
  have hdc : d ≠ c := fun hdc => hfree' ((hused d).mpr (Or.inl hdc))
  have hlt' : d < t.dwRealNodeCount := by
    rw [← he.real]
    exact hlt
  rw [node_setNode, Function.update_of_ne hdc, he.node]
  apply h.free d hlt'
  by_contra hu
  exact hfree' ((hused d).mpr (Or.inr ⟨hlt', by simpa using hu⟩))

theorem ConfigsOk.findExcep_added (h : ConfigsOk t)
    (hfor : FreeFor warnShortKey t (addedNode row) c)
    (hr : ∃ l, Ready t' l) (he : SameCells t t') (hused : ∀ d, InUse t' d ↔ d = c ∨ InUse t d)
    (iAttrId : Int) (d : Nat) :
    findExcep (t'.setNode c (addedNode row)) iAttrId = some d ↔
      d = c ∧ iAttrId = row.xrk_id ∨ findExcep t iAttrId = some d := by
  rw [(h.added hfor hr he hused).findExcep_eq_some, h.findExcep_eq_some, node_setNode]
  by_cases hd : d = c
  · subst hd
    rw [Function.update_self]
    constructor
    · rintro ⟨-, -, ha⟩
      exact Or.inl ⟨rfl, ha.symm⟩
    · rintro (⟨-, ha⟩ | ⟨huse, -⟩)
      · exact ⟨(hused d).mpr (Or.inl rfl), rfl, ha.symm⟩
      · exact absurd rfl (hfor.ne huse)
  · rw [Function.update_of_ne hd, he.node]
    constructor
    · rintro ⟨huse, hkey⟩
      exact Or.inr ⟨((hused d).mp huse).resolve_left hd, hkey⟩
    · rintro (⟨hdc, -⟩ | ⟨huse, hkey⟩)
      · exact absurd hdc hd
      · exact ⟨(hused d).mpr (Or.inr huse), hkey⟩

end Added

theorem RowsRead.new (h : RowsRead t past) (hrow : row.isExcep = true)
    (hnone : findExcep t row.xrk_id = none)
    (hfree : (candidates t (warnShortKey (warnKey 0 row.xrk_id))).any (fun c => !t.used c) = true)
    (hlock : lockLoop row.lock false = true) :
    RowsRead (readExcepAttr t row) (past ++ [row]) := by
  rw [List.any_eq_true, ← List.find?_isSome] at hfree
  obtain ⟨c, hc⟩ := Option.isSome_iff_exists.mp hfree
  obtain ⟨t', l, -, hr, he, hused, hread⟩ := readExcepAttr_new h.configs hrow hnone hc hlock
  have hfor : FreeFor warnShortKey t (addedNode row) c := by
    obtain ⟨hmem, hunused, habs⟩ := h.configs.keys.freeFor hnone hc
    refine ⟨hmem, hunused, ?_⟩
    rw [Absent, h.configs.funCmp] at habs ⊢
    exact habs
  have hfind := h.configs.findExcep_added hfor ⟨l, hr⟩ he hused
  have hown : findExcep (t'.setNode c (addedNode row)) row.xrk_id = some c :=
    (hfind row.xrk_id c).mpr (Or.inl ⟨rfl, rfl⟩)
  rw [hread]
  refine h.own (h.configs.added hfor ⟨l, hr⟩ he hused) ?_ ?_ ?_ ?_
  · intro a ha
    apply Option.ext
    intro d
    rw [hfind]
    exact or_iff_right fun h => ha h.2
  · intro a ha d hd
    have huse := (h.configs.findExcep_eq_some.mp hd).1
    rw [node_setNode, Function.update_of_ne (hfor.ne huse), he.node]
  · rw [hown, hrow]
    rfl
  · intro d hd
    rw [hown] at hd
    obtain rfl := Option.some.inj hd
    rw [node_setNode, Function.update_self]
    exact maskOf_addedNode row

theorem RowsRead.step (h : RowsRead t past) (hrow : RowHandled t row) :
    RowsRead (readExcepAttr t row) (past ++ [row]) := by
  rw [RowHandled] at hrow
  cases hfind : findExcep t row.xrk_id with
  | some c =>
    rw [hfind] at hrow
    exact h.found hrow.1 hfind hrow.2
  | none =>
    rw [hfind] at hrow
    cases hexcep : row.isExcep with
    | true => exact h.new hexcep hfind (hrow hexcep).1 (hrow hexcep).2
    | false =>
      rw [readExcepAttr_other hexcep]
      refine h.own h.configs (fun _ _ => rfl) (fun _ _ _ _ => rfl) ?_ ?_
      · rw [hfind, hexcep]
        rfl
      · intro c hc
        rw [hfind] at hc
        cases hc

theorem RowsRead.run (h : RowsRead t past) {rows : List ExcepRow}
    (hrows : Along readExcepAttr RowHandled t rows) :
    RowsRead (rows.foldl readExcepAttr t) (past ++ rows) := by
  induction rows generalizing t past with
  | nil =>
    rw [List.append_nil]
    exact h
  | cons row rows ih =>
    have hnext := ih (h.step hrows.1) hrows.2
    rwa [List.append_assoc] at hnext

theorem FreshConfigs.rowsRead (h : FreshConfigs t) : RowsRead t [] := by
  have hnone : ∀ a, findExcep t a = none := by
    intro a
    cases hfind : findExcep t a with
    | none => rfl
    | some c =>
      obtain ⟨huse, -⟩ := h.configsOk.findExcep_eq_some.mp hfind
      have hunused := h.empty.unused c huse.1
      rw [huse.2] at hunused
      cases hunused
  refine ⟨h.configsOk, ?_, ?_⟩
  · intro a
    rw [hnone a]
    rfl
  · intro a c row hc
    rw [hnone a] at hc
    cases hc

/-- While every row is handled, each attribute has an entry with its mask exactly when its
latest row is an exception attribute in use, and the list of the hash is kept. -/
theorem excep_attrs_right (ht : FreshConfigs t) (rows : List ExcepRow)
    (hrows : Along readExcepAttr RowHandled t rows) (n : Nat) :
    EntriesRight ((rows.take n).foldl readExcepAttr t) (rows.take n) := by
  have hread := ht.rowsRead.run (hrows.take n)
  rw [List.nil_append] at hread
  exact hread.entriesRight

/-- A hash of two nodes, as `InitHashTable` leaves it. -/
def twoConfigs : SharedHashTable WarnConfigNode where
  dwNodeSize := 88
  dwRealNodeCount := 2
  dwShareMemBytes := 29 + 2 * 97
  dwNodeNums := [2]
  bInitSuccess := true
  bAccessCheck := true
  dwCurIndex := 2
  dwCurIndexRevers := 2
  funCmp := warnConfigHashCmp
  head := ⟨2, 2, 0, 0, 0, false⟩
  nodeHead := fun _ => ⟨false, 0, 0⟩
  node := fun _ => warnKey 0 0
  attrSpec := []

theorem twoConfigs_fresh : FreshConfigs twoConfigs where
  empty := ⟨rfl, rfl, rfl, rfl, rfl, rfl, fun _ _ => rfl, by decide⟩
  rows := ⟨by decide, by decide⟩
  funCmp := rfl
  zero _ _ := rfl

/-- A row of attribute 5, an exception attribute, read while the lock is free. -/
def excepRow (xrk_status excep_attr_mask : Int) (update_time : Nat) : ExcepRow :=
  ⟨5, xrk_status, EX_REPORT, excep_attr_mask, update_time, true, ⟨fun _ => false, update_time, 1⟩⟩

theorem excep_attrs_right_maskChanged :
    EntriesRight (([excepRow 0 0 100, excepRow 0 1 200].take 2).foldl readExcepAttr twoConfigs)
      ([excepRow 0 0 100, excepRow 0 1 200].take 2) := by
  have hrows : Along readExcepAttr RowHandled twoConfigs
      [excepRow 0 0 100, excepRow 0 1 200] := by
    decide +kernel
  exact excep_attrs_right twoConfigs_fresh _ hrows 2

/-- An exception attribute that is deleted keeps its entry. -/
theorem deleted_excep_stays :
    FreshConfigs twoConfigs ∧
      ¬ EntriesRight ([excepRow 0 1 100, excepRow 1 1 200].foldl readExcepAttr twoConfigs)
        [excepRow 0 1 100, excepRow 1 1 200] := by
  refine ⟨twoConfigs_fresh, ?_⟩
  intro hright
  have hentry := hright.entry 5
  revert hentry
  decide +kernel

end Runs

end XrkMonitor.Config
