import XrkMonitor.Config.IdHash
import XrkMonitor.Config.Views
import XrkMonitor.Library.FilledArray

/-!
# Machines bound to views

That a machine is bound to a view is stored twice: a view has an array of machines, and a
machine has an array of views in a hash table of its own. `ReadTableMachineViewInfo`
keeps both for the rows of `mt_view_bmach`. The array of a view is checked against its
size and only there for a view of the table; the array of a machine is not checked.
`view_bind_symmetric` is the result about the runs in which neither matters.

## Implementation notes

`BindTable` is what both sides have in common: slots with an id and an array that is
filled from the front. The largest prime up to `MACHINE_VIEW_HASH_NODE_COUNT`, 10001,
is 9973. Places behind an array are memory too, so an array is a function of the place.
-/

namespace XrkMonitor.Config

open Library SharedHash

/-- Slots with an id and the entries of each. -/
structure BindTable where
  id : Nat → Int
  count : Nat → Nat
  ary : Nat → Nat → Int

namespace BindTable

def entries (t : BindTable) (c : Nat) : List Int := filled (t.count c) (t.ary c)

/-- A slot in use has the id `a` and lists `b`. -/
def Lists (n : Nat) (t : BindTable) (a b : Int) : Prop :=
  ∃ c < n, t.id c ≠ 0 ∧ t.id c = a ∧ b ∈ t.entries c

/-- The ids in use differ, and a slot in use lists nothing twice and no more than `size`. -/
structure Tidy (n size : Nat) (t : BindTable) : Prop where
  unique : ∀ c < n, ∀ d < n, t.id c ≠ 0 → t.id c = t.id d → c = d
  nodup : ∀ c < n, t.id c ≠ 0 → (t.entries c).Nodup
  le : ∀ c < n, t.id c ≠ 0 → t.count c ≤ size

/-- One slot gets another id and other entries. -/
def set (t : BindTable) (c : Nat) (id : Int) (count : Nat) (ary : Nat → Int) : BindTable where
  id := Function.update t.id c id
  count := Function.update t.count c count
  ary := Function.update t.ary c ary

variable {n size c k : Nat} {t : BindTable} {a b x y : Int} {f : Nat → Int} {d : Nat}

@[simp] theorem set_id_self : (t.set c a k f).id c = a := Function.update_self ..

@[simp] theorem set_count_self : (t.set c a k f).count c = k := Function.update_self ..

theorem set_id_of_ne (h : d ≠ c) : (t.set c a k f).id d = t.id d :=
  Function.update_of_ne h _ _

theorem set_count_of_ne (h : d ≠ c) : (t.set c a k f).count d = t.count d :=
  Function.update_of_ne h _ _

@[simp] theorem entries_set_self : (t.set c a k f).entries c = filled k f := by
  simp [entries, set]

theorem entries_set_of_ne (h : d ≠ c) : (t.set c a k f).entries d = t.entries d := by
  simp [entries, set, h]

theorem Tidy.lists_iff (h : t.Tidy n size) (hc : c < n) (hid : t.id c ≠ 0) :
    t.Lists n (t.id c) b ↔ b ∈ t.entries c := by
  constructor
  · rintro ⟨d, hd, hne, heq, hmem⟩
    rwa [h.unique c hc d hd hid heq.symm]
  · intro hmem
    exact ⟨c, hc, hid, rfl, hmem⟩

theorem Tidy.lists_set (h : t.Tidy n size) (hc : c < n) (ha : a ≠ 0)
    (hslot : t.id c = a ∨ t.id c = 0 ∧ ∀ d < n, t.id d ≠ a) :
    (t.set c a k f).Lists n x y ↔ x = a ∧ y ∈ filled k f ∨ x ≠ a ∧ t.Lists n x y := by
  have hother : ∀ d < n, d ≠ c → t.id d ≠ a := by
    intro d hd hdc heq
    obtain hid | ⟨-, hnew⟩ := hslot
    · exact hdc (h.unique d hd c hc (heq ▸ ha) (heq.trans hid.symm))
    · exact hnew d hd heq
  constructor
  · rintro ⟨d, hd, hne, heq, hmem⟩
    by_cases hdc : d = c
    · subst hdc
      rw [set_id_self] at heq
      rw [entries_set_self] at hmem
      exact Or.inl ⟨heq.symm, hmem⟩
    · rw [set_id_of_ne hdc] at hne heq
      rw [entries_set_of_ne hdc] at hmem
      exact Or.inr ⟨fun hxa => hother d hd hdc (heq.trans hxa), d, hd, hne, heq, hmem⟩
  · rintro (⟨rfl, hmem⟩ | ⟨hxa, d, hd, hne, heq, hmem⟩)
    · exact ⟨c, hc, by simpa using ha, by simp, by simpa using hmem⟩
    · have hdc : d ≠ c := by
        rintro rfl
        obtain hid | ⟨hzero, -⟩ := hslot
        · exact hxa (heq.symm.trans hid)
        · exact hne hzero
      refine ⟨d, hd, ?_, ?_, ?_⟩
      · rwa [set_id_of_ne hdc]
      · rwa [set_id_of_ne hdc]
      · rwa [entries_set_of_ne hdc]

theorem Tidy.lists_clear (h : t.Tidy n size) (hc : c < n) (hid : t.id c ≠ 0) :
    (t.set c 0 k f).Lists n x y ↔ x ≠ t.id c ∧ t.Lists n x y := by
  constructor
  · rintro ⟨d, hd, hne, heq, hmem⟩
    have hdc : d ≠ c := by
      rintro rfl
      simp at hne
    rw [set_id_of_ne hdc] at hne heq
    rw [entries_set_of_ne hdc] at hmem
    refine ⟨?_, d, hd, hne, heq, hmem⟩
    rintro rfl
    exact hdc (h.unique d hd c hc hne heq)
  · rintro ⟨hx, d, hd, hne, heq, hmem⟩
    have hdc : d ≠ c := by
      rintro rfl
      exact hx heq.symm
    refine ⟨d, hd, ?_, ?_, ?_⟩
    · rwa [set_id_of_ne hdc]
    · rwa [set_id_of_ne hdc]
    · rwa [entries_set_of_ne hdc]

theorem Tidy.set (h : t.Tidy n size) (hslot : ∀ d < n, d ≠ c → t.id d = a → a = 0)
    (hnd : a ≠ 0 → (filled k f).Nodup) (hle : a ≠ 0 → k ≤ size) : (t.set c a k f).Tidy n size where
  unique := by
    intro d hd e he hne heq
    by_cases hdc : d = c
    · subst hdc
      by_contra hde
      rw [set_id_self] at hne heq
      rw [set_id_of_ne (Ne.symm hde)] at heq
      exact hne (hslot e he (Ne.symm hde) heq.symm)
    · rw [set_id_of_ne hdc] at hne heq
      by_cases hec : e = c
      · subst hec
        rw [set_id_self] at heq
        exact absurd (heq.trans (hslot d hd hdc heq)) hne
      · rw [set_id_of_ne hec] at heq
        exact h.unique d hd e he hne heq
  nodup := by
    intro d hd hne
    by_cases hdc : d = c
    · subst hdc
      rw [entries_set_self]
      exact hnd (by simpa using hne)
    · rw [set_id_of_ne hdc] at hne
      rw [entries_set_of_ne hdc]
      exact h.nodup d hd hne
  le := by
    intro d hd hne
    by_cases hdc : d = c
    · subst hdc
      rw [set_count_self]
      exact hle (by simpa using hne)
    · rw [set_id_of_ne hdc] at hne
      rw [set_count_of_ne hdc]
      exact h.le d hd hne

theorem Tidy.first (h : t.Tidy n size) (hc : c < n) (ha : a ≠ 0) (hfree : t.id c = 0)
    (hnew : ∀ d < n, t.id d ≠ a) (hsize : 1 ≤ size) :
    (t.set c a 1 (Function.update f 0 b)).Tidy n size ∧
      ∀ x y, (t.set c a 1 (Function.update f 0 b)).Lists n x y ↔ t.Lists n x y ∨ x = a ∧ y = b := by
  have hfilled : filled 1 (Function.update f 0 b) = [b] := filled_update_self
  refine ⟨h.set (fun d hd _ heq => absurd heq (hnew d hd)) ?_ (fun _ => hsize), ?_⟩
  · intro _
    rw [hfilled]
    exact List.nodup_singleton b
  · intro x y
    rw [h.lists_set hc ha (Or.inr ⟨hfree, hnew⟩), hfilled, List.mem_singleton]
    constructor
    · rintro (hxy | ⟨-, hlists⟩)
      · exact Or.inr hxy
      · exact Or.inl hlists
    · rintro (hlists | hxy)
      · refine Or.inr ⟨?_, hlists⟩
        rintro rfl
        obtain ⟨d, hd, -, heq, -⟩ := hlists
        exact hnew d hd heq
      · exact Or.inl hxy

theorem Tidy.append (h : t.Tidy n size) (hc : c < n) (ha : a ≠ 0) (hid : t.id c = a)
    (hb : b ∉ t.entries c) (hlt : t.count c < size) :
    (t.set c a (t.count c + 1) (Function.update (t.ary c) (t.count c) b)).Tidy n size ∧
      ∀ x y, (t.set c a (t.count c + 1) (Function.update (t.ary c) (t.count c) b)).Lists n x y ↔
        t.Lists n x y ∨ x = a ∧ y = b := by
  subst hid
  have hfilled : filled (t.count c + 1) (Function.update (t.ary c) (t.count c) b) =
      t.entries c ++ [b] := filled_update_self
  refine ⟨h.set ?_ ?_ (fun _ => hlt), ?_⟩
  · intro d hd hdc heq
    exact absurd (h.unique d hd c hc (heq ▸ ha) heq) hdc
  · intro _
    rw [hfilled, List.nodup_append]
    refine ⟨h.nodup c hc ha, List.nodup_singleton b, ?_⟩
    rintro x hx y hy rfl
    rw [List.mem_singleton.mp hy] at hx
    exact hb hx
  · intro x y
    rw [h.lists_set hc ha (Or.inl rfl), hfilled, List.mem_append, List.mem_singleton]
    by_cases hx : x = t.id c
    · subst hx
      simp [h.lists_iff hc ha]
    · simp [hx]

theorem Tidy.drop (h : t.Tidy n size) (hc : c < n) (ha : a ≠ 0) (hid : t.id c = a) {rest}
    (hrest : dropEntry (t.count c) (t.ary c) b = rest) :
    (t.set c a rest.1 rest.2).Tidy n size ∧
      ∀ x y, (t.set c a rest.1 rest.2).Lists n x y ↔ t.Lists n x y ∧ ¬ (x = a ∧ y = b) := by
  subst hid
  subst hrest
  have hnd := h.nodup c hc ha
  refine ⟨h.set ?_ (fun _ => nodup_filled_dropEntry hnd) ?_, ?_⟩
  · intro d hd hdc heq
    exact absurd (h.unique d hd c hc (heq ▸ ha) heq) hdc
  · intro _
    exact Nat.le_trans dropEntry_fst_le (h.le c hc ha)
  · intro x y
    rw [h.lists_set hc ha (Or.inl rfl), mem_filled_dropEntry hnd]
    by_cases hx : x = t.id c
    · subst hx
      simp [h.lists_iff hc ha, entries]
    · simp [hx]

theorem Tidy.dropLast (h : t.Tidy n size) (hc : c < n) (ha : a ≠ 0) (hid : t.id c = a) {rest}
    (hrest : dropEntry (t.count c) (t.ary c) b = rest) (hzero : rest.1 = 0) :
    (t.set c 0 rest.1 rest.2).Tidy n size ∧
      ∀ x y, (t.set c 0 rest.1 rest.2).Lists n x y ↔ t.Lists n x y ∧ ¬ (x = a ∧ y = b) := by
  subst hid
  subst hrest
  refine ⟨h.set (fun _ _ _ _ => rfl) (fun hne => absurd rfl hne) (fun hne => absurd rfl hne), ?_⟩
  intro x y
  rw [h.lists_clear hc ha]
  by_cases hx : x = t.id c
  · subst hx
    have hmem := mem_filled_dropEntry (x := b) (y := y) (h.nodup c hc ha)
    rw [hzero] at hmem
    have hnone : ¬ (y ∈ t.entries c ∧ y ≠ b) := fun hy => by simpa [filled] using hmem.mpr hy
    simpa [h.lists_iff hc ha] using hnone
  · simp [hx]

end BindTable

def MAX_COUNT_BIND_MACHINES_PER_VIEW : Nat := 20

def MAX_MACHINE_BIND_VIEW_COUNT : Nat := 20

/-- The rows of the table of machines with views. -/
def machineViewRows : List Nat := List.replicate STATIC_HASH_ROW_MAX 9973

/-- The fields of `TMachineViewConfigInfo` besides the id of the machine. -/
structure TMachineViewConfigInfo where
  iBindViewCount : Nat
  aryView : Nat → Int

/-- Shared memory with the views and the views of the machines. -/
structure BindShm where
  views : ViewTable
  iMachineId : Nat → Int
  machineView : Nat → TMachineViewConfigInfo

/-- A row of `mt_view_bmach`. -/
structure BindRow where
  machine_id : Int
  view_id : Int
  xrk_status : Int
  machine_id_ne : machine_id ≠ 0
  view_id_ne : view_id ≠ 0

/-- Zeroed memory. -/
def emptyBinds : BindShm where
  views := emptyViews
  iMachineId := fun _ => 0
  machineView := fun _ =>
    { iBindViewCount := 0
      aryView := fun _ => 0 }

def getMachineViewInfo (s : BindShm) (iMachineId : Int) : Bool × Option Nat :=
  searchEx machineViewRows s.iMachineId iMachineId

/-- A machine goes behind the others of a view. -/
def appendMachine (info : TViewInfo) (iMachineId : Int) : TViewInfo :=
  { info with
    bBindMachineCount := wordInc 8 info.bBindMachineCount
    aryBindMachines := Function.update info.aryBindMachines info.bBindMachineCount iMachineId }

def addViewBindMach (t : ViewTable) (iViewId iMachineId : Int) : ViewTable :=
  match slotWith MAX_VIEW_INFO_COUNT t.list.id iViewId with
  | none => t
  | some j =>
    let info := t.stViewInfo j
    if MAX_COUNT_BIND_MACHINES_PER_VIEW < info.bBindMachineCount + 1 then t
    else if (filled info.bBindMachineCount info.aryBindMachines).contains iMachineId then t
    else
      { t with
        stViewInfo := Function.update t.stViewInfo j (appendMachine info iMachineId) }

def delViewBindMach (t : ViewTable) (iViewId iMachineId : Int) : ViewTable :=
  match slotWith MAX_VIEW_INFO_COUNT t.list.id iViewId with
  | none => t
  | some j =>
    let info := t.stViewInfo j
    let rest := dropEntry info.bBindMachineCount info.aryBindMachines iMachineId
    { t with
      stViewInfo := Function.update t.stViewInfo j
        { info with
          bBindMachineCount := rest.1
          aryBindMachines := rest.2 } }

/-- The entry of a machine that is bound to its first view. -/
def bindFirst (s : BindShm) (row : BindRow) (pInfo : Nat) : BindShm where
  views := addViewBindMach s.views row.view_id row.machine_id
  iMachineId := Function.update s.iMachineId pInfo row.machine_id
  machineView := Function.update s.machineView pInfo
    { iBindViewCount := 1
      aryView := Function.update (s.machineView pInfo).aryView 0 row.view_id }

/-- A machine of the table is bound to one more view, without a look at the size of its array. -/
def bindMore (s : BindShm) (row : BindRow) (pInfo : Nat) : BindShm :=
  let info := s.machineView pInfo
  { s with
    views := addViewBindMach s.views row.view_id row.machine_id
    machineView :=
      if (filled info.iBindViewCount info.aryView).contains row.view_id then s.machineView
      else
        Function.update s.machineView pInfo
          { iBindViewCount := info.iBindViewCount + 1
            aryView := Function.update info.aryView info.iBindViewCount row.view_id } }

/-- A machine is no more bound to a view; without a view it leaves the table. -/
def unbind (s : BindShm) (row : BindRow) (pInfo : Nat) : BindShm :=
  let info := s.machineView pInfo
  let rest := dropEntry info.iBindViewCount info.aryView row.view_id
  { views := delViewBindMach s.views row.view_id row.machine_id
    iMachineId := if rest.1 = 0 then Function.update s.iMachineId pInfo 0 else s.iMachineId
    machineView := Function.update s.machineView pInfo
      { iBindViewCount := rest.1
        aryView := rest.2 } }

/-- One row of `ReadTableMachineViewInfo`. -/
def readBindRow (s : BindShm) (row : BindRow) : BindShm :=
  match getMachineViewInfo s row.machine_id with
  | (_, none) => s
  | (false, some pInfo) =>
    if row.xrk_status = RECORD_STATUS_USE then bindFirst s row pInfo else s
  | (true, some pInfo) =>
    if row.xrk_status = RECORD_STATUS_USE then bindMore s row pInfo else unbind s row pInfo

/-- A row of one of the two tables. -/
inductive BindStep
  | view (env : ViewEnv) (row : ViewRow)
  | bind (row : BindRow)

def bindStep (s : BindShm) : BindStep → Option (Unit × BindShm)
  | .view env row => (readViewRow env s.views row).map fun views => ((), { s with views := views })
  | .bind row => some ((), readBindRow s row)

/-- The machines of the views. -/
def viewSide (t : ViewTable) : BindTable where
  id := t.list.id
  count := fun c => (t.stViewInfo c).bBindMachineCount
  ary := fun c => (t.stViewInfo c).aryBindMachines

/-- The views of the machines. -/
def machineSide (s : BindShm) : BindTable where
  id := s.iMachineId
  count := fun c => (s.machineView c).iBindViewCount
  ary := fun c => (s.machineView c).aryView

/-- A view in the table lists the machine. -/
def ViewLists (s : BindShm) (iViewId iMachineId : Int) : Prop :=
  (viewSide s.views).Lists MAX_VIEW_INFO_COUNT iViewId iMachineId

/-- A machine in the table lists the view. -/
def MachineLists (s : BindShm) (iMachineId iViewId : Int) : Prop :=
  (machineSide s).Lists machineViewRows.sum iMachineId iViewId

/-- A machine that is to be bound, and finds a node, is already listed by the view or finds the
view in the table, with room there and in its own array. -/
def BindRowOk (s : BindShm) (row : BindRow) : Prop :=
  row.xrk_status = RECORD_STATUS_USE → (getMachineViewInfo s row.machine_id).2.isSome = true →
    (slotWith MAX_VIEW_INFO_COUNT s.views.list.id row.view_id).isSome = true ∧
      ∀ j ∈ slotWith MAX_VIEW_INFO_COUNT s.views.list.id row.view_id,
        row.machine_id ∈ (viewSide s.views).entries j ∨
          (s.views.stViewInfo j).bBindMachineCount < MAX_COUNT_BIND_MACHINES_PER_VIEW ∧
            ((getMachineViewInfo s row.machine_id).1 = true →
              ∀ c ∈ (getMachineViewInfo s row.machine_id).2,
                (s.machineView c).iBindViewCount < MAX_MACHINE_BIND_VIEW_COUNT)

/-- The list of the views does not leave its array, and a view that is deleted is bound to no
machine. -/
def ViewRowOk (s : BindShm) (env : ViewEnv) (row : ViewRow) : Prop :=
  (readViewRow env s.views row).isSome = true ∧
    (row.xrk_status ≠ RECORD_STATUS_USE →
      ∀ j ∈ slotWith MAX_VIEW_INFO_COUNT s.views.list.id row.xrk_id,
        (s.views.stViewInfo j).bBindMachineCount = 0)

/-- The rows that keep both sides. -/
def BindStepOk (s : BindShm) : BindStep → Prop
  | .view env row => ViewRowOk s env row
  | .bind row => BindRowOk s row

/-- Both sides are tidy and list the same pairs. -/
structure BindInv (s : BindShm) : Prop where
  slots : ∃ l, LiveSlots MAX_VIEW_INFO_COUNT s.views.list.id l ∧
    s.views.dwViewConfigCount = l.length
  placed : IdsPlaced machineViewRows s.iMachineId
  views : (viewSide s.views).Tidy MAX_VIEW_INFO_COUNT MAX_COUNT_BIND_MACHINES_PER_VIEW
  machines : (machineSide s).Tidy machineViewRows.sum MAX_MACHINE_BIND_VIEW_COUNT
  sym : ∀ m v, MachineLists s m v ↔ ViewLists s v m

section Views

variable {t : ViewTable} {j : Nat} {v m : Int}

theorem viewSide_update (t : ViewTable) (j : Nat) (info : TViewInfo) :
    viewSide { t with stViewInfo := Function.update t.stViewInfo j info } =
      (viewSide t).set j (t.list.id j) info.bBindMachineCount info.aryBindMachines := by
  have hfield : ∀ {β : Type} (g : TViewInfo → β), (fun c => g (Function.update t.stViewInfo j info c)) =
      Function.update (fun c => g (t.stViewInfo c)) j (g info) :=
    fun g => Function.comp_update g t.stViewInfo j info
  simp only [viewSide, BindTable.set, Function.update_eq_self, BindTable.mk.injEq, true_and]
  exact ⟨hfield _, hfield _⟩

theorem addViewBindMach_frame (t : ViewTable) (v m : Int) :
    (addViewBindMach t v m).list = t.list ∧
      (addViewBindMach t v m).dwViewConfigCount = t.dwViewConfigCount := by
  unfold addViewBindMach
  cases slotWith MAX_VIEW_INFO_COUNT t.list.id v with
  | none => exact ⟨rfl, rfl⟩
  | some j =>
    simp only
    split
    · exact ⟨rfl, rfl⟩
    · split
      · exact ⟨rfl, rfl⟩
      · exact ⟨rfl, rfl⟩

theorem addViewBindMach_of_mem (hslot : slotWith MAX_VIEW_INFO_COUNT t.list.id v = some j)
    (hmem : m ∈ (viewSide t).entries j) : addViewBindMach t v m = t := by
  have hcontains : (filled (t.stViewInfo j).bBindMachineCount
      (t.stViewInfo j).aryBindMachines).contains m = true := by
    rw [List.contains_iff_mem]
    exact hmem
  simp only [addViewBindMach, hslot, hcontains, if_true, ite_self]

theorem viewSide_addViewBindMach (hslot : slotWith MAX_VIEW_INFO_COUNT t.list.id v = some j)
    (hmem : m ∉ (viewSide t).entries j)
    (hlt : (t.stViewInfo j).bBindMachineCount < MAX_COUNT_BIND_MACHINES_PER_VIEW) :
    viewSide (addViewBindMach t v m) = (viewSide t).set j v ((viewSide t).count j + 1)
      (Function.update ((viewSide t).ary j) ((viewSide t).count j) m) := by
  obtain ⟨-, hid⟩ := slotWith_some hslot
  have hcontains : (filled (t.stViewInfo j).bBindMachineCount
      (t.stViewInfo j).aryBindMachines).contains m = false := by
    rw [← Bool.not_eq_true, List.contains_iff_mem]
    exact hmem
  have hadd : addViewBindMach t v m = { t with
      stViewInfo := Function.update t.stViewInfo j (appendMachine (t.stViewInfo j) m) } := by
    simp only [addViewBindMach, hslot, hcontains, if_neg (Nat.not_lt.mpr hlt), Bool.false_eq_true,
      if_false]
  have hinc : wordInc 8 (t.stViewInfo j).bBindMachineCount =
      (t.stViewInfo j).bBindMachineCount + 1 := by
    apply wordInc_of_lt
    have : (t.stViewInfo j).bBindMachineCount < 20 := hlt
    omega
  rw [hadd, viewSide_update, appendMachine, hinc, hid]
  rfl

theorem delViewBindMach_frame (t : ViewTable) (v m : Int) :
    (delViewBindMach t v m).list = t.list ∧
      (delViewBindMach t v m).dwViewConfigCount = t.dwViewConfigCount := by
  unfold delViewBindMach
  cases slotWith MAX_VIEW_INFO_COUNT t.list.id v with
  | none => exact ⟨rfl, rfl⟩
  | some j => exact ⟨rfl, rfl⟩

theorem delViewBindMach_lists {size : Nat} (h : (viewSide t).Tidy MAX_VIEW_INFO_COUNT size)
    (hv : v ≠ 0) :
    (viewSide (delViewBindMach t v m)).Tidy MAX_VIEW_INFO_COUNT size ∧
      ∀ x y, (viewSide (delViewBindMach t v m)).Lists MAX_VIEW_INFO_COUNT x y ↔
        (viewSide t).Lists MAX_VIEW_INFO_COUNT x y ∧ ¬ (x = v ∧ y = m) := by
  cases hslot : slotWith MAX_VIEW_INFO_COUNT t.list.id v with
  | none =>
    have hdel : delViewBindMach t v m = t := by
      simp only [delViewBindMach, hslot]
    rw [hdel]
    refine ⟨h, ?_⟩
    intro x y
    refine ⟨fun hlists => ⟨hlists, ?_⟩, fun hlists => hlists.1⟩
    rintro ⟨rfl, -⟩
    obtain ⟨c, hc, -, heq, -⟩ := hlists
    exact slotWith_none hslot c hc heq
  | some j =>
    obtain ⟨hj, hid⟩ := slotWith_some hslot
    have hdrop := h.drop hj hv hid (b := m) rfl
    have hdel : viewSide (delViewBindMach t v m) = (viewSide t).set j v
        (dropEntry ((viewSide t).count j) ((viewSide t).ary j) m).1
        (dropEntry ((viewSide t).count j) ((viewSide t).ary j) m).2 := by
      simp only [delViewBindMach, hslot]
      rw [viewSide_update, hid]
      rfl
    rw [hdel]
    exact hdrop

end Views

section Rows

variable {s : BindShm} {p : Nat} {row : BindRow} {views : ViewTable} {env : ViewEnv} {c : Nat}
  {t t' : ViewTable}

theorem machineViewRows_pos : ∀ n ∈ machineViewRows, 0 < n := by
  intro n hn
  rw [List.eq_of_mem_replicate hn]
  decide

theorem machineSide_set (views : ViewTable) (s : BindShm) (p : Nat) (id : Int)
    (info : TMachineViewConfigInfo) :
    machineSide ⟨views, Function.update s.iMachineId p id, Function.update s.machineView p info⟩ =
      (machineSide s).set p id info.iBindViewCount info.aryView := by
  have hfield : ∀ {β : Type} (g : TMachineViewConfigInfo → β),
      (fun c => g (Function.update s.machineView p info c)) =
        Function.update (fun c => g (s.machineView c)) p (g info) :=
    fun g => Function.comp_update g s.machineView p info
  simp only [machineSide, BindTable.set, BindTable.mk.injEq, true_and]
  exact ⟨hfield _, hfield _⟩

theorem BindInv.of_sides (h : BindInv s) {s' : BindShm}
    (hframe : s'.views.list = s.views.list ∧
      s'.views.dwViewConfigCount = s.views.dwViewConfigCount)
    (hplaced : IdsPlaced machineViewRows s'.iMachineId) {e : Prop → Int → Int → Prop}
    (hviews : (viewSide s'.views).Tidy MAX_VIEW_INFO_COUNT MAX_COUNT_BIND_MACHINES_PER_VIEW ∧
      ∀ v m, ViewLists s' v m ↔ e (ViewLists s v m) m v)
    (hmachines : (machineSide s').Tidy machineViewRows.sum MAX_MACHINE_BIND_VIEW_COUNT ∧
      ∀ m v, MachineLists s' m v ↔ e (MachineLists s m v) m v) : BindInv s' where
  slots := by
    obtain ⟨l, hl, hcount⟩ := h.slots
    exact ⟨l, by rw [hframe.1]; exact hl, by rw [hframe.2]; exact hcount⟩
  placed := hplaced
  views := hviews.1
  machines := hmachines.1
  sym := by
    intro m v
    rw [hviews.2, hmachines.2, propext (h.sym m v)]

theorem BindInv.after_bindFirst (h : BindInv s) (hok : BindRowOk s row)
    (hstatus : row.xrk_status = RECORD_STATUS_USE)
    (hfind : search machineViewRows s.iMachineId row.machine_id = none)
    (hfree : ((idPath machineViewRows row.machine_id).find? fun c => s.iMachineId c == 0) = some p) :
    BindInv (bindFirst s row p) := by
  have hget : getMachineViewInfo s row.machine_id = (false, some p) := by
    rw [getMachineViewInfo, searchEx_of_none hfind, hfree]
  obtain ⟨hpath, hzero⟩ := searchEx_free hfree
  have hnew := h.placed.search_none machineViewRows_pos row.machine_id_ne hfind
  have hp := lt_of_mem_idPath machineViewRows_pos hpath
  obtain ⟨hsome, hroom⟩ := hok hstatus (by rw [hget]; rfl)
  obtain ⟨j, hj⟩ := Option.isSome_iff_exists.mp hsome
  obtain ⟨hjlt, hjid⟩ := slotWith_some hj
  have hmem : row.machine_id ∉ (viewSide s.views).entries j := by
    intro hmem
    have hne : s.views.list.id j ≠ 0 := hjid ▸ row.view_id_ne
    have hlists : ViewLists s row.view_id row.machine_id := ⟨j, hjlt, hne, hjid, hmem⟩
    obtain ⟨c, hc, -, heq, -⟩ := (h.sym _ _).mpr hlists
    exact hnew c hc heq
  have hlt := ((hroom j hj).resolve_left hmem).1
  have hviews := h.views.append hjlt row.view_id_ne hjid hmem hlt
  have hmachines := h.machines.first (b := row.view_id) (f := (s.machineView p).aryView) hp
    row.machine_id_ne hzero hnew (by decide)
  apply h.of_sides (e := fun r m v => r ∨ v = row.view_id ∧ m = row.machine_id)
  · exact addViewBindMach_frame _ _ _
  · exact h.placed.insert hpath hnew
  · rw [← viewSide_addViewBindMach hj hmem hlt] at hviews
    exact hviews
  · refine ⟨?_, ?_⟩
    · rw [bindFirst, machineSide_set]
      exact hmachines.1
    · intro m v
      rw [MachineLists, bindFirst, machineSide_set, and_comm (a := v = row.view_id)]
      exact hmachines.2 m v

/-- A machine with an entry is bound to a view. -/
theorem BindInv.after_bindMore (h : BindInv s) (hok : BindRowOk s row)
    (hstatus : row.xrk_status = RECORD_STATUS_USE)
    (hfind : search machineViewRows s.iMachineId row.machine_id = some p) :
    BindInv (bindMore s row p) := by
  have hget : getMachineViewInfo s row.machine_id = (true, some p) := searchEx_of_some hfind
  obtain ⟨hp, hid⟩ := (h.placed.search_iff machineViewRows_pos row.machine_id_ne).mp hfind
  obtain ⟨hsome, hroom⟩ := hok hstatus (by rw [hget]; rfl)
  obtain ⟨j, hj⟩ := Option.isSome_iff_exists.mp hsome
  obtain ⟨hjlt, hjid⟩ := slotWith_some hj
  have hviewMem : ViewLists s row.view_id row.machine_id ↔
      row.machine_id ∈ (viewSide s.views).entries j := by
    have hne : s.views.list.id j ≠ 0 := hjid ▸ row.view_id_ne
    have hiff := h.views.lists_iff (b := row.machine_id) hjlt hne
    rwa [show (viewSide s.views).id j = row.view_id from hjid] at hiff
  have hmachineMem : MachineLists s row.machine_id row.view_id ↔
      row.view_id ∈ (machineSide s).entries p := by
    have hne : s.iMachineId p ≠ 0 := hid ▸ row.machine_id_ne
    have hiff := h.machines.lists_iff (b := row.view_id) hp hne
    rwa [show (machineSide s).id p = row.machine_id from hid] at hiff
  by_cases hmem : row.machine_id ∈ (viewSide s.views).entries j
  · have hcontains : (filled (s.machineView p).iBindViewCount
        (s.machineView p).aryView).contains row.view_id = true := by
      rw [List.contains_iff_mem]
      exact hmachineMem.mp ((h.sym _ _).mpr (hviewMem.mpr hmem))
    have heq : bindMore s row p = s := by
      simp only [bindMore, addViewBindMach_of_mem hj hmem, hcontains, if_true]
    rw [heq]
    exact h
  · have hmem' : row.view_id ∉ (machineSide s).entries p := fun hm =>
      hmem (hviewMem.mp ((h.sym _ _).mp (hmachineMem.mpr hm)))
    have hcontains : (filled (s.machineView p).iBindViewCount
        (s.machineView p).aryView).contains row.view_id = false := by
      rw [← Bool.not_eq_true, List.contains_iff_mem]
      exact hmem'
    obtain ⟨hlt, hltMachine⟩ := (hroom j hj).resolve_left hmem
    have hviews := h.views.append hjlt row.view_id_ne hjid hmem hlt
    have hmachines := h.machines.append hp row.machine_id_ne hid hmem'
      (hltMachine (by rw [hget]) p (by rw [hget]; rfl))
    have hside : machineSide (bindMore s row p) = (machineSide s).set p row.machine_id
        ((machineSide s).count p + 1)
        (Function.update ((machineSide s).ary p) ((machineSide s).count p) row.view_id) := by
      have hids : s.iMachineId = Function.update s.iMachineId p row.machine_id := by
        rw [← hid, Function.update_eq_self]
      simp only [bindMore, hcontains, Bool.false_eq_true, if_false]
      rw [hids, machineSide_set]
      rfl
    apply h.of_sides (e := fun r m v => r ∨ v = row.view_id ∧ m = row.machine_id)
    · exact addViewBindMach_frame _ _ _
    · exact h.placed
    · rw [← viewSide_addViewBindMach hj hmem hlt] at hviews
      exact hviews
    · refine ⟨by rw [hside]; exact hmachines.1, ?_⟩
      intro m v
      rw [MachineLists, hside, and_comm (a := v = row.view_id)]
      exact hmachines.2 m v

theorem BindInv.after_unbind (h : BindInv s)
    (hfind : search machineViewRows s.iMachineId row.machine_id = some p) :
    BindInv (unbind s row p) := by
  obtain ⟨hp, hid⟩ := (h.placed.search_iff machineViewRows_pos row.machine_id_ne).mp hfind
  have hviews := delViewBindMach_lists (m := row.machine_id) h.views row.view_id_ne
  obtain ⟨rest, hrest⟩ : ∃ rest, dropEntry ((machineSide s).count p) ((machineSide s).ary p)
      row.view_id = rest := ⟨_, rfl⟩
  have hrest' : dropEntry (s.machineView p).iBindViewCount (s.machineView p).aryView row.view_id =
      rest := hrest
  have hmachines : IdsPlaced machineViewRows (unbind s row p).iMachineId ∧
      (machineSide (unbind s row p)).Tidy machineViewRows.sum MAX_MACHINE_BIND_VIEW_COUNT ∧
      ∀ m v, MachineLists (unbind s row p) m v ↔
        MachineLists s m v ∧ ¬ (m = row.machine_id ∧ v = row.view_id) := by
    by_cases hzero : rest.1 = 0
    · have hside : machineSide (unbind s row p) = (machineSide s).set p 0 rest.1 rest.2 := by
        simp only [unbind, hrest', hzero, if_true]
        rw [machineSide_set]
      have hids : (unbind s row p).iMachineId = Function.update s.iMachineId p 0 := by
        simp only [unbind, hrest', hzero, if_true]
      simp only [MachineLists, hside, hids]
      exact ⟨h.placed.erase p, h.machines.dropLast hp row.machine_id_ne hid hrest hzero⟩
    · have hids : s.iMachineId = Function.update s.iMachineId p row.machine_id := by
        rw [← hid, Function.update_eq_self]
      have hside : machineSide (unbind s row p) =
          (machineSide s).set p row.machine_id rest.1 rest.2 := by
        simp only [unbind, hrest', hzero, if_false]
        rw [hids, machineSide_set]
      have hplaced : (unbind s row p).iMachineId = s.iMachineId := by
        simp only [unbind, hrest', hzero, if_false]
      simp only [MachineLists, hside, hplaced]
      exact ⟨h.placed, h.machines.drop hp row.machine_id_ne hid hrest⟩
  apply h.of_sides (e := fun r m v => r ∧ ¬ (v = row.view_id ∧ m = row.machine_id))
  · exact delViewBindMach_frame _ _ _
  · exact hmachines.1
  · exact hviews
  · refine ⟨hmachines.2.1, ?_⟩
    intro m v
    rw [hmachines.2.2 m v, and_comm (a := v = row.view_id)]

theorem BindInv.after_readBindRow (h : BindInv s) (hok : BindRowOk s row) :
    BindInv (readBindRow s row) := by
  unfold readBindRow
  cases hfind : search machineViewRows s.iMachineId row.machine_id with
  | some p =>
    rw [getMachineViewInfo, searchEx_of_some hfind]
    by_cases hstatus : row.xrk_status = RECORD_STATUS_USE
    · simp only [hstatus, if_true]
      exact h.after_bindMore hok hstatus hfind
    · simp only [hstatus, if_false]
      exact h.after_unbind hfind
  | none =>
    rw [getMachineViewInfo, searchEx_of_none hfind]
    cases hfree : (idPath machineViewRows row.machine_id).find? fun c => s.iMachineId c == 0 with
    | none => exact h
    | some p =>
      by_cases hstatus : row.xrk_status = RECORD_STATUS_USE
      · simp only [hstatus, if_true]
        exact h.after_bindFirst hok hstatus hfind hfree
      · simp only [hstatus, if_false]
        exact h

theorem viewSide_addView {row : ViewRow}
    (hadd : addView env row t c = some t') :
    t'.list.id = Function.update t.list.id c row.xrk_id ∧
      t'.dwViewConfigCount = wordInc 32 t.dwViewConfigCount ∧
      viewSide t' = (viewSide t).set c row.xrk_id 0 (t.stViewInfo c).aryBindMachines := by
  obtain ⟨list, hlist, ht'⟩ := Option.bind_eq_some_iff.mp hadd
  have hids : list.id = Function.update t.list.id c row.xrk_id := SlotList.id_of_addFirst hlist
  obtain rfl := Option.some.inj ht'
  refine ⟨hids, rfl, ?_⟩
  have hside := viewSide_update { t with list := list } c (newView env row (t.stViewInfo c))
  have hset : (viewSide { t with list := list }).set c row.xrk_id 0
      (t.stViewInfo c).aryBindMachines =
      (viewSide t).set c row.xrk_id 0 (t.stViewInfo c).aryBindMachines := by
    simp [BindTable.set, viewSide, hids]
  rw [← hset]
  refine Eq.trans ?_ (hside.trans ?_)
  · rfl
  · rw [show list.id c = row.xrk_id by rw [hids, Function.update_self]]
    rfl

theorem viewSide_removeView (hremove : removeView t c = some t') :
    t'.list.id = Function.update t.list.id c 0 ∧
      t'.dwViewConfigCount = wordDec 32 t.dwViewConfigCount ∧
      viewSide t' = (viewSide t).set c 0 (t.stViewInfo c).bBindMachineCount
        (t.stViewInfo c).aryBindMachines := by
  obtain ⟨links, -, ht'⟩ := Option.bind_eq_some_iff.mp hremove
  obtain rfl := Option.some.inj ht'
  refine ⟨rfl, rfl, ?_⟩
  have hfield : ∀ {β : Type} (g : TViewInfo → β) (info : TViewInfo), g info = g (t.stViewInfo c) →
      (fun d => g (Function.update t.stViewInfo c info d)) =
        Function.update (fun d => g (t.stViewInfo d)) c (g (t.stViewInfo c)) :=
    fun g info hg => hg ▸ Function.comp_update g t.stViewInfo c info
  simp only [viewSide, BindTable.set, BindTable.mk.injEq, true_and]
  exact ⟨hfield _ _ rfl, hfield _ _ rfl⟩

theorem BindInv.of_views (h : BindInv s)
    (hslots : ∃ l, LiveSlots MAX_VIEW_INFO_COUNT views.list.id l ∧ views.dwViewConfigCount = l.length)
    (htidy : (viewSide views).Tidy MAX_VIEW_INFO_COUNT MAX_COUNT_BIND_MACHINES_PER_VIEW)
    (hlists : ∀ v m, (viewSide views).Lists MAX_VIEW_INFO_COUNT v m ↔ ViewLists s v m) :
    BindInv { s with views := views } where
  slots := hslots
  placed := h.placed
  views := htidy
  machines := h.machines
  sym := fun m v => (h.sym m v).trans (hlists v m).symm

theorem BindInv.after_addView (h : BindInv s) {row : ViewRow}
    (hlt : c < MAX_VIEW_INFO_COUNT) (hzero : s.views.list.id c = 0)
    (hnew : ∀ d < MAX_VIEW_INFO_COUNT, s.views.list.id d ≠ row.xrk_id)
    (hadd : addView env row s.views c = some views) : BindInv { s with views := views } := by
  obtain ⟨l, hl, hcount⟩ := h.slots
  obtain ⟨hids, hinc, hside⟩ := viewSide_addView hadd
  have hlive := hl.insert hlt hzero row.xrk_id_ne
  apply h.of_views
  · refine ⟨c :: l, hids ▸ hlive, ?_⟩
    have hle : (c :: l).length ≤ 200 := hlive.length_le
    rw [List.length_cons] at hle
    rw [hinc, hcount, wordInc_of_lt (by omega)]
    rfl
  · rw [hside]
    exact h.views.set (fun d hd _ heq => absurd heq (hnew d hd))
      (fun _ => List.nodup_nil) (fun _ => Nat.zero_le _)
  · intro v m
    rw [hside, h.views.lists_set hlt row.xrk_id_ne (Or.inr ⟨hzero, hnew⟩)]
    constructor
    · rintro (⟨-, hmem⟩ | ⟨-, hlists⟩)
      · simp [filled] at hmem
      · exact hlists
    · intro hlists
      refine Or.inr ⟨?_, hlists⟩
      rintro rfl
      obtain ⟨d, hd, -, heq, -⟩ := hlists
      exact hnew d hd heq

theorem BindInv.after_removeView (h : BindInv s)
    (hlt : c < MAX_VIEW_INFO_COUNT) (hne : s.views.list.id c ≠ 0)
    (hzero : (viewSide s.views).count c = 0)
    (hremove : removeView s.views c = some views) : BindInv { s with views := views } := by
  obtain ⟨l, hl, hcount⟩ := h.slots
  obtain ⟨hids, hdec, hside⟩ := viewSide_removeView hremove
  apply h.of_views
  · refine ⟨l.erase c, hids ▸ hl.erase, ?_⟩
    have hc : c ∈ l := (hl.mem c).mpr ⟨hlt, hne⟩
    have hpos := List.length_pos_of_mem hc
    have hle : l.length ≤ 200 := hl.length_le
    rw [hdec, hcount, wordDec_of_pos hpos (by omega), List.length_erase_of_mem hc]
  · rw [hside]
    exact h.views.set (fun _ _ _ _ => rfl) (fun hz => absurd rfl hz) (fun hz => absurd rfl hz)
  · intro v m
    rw [hside, h.views.lists_clear hlt hne]
    refine ⟨fun hlists => hlists.2, fun hlists => ⟨?_, hlists⟩⟩
    rintro rfl
    have hmem := (h.views.lists_iff hlt hne).mp hlists
    rw [BindTable.entries, hzero] at hmem
    simp [filled] at hmem

theorem viewSide_updateView (env : ViewEnv) (row : ViewRow) (t : ViewTable) (c : Nat) :
    viewSide { t with
      stViewInfo := Function.update t.stViewInfo c (updateView env row (t.stViewInfo c)) } =
        viewSide t := by
  rw [viewSide_update]
  simp [BindTable.set, viewSide, updateView]

/-- A view row keeps both sides. -/
theorem BindInv.after_readViewRow (h : BindInv s) {row : ViewRow}
    (hok : ViewRowOk s env row) :
    ∃ views, readViewRow env s.views row = some views ∧ BindInv { s with views := views } := by
  obtain ⟨views, hread⟩ := Option.isSome_iff_exists.mp hok.1
  refine ⟨views, hread, ?_⟩
  obtain ⟨l, hl, hcount⟩ := h.slots
  have hfst : (getViewInfoIndex s.views row.xrk_id true).1 = _ :=
    getSlot_eq_slotWith (by rw [hl.countP_used, hcount]) row.xrk_id_ne
  unfold readViewRow at hread
  simp only [hfst] at hread
  by_cases hstatus : row.xrk_status = RECORD_STATUS_USE
  · simp only [hstatus, if_true] at hread
    cases hfind : slotWith MAX_VIEW_INFO_COUNT s.views.list.id row.xrk_id with
    | some c =>
      simp only [hfind] at hread
      split at hread
      · obtain rfl := Option.some.inj hread
        have hside := viewSide_updateView env row s.views c
        apply h.of_views
        · exact ⟨l, hl, hcount⟩
        · rw [hside]
          exact h.views
        · intro v m
          rw [hside]
          rfl
      · obtain rfl := Option.some.inj hread
        exact h
    | none =>
      have hsnd : (getViewInfoIndex s.views row.xrk_id true).2 = _ := SlotList.getSlot_snd hfind
      simp only [hfind, hsnd] at hread
      cases hfree : slotWith MAX_VIEW_INFO_COUNT s.views.list.id 0 with
      | none =>
        simp only [hfree] at hread
        obtain rfl := Option.some.inj hread
        exact h
      | some f =>
        simp only [hfree] at hread
        obtain ⟨hlt, hzero⟩ := slotWith_some hfree
        exact h.after_addView hlt hzero (slotWith_none hfind) hread
  · simp only [hstatus, if_false] at hread
    cases hfind : slotWith MAX_VIEW_INFO_COUNT s.views.list.id row.xrk_id with
    | none =>
      simp only [hfind] at hread
      obtain rfl := Option.some.inj hread
      exact h
    | some c =>
      simp only [hfind] at hread
      obtain ⟨hlt, hid⟩ := slotWith_some hfind
      have hne : s.views.list.id c ≠ 0 := hid ▸ row.xrk_id_ne
      exact h.after_removeView hlt hne (hok.2 hstatus c hfind) hread

theorem BindInv.bindStep (s : BindShm) (a : BindStep) (h : BindInv s) (hok : BindStepOk s a) :
    ∃ o s', bindStep s a = some (o, s') ∧ True ∧ BindInv s' := by
  cases a with
  | view env row =>
    obtain ⟨views, hread, hinv⟩ := h.after_readViewRow hok
    exact ⟨(), { s with views := views }, by simp [Config.bindStep, hread], trivial, hinv⟩
  | bind row => exact ⟨(), readBindRow s row, rfl, trivial, h.after_readBindRow hok⟩

end Rows

theorem emptyBinds_inv : BindInv emptyBinds where
  slots := ⟨[], ⟨List.nodup_nil, by simp [emptyBinds, emptyViews, SlotList.empty]⟩, rfl⟩
  placed := idsPlaced_zero _
  views := ⟨fun _ _ _ _ hne => absurd rfl hne, fun _ _ hne => absurd rfl hne,
    fun _ _ hne => absurd rfl hne⟩
  machines := ⟨fun _ _ _ _ hne => absurd rfl hne, fun _ _ hne => absurd rfl hne,
    fun _ _ hne => absurd rfl hne⟩
  sym := by
    intro m v
    constructor
    · rintro ⟨c, -, hne, -⟩
      exact absurd rfl hne
    · rintro ⟨c, -, hne, -⟩
      exact absurd rfl hne

/-- In every run of view rows and binding rows from zeroed memory whose rows meet the condition,
a machine lists a view exactly if the view lists the machine, no list has an entry twice, and
the counts stay within the arrays. -/
theorem view_bind_symmetric (rows : List BindStep)
    (hrows : Admissible bindStep BindStepOk emptyBinds rows) :
    ∃ os s, runSteps bindStep emptyBinds rows = some (os, s) ∧
      (∀ m v, MachineLists s m v ↔ ViewLists s v m) ∧
      (∀ c < MAX_VIEW_INFO_COUNT, s.views.list.id c ≠ 0 →
        ((viewSide s.views).entries c).Nodup ∧
          (s.views.stViewInfo c).bBindMachineCount ≤ MAX_COUNT_BIND_MACHINES_PER_VIEW) ∧
      ∀ c < machineViewRows.sum, s.iMachineId c ≠ 0 →
        ((machineSide s).entries c).Nodup ∧
          (s.machineView c).iBindViewCount ≤ MAX_MACHINE_BIND_VIEW_COUNT := by
  obtain ⟨os, s, hrun, -, h⟩ := run_invariant BindInv.bindStep rows emptyBinds emptyBinds_inv hrows
  exact ⟨os, s, hrun, h.sym, fun c hc hne => ⟨h.views.nodup c hc hne, h.views.le c hc hne⟩,
    fun c hc hne => ⟨h.machines.nodup c hc hne, h.machines.le c hc hne⟩⟩

/-- A row of one binding. -/
def bindRow (machine_id view_id : Int) (hm : machine_id ≠ 0) (hv : view_id ≠ 0) (xrk_status : Int) :
    BindStep :=
  .bind
    { machine_id := machine_id
      view_id := view_id
      xrk_status := xrk_status
      machine_id_ne := hm
      view_id_ne := hv }

/-- A row of one view in use. -/
def viewStepOf (id : Int) (hid : id ≠ 0) : BindStep := .view (viewRow id hid 0).1 (viewRow id hid 0).2

instance (s : BindShm) (a : BindStep) : Decidable (BindStepOk s a) :=
  match a with
  | .view _ _ => inferInstanceAs (Decidable (_ ∧ _))
  | .bind _ => inferInstanceAs (Decidable (_ → _))

theorem view_bind_symmetric_oneMachine :
    ∃ os s, runSteps bindStep emptyBinds
        [viewStepOf 5 (by decide), bindRow 1 5 (by decide) (by decide) 0] = some (os, s) ∧
      (∀ m v, MachineLists s m v ↔ ViewLists s v m) ∧
      (∀ c < MAX_VIEW_INFO_COUNT, s.views.list.id c ≠ 0 →
        ((viewSide s.views).entries c).Nodup ∧
          (s.views.stViewInfo c).bBindMachineCount ≤ MAX_COUNT_BIND_MACHINES_PER_VIEW) ∧
      ∀ c < machineViewRows.sum, s.iMachineId c ≠ 0 →
        ((machineSide s).entries c).Nodup ∧
          (s.machineView c).iBindViewCount ≤ MAX_MACHINE_BIND_VIEW_COUNT :=
  view_bind_symmetric [viewStepOf 5 (by decide), bindRow 1 5 (by decide) (by decide) 0]
    (by decide +kernel)

/-- The rows that bind machine 1 to `n` views, each after the row of the view. -/
def bindViews : Nat → List BindStep
  | 0 => []
  | n + 1 =>
    bindViews n ++ [viewStepOf (n + 1) (by omega), bindRow 1 (n + 1) (by decide) (by omega) 0]

/-- A machine that is bound to a view before the view is there lists it, and the view never lists
the machine; a machine that is bound to one view more than its array holds counts it. -/
theorem view_bind_one_sided :
    (∃ os s, runSteps bindStep emptyBinds
        [bindRow 1 5 (by decide) (by decide) 0, viewStepOf 5 (by decide)] = some (os, s) ∧
      MachineLists s 1 5 ∧ ¬ ViewLists s 5 1) ∧
    ((runSteps bindStep emptyBinds (bindViews 21)).map fun r =>
      (r.2.iMachineId 1, (r.2.machineView 1).iBindViewCount)) = some (1, 21) := by
  refine ⟨?_, by decide +kernel⟩
  have hread : ((runSteps bindStep emptyBinds
      [bindRow 1 5 (by decide) (by decide) 0, viewStepOf 5 (by decide)]).map fun r =>
        (r.2.iMachineId 1, (machineSide r.2).entries 1,
          decide (∀ c < MAX_VIEW_INFO_COUNT, r.2.views.list.id c = 5 →
            (viewSide r.2.views).entries c = []))) = some (1, [5], true) := by
    decide +kernel
  obtain ⟨⟨os, s⟩, hrun, hs⟩ := Option.map_eq_some_iff.mp hread
  simp only [Prod.mk.injEq, decide_eq_true_eq] at hs
  obtain ⟨hid, hentries, hviews⟩ := hs
  refine ⟨os, s, hrun, ⟨1, by decide, ?_, hid, ?_⟩, ?_⟩
  · exact fun hzero => absurd (hid.symm.trans hzero) (by decide)
  · rw [hentries]
    simp
  · rintro ⟨c, hc, -, hv, hmem⟩
    rw [hviews c hc hv] at hmem
    cases hmem

end XrkMonitor.Config
