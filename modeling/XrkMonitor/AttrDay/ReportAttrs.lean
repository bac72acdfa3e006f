import Mathlib.Data.List.Sort
import XrkMonitor.Library.BinarySearch
import XrkMonitor.Library.Bytes
import XrkMonitor.Library.Run
import XrkMonitor.ServerVmem.Calls

/-!
# The attributes that a machine has reported in a day

`WriteAttrDataToMemcache` keeps the attributes of a machine as a sorted array in the
variable-length memory. An attribute that is new is added to a copy of the array, the stored
array is freed, and the copy is saved; a save that fails leaves the machine without a list.

## Implementation notes

The array is stored as its bytes, least significant first. The name of a day table fits
`szAttrReportDay`. A run also keeps how many reports were processed, and the attributes whose
processing found or stored them. Other strings are saved and freed between two reports; nobody
but the machine frees its list. `none` stands for a walk in the memory that does not end.
-/

namespace XrkMonitor.AttrDay

open Library Vmem ServerVmem

def MAX_REPORT_ATTR_COUNT_PER_MACHINE : Nat := 1800

/-- `sizeof(s_ReportAttrs)`. -/
def reportAttrsBytes : Nat := MAX_REPORT_ATTR_COUNT_PER_MACHINE * 10 * 4

/-- An `int` in memory. -/
def intBytes (a : Int32) : List UInt8 := (toBytes 4 a.toUInt32.toNat).reverse

def bytesInt (bs : List UInt8) : Int32 := (UInt32.ofNat (ofBytes bs.reverse)).toInt32

/-- An array of `int`s in memory. -/
def writeInts (attrs : List Int32) : List UInt8 := attrs.flatMap intBytes

def readInts : List UInt8 → List Int32
  | b₀ :: b₁ :: b₂ :: b₃ :: bs => bytesInt [b₀, b₁, b₂, b₃] :: readInts bs
  | _ => []

/-- `SrvForAttrCmp`. -/
def srvForAttrCmp (a b : Int32) : Int := (a - b).toInt

/-- `qsort` by `SrvForAttrCmp`. -/
def sortAttrs (attrs : List Int32) : List Int32 :=
  attrs.insertionSort fun a b => srvForAttrCmp a b ≤ 0

/-- The fields of `MachineInfo` that belong to the list, and the memory. -/
structure ReportList where
  vmem : VmemBuf
  iReportAttrVmemIdx : Int
  szAttrReportDay : String

/-- The outcomes of compare-and-swap and the clock in the calls of one report. -/
structure ReportEnv where
  dayFree : VmemEnv
  readFree : VmemEnv
  oldFree : VmemEnv
  save : Nat → VmemEnv

section Functions

/-- A list of another day is freed. -/
def changeDay (env : ReportEnv) (m_szLastTableName : String) (s : ReportList) :
    Option ReportList :=
  if m_szLastTableName ≠ "" ∧ m_szLastTableName ≠ s.szAttrReportDay then
    if 0 < s.iReportAttrVmemIdx then
      (freeVmem env.dayFree s.vmem s.iReportAttrVmemIdx).map fun f => ⟨f.2, -1, m_szLastTableName⟩
    else some ⟨s.vmem, -1, m_szLastTableName⟩
  else some s

/-- `pattr`: the array that is stored. One that is not read is freed. -/
def loadAttrs (env : ReportEnv) (s : ReportList) : Option (Option (List Int32) × ReportList) :=
  if 0 < s.iReportAttrVmemIdx then
    match getFromVmemZeroCp s.vmem s.iReportAttrVmemIdx reportAttrsBytes with
    | none => none
    | some (.ok bytes) => some (some (readInts bytes), s)
    | some (.error _) =>
      (freeVmem env.readFree s.vmem s.iReportAttrVmemIdx).map fun f =>
        (none, ⟨f.2, -1, s.szAttrReportDay⟩)
  else some (none, s)

/-- The array is saved; the first component tells whether it was. -/
def saveAttrs (env : ReportEnv) (s : ReportList) (attrs : List Int32) : Bool × ReportList :=
  let r := saveToVmem env.save s.vmem (writeInts attrs)
  (0 < r.1, ⟨r.2, r.1, s.szAttrReportDay⟩)

/-- An attribute that the stored array does not have. -/
def extendAttrs (env : ReportEnv) (s : ReportList) (attrs : List Int32) (iAttrId : Int32) :
    Option (Bool × ReportList) :=
  if MAX_REPORT_ATTR_COUNT_PER_MACHINE ≤ attrs.length + 1 then some (false, s)
  else
    (freeVmem env.oldFree s.vmem s.iReportAttrVmemIdx).map fun f =>
      saveAttrs env ⟨f.2, s.iReportAttrVmemIdx, s.szAttrReportDay⟩ (sortAttrs (attrs ++ [iAttrId]))

/-- One report of `WriteAttrDataToMemcache`, and whether its attribute was found or stored. -/
def reportAttr (env : ReportEnv) (m_szLastTableName : String) (s : ReportList) (iAttrId : Int32) :
    Option (Bool × ReportList) := do
  let s ← changeDay env m_szLastTableName s
  let (pattr, s) ← loadAttrs env s
  match pattr with
  | none => some (saveAttrs env s [iAttrId])
  | some attrs =>
    if (bsearch (srvForAttrCmp iAttrId) attrs).isSome then some (true, s)
    else extendAttrs env s attrs iAttrId

end Functions

/-- The list of the machine, the number of reports that were processed, and the attributes that
were found or stored. -/
structure ReportRun where
  list : ReportList
  processed : Nat
  recorded : List Int32

/-- A report of the machine, or what others do to the memory. -/
inductive ReportEvent
  | report (env : ReportEnv) (iAttrId : Int32)
  | save (env : Nat → VmemEnv) (pdata : List UInt8)
  | free (env : VmemEnv) (index : Int)

/-- One event of a day. -/
def reportStep (m_szLastTableName : String) (r : ReportRun) :
    ReportEvent → Option (Unit × ReportRun)
  | .report env iAttrId =>
    (reportAttr env m_szLastTableName r.list iAttrId).map fun x =>
      ((), ⟨x.2, r.processed + 1, if x.1 then r.recorded ++ [iAttrId] else r.recorded⟩)
  | .save env pdata =>
    some ((), { r with list := { r.list with vmem := (saveToVmem env r.list.vmem pdata).2 } })
  | .free env index =>
    (freeVmem env r.list.vmem index).map fun f =>
      ((), { r with list := { r.list with vmem := f.2 } })

/-- The array that a reader finds under the index. -/
def storedAttrs (s : ReportList) : Option (List Int32) :=
  match getFromVmemZeroCp s.vmem s.iReportAttrVmemIdx reportAttrsBytes with
  | some (.ok bytes) => some (readInts bytes)
  | _ => none

/-- After a report the list, if there is one, is strictly increasing, and it has every attribute
that was found or stored. -/
structure ListRight (r : ReportRun) : Prop where
  stored : 0 < r.processed → 0 < r.list.iReportAttrVmemIdx →
    ∃ attrs, storedAttrs r.list = some attrs ∧ attrs.Pairwise (· < ·) ∧
      ∀ a ∈ r.recorded, a ∈ attrs
  lost : r.list.iReportAttrVmemIdx ≤ 0 → r.recorded = []

/-- The difference of two attributes is a number of 32 bits. -/
def Comparable (a b : Int32) : Prop :=
  a.toInt - b.toInt < 2 ^ 31 ∧ b.toInt - a.toInt < 2 ^ 31

instance (a b : Int32) : Decidable (Comparable a b) := inferInstanceAs (Decidable (_ ∧ _))

/-- The save of the longer array does not fail. -/
def SaveOk (env : ReportEnv) (s : ReportList) (attrs : List Int32) : Prop :=
  match freeVmem env.oldFree s.vmem s.iReportAttrVmemIdx with
  | some f => 0 < (saveToVmem env.save f.2 (writeInts attrs)).1
  | none => True

instance (env : ReportEnv) (s : ReportList) (attrs : List Int32) : Decidable (SaveOk env s attrs) := by
  unfold SaveOk
  cases freeVmem env.oldFree s.vmem s.iReportAttrVmemIdx <;> infer_instance

/-- A report to a list of the day compares its attribute with those stored, and the save of the
longer array does not fail. -/
def ReportOk (m_szLastTableName : String) (s : ReportList) (env : ReportEnv) (iAttrId : Int32) :
    Prop :=
  match storedAttrs s with
  | none => True
  | some attrs => s.szAttrReportDay = m_szLastTableName →
      (∀ a ∈ attrs, Comparable a iAttrId) ∧
        (iAttrId ∉ attrs → attrs.length + 1 < MAX_REPORT_ATTR_COUNT_PER_MACHINE →
          SaveOk env s (sortAttrs (attrs ++ [iAttrId])))

instance (m_szLastTableName : String) (s : ReportList) (env : ReportEnv) (iAttrId : Int32) :
    Decidable (ReportOk m_szLastTableName s env iAttrId) := by
  unfold ReportOk
  cases storedAttrs s with
  | none => exact isTrue trivial
  | some attrs =>
    have : Decidable (∀ a ∈ attrs, Comparable a iAttrId) :=
      List.decidableBAll (fun a => Comparable a iAttrId) attrs
    infer_instance

/-- A string is stored under the index. -/
def Holds (b : VmemBuf) (index : Int) (data : List UInt8) : Prop :=
  ∃ live g c, g.2 < ServerVmem.VMEM_SHM_COUNT ∧ BufInv b live ∧ c ∈ live g ∧
    index = chainIndex g c ∧ c.data = data

/-- A string is stored under the index, and beside it one under the other index if that is one. -/
def StoredWith (b : VmemBuf) (index other : Int) : Prop :=
  ∃ live g c, g.2 < ServerVmem.VMEM_SHM_COUNT ∧ BufInv b live ∧ c ∈ live g ∧
    index = chainIndex g c ∧ (0 < other → ∃ g' c', g'.2 < ServerVmem.VMEM_SHM_COUNT ∧
      c' ∈ live g' ∧ other = chainIndex g' c')

/-- Others free what is stored and not the list. -/
def EventOk (m_szLastTableName : String) (r : ReportRun) : ReportEvent → Prop
  | .report env iAttrId => ReportOk m_szLastTableName r.list env iAttrId
  | .save _ _ => True
  | .free _ index =>
    index ≠ r.list.iReportAttrVmemIdx ∧ StoredWith r.list.vmem index r.list.iReportAttrVmemIdx

/-- Before the first report of a day the machine has no list, or the one of another day. -/
structure DayStart (m_szLastTableName : String) (s : ReportList) : Prop where
  day : m_szLastTableName ≠ ""
  memory : ∃ live, BufInv s.vmem live
  list : s.iReportAttrVmemIdx ≤ 0 ∨
    (∃ data, Holds s.vmem s.iReportAttrVmemIdx data) ∧ s.szAttrReportDay ≠ m_szLastTableName

section Ints

theorem bytesInt_intBytes (a : Int32) : bytesInt (intBytes a) = a := by
  have hlt : a.toUInt32.toNat < 256 ^ 4 := a.toUInt32.toNat_lt
  rw [bytesInt, intBytes, List.reverse_reverse, ofBytes_toBytes_of_lt hlt, UInt32.ofNat_toNat,
    Int32.toInt32_toUInt32]

theorem length_intBytes (a : Int32) : (intBytes a).length = 4 := by
  rw [intBytes, List.length_reverse, length_toBytes]

theorem readInts_append {bs : List UInt8} (h : bs.length = 4) (rest : List UInt8) :
    readInts (bs ++ rest) = bytesInt bs :: readInts rest := by
  match bs, h with
  | [b₀, b₁, b₂, b₃], _ => rfl

theorem readInts_writeInts (attrs : List Int32) : readInts (writeInts attrs) = attrs := by
  induction attrs with
  | nil => rfl
  | cons a attrs ih =>
    have hcons : writeInts (a :: attrs) = intBytes a ++ writeInts attrs := List.flatMap_cons
    rw [hcons, readInts_append (length_intBytes a), bytesInt_intBytes, ih]

theorem length_writeInts (attrs : List Int32) : (writeInts attrs).length = 4 * attrs.length := by
  induction attrs with
  | nil => rfl
  | cons a attrs ih =>
    have hcons : writeInts (a :: attrs) = intBytes a ++ writeInts attrs := List.flatMap_cons
    rw [hcons, List.length_append, length_intBytes, ih, List.length_cons]
    omega

end Ints

section Order

variable {a b : Int32} {attrs : List Int32}

theorem Comparable.symm (h : Comparable a b) : Comparable b a := ⟨h.2, h.1⟩

theorem Comparable.refl (a : Int32) : Comparable a a := by
  unfold Comparable
  omega

theorem Comparable.cmp (h : Comparable a b) : srvForAttrCmp a b = a.toInt - b.toInt := by
  obtain ⟨hab, hba⟩ := h
  rw [srvForAttrCmp, Int32.toInt_sub]
  apply Int.bmod_eq_of_le
  · omega
  · omega

theorem perm_sortAttrs (attrs : List Int32) : (sortAttrs attrs).Perm attrs :=
  List.perm_insertionSort _ attrs

theorem sortAttrs_sorted (hcmp : ∀ x ∈ attrs, ∀ y ∈ attrs, Comparable x y) (hnodup : attrs.Nodup) :
    (sortAttrs attrs).Pairwise (· < ·) := by
  have hmap : (sortAttrs attrs).map Int32.toInt = (attrs.map Int32.toInt).insertionSort (· ≤ ·) := by
    apply List.map_insertionSort
    intro x hx y hy
    rw [(hcmp x hx y hy).cmp]
    omega
  have hle : (sortAttrs attrs).Pairwise fun x y => x.toInt ≤ y.toInt := by
    rw [← List.pairwise_map (R := (· ≤ ·)), hmap]
    exact List.pairwise_insertionSort _ _
  have hne : (sortAttrs attrs).Nodup := (perm_sortAttrs attrs).nodup_iff.mpr hnodup
  refine (hle.and hne).imp ?_
  rintro x y ⟨hxy, hne⟩
  rw [Int32.lt_iff_toInt_lt]
  have hint : x.toInt ≠ y.toInt := fun heq => hne (Int32.toInt_inj.mp heq)
  omega

theorem bsearch_isSome (hcmp : ∀ x ∈ attrs, Comparable x a) (hsort : attrs.Pairwise (· < ·)) :
    (bsearch (srvForAttrCmp a) attrs).isSome = true ↔ a ∈ attrs := by
  have hzero : ∀ x ∈ attrs, srvForAttrCmp a x = 0 ↔ x = a := by
    intro x hx
    rw [(hcmp x hx).symm.cmp, ← Int32.toInt_inj]
    omega
  cases hfind : bsearch (srvForAttrCmp a) attrs with
  | some i =>
    obtain ⟨x, hx, hcmpx⟩ := bsearch_some hfind
    have hmem := List.mem_of_getElem? hx
    rw [(hzero x hmem).mp hcmpx] at hmem
    exact iff_of_true rfl hmem
  | none =>
    have hdec : attrs.Pairwise fun x y => srvForAttrCmp a y ≤ srvForAttrCmp a x := by
      refine hsort.imp_of_mem ?_
      intro x y hx hy hxy
      rw [(hcmp x hx).symm.cmp, (hcmp y hy).symm.cmp]
      rw [Int32.lt_iff_toInt_lt] at hxy
      omega
    refine iff_of_false Bool.false_ne_true ?_
    intro hmem
    exact bsearch_none hdec hfind a hmem ((hzero a hmem).mpr rfl)

end Order

section Memory

variable {b : VmemBuf} {index : Int} {data : List UInt8} {live : SegId → List Chain}

theorem Holds.pos (h : Holds b index data) : 0 < index := by
  obtain ⟨live, g, c, -, -, -, rfl, -⟩ := h
  exact chainIndex_pos g c

theorem Holds.read (h : Holds b index data) {iBufLen : Nat} (hbuf : data.length ≤ iBufLen) :
    getFromVmemZeroCp b index iBufLen = some (.ok data) := by
  obtain ⟨live, g, c, hg, hinv, hc, rfl, rfl⟩ := h
  exact getFromVmemZeroCp_stored hinv hg hc hbuf

theorem Holds.data_eq (h : Holds b index data) {data' : List UInt8} (h' : Holds b index data') :
    data = data' := by
  have hread := h.read (le_max_left data.length data'.length)
  rw [h'.read (le_max_right data.length data'.length)] at hread
  simpa using hread.symm

theorem freeVmem_others (env : VmemEnv) {g : SegId} {c : Chain}
    (hg : g.2 < ServerVmem.VMEM_SHM_COUNT) (hinv : BufInv b live) (hc : c ∈ live g) :
    ∃ b' live', freeVmem env b (chainIndex g c) = some (0, b') ∧ BufInv b' live' ∧
      ∀ g' c', c' ∈ live g' → chainIndex g' c' ≠ chainIndex g c → c' ∈ live' g' := by
  obtain ⟨l₁, l₂, hl⟩ := List.append_of_mem hc
  obtain ⟨b', hfree, hinv'⟩ := freeVmem_stored env hinv hg l₁ l₂ hl
  refine ⟨b', _, hfree, hinv', ?_⟩
  intro g' c' hc' hne
  by_cases hgg : g' = g
  · subst hgg
    rw [Function.update_self]
    rw [hl, List.mem_append, List.mem_cons] at hc'
    rcases hc' with hc' | rfl | hc'
    · exact List.mem_append_left _ hc'
    · exact absurd rfl hne
    · exact List.mem_append_right _ hc'
  · rw [Function.update_of_ne hgg]
    exact hc'

theorem Holds.free (h : Holds b index data) (env : VmemEnv) :
    ∃ b', freeVmem env b index = some (0, b') ∧ ∃ live, BufInv b' live := by
  obtain ⟨live, g, c, hg, hinv, hc, rfl, -⟩ := h
  obtain ⟨b', live', hfree, hinv', -⟩ := freeVmem_others env hg hinv hc
  exact ⟨b', hfree, live', hinv'⟩

theorem StoredWith.free {other : Int} (h : StoredWith b index other) (env : VmemEnv)
    (hne : index ≠ other) :
    ∃ b', freeVmem env b index = some (0, b') ∧ (∃ live, BufInv b' live) ∧
      ∀ data, Holds b other data → Holds b' other data := by
  obtain ⟨live, g, c, hg, hinv, hc, rfl, hother⟩ := h
  obtain ⟨b', live', hfree, hinv', hkeep⟩ := freeVmem_others env hg hinv hc
  refine ⟨b', hfree, ⟨live', hinv'⟩, ?_⟩
  intro data hdata
  obtain ⟨g', c', hg', hc', rfl⟩ := hother hdata.pos
  have hsame : data = c'.data := hdata.data_eq ⟨live, g', c', hg', hinv, hc', rfl, rfl⟩
  exact ⟨live', g', c', hg', hinv', hkeep g' c' hc' (Ne.symm hne), rfl, hsame.symm⟩

theorem Holds.save (h : Holds b index data) (env : Nat → VmemEnv) (pdata : List UInt8) :
    Holds (saveToVmem env b pdata).2 index data := by
  obtain ⟨live, g, c, hg, hinv, hc, hidx, hdata⟩ := h
  rcases saveToVmem_outcome env pdata hinv with ⟨-, hkeep⟩ | ⟨g', c', -, -, -, hnew⟩
  · exact ⟨live, g, c, hg, hkeep, hc, hidx, hdata⟩
  · refine ⟨_, g, c, hg, hnew, ?_, hidx, hdata⟩
    by_cases hgg : g = g'
    · subst hgg
      rw [Function.update_self]
      exact List.mem_cons_of_mem _ hc
    · rw [Function.update_of_ne hgg]
      exact hc

theorem save_holds (hinv : BufInv b live) (env : Nat → VmemEnv)
    (pdata : List UInt8) :
    (∃ live', BufInv (saveToVmem env b pdata).2 live') ∧
      (0 < (saveToVmem env b pdata).1 →
        Holds (saveToVmem env b pdata).2 (saveToVmem env b pdata).1 pdata) := by
  rcases saveToVmem_outcome env pdata hinv with ⟨hneg, hkeep⟩ | ⟨g, c, hg, hdata, hidx, hnew⟩
  · exact ⟨⟨live, hkeep⟩, fun hpos => absurd hpos (by omega)⟩
  · refine ⟨⟨_, hnew⟩, fun _ => ⟨_, g, c, hg, hnew, ?_, hidx, hdata⟩⟩
    rw [Function.update_self]
    exact List.mem_cons_self

end Memory

/-- An array that the reports of a day have built. -/
structure AttrsOk (attrs : List Int32) : Prop where
  sorted : attrs.Pairwise (· < ·)
  comparable : ∀ x ∈ attrs, ∀ y ∈ attrs, Comparable x y
  short : attrs.length < MAX_REPORT_ATTR_COUNT_PER_MACHINE

/-- During a day the machine has no list and nothing was recorded, or it still has the list of
another day, or its list has what was recorded. -/
inductive DayInv (day : String) (r : ReportRun) : Prop
  | empty (memory : ∃ live, BufInv r.list.vmem live) (index : r.list.iReportAttrVmemIdx ≤ 0)
      (recorded : r.recorded = [])
  | old (data : List UInt8) (holds : Holds r.list.vmem r.list.iReportAttrVmemIdx data)
      (other : r.list.szAttrReportDay ≠ day) (processed : r.processed = 0)
      (recorded : r.recorded = [])
  | kept (attrs : List Int32) (holds : Holds r.list.vmem r.list.iReportAttrVmemIdx (writeInts attrs))
      (same : r.list.szAttrReportDay = day) (ok : AttrsOk attrs)
      (recorded : ∀ a ∈ r.recorded, a ∈ attrs)

section Day

variable {day : String} {s : ReportList} {env : ReportEnv} {attrs : List Int32} {a : Int32}
  {r : ReportRun}

theorem AttrsOk.single (a : Int32) : AttrsOk [a] := by
  refine ⟨List.pairwise_singleton _ a, ?_, ?_⟩
  · intro x hx y hy
    rw [List.mem_singleton.mp hx, List.mem_singleton.mp hy]
    exact Comparable.refl a
  · rw [List.length_singleton, MAX_REPORT_ATTR_COUNT_PER_MACHINE]
    omega

theorem AttrsOk.insert (h : AttrsOk attrs) (hcmp : ∀ x ∈ attrs, Comparable x a) (hnew : a ∉ attrs)
    (hroom : attrs.length + 1 < MAX_REPORT_ATTR_COUNT_PER_MACHINE) :
    AttrsOk (sortAttrs (attrs ++ [a])) := by
  have hperm := perm_sortAttrs (attrs ++ [a])
  have hall : ∀ x ∈ attrs ++ [a], ∀ y ∈ attrs ++ [a], Comparable x y := by
    intro x hx y hy
    rcases List.mem_append.mp hx with hx | hx <;> rcases List.mem_append.mp hy with hy | hy
    · exact h.comparable x hx y hy
    · rw [List.mem_singleton.mp hy]
      exact hcmp x hx
    · rw [List.mem_singleton.mp hx]
      exact (hcmp y hy).symm
    · rw [List.mem_singleton.mp hx, List.mem_singleton.mp hy]
      exact Comparable.refl a
  have hnodup : (attrs ++ [a]).Nodup := by
    have hattrs : attrs.Nodup := h.sorted.imp fun hlt => Int32.ne_of_lt hlt
    refine hattrs.append (List.nodup_singleton a) ?_
    intro x hx hxa
    rw [List.mem_singleton.mp hxa] at hx
    exact hnew hx
  refine ⟨sortAttrs_sorted hall hnodup, ?_, ?_⟩
  · intro x hx y hy
    exact hall x (hperm.mem_iff.mp hx) y (hperm.mem_iff.mp hy)
  · rw [hperm.length_eq, List.length_append]
    exact hroom

theorem AttrsOk.fits (h : AttrsOk attrs) : (writeInts attrs).length ≤ reportAttrsBytes := by
  have hshort := h.short
  unfold MAX_REPORT_ATTR_COUNT_PER_MACHINE at hshort
  rw [length_writeInts, reportAttrsBytes, MAX_REPORT_ATTR_COUNT_PER_MACHINE]
  omega

theorem AttrsOk.storedAttrs (h : AttrsOk attrs)
    (hdata : Holds s.vmem s.iReportAttrVmemIdx (writeInts attrs)) : storedAttrs s = some attrs := by
  rw [AttrDay.storedAttrs, hdata.read h.fits]
  exact congrArg some (readInts_writeInts attrs)

theorem changeDay_same (env : ReportEnv) (h : s.szAttrReportDay = day) :
    changeDay env day s = some s := by
  rw [changeDay, if_neg]
  rintro ⟨-, hne⟩
  exact hne h.symm

theorem changeDay_empty (env : ReportEnv) (hday : day ≠ "") (hidx : s.iReportAttrVmemIdx ≤ 0) :
    ∃ s', changeDay env day s = some s' ∧ s'.vmem = s.vmem ∧ s'.iReportAttrVmemIdx ≤ 0 ∧
      s'.szAttrReportDay = day := by
  by_cases hsame : s.szAttrReportDay = day
  · exact ⟨s, changeDay_same env hsame, rfl, hidx, hsame⟩
  · refine ⟨⟨s.vmem, -1, day⟩, ?_, rfl, ?_, rfl⟩
    · rw [changeDay, if_pos ⟨hday, Ne.symm hsame⟩, if_neg (by omega)]
    · exact le_of_lt (show (-1 : Int) < 0 by omega)

theorem changeDay_old (env : ReportEnv) (hday : day ≠ "") {data : List UInt8}
    (hdata : Holds s.vmem s.iReportAttrVmemIdx data) (hne : s.szAttrReportDay ≠ day) :
    ∃ s', changeDay env day s = some s' ∧ (∃ live, BufInv s'.vmem live) ∧
      s'.iReportAttrVmemIdx ≤ 0 ∧ s'.szAttrReportDay = day := by
  obtain ⟨b', hfree, hmem⟩ := hdata.free env.dayFree
  refine ⟨⟨b', -1, day⟩, ?_, hmem, ?_, rfl⟩
  · rw [changeDay, if_pos ⟨hday, Ne.symm hne⟩, if_pos hdata.pos, hfree]
    rfl
  · exact le_of_lt (show (-1 : Int) < 0 by omega)

theorem reportAttr_first {s' : ReportList} (hday : changeDay env day s = some s')
    (hidx : s'.iReportAttrVmemIdx ≤ 0) : reportAttr env day s a = some (saveAttrs env s' [a]) := by
  have hload : loadAttrs env s' = some (none, s') := by
    rw [loadAttrs, if_neg (by omega)]
  simp only [reportAttr, hday, hload, Option.bind_eq_bind, Option.bind_some]

theorem reportAttr_kept (env : ReportEnv) (a : Int32) (hsame : s.szAttrReportDay = day) (hok : AttrsOk attrs)
    (hdata : Holds s.vmem s.iReportAttrVmemIdx (writeInts attrs)) :
    reportAttr env day s a =
      if (bsearch (srvForAttrCmp a) attrs).isSome then some (true, s)
      else extendAttrs env s attrs a := by
  have hload : loadAttrs env s = some (some attrs, s) := by
    rw [loadAttrs, if_pos hdata.pos, hdata.read hok.fits]
    exact congrArg (fun x => some (some x, s)) (readInts_writeInts attrs)
  simp only [reportAttr, changeDay_same env hsame, hload, Option.bind_eq_bind, Option.bind_some]

theorem saveAttrs_first (hmem : ∃ live, BufInv s.vmem live)
    (hsame : s.szAttrReportDay = day) (hrec : r.recorded = []) (n : Nat) :
    DayInv day ⟨(saveAttrs env s [a]).2, n,
      if (saveAttrs env s [a]).1 then r.recorded ++ [a] else r.recorded⟩ := by
  obtain ⟨live, hinv⟩ := hmem
  obtain ⟨hmem', hholds⟩ := save_holds hinv env.save (writeInts [a])
  by_cases hpos : 0 < (saveToVmem env.save s.vmem (writeInts [a])).1
  · refine DayInv.kept [a] (hholds hpos) hsame (AttrsOk.single a) ?_
    intro x hx
    simpa [saveAttrs, hpos, hrec] using hx
  · refine DayInv.empty hmem' ?_ ?_
    · exact not_lt.mp hpos
    · simpa [saveAttrs, hpos] using hrec

theorem extendAttrs_kept (hok : AttrsOk attrs)
    (hdata : Holds s.vmem s.iReportAttrVmemIdx (writeInts attrs)) (hsame : s.szAttrReportDay = day)
    (hcmp : ∀ x ∈ attrs, Comparable x a) (hnew : a ∉ attrs)
    (hroom : attrs.length + 1 < MAX_REPORT_ATTR_COUNT_PER_MACHINE)
    (hsave : SaveOk env s (sortAttrs (attrs ++ [a]))) (hrec : ∀ x ∈ r.recorded, x ∈ attrs) (n : Nat) :
    ∃ x, extendAttrs env s attrs a = some x ∧
      DayInv day ⟨x.2, n, if x.1 then r.recorded ++ [a] else r.recorded⟩ := by
  obtain ⟨b', hfree, live, hinv⟩ := hdata.free env.oldFree
  have hpos : 0 < (saveToVmem env.save b' (writeInts (sortAttrs (attrs ++ [a])))).1 := by
    rw [SaveOk, hfree] at hsave
    exact hsave
  have hholds := (save_holds hinv env.save (writeInts (sortAttrs (attrs ++ [a])))).2 hpos
  refine ⟨saveAttrs env ⟨b', s.iReportAttrVmemIdx, s.szAttrReportDay⟩ (sortAttrs (attrs ++ [a])), ?_,
    DayInv.kept (sortAttrs (attrs ++ [a])) hholds hsame ?_ ?_⟩
  · rw [extendAttrs, if_neg (not_le.mpr hroom), hfree]
    rfl
  · exact hok.insert hcmp hnew hroom
  · intro x hx
    rw [(perm_sortAttrs (attrs ++ [a])).mem_iff]
    simp only [saveAttrs, hpos, decide_true, if_true, List.mem_append] at hx
    rcases hx with hx | hx
    · exact List.mem_append_left _ (hrec x hx)
    · exact List.mem_append_right _ hx

end Day

section Runs

variable {day : String} {r : ReportRun}

theorem DayInv.report (h : DayInv day r) (hday : day ≠ "") (env : ReportEnv) (a : Int32)
    (hok : ReportOk day r.list env a) :
    ∃ r', reportStep day r (.report env a) = some ((), r') ∧ DayInv day r' := by
  have hstep : ∀ x, reportAttr env day r.list a = some x →
      reportStep day r (.report env a) = some ((), ⟨x.2, r.processed + 1,
        if x.1 then r.recorded ++ [a] else r.recorded⟩) := by
    intro x hx
    rw [reportStep, hx]
    rfl
  cases h with
  | empty hmem hidx hrec =>
    obtain ⟨s', hs', hvmem, hidx', hsame⟩ := changeDay_empty env hday hidx
    rw [← hvmem] at hmem
    exact ⟨_, hstep _ (reportAttr_first hs' hidx'), saveAttrs_first hmem hsame hrec _⟩
  | old data hdata hne hproc hrec =>
    obtain ⟨s', hs', hmem, hidx', hsame⟩ := changeDay_old env hday hdata hne
    exact ⟨_, hstep _ (reportAttr_first hs' hidx'), saveAttrs_first hmem hsame hrec _⟩
  | kept attrs hdata hsame hattrs hrec =>
    rw [ReportOk, hattrs.storedAttrs hdata] at hok
    obtain ⟨hcmp, hsave⟩ := hok hsame
    have hfound := bsearch_isSome hcmp hattrs.sorted
    have hreport := reportAttr_kept env a hsame hattrs hdata
    by_cases hmem : a ∈ attrs
    · rw [if_pos (hfound.mpr hmem)] at hreport
      refine ⟨_, hstep _ hreport, DayInv.kept attrs hdata hsame hattrs ?_⟩
      intro x hx
      rw [if_pos rfl, List.mem_append, List.mem_singleton] at hx
      rcases hx with hx | rfl
      · exact hrec x hx
      · exact hmem
    · rw [if_neg fun hsome => hmem (hfound.mp hsome)] at hreport
      by_cases hroom : attrs.length + 1 < MAX_REPORT_ATTR_COUNT_PER_MACHINE
      · obtain ⟨x, hx, hinv⟩ := extendAttrs_kept hattrs hdata hsame hcmp hmem hroom
          (hsave hmem hroom) hrec (r.processed + 1)
        rw [hx] at hreport
        exact ⟨_, hstep _ hreport, hinv⟩
      · rw [extendAttrs, if_pos (not_lt.mp hroom)] at hreport
        exact ⟨_, hstep _ hreport, DayInv.kept attrs hdata hsame hattrs hrec⟩

theorem DayInv.save (h : DayInv day r) (env : Nat → VmemEnv) (pdata : List UInt8) :
    DayInv day { r with list := { r.list with vmem := (saveToVmem env r.list.vmem pdata).2 } } := by
  cases h with
  | empty hmem hidx hrec =>
    obtain ⟨live, hinv⟩ := hmem
    exact DayInv.empty (save_holds hinv env pdata).1 hidx hrec
  | old data hdata hne hproc hrec => exact DayInv.old data (hdata.save env pdata) hne hproc hrec
  | kept attrs hdata hsame hattrs hrec =>
    exact DayInv.kept attrs (hdata.save env pdata) hsame hattrs hrec

theorem DayInv.free (h : DayInv day r) (env : VmemEnv) {index : Int}
    (hne : index ≠ r.list.iReportAttrVmemIdx)
    (hstored : StoredWith r.list.vmem index r.list.iReportAttrVmemIdx) :
    ∃ r', reportStep day r (.free env index) = some ((), r') ∧ DayInv day r' := by
  obtain ⟨b', hfree, hmem', hkeep⟩ := hstored.free env hne
  refine ⟨{ r with list := { r.list with vmem := b' } }, ?_, ?_⟩
  · rw [reportStep, hfree]
    rfl
  · cases h with
    | empty hmem hidx hrec => exact DayInv.empty hmem' hidx hrec
    | old data hdata hother hproc hrec =>
      exact DayInv.old data (hkeep data hdata) hother hproc hrec
    | kept attrs hdata hsame hattrs hrec =>
      exact DayInv.kept attrs (hkeep _ hdata) hsame hattrs hrec

theorem DayInv.step (hday : day ≠ "") (h : DayInv day r) (e : ReportEvent)
    (hok : EventOk day r e) : ∃ o r', reportStep day r e = some (o, r') ∧ True ∧ DayInv day r' := by
  cases e with
  | report env a =>
    obtain ⟨r', hr', hinv⟩ := h.report hday env a hok
    exact ⟨(), r', hr', trivial, hinv⟩
  | save env pdata => exact ⟨(), _, rfl, trivial, h.save env pdata⟩
  | free env index =>
    obtain ⟨r', hr', hinv⟩ := h.free env hok.1 hok.2
    exact ⟨(), r', hr', trivial, hinv⟩

theorem DayInv.listRight (h : DayInv day r) : ListRight r := by
  cases h with
  | empty hmem hidx hrec => exact ⟨fun _ hpos => absurd hpos (not_lt.mpr hidx), fun _ => hrec⟩
  | old data hdata hne hproc hrec =>
    exact ⟨fun hpos => absurd hpos (by omega), fun _ => hrec⟩
  | kept attrs hdata hsame hattrs hrec =>
    exact ⟨fun _ _ => ⟨attrs, hattrs.storedAttrs hdata, hattrs.sorted, hrec⟩,
      fun hidx => absurd hdata.pos (not_lt.mpr hidx)⟩

theorem DayStart.dayInv {s : ReportList} (h : DayStart day s) : DayInv day ⟨s, 0, []⟩ := by
  rcases h.list with hidx | ⟨⟨data, hdata⟩, hne⟩
  · exact DayInv.empty h.memory hidx rfl
  · exact DayInv.old data hdata hne rfl rfl

/-- The list of a day is strictly increasing after every report and loses nothing, when attributes
are comparable and no save of a longer array fails. -/
theorem reportAttrs_right {s : ReportList} (hstart : DayStart day s) (events : List ReportEvent)
    (hok : Admissible (reportStep day) (EventOk day) ⟨s, 0, []⟩ events) (n : Nat) :
    ∃ os r, runSteps (reportStep day) ⟨s, 0, []⟩ (events.take n) = some (os, r) ∧ ListRight r := by
  obtain ⟨os, r, hrun, -, hinv⟩ := run_invariant (O := fun _ _ => True)
    (fun _ e h hok => DayInv.step hstart.day h e hok) (events.take n) _ hstart.dayInv (hok.take n)
  exact ⟨os, r, hrun, hinv.listRight⟩

end Runs

section Examples

/-- Nobody else frees a string. -/
def NoFreeOk (day : String) (r : ReportRun) : ReportEvent → Prop
  | .report env iAttrId => ReportOk day r.list env iAttrId
  | .save _ _ => True
  | .free _ _ => False

instance (day : String) (r : ReportRun) : ∀ e, Decidable (NoFreeOk day r e)
  | .report env iAttrId => inferInstanceAs (Decidable (ReportOk day r.list env iAttrId))
  | .save _ _ => isTrue trivial
  | .free _ _ => isFalse id

theorem NoFreeOk.eventOk {day : String} (r : ReportRun) (e : ReportEvent) (h : NoFreeOk day r e) :
    EventOk day r e := by
  cases e with
  | report env a => exact h
  | save env pdata => trivial
  | free env index => exact h.elim

/-- Every compare-and-swap succeeds. -/
def winEnv : VmemEnv := ⟨fun _ _ _ => true, fun _ _ _ => 0⟩

/-- Every compare-and-swap fails. -/
def loseEnv : VmemEnv := ⟨fun _ _ _ => false, fun _ _ _ => 0⟩

def winReport : ReportEnv := ⟨winEnv, winEnv, winEnv, fun _ => winEnv⟩

/-- A machine whose first attribute is new. -/
def newMachine : ReportList := ⟨ServerVmem.initVmem, -1, ""⟩

theorem newMachine_dayStart : DayStart "20200101" newMachine where
  day := by decide
  memory := ⟨_, initVmem_bufInv⟩
  list := Or.inl (Int.negSucc_lt_zero 0).le

end Examples

/-- Three reports and a save of another process in one day. -/
theorem reportAttrs_right_three :
    DayStart "20200101" newMachine ∧
      Admissible (reportStep "20200101") (EventOk "20200101") ⟨newMachine, 0, []⟩
        [.report winReport 5, .save (fun _ => winEnv) [1, 2, 3], .report winReport 3] ∧
      ∃ os r, runSteps (reportStep "20200101") ⟨newMachine, 0, []⟩
        (List.take 3 [.report winReport 5, .save (fun _ => winEnv) [1, 2, 3], .report winReport 3]) =
          some (os, r) ∧ ListRight r := by
  have hok : Admissible (reportStep "20200101") (EventOk "20200101") ⟨newMachine, 0, []⟩
      [.report winReport 5, .save (fun _ => winEnv) [1, 2, 3], .report winReport 3] := by
    apply Admissible.imp fun r e (h : NoFreeOk "20200101" r e) => h.eventOk r e
    decide +kernel
  exact ⟨newMachine_dayStart, hok, reportAttrs_right newMachine_dayStart _ hok 3⟩

/-- A save that fails loses the attributes that were recorded. -/
theorem failedSave_loses :
    DayStart "20200101" newMachine ∧ Comparable 5 3 ∧
      ∃ os r, runSteps (reportStep "20200101") ⟨newMachine, 0, []⟩
        [.report winReport 5, .report { winReport with save := fun _ => loseEnv } 3] =
          some (os, r) ∧ r.recorded = [5] ∧ r.list.iReportAttrVmemIdx < 0 ∧ ¬ ListRight r := by
  have hrun : ((runSteps (reportStep "20200101") ⟨newMachine, 0, []⟩
      [.report winReport 5, .report { winReport with save := fun _ => loseEnv } 3]).map
        fun x => (x.2.recorded, decide (x.2.list.iReportAttrVmemIdx < 0))) = some ([5], true) := by
    decide +kernel
  obtain ⟨⟨os, r⟩, hsome, hpair⟩ := Option.map_eq_some_iff.mp hrun
  obtain ⟨hrec, hneg⟩ := Prod.mk.inj hpair
  have hidx : r.list.iReportAttrVmemIdx < 0 := of_decide_eq_true hneg
  refine ⟨newMachine_dayStart, by decide, os, r, hsome, hrec, hidx, ?_⟩
  intro hright
  have hnone : r.recorded = [] := hright.lost hidx.le
  rw [hrec] at hnone
  exact List.cons_ne_nil 5 [] hnone

end XrkMonitor.AttrDay
