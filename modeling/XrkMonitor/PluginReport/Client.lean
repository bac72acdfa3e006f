import Mathlib.Data.List.Forall2
import XrkMonitor.Library.Bytes

/-!
# Plugin reports of the agent

The agent reports the installed plugins to the server, as many in one packet as its
content buffer takes. It goes round its table from where the last packet ended, and
leaves out the plugins about which nothing has changed. A plugin that has not been
reported yet goes with its versions and its name, the other ones with their times
only. An item has its length in front, in one byte.

## Implementation notes

The table entries have the fields that the report uses, and `int` fields are their
32 bits. A string in an entry ends with a `NUL` in its array. `stPluginFirst` is a
local variable, so the bytes behind a string that was copied into it are those that
were there before; `szVersion` and `szBuildVer` of the loop state are these arrays.
-/

namespace XrkMonitor.PluginReport

open Library

def MAX_INNER_PLUS_COUNT : Nat := 200

/-- The size of the content buffer. -/
def sContentBufSize : Nat := 1000
def sizeofMonitorRepPluginInfoContent : Nat := 1
def sizeofTRepPluginInfo : Nat := 20
def sizeofTRepPluginInfoFirst : Nat := 53

/-- `TInnerPlusInfo`: a plugin in the table of the agent. -/
structure TInnerPlusInfo where
  szPlusName : CharBuf 64
  iPluginId : UInt32
  szVersion : CharBuf 12
  szBuildVer : CharBuf 12
  iLibVerNum : UInt32
  dwLastReportAttrTime : UInt32
  dwLastReportLogTime : UInt32
  dwPluginStartTime : UInt32
  dwLastReportSelfInfoTime : UInt32
  dwRep_LastReportLogTime : UInt32
  dwRep_LastReportAttrTime : UInt32
  dwLastHelloTime : UInt32
  dwRep_LastHelloTime : UInt32
  dwCfgFileLastModTime : UInt32

/-- `TRepPluginInfo`: a report of a plugin that the server knows. -/
structure TRepPluginInfo where
  iPluginId : Nat
  dwLastReportAttrTime : Nat
  dwLastReportLogTime : Nat
  dwLastHelloTime : Nat
  dwConfigFileTime : Nat
deriving DecidableEq

/-- `TRepPluginInfoFirst`: a first report, with the name behind it. -/
structure TRepPluginInfoFirst where
  iPluginId : Nat
  szVersion : List UInt8
  szBuildVer : List UInt8
  iLibVerNum : Nat
  dwConfigFileTime : Nat
  dwLastReportAttrTime : Nat
  dwLastReportLogTime : Nat
  dwLastHelloTime : Nat
  dwPluginStartTime : Nat
  sPluginName : List UInt8
deriving DecidableEq

/-- What the server is told about a plugin. -/
inductive Report
  | again (info : TRepPluginInfo)
  | first (info : TRepPluginInfoFirst)
deriving DecidableEq

section Model

namespace TInnerPlusInfo

/-- The report has nothing new. -/
def unchanged (e : TInnerPlusInfo) : Bool :=
  e.dwLastReportAttrTime == e.dwRep_LastReportAttrTime &&
    e.dwLastReportLogTime == e.dwRep_LastReportLogTime &&
    decide (e.dwLastHelloTime < e.dwRep_LastHelloTime + 15)

def toInfo (e : TInnerPlusInfo) : TRepPluginInfo where
  iPluginId := e.iPluginId.toNat
  dwLastReportAttrTime := e.dwLastReportAttrTime.toNat
  dwLastReportLogTime := e.dwLastReportLogTime.toNat
  dwLastHelloTime := e.dwLastHelloTime.toNat
  dwConfigFileTime := e.dwCfgFileLastModTime.toNat

def toInfoFirst (e : TInnerPlusInfo) : TRepPluginInfoFirst where
  iPluginId := e.iPluginId.toNat
  szVersion := e.szVersion.str
  szBuildVer := e.szBuildVer.str
  iLibVerNum := e.iLibVerNum.toNat
  dwConfigFileTime := e.dwCfgFileLastModTime.toNat
  dwLastReportAttrTime := e.dwLastReportAttrTime.toNat
  dwLastReportLogTime := e.dwLastReportLogTime.toNat
  dwLastHelloTime := e.dwLastHelloTime.toNat
  dwPluginStartTime := e.dwPluginStartTime.toNat
  sPluginName := e.szPlusName.str

/-- What the agent reports about an entry, if anything. -/
def report (e : TInnerPlusInfo) : Option Report :=
  if e.iPluginId = 0 then none
  else if e.dwLastReportSelfInfoTime ≠ 0 then
    if e.unchanged then none else some (.again e.toInfo)
  else some (.first e.toInfoFirst)

/-- An entry after its report. -/
def reported (dwCurTime : UInt32) (e : TInnerPlusInfo) : TInnerPlusInfo :=
  { e with
    dwRep_LastReportAttrTime := e.dwLastReportAttrTime
    dwRep_LastReportLogTime := e.dwLastReportLogTime
    dwRep_LastHelloTime := e.dwLastHelloTime
    dwLastReportSelfInfoTime := dwCurTime }

end TInnerPlusInfo

/-- `strcpy` into an array. -/
def strcpy (dst src : List UInt8) : List UInt8 := src ++ 0 :: dst.drop (src.length + 1)

/-- The bytes of a report of a known plugin, with its length. -/
def TRepPluginInfo.item (x : TRepPluginInfo) : List UInt8 :=
  UInt8.ofNat sizeofTRepPluginInfo :: (toBytes 4 x.iPluginId ++ (toBytes 4 x.dwLastReportAttrTime ++
    (toBytes 4 x.dwLastReportLogTime ++ (toBytes 4 x.dwLastHelloTime ++ toBytes 4 x.dwConfigFileTime))))

/-- The bytes of a first report, with its length, where the arrays hold the versions. -/
def TRepPluginInfoFirst.item (szVersion szBuildVer : List UInt8) (x : TRepPluginInfoFirst) :
    List UInt8 :=
  UInt8.ofNat (sizeofTRepPluginInfoFirst + (x.sPluginName.length + 1)) ::
    (toBytes 4 x.iPluginId ++ (szVersion ++ (szBuildVer ++ (toBytes 4 x.iLibVerNum ++
      (toBytes 4 x.dwConfigFileTime ++ (toBytes 4 x.dwLastReportAttrTime ++
        (toBytes 4 x.dwLastReportLogTime ++ (toBytes 4 x.dwLastHelloTime ++
          (toBytes 4 x.dwPluginStartTime ++ (UInt8.ofNat (x.sPluginName.length + 1) ::
            (x.sPluginName ++ [0])))))))))))

/-- The table of the agent, and the place in it. -/
abbrev PluginTable := Fin MAX_INNER_PLUS_COUNT → TInnerPlusInfo

/-- The loop of `MakeRepPluginInfoToServer`: the table, the items written so far, the reports they
stand for, and the arrays of `stPluginFirst`. -/
structure Send where
  stPluginInfo : PluginTable
  items : List UInt8
  reports : List Report
  szVersion : List UInt8
  szBuildVer : List UInt8

/-- The length of the content so far. -/
def Send.wContentLen (s : Send) : Nat := sizeofMonitorRepPluginInfoContent + s.items.length

/-- The next place in the table. -/
def nextIdx (i : Fin MAX_INNER_PLUS_COUNT) : Fin MAX_INNER_PLUS_COUNT :=
  if h : i.val + 1 < MAX_INNER_PLUS_COUNT then ⟨i.val + 1, h⟩ else ⟨0, by decide⟩

/-- One round of the loop. -/
def Send.visit (dwCurTime : UInt32) (s : Send) (i : Fin MAX_INNER_PLUS_COUNT) : Send :=
  match (s.stPluginInfo i).report with
  | none => s
  | some (.again x) =>
    { s with
      stPluginInfo := Function.update s.stPluginInfo i ((s.stPluginInfo i).reported dwCurTime)
      items := s.items ++ x.item
      reports := s.reports ++ [.again x] }
  | some (.first x) =>
    { stPluginInfo := Function.update s.stPluginInfo i ((s.stPluginInfo i).reported dwCurTime)
      items := s.items ++ x.item (strcpy s.szVersion x.szVersion) (strcpy s.szBuildVer x.szBuildVer)
      reports := s.reports ++ [.first x]
      szVersion := strcpy s.szVersion x.szVersion
      szBuildVer := strcpy s.szBuildVer x.szBuildVer }

/-- The loop, with the rounds that are left. -/
def Send.loop (dwCurTime : UInt32) : Nat → Fin MAX_INNER_PLUS_COUNT → Send → Send × Fin MAX_INNER_PLUS_COUNT
  | 0, i, s => (s, i)
  | n + 1, i, s =>
    if s.wContentLen < sContentBufSize - sizeofTRepPluginInfoFirst then
      Send.loop dwCurTime n (nextIdx i) (s.visit dwCurTime i)
    else (s, i)

/-- The first call lets all plugins be reported as new. -/
def startTable (s_iLastSendPluginIdx : Option (Fin MAX_INNER_PLUS_COUNT)) (t : PluginTable) :
    PluginTable :=
  match s_iLastSendPluginIdx with
  | some _ => t
  | none => fun i =>
    if (t i).iPluginId ≠ 0 then { t i with dwLastReportSelfInfoTime := 0 } else t i

/-- Where the loop starts. -/
def startIdx (s_iLastSendPluginIdx : Option (Fin MAX_INNER_PLUS_COUNT)) : Fin MAX_INNER_PLUS_COUNT :=
  s_iLastSendPluginIdx.getD ⟨0, by decide⟩

/-- `MakeRepPluginInfoToServer` up to the content of the packet; `szVersion` and `szBuildVer` are
what `stPluginFirst` happens to hold. -/
def makeRepPluginInfoToServer (dwCurTime : UInt32)
    (s_iLastSendPluginIdx : Option (Fin MAX_INNER_PLUS_COUNT)) (t : PluginTable)
    (szVersion szBuildVer : List UInt8) : Send × Fin MAX_INNER_PLUS_COUNT :=
  Send.loop dwCurTime MAX_INNER_PLUS_COUNT (startIdx s_iLastSendPluginIdx)
    ⟨startTable s_iLastSendPluginIdx t, [], [], szVersion, szBuildVer⟩

/-- The content: the number of plugins and the items. -/
def Send.content (s : Send) : List UInt8 := UInt8.ofNat s.reports.length :: s.items

end Model

section Size

/-- The size of a report in the packet. -/
def Report.size : Report → Nat
  | .again _ => 1 + sizeofTRepPluginInfo
  | .first x => 1 + sizeofTRepPluginInfoFirst + (x.sPluginName.length + 1)

/-- The size of the report about an entry, 0 if there is none. -/
def TInnerPlusInfo.size (e : TInnerPlusInfo) : Nat := (e.report.map Report.size).getD 0

/-- The place that is `k` rounds after `i`. -/
def placeAfter (i : Fin MAX_INNER_PLUS_COUNT) : Nat → Fin MAX_INNER_PLUS_COUNT
  | 0 => i
  | k + 1 => placeAfter (nextIdx i) k

/-- The length of a content with the reports of the first `n` entries from `i` on. -/
def lengthAfter (t : PluginTable) (i : Fin MAX_INNER_PLUS_COUNT) : Nat → Nat
  | 0 => sizeofMonitorRepPluginInfoContent
  | n + 1 => lengthAfter t i n + (t (placeAfter i n)).size

/-- No entry at which the loop has not stopped yet brings the content over the buffer. -/
def Fits (t : PluginTable) (i : Fin MAX_INNER_PLUS_COUNT) : Prop :=
  ∀ n < MAX_INNER_PLUS_COUNT, lengthAfter t i n < sContentBufSize - sizeofTRepPluginInfoFirst →
    lengthAfter t i (n + 1) ≤ sContentBufSize

end Size

section Places

variable {i : Fin MAX_INNER_PLUS_COUNT} {t t' : PluginTable}

theorem nextIdx_val (i : Fin MAX_INNER_PLUS_COUNT) : (nextIdx i).val = (i.val + 1) % 200 := by
  have hi : i.val < 200 := i.isLt
  unfold nextIdx MAX_INNER_PLUS_COUNT
  split
  · exact (Nat.mod_eq_of_lt (by assumption)).symm
  · have heq : i.val + 1 = 200 := by omega
    rw [heq]

theorem placeAfter_val (i : Fin MAX_INNER_PLUS_COUNT) (k : Nat) :
    (placeAfter i k).val = (i.val + k) % 200 := by
  induction k generalizing i with
  | zero =>
    have hi : i.val < 200 := i.isLt
    exact (Nat.mod_eq_of_lt hi).symm
  | succ k ih =>
    rw [placeAfter, ih, nextIdx_val]
    omega

theorem placeAfter_ne (i : Fin MAX_INNER_PLUS_COUNT) {k : Nat} (hk : k + 1 < MAX_INNER_PLUS_COUNT) :
    placeAfter (nextIdx i) k ≠ i := by
  intro h
  have hval := congrArg Fin.val h
  have hi : i.val < 200 := i.isLt
  have hk : k + 1 < 200 := hk
  rw [placeAfter_val, nextIdx_val] at hval
  omega

theorem lengthAfter_succ (t : PluginTable) (i : Fin MAX_INNER_PLUS_COUNT) (n : Nat) :
    lengthAfter t i (n + 1) = (t i).size + lengthAfter t (nextIdx i) n := by
  induction n with
  | zero => simp [lengthAfter, placeAfter, Nat.add_comm]
  | succ n ih =>
    have hstep : lengthAfter t i (n + 1 + 1) =
        lengthAfter t i (n + 1) + (t (placeAfter i (n + 1))).size := rfl
    have hplace : placeAfter i (n + 1) = placeAfter (nextIdx i) n := rfl
    rw [hstep, ih, hplace, Nat.add_assoc]
    rfl

theorem lengthAfter_mono {m n : Nat} (h : m ≤ n) : lengthAfter t i m ≤ lengthAfter t i n := by
  induction n with
  | zero =>
    rw [Nat.le_zero.mp h]
  | succ n ih =>
    rcases Nat.lt_or_eq_of_le h with hlt | rfl
    · exact (ih (Nat.le_of_lt_succ hlt)).trans (Nat.le_add_right _ _)
    · exact Nat.le_refl _

end Places

section Items

variable {dwCurTime : UInt32} {s : Send} {i : Fin MAX_INNER_PLUS_COUNT} {t : PluginTable}
  {rs : List Report}

/-- The array holds the string. -/
def Holds (size : Nat) (array str : List UInt8) : Prop :=
  array.length = size ∧ (∀ b ∈ str, b ≠ 0) ∧ ∃ rest, array = str ++ 0 :: rest

/-- The numbers fit into their fields. -/
def TRepPluginInfo.Ok (x : TRepPluginInfo) : Prop :=
  x.iPluginId < 256 ^ 4 ∧ x.dwLastReportAttrTime < 256 ^ 4 ∧ x.dwLastReportLogTime < 256 ^ 4 ∧
    x.dwLastHelloTime < 256 ^ 4 ∧ x.dwConfigFileTime < 256 ^ 4

/-- The numbers and the name fit into their fields. -/
structure TRepPluginInfoFirst.Ok (x : TRepPluginInfoFirst) : Prop where
  iPluginId : x.iPluginId < 256 ^ 4
  iLibVerNum : x.iLibVerNum < 256 ^ 4
  dwConfigFileTime : x.dwConfigFileTime < 256 ^ 4
  dwLastReportAttrTime : x.dwLastReportAttrTime < 256 ^ 4
  dwLastReportLogTime : x.dwLastReportLogTime < 256 ^ 4
  dwLastHelloTime : x.dwLastHelloTime < 256 ^ 4
  dwPluginStartTime : x.dwPluginStartTime < 256 ^ 4
  name_ne : ∀ b ∈ x.sPluginName, b ≠ 0
  name_le : x.sPluginName.length ≤ 63

/-- The bytes of a report. -/
def Report.IsItem (r : Report) (bs : List UInt8) : Prop :=
  match r with
  | .again x => x.Ok ∧ bs = x.item
  | .first x => x.Ok ∧ ∃ v b, Holds 12 v x.szVersion ∧ Holds 12 b x.szBuildVer ∧ bs = x.item v b

theorem length_item (x : TRepPluginInfo) : x.item.length = 1 + sizeofTRepPluginInfo := by
  simp [TRepPluginInfo.item, sizeofTRepPluginInfo]

theorem length_itemFirst {v b : List UInt8} (hv : v.length = 12) (hb : b.length = 12)
    (x : TRepPluginInfoFirst) :
    (x.item v b).length = 1 + sizeofTRepPluginInfoFirst + (x.sPluginName.length + 1) := by
  simp [TRepPluginInfoFirst.item, sizeofTRepPluginInfoFirst, hv, hb]
  omega

theorem Report.IsItem.length {r : Report} {bs : List UInt8} (h : r.IsItem bs) : bs.length = r.size := by
  cases r with
  | again x =>
    rw [h.2]
    exact length_item x
  | first x =>
    obtain ⟨-, v, b, hv, hb, rfl⟩ := h
    exact length_itemFirst hv.1 hb.1 x

theorem strcpy_holds {n : Nat} {dst : List UInt8} (h : dst.length = n) (b : CharBuf n) (hn : 0 < n) :
    Holds n (strcpy dst b.str) b.str := by
  have hlen := b.length_str_le
  refine ⟨?_, b.str_ne_zero, _, rfl⟩
  simp only [strcpy, List.length_append, List.length_cons, List.length_drop]
  omega

theorem toInfo_ok (e : TInnerPlusInfo) : e.toInfo.Ok :=
  ⟨e.iPluginId.toNat_lt, e.dwLastReportAttrTime.toNat_lt, e.dwLastReportLogTime.toNat_lt,
    e.dwLastHelloTime.toNat_lt, e.dwCfgFileLastModTime.toNat_lt⟩

theorem toInfoFirst_ok (e : TInnerPlusInfo) : e.toInfoFirst.Ok where
  iPluginId := e.iPluginId.toNat_lt
  iLibVerNum := e.iLibVerNum.toNat_lt
  dwConfigFileTime := e.dwCfgFileLastModTime.toNat_lt
  dwLastReportAttrTime := e.dwLastReportAttrTime.toNat_lt
  dwLastReportLogTime := e.dwLastReportLogTime.toNat_lt
  dwLastHelloTime := e.dwLastHelloTime.toNat_lt
  dwPluginStartTime := e.dwPluginStartTime.toNat_lt
  name_ne := e.szPlusName.str_ne_zero
  name_le := e.szPlusName.length_str_le

theorem report_cases (e : TInnerPlusInfo) :
    e.report = none ∨ e.report = some (.again e.toInfo) ∨ e.report = some (.first e.toInfoFirst) := by
  unfold TInnerPlusInfo.report
  split
  · exact Or.inl rfl
  · split
    · split
      · exact Or.inl rfl
      · exact Or.inr (Or.inl rfl)
    · exact Or.inr (Or.inr rfl)

/-- The bytes are the items of the reports. -/
def Encodes (rs : List Report) (bs : List UInt8) : Prop :=
  ∃ its, bs = its.flatten ∧ List.Forall₂ Report.IsItem rs its

theorem Encodes.append {bs item : List UInt8} {r : Report} (h : Encodes rs bs)
    (hitem : r.IsItem item) : Encodes (rs ++ [r]) (bs ++ item) := by
  obtain ⟨its, rfl, hits⟩ := h
  refine ⟨its ++ [item], ?_, List.rel_append hits (.cons hitem .nil)⟩
  rw [List.flatten_append, List.flatten_singleton]

/-- The state of the loop: the items are those of the reports. -/
structure Send.Ok (s : Send) : Prop where
  version : s.szVersion.length = 12
  build : s.szBuildVer.length = 12
  items : Encodes s.reports s.items

theorem Send.Ok.visit (h : s.Ok) (dwCurTime : UInt32) (i : Fin MAX_INNER_PLUS_COUNT) :
    (s.visit dwCurTime i).Ok ∧
      (s.visit dwCurTime i).items.length = s.items.length + (s.stPluginInfo i).size ∧
      ∀ j, j ≠ i → (s.visit dwCurTime i).stPluginInfo j = s.stPluginInfo j := by
  unfold Send.visit TInnerPlusInfo.size
  rcases report_cases (s.stPluginInfo i) with hr | hr | hr
  · rw [hr]
    exact ⟨h, rfl, fun j _ => rfl⟩
  · rw [hr]
    have hitem : Report.IsItem (.again (s.stPluginInfo i).toInfo) (s.stPluginInfo i).toInfo.item :=
      ⟨toInfo_ok _, rfl⟩
    refine ⟨⟨h.version, h.build, h.items.append hitem⟩, ?_, ?_⟩
    · simp only [List.length_append, hitem.length, Option.map_some, Option.getD_some]
    · exact fun j hj => Function.update_of_ne hj _ _
  · rw [hr]
    have hv : Holds 12 (strcpy s.szVersion (s.stPluginInfo i).toInfoFirst.szVersion) _ :=
      strcpy_holds h.version (s.stPluginInfo i).szVersion (by decide)
    have hb : Holds 12 (strcpy s.szBuildVer (s.stPluginInfo i).toInfoFirst.szBuildVer) _ :=
      strcpy_holds h.build (s.stPluginInfo i).szBuildVer (by decide)
    have hitem : Report.IsItem (.first (s.stPluginInfo i).toInfoFirst) _ :=
      ⟨toInfoFirst_ok _, _, _, hv, hb, rfl⟩
    refine ⟨⟨hv.1, hb.1, h.items.append hitem⟩, ?_, ?_⟩
    · simp only [List.length_append, hitem.length, Option.map_some, Option.getD_some]
    · exact fun j hj => Function.update_of_ne hj _ _

/-- The loop stops after the entries that fill the content, or after all. -/
theorem Send.loop_spec (dwCurTime : UInt32) (h : s.Ok) {n : Nat} (hn : n ≤ MAX_INNER_PLUS_COUNT)
    (ht : ∀ k < n, s.stPluginInfo (placeAfter i k) = t (placeAfter i k)) :
    (Send.loop dwCurTime n i s).1.Ok ∧ ∃ m ≤ n,
      (Send.loop dwCurTime n i s).1.items.length + sizeofMonitorRepPluginInfoContent =
        s.items.length + lengthAfter t i m ∧
      (∀ k < m, s.items.length + lengthAfter t i k < sContentBufSize - sizeofTRepPluginInfoFirst) ∧
      (m = n ∨ sContentBufSize - sizeofTRepPluginInfoFirst ≤ s.items.length + lengthAfter t i m) := by
  induction n generalizing s i with
  | zero => exact ⟨h, 0, Nat.le_refl _, rfl, fun k hk => absurd hk (Nat.not_lt_zero k), Or.inl rfl⟩
  | succ n ih =>
    rw [Send.loop]
    split
    · rename_i hlen
      obtain ⟨hok, hsize, hframe⟩ := h.visit dwCurTime i
      have htable : ∀ k < n, (s.visit dwCurTime i).stPluginInfo (placeAfter (nextIdx i) k) =
          t (placeAfter (nextIdx i) k) := by
        intro k hk
        rw [hframe _ (placeAfter_ne i (by omega))]
        exact ht (k + 1) (by omega)
      have hentry : s.stPluginInfo i = t i := ht 0 (by omega)
      obtain ⟨hres, m, hm, hlength, hbelow, hstop⟩ := ih hok (by omega) htable
      rw [hsize, hentry] at hlength hbelow hstop
      refine ⟨hres, m + 1, by omega, ?_, ?_, ?_⟩
      · rw [hlength, lengthAfter_succ]
        omega
      · intro k hk
        cases k with
        | zero =>
          rw [lengthAfter]
          unfold Send.wContentLen at hlen
          omega
        | succ k =>
          have hk := hbelow k (by omega)
          rw [lengthAfter_succ]
          omega
      · rw [lengthAfter_succ]
        omega
    · rename_i hlen
      refine ⟨h, 0, Nat.zero_le _, rfl, fun k hk => absurd hk (Nat.not_lt_zero k), Or.inr ?_⟩
      rw [lengthAfter]
      unfold Send.wContentLen at hlen
      omega

/-- The content stays in its buffer exactly if the reports fit. -/
theorem length_content_le_iff (dwCurTime : UInt32) (idx : Option (Fin MAX_INNER_PLUS_COUNT))
    (t : PluginTable) {szVersion szBuildVer : List UInt8}
    (hv : szVersion.length = 12) (hb : szBuildVer.length = 12) :
    (makeRepPluginInfoToServer dwCurTime idx t szVersion szBuildVer).1.content.length ≤ sContentBufSize ↔
      Fits (startTable idx t) (startIdx idx) := by
  have hok : Send.Ok ⟨startTable idx t, [], [], szVersion, szBuildVer⟩ :=
    ⟨hv, hb, [], rfl, .nil⟩
  obtain ⟨-, m, hm, hlength, hbelow, hstop⟩ :=
    Send.loop_spec dwCurTime (i := startIdx idx) (t := startTable idx t) hok
      (Nat.le_refl MAX_INNER_PLUS_COUNT) (fun k _ => rfl)
  simp only [List.length_nil, Nat.zero_add] at hlength hbelow hstop
  have hcontent : (makeRepPluginInfoToServer dwCurTime idx t szVersion szBuildVer).1.content.length =
      lengthAfter (startTable idx t) (startIdx idx) m := by
    rw [← hlength]
    rfl
  rw [hcontent]
  constructor
  · intro hle n hn hlt
    have hnm : n + 1 ≤ m := by
      by_contra hnot
      have hmono := lengthAfter_mono (t := startTable idx t) (i := startIdx idx) (m := m) (n := n) (by omega)
      omega
    exact (lengthAfter_mono hnm).trans hle
  · intro hfits
    cases m with
    | zero =>
      rw [lengthAfter]
      decide
    | succ m => exact hfits m (by omega) (hbelow m (Nat.lt_succ_self m))

theorem reports_length_le {its : List (List UInt8)} (h : List.Forall₂ Report.IsItem rs its) :
    rs.length * 21 ≤ its.flatten.length := by
  induction h with
  | nil => simp
  | @cons r bs rs its hitem _ ih =>
    have hsize : 21 ≤ bs.length := by
      rw [hitem.length]
      cases r with
      | again x => exact Nat.le_refl _
      | first x =>
        simp only [Report.size, sizeofTRepPluginInfoFirst]
        omega
    rw [List.length_cons, List.flatten_cons, List.length_append]
    omega

end Items

end XrkMonitor.PluginReport
