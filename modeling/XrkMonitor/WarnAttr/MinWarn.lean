import Mathlib.Algebra.BigOperators.Group.List.Basic
import XrkMonitor.WarnAttr.ViewSums

/-!
# Minimum warnings

A scan gives minimum warnings in three places: for a machine that reports, for a view
that has reports, and for a configuration whose identifier has no report. The three
find their configuration by different means, so that one configuration may be met by
more than one of them. The warnings of a configuration are counted, place by place.
-/

namespace XrkMonitor.WarnAttr

open Library

section Counting

variable {α κ : Type*} [DecidableEq κ]

theorem sum_map_ite_of_nodup {l : List α} {f : α → κ} (hl : (l.map f).Nodup) (k : κ)
    (P : α → Prop) [DecidablePred P] :
    (l.map fun x => if f x = k ∧ P x then 1 else 0).sum =
      if ∃ x ∈ l, f x = k ∧ P x then 1 else 0 := by
  induction l with
  | nil => simp
  | cons x xs ih =>
    simp only [List.map_cons, List.nodup_cons, List.mem_map, not_exists, not_and] at hl
    rw [List.map_cons, List.sum_cons, ih hl.2]
    by_cases hx : f x = k ∧ P x
    · have hno : ¬ ∃ y ∈ xs, f y = k ∧ P y := by
        rintro ⟨y, hy, hk, -⟩
        exact hl.1 y hy (hk.trans hx.1.symm)
      simp [hx, hno]
    · simp [hx]

end Counting

section Counts

variable {tz now i : Nat} {t : ScanTables} {cs : WarnConfigs} {c : TWarnConfig}

/-- A warning about the minimum of a configuration. -/
def isMinWarnOf (k : Int × Int) (w : TAttrWarnInfo) : Bool :=
  hasFlag w.iWarnFlag ATTR_WARN_FLAG_MIN && (w.iWarnId, w.iAttrId) = k

/-- The number of minimum warnings of a configuration. -/
def minCount (k : Int × Int) (ws : List TAttrWarnInfo) : Nat := ws.countP (isMinWarnOf k)

theorem minCount_append (k : Int × Int) (ws ws' : List TAttrWarnInfo) :
    minCount k (ws ++ ws') = minCount k ws + minCount k ws' := List.countP_append

theorem minCount_flatMap {α : Type*} (k : Int × Int) (l : List α) (f : α → List TAttrWarnInfo) :
    minCount k (l.flatMap f) = (l.map fun x => minCount k (f x)).sum := by
  simp only [minCount, List.countP_flatMap, Function.comp_def]

theorem minCount_checkValues {typeFlag : Nat}
    (htype : typeFlag = ATTR_WARN_FLAG_TYPE_MACHINE ∨ typeFlag = ATTR_WARN_FLAG_TYPE_VIEW)
    (masked : Bool) (w a : Int) (last pre : UInt32) (k : Int × Int) :
    minCount k (checkValues c typeFlag masked w a last pre now) =
      if (w, a) = k ∧ hasFlag c.iWarnConfigFlag ATTR_WARN_FLAG_MIN = true ∧
        last < c.iWarnMin.toUInt32 then 1 else 0 := by
  have hmin : hasFlag (maskFlag (ATTR_WARN_FLAG_MIN ||| typeFlag) masked) ATTR_WARN_FLAG_MIN =
      true := by
    obtain rfl | rfl := htype <;> cases masked <;> decide
  have hmax : hasFlag (maskFlag (ATTR_WARN_FLAG_MAX ||| typeFlag) masked) ATTR_WARN_FLAG_MIN =
      false := by
    obtain rfl | rfl := htype <;> cases masked <;> decide
  have hwave : hasFlag (maskFlag (ATTR_WARN_FLAG_WAVE ||| typeFlag) masked) ATTR_WARN_FLAG_MIN =
      false := by
    obtain rfl | rfl := htype <;> cases masked <;> decide
  have hno : ∀ (p : Prop) [Decidable p] (f : Nat) (v : Int32) (x : UInt32),
      hasFlag f ATTR_WARN_FLAG_MIN = false →
        minCount k (if p then [TAttrWarnInfo.mk f w a v x now] else []) = 0 := by
    intro p _ f v x hf
    split
    · simp [minCount, isMinWarnOf, hf]
    · rfl
  rw [checkValues, minCount_append, minCount_append, hno _ _ c.iWarnMax _ hmax,
    hno _ _ c.iWarnWave _ hwave]
  by_cases hbelow : hasFlag c.iWarnConfigFlag ATTR_WARN_FLAG_MIN = true ∧
      last < c.iWarnMin.toUInt32
  · by_cases hk : (w, a) = k
    · simp [minCount, isMinWarnOf, hbelow, hmin, hk]
    · simp [minCount, isMinWarnOf, hbelow, hk]
  · simp [minCount, hbelow]

theorem minCount_checkException (b : Nat) (c : TWarnConfig) (n : AttrNode) (k : Int × Int) :
    minCount k (checkException b c n now i) = 0 := by
  have hflag : ∀ masked, hasFlag
      (maskFlag (ATTR_WARN_FLAG_TYPE_MACHINE ||| ATTR_WARN_FLAG_EXCEPTION) masked)
      ATTR_WARN_FLAG_MIN = false := by
    decide
  simp only [checkException]
  split
  · simp [minCount, isMinWarnOf, hflag]
  · rfl

theorem minCount_exceptionWarns (configs : List TWarnConfig) (b : Nat) (n : AttrNode)
    (k : Int × Int) : minCount k (exceptionWarns configs b n now i) = 0 := by
  simp only [exceptionWarns]
  split
  · split
    · rfl
    · exact minCount_checkException ..
  · rfl

theorem getWarnConfigInfo_of_mem (hc : c ∈ cs.configs) {w a : Int} (hk : c.key = (w, a)) :
    getWarnConfigInfo cs.configs w a = some c := by
  have hsome : (getWarnConfigInfo cs.configs w a).isSome = true :=
    List.find?_isSome.mpr ⟨c, hc, by simp [hk]⟩
  obtain ⟨c', hc'⟩ := Option.isSome_iff_exists.mp hsome
  obtain ⟨hmem, hkey⟩ := getWarnConfigInfo_spec hc'
  rw [hc', cs.eq_of_key hmem hc (hkey.trans hk.symm)]

theorem minCount_nodeWarns (hc : c ∈ cs.configs) (b : Nat) (n : AttrNode) :
    minCount c.key (nodeWarns cs.configs b n now i) =
      if (n.iMachineId, n.iAttrId) = c.key ∧ hasFlag c.iWarnConfigFlag ATTR_WARN_FLAG_MIN = true ∧
        (adaptReportValue n.toTWarnAttrReportInfo now i).1 < c.iWarnMin.toUInt32 then 1 else 0 := by
  rw [nodeWarns, minCount_append, minCount_exceptionWarns, Nat.add_zero]
  by_cases hk : (n.iMachineId, n.iAttrId) = c.key
  · rw [getWarnConfigInfo_of_mem hc hk.symm]
    exact minCount_checkValues (Or.inl rfl) _ _ _ _ _ _
  · simp only [hk, false_and, reduceIte]
    split
    · rfl
    · refine (minCount_checkValues (Or.inl rfl) _ _ _ _ _ _).trans ?_
      simp [hk]

theorem checkMachineWarn_fixed {c c' : TWarnConfig} (h : c.fixed = c'.fixed) (b : Nat)
    (n : AttrNode) : checkMachineWarn b c n now i = checkMachineWarn b c' n now i := by
  change checkMachineWarn b c.fixed n now i = checkMachineWarn b c'.fixed n now i
  rw [h]

theorem checkException_fixed {c c' : TWarnConfig} (h : c.fixed = c'.fixed) (b : Nat)
    (n : AttrNode) : checkException b c n now i = checkException b c' n now i := by
  change checkException b c.fixed n now i = checkException b c'.fixed n now i
  rw [h]

theorem checkWithoutReport_fixed {c c' : TWarnConfig} (h : c.fixed = c'.fixed) :
    checkWithoutReport t now c = checkWithoutReport t now c' := by
  change checkWithoutReport t now c.fixed = checkWithoutReport t now c'.fixed
  rw [h]

theorem nodeWarns_tally (ps : List (AttrNode × Int)) (configs : List TWarnConfig) (b : Nat)
    (n : AttrNode) :
    nodeWarns (configs.map (tally tz now i ps)) b n now i = nodeWarns configs b n now i := by
  simp only [nodeWarns, exceptionWarns, getWarnConfigInfo_tally]
  congr 1
  · cases getWarnConfigInfo configs n.iMachineId n.iAttrId with
    | none => rfl
    | some c => exact checkMachineWarn_fixed (tally_fixed ps c) b n
  · split
    · cases getWarnConfigInfo configs 0 n.iAttrId with
      | none => rfl
      | some c => exact checkException_fixed (tally_fixed ps c) b n
    · rfl

theorem addView_listWarn (n : AttrNode) (acc : ScanAcc) (v : Int) :
    (addView tz now i n acc v).listWarn = acc.listWarn := by
  simp only [addView]
  split
  · rfl
  · split <;> rfl

theorem addViews_listWarn (n : AttrNode) (acc : ScanAcc) (vs : List Int) :
    (vs.foldl (addView tz now i n) acc).listWarn = acc.listWarn := by
  induction vs generalizing acc with
  | nil => rfl
  | cons v vs ih => rw [List.foldl_cons, ih, addView_listWarn]

/-- The warnings of a machine in a scan. -/
def machineWarns (t : ScanTables) (configs : List TWarnConfig) (now i : Nat) (n : AttrNode) :
    List TAttrWarnInfo :=
  match t.machineInfo n.iMachineId with
  | none => []
  | some b => nodeWarns configs b n now i

theorem Tallied.listWarn {ps : List (AttrNode × Int)} {acc : ScanAcc} (ns : List AttrNode)
    (h : Tallied tz now i cs ps acc) :
    (ns.foldl (WarnAttr.scanNode tz t now i) acc).listWarn =
      acc.listWarn ++ ns.flatMap (machineWarns t cs.configs now i) := by
  induction ns generalizing ps acc with
  | nil => simp
  | cons n ns ih =>
    have hone : (WarnAttr.scanNode tz t now i acc n).listWarn =
        acc.listWarn ++ machineWarns t cs.configs now i n := by
      cases hm : t.machineInfo n.iMachineId with
      | none => simp [WarnAttr.scanNode, machineWarns, hm]
      | some b =>
        simp only [WarnAttr.scanNode, machineWarns, hm]
        rw [addViews_listWarn, h.configs, nodeWarns_tally]
    rw [List.foldl_cons, ih (h.scanNode t n), hone, List.flatMap_cons, List.append_assoc]

end Counts

section Passes

theorem tally_min {tz now i : Nat} (ps : List (AttrNode × Int)) (c : TWarnConfig) :
    (tally tz now i ps c).iWarnMin = c.iWarnMin := by
  change (tally tz now i ps c).fixed.iWarnMin = c.fixed.iWarnMin
  rw [tally_fixed]

theorem tally_flag {tz now i : Nat} (ps : List (AttrNode × Int)) (c : TWarnConfig) :
    (tally tz now i ps c).iWarnConfigFlag = c.iWarnConfigFlag := by
  change (tally tz now i ps c).fixed.iWarnConfigFlag = c.fixed.iWarnConfigFlag
  rw [tally_fixed]

variable (tz : Nat) (t : ScanTables) (now i : Nat) (c : TWarnConfig)

/-- A known machine with the identifier of the configuration reports a value below the minimum. -/
def MachinePass : Prop :=
  ∃ n ∈ t.nodes, (n.iMachineId, n.iAttrId) = c.key ∧ (t.machineInfo n.iMachineId).isSome = true ∧
    (adaptReportValue n.toTWarnAttrReportInfo now i).1 < c.iWarnMin.toUInt32

/-- The view with the identifier of the configuration has reports, and the value kept for it is
below the minimum. -/
def ViewPass : Prop :=
  boundNodes t c ≠ [] ∧
    (adaptedViewValues tz c now i).2 + lastSum now i (boundNodes t c) < c.iWarnMin.toUInt32

/-- No machine with the identifier of the configuration reports the attribute. -/
def SweepPass : Prop :=
  hasReport t c.iAttrId c.iWarnId = false ∧
    (hasFlag c.iWarnConfigFlag ATTR_WARN_FLAG_TYPE_MACHINE = true →
      (t.machineInfo c.iWarnId).isSome = true)

instance : Decidable (MachinePass t now i c) :=
  inferInstanceAs (Decidable (∃ n ∈ t.nodes, _))

instance : Decidable (ViewPass tz t now i c) :=
  inferInstanceAs (Decidable (_ ∧ _))

instance : Decidable (SweepPass t c) :=
  inferInstanceAs (Decidable (_ ∧ (_ → _)))

variable {tz t now i c} {cs : WarnConfigs}

theorem minCount_machines (hc : c ∈ cs.configs) :
    minCount c.key (t.nodes.flatMap (machineWarns t cs.configs now i)) =
      if hasFlag c.iWarnConfigFlag ATTR_WARN_FLAG_MIN = true ∧ MachinePass t now i c
      then 1 else 0 := by
  have hone : ∀ n, minCount c.key (machineWarns t cs.configs now i n) =
      if (n.iMachineId, n.iAttrId) = c.key ∧
        (hasFlag c.iWarnConfigFlag ATTR_WARN_FLAG_MIN = true ∧
          (t.machineInfo n.iMachineId).isSome = true ∧
          (adaptReportValue n.toTWarnAttrReportInfo now i).1 < c.iWarnMin.toUInt32)
      then 1 else 0 := by
    intro n
    cases hm : t.machineInfo n.iMachineId with
    | none => simp [machineWarns, hm, minCount]
    | some b => simp [machineWarns, hm, minCount_nodeWarns hc]
  have hex : (∃ n ∈ t.nodes, (n.iMachineId, n.iAttrId) = c.key ∧
      (hasFlag c.iWarnConfigFlag ATTR_WARN_FLAG_MIN = true ∧
        (t.machineInfo n.iMachineId).isSome = true ∧
        (adaptReportValue n.toTWarnAttrReportInfo now i).1 < c.iWarnMin.toUInt32)) ↔
      hasFlag c.iWarnConfigFlag ATTR_WARN_FLAG_MIN = true ∧ MachinePass t now i c := by
    constructor
    · rintro ⟨n, hn, hk, hflag, hm⟩
      exact ⟨hflag, n, hn, hk, hm⟩
    · rintro ⟨hflag, n, hn, hk, hm⟩
      exact ⟨n, hn, hk, hflag, hm⟩
  have hsum := sum_map_ite_of_nodup t.nodesNodup c.key fun n =>
    hasFlag c.iWarnConfigFlag ATTR_WARN_FLAG_MIN = true ∧
      (t.machineInfo n.iMachineId).isSome = true ∧
      (adaptReportValue n.toTWarnAttrReportInfo now i).1 < c.iWarnMin.toUInt32
  rw [minCount_flatMap]
  simp only [hone, hsum, hex]

theorem minCount_checkWithoutReport (c' : TWarnConfig) :
    minCount c.key (checkWithoutReport t now c') =
      if c'.key = c.key ∧ (hasFlag c'.iWarnConfigFlag ATTR_WARN_FLAG_MIN = true ∧ SweepPass t c')
      then 1 else 0 := by
  have hflag : ∀ typeFlag ∈ [ATTR_WARN_FLAG_TYPE_MACHINE, ATTR_WARN_FLAG_TYPE_VIEW], ∀ masked,
      hasFlag (maskFlag (ATTR_WARN_FLAG_MIN ||| typeFlag) masked) ATTR_WARN_FLAG_MIN = true := by
    decide
  by_cases hmin : hasFlag c'.iWarnConfigFlag ATTR_WARN_FLAG_MIN = true
  · by_cases hrep : hasReport t c'.iAttrId c'.iWarnId = true
    · simp [checkWithoutReport, SweepPass, hrep, minCount]
    · by_cases htype : hasFlag c'.iWarnConfigFlag ATTR_WARN_FLAG_TYPE_MACHINE = true
      · obtain hm | ⟨b, hm⟩ := Option.eq_none_or_eq_some (t.machineInfo c'.iWarnId)
        · simp [checkWithoutReport, SweepPass, hmin, hrep, htype, hm, minCount]
        · simp [checkWithoutReport, SweepPass, TWarnConfig.key, hmin, hrep, htype, hm, minCount,
            isMinWarnOf, hflag]
      · simp [checkWithoutReport, SweepPass, TWarnConfig.key, hmin, hrep, htype, minCount,
          isMinWarnOf, hflag]
  · simp [checkWithoutReport, hmin, minCount]

theorem minCount_sweep (hc : c ∈ cs.configs) :
    minCount c.key (checkWarnConfig t now (scanNodes tz t cs.configs now i).configs) =
      if hasFlag c.iWarnConfigFlag ATTR_WARN_FLAG_MIN = true ∧ SweepPass t c then 1 else 0 := by
  have hex : (∃ c' ∈ cs.configs, c'.key = c.key ∧
      (hasFlag c'.iWarnConfigFlag ATTR_WARN_FLAG_MIN = true ∧ SweepPass t c')) ↔
      hasFlag c.iWarnConfigFlag ATTR_WARN_FLAG_MIN = true ∧ SweepPass t c := by
    constructor
    · rintro ⟨c', hc', hk, hs⟩
      rwa [cs.eq_of_key hc' hc hk] at hs
    · intro hs
      exact ⟨c, hc, rfl, hs⟩
  have hsum := sum_map_ite_of_nodup cs.keysNodup c.key fun c' =>
    hasFlag c'.iWarnConfigFlag ATTR_WARN_FLAG_MIN = true ∧ SweepPass t c'
  rw [checkWarnConfig, (scanNodes_tallied tz now i t cs).configs, List.flatMap_map,
    minCount_flatMap]
  simp only [checkWithoutReport_fixed (tally_fixed _ _), minCount_checkWithoutReport, hsum, hex]

theorem viewConfigs_keys_nodup (tz now i : Nat) (t : ScanTables) (cs : WarnConfigs) :
    ((viewConfigs (scanNodes tz t cs.configs now i)).map TWarnConfig.key).Nodup := by
  have h := scanNodes_tallied tz now i t cs
  apply List.Nodup.map_on
  · intro c₁ hc₁ c₂ hc₂ hk
    obtain ⟨d₁, hd₁, -, rfl⟩ := mem_viewConfigs.mp hc₁
    obtain ⟨d₂, hd₂, -, rfl⟩ := mem_viewConfigs.mp hc₂
    rw [tally_key, tally_key] at hk
    rw [cs.eq_of_key hd₁ hd₂ hk]
  · apply List.Nodup.filterMap
    · intro j₁ j₂ c hj₁ hj₂
      have h₁ : c.iWarnConfigId = j₁ := by simpa using List.find?_some hj₁
      have h₂ : c.iWarnConfigId = j₂ := by simpa using List.find?_some hj₂
      exact h₁.symm.trans h₂
    · exact (List.perm_insertionSort _ _).nodup_iff.mpr h.mapNodup

theorem minCount_views (hc : c ∈ cs.configs) :
    minCount c.key ((viewConfigs (scanNodes tz t cs.configs now i)).flatMap
      fun c' => checkViewWarn c' now) =
      if hasFlag c.iWarnConfigFlag ATTR_WARN_FLAG_MIN = true ∧ ViewPass tz t now i c
      then 1 else 0 := by
  have hex : (∃ c' ∈ viewConfigs (scanNodes tz t cs.configs now i), c'.key = c.key ∧
      (hasFlag c'.iWarnConfigFlag ATTR_WARN_FLAG_MIN = true ∧
        c'.dwReserved2 < c'.iWarnMin.toUInt32)) ↔
      hasFlag c.iWarnConfigFlag ATTR_WARN_FLAG_MIN = true ∧ ViewPass tz t now i c := by
    constructor
    · rintro ⟨c', hc', hk, hflag, hlt⟩
      obtain ⟨d, hd, hne, rfl⟩ := mem_viewConfigs.mp hc'
      rw [tally_key] at hk
      obtain rfl := cs.eq_of_key hd hc hk
      rw [tally_flag] at hflag
      rw [(tally_values tz now i hne).2, tally_min] at hlt
      exact ⟨hflag, hne, hlt⟩
    · rintro ⟨hflag, hne, hlt⟩
      refine ⟨_, mem_viewConfigs.mpr ⟨c, hc, hne, rfl⟩, tally_key _ _, ?_, ?_⟩
      · rw [tally_flag]
        exact hflag
      · rw [(tally_values tz now i hne).2, tally_min]
        exact hlt
  have hsum := sum_map_ite_of_nodup (viewConfigs_keys_nodup tz now i t cs) c.key fun c' =>
    hasFlag c'.iWarnConfigFlag ATTR_WARN_FLAG_MIN = true ∧ c'.dwReserved2 < c'.iWarnMin.toUInt32
  rw [minCount_flatMap]
  simp only [checkViewWarn, minCount_checkValues (Or.inr rfl)]
  exact hsum.trans (by simp only [hex])

theorem minCount_scanWarns (tz : Nat) (t : ScanTables) (now i : Nat) (hc : c ∈ cs.configs) :
    minCount c.key (scanWarns tz t cs.configs now i) =
      (if hasFlag c.iWarnConfigFlag ATTR_WARN_FLAG_MIN = true ∧ MachinePass t now i c
        then 1 else 0) +
      (if hasFlag c.iWarnConfigFlag ATTR_WARN_FLAG_MIN = true ∧ ViewPass tz t now i c
        then 1 else 0) +
      (if hasFlag c.iWarnConfigFlag ATTR_WARN_FLAG_MIN = true ∧ SweepPass t c then 1 else 0) := by
  have hmach : (scanNodes tz t cs.configs now i).listWarn =
      t.nodes.flatMap (machineWarns t cs.configs now i) :=
    (Tallied.listWarn t.nodes (Tallied.start [])).trans (List.nil_append _)
  rw [scanWarns, minCount_append, minCount_append, hmach, minCount_machines hc,
    minCount_views hc, minCount_sweep hc]

end Passes

section Subject

/-- A value is below a minimum. -/
def Below (val : UInt32) (iWarnMin : Int32) : Prop := (val.toNat : Int) < iWarnMin.toInt

instance (val : UInt32) (iWarnMin : Int32) : Decidable (Below val iWarnMin) :=
  inferInstanceAs (Decidable ((val.toNat : Int) < iWarnMin.toInt))

theorem below_iff (val : UInt32) (m : Int32) : Below val m ↔ 0 ≤ m.toInt ∧ val < m.toUInt32 := by
  have hm : m.toUInt32.toNat = m.toBitVec.toNat := rfl
  have hi : m.toInt = m.toBitVec.toInt := rfl
  have hlt := m.toBitVec.isLt
  rw [Below, UInt32.lt_iff_toNat_lt, hm, hi, BitVec.toInt_eq_toNat_cond]
  split <;> omega

variable (t : ScanTables) (now i : Nat) (c : TWarnConfig)

/-- The last value of the machine with the identifier of the configuration. -/
def machineValue : UInt32 :=
  match t.nodes.find? fun n => (n.iMachineId, n.iAttrId) = c.key with
  | none => 0
  | some n => (adaptReportValue n.toTWarnAttrReportInfo now i).1

/-- The last value of what the configuration is about. -/
def subjectValue : UInt32 :=
  if hasFlag c.iWarnConfigFlag ATTR_WARN_FLAG_TYPE_MACHINE then machineValue t now i c
  else lastSum now i (boundNodes t c)

variable {t now i c}

theorem hasReport_iff :
    hasReport t c.iAttrId c.iWarnId = true ↔
      ∃ n ∈ t.nodes, (n.iMachineId, n.iAttrId) = c.key := by
  simp only [hasReport, List.any_eq_true, decide_eq_true_eq, TWarnConfig.key, Prod.mk.injEq]
  constructor
  · rintro ⟨n, hn, ha, hm⟩
    exact ⟨n, hn, hm, ha⟩
  · rintro ⟨n, hn, hm, ha⟩
    exact ⟨n, hn, ha, hm⟩

theorem machineValue_of_mem {n : AttrNode} (hn : n ∈ t.nodes)
    (hk : (n.iMachineId, n.iAttrId) = c.key) :
    machineValue t now i c = (adaptReportValue n.toTWarnAttrReportInfo now i).1 := by
  have hsome : (t.nodes.find? fun n => (n.iMachineId, n.iAttrId) = c.key).isSome = true :=
    List.find?_isSome.mpr ⟨n, hn, by simp [hk]⟩
  obtain ⟨n', hn'⟩ := Option.isSome_iff_exists.mp hsome
  have hk' : (n'.iMachineId, n'.iAttrId) = c.key := by simpa using List.find?_some hn'
  have heq : n' = n :=
    List.inj_on_of_nodup_map t.nodesNodup (List.mem_of_find?_eq_some hn') hn (hk'.trans hk.symm)
  simp only [machineValue, hn', heq]

theorem machineValue_of_no_report (h : hasReport t c.iAttrId c.iWarnId = false) :
    machineValue t now i c = 0 := by
  have hnone : t.nodes.find? (fun n => (n.iMachineId, n.iAttrId) = c.key) = none := by
    apply List.find?_eq_none.mpr
    intro n hn hk
    have hrep := hasReport_iff.mpr ⟨n, hn, by simpa using hk⟩
    rw [h] at hrep
    exact Bool.false_ne_true hrep
  simp only [machineValue, hnone]

theorem machinePass_iff :
    MachinePass t now i c ↔
      hasReport t c.iAttrId c.iWarnId = true ∧ (t.machineInfo c.iWarnId).isSome = true ∧
        machineValue t now i c < c.iWarnMin.toUInt32 := by
  constructor
  · rintro ⟨n, hn, hk, hm, hlt⟩
    refine ⟨hasReport_iff.mpr ⟨n, hn, hk⟩, ?_, ?_⟩
    · rwa [← (Prod.mk.inj hk).1]
    · rwa [machineValue_of_mem hn hk]
  · rintro ⟨hrep, hm, hlt⟩
    obtain ⟨n, hn, hk⟩ := hasReport_iff.mp hrep
    refine ⟨n, hn, hk, ?_, ?_⟩
    · rwa [(Prod.mk.inj hk).1]
    · rwa [← machineValue_of_mem hn hk]

end Subject

section MinWarnings

variable (tz : Nat) (t : ScanTables) (now i : Nat) (c : TWarnConfig)

/-- A configuration has at most one minimum warning, and one only when its subject is below. -/
def MinWarnsRight (ws : List TAttrWarnInfo) : Prop :=
  minCount c.key ws ≤ 1 ∧ (0 < minCount c.key ws → Below (subjectValue t now i c) c.iWarnMin)

/-- The configurations for which the three places agree. A machine's configuration has a positive
minimum when its machine is below it or has no report, and is taken for that of a view below the
minimum only when the machine is unknown. A view's configuration without reports has a positive
minimum; with reports, the two other places are silent, unless a carried value hides the view's own
warning. -/
def MinOk : Prop :=
  hasFlag c.iWarnConfigFlag ATTR_WARN_FLAG_MIN = true →
    if hasFlag c.iWarnConfigFlag ATTR_WARN_FLAG_TYPE_MACHINE = true then
      (MachinePass t now i c ∨ SweepPass t c → 0 < c.iWarnMin.toInt) ∧
      (ViewPass tz t now i c →
        t.machineInfo c.iWarnId = none ∧ Below (machineValue t now i c) c.iWarnMin)
    else if boundNodes t c = [] then
      MachinePass t now i c ∨ SweepPass t c → 0 < c.iWarnMin.toInt
    else
      (ViewPass tz t now i c → Below (lastSum now i (boundNodes t c)) c.iWarnMin) ∧
      (MachinePass t now i c ∨ SweepPass t c →
        Below (lastSum now i (boundNodes t c)) c.iWarnMin ∧ ¬ ViewPass tz t now i c)

instance (ws : List TAttrWarnInfo) : Decidable (MinWarnsRight t now i c ws) :=
  inferInstanceAs (Decidable (_ ∧ (_ → _)))

variable {tz t now i c} {cs : WarnConfigs}

theorem below_of_pos {m : Int32} (h : 0 < m.toInt) : Below 0 m := by
  simpa [Below] using h

theorem pos_of_below {val : UInt32} {m : Int32} (h : Below val m) : 0 < m.toInt := by
  have : 0 ≤ (val.toNat : Int) := Int.natCast_nonneg _
  exact lt_of_le_of_lt this h

theorem minWarnsRight_iff (hc : c ∈ cs.configs)
    (hflag : hasFlag c.iWarnConfigFlag ATTR_WARN_FLAG_MIN = true) :
    MinWarnsRight t now i c (scanWarns tz t cs.configs now i) ↔
      ¬ (ViewPass tz t now i c ∧ (MachinePass t now i c ∨ SweepPass t c)) ∧
      (MachinePass t now i c ∨ ViewPass tz t now i c ∨ SweepPass t c →
        Below (subjectValue t now i c) c.iWarnMin) := by
  have hexcl : MachinePass t now i c → ¬ SweepPass t c := by
    intro hm hs
    have hrep := (machinePass_iff.mp hm).1
    rw [hs.1] at hrep
    exact Bool.false_ne_true hrep
  rw [MinWarnsRight, minCount_scanWarns tz t now i hc]
  by_cases hm : MachinePass t now i c
  · have hs := hexcl hm
    by_cases hv : ViewPass tz t now i c <;> simp [hflag, hm, hv, hs]
  · by_cases hv : ViewPass tz t now i c <;> by_cases hs : SweepPass t c <;>
      simp [hflag, hm, hv, hs]

/-- The configuration of a machine. -/
theorem machineConfig_iff (htype : hasFlag c.iWarnConfigFlag ATTR_WARN_FLAG_TYPE_MACHINE = true) :
    ¬ (ViewPass tz t now i c ∧ (MachinePass t now i c ∨ SweepPass t c)) ∧
      (MachinePass t now i c ∨ ViewPass tz t now i c ∨ SweepPass t c →
        Below (machineValue t now i c) c.iWarnMin) ↔
    (MachinePass t now i c ∨ SweepPass t c → 0 < c.iWarnMin.toInt) ∧
      (ViewPass tz t now i c →
        t.machineInfo c.iWarnId = none ∧ Below (machineValue t now i c) c.iWarnMin) := by
  constructor
  · rintro ⟨hone, hbelow⟩
    constructor
    · rintro (hm | hs)
      · exact pos_of_below (hbelow (Or.inl hm))
      · exact pos_of_below (hbelow (Or.inr (Or.inr hs)))
    · intro hv
      have hb := hbelow (Or.inr (Or.inl hv))
      refine ⟨?_, hb⟩
      by_contra hknown
      have hsome : (t.machineInfo c.iWarnId).isSome = true :=
        Option.isSome_iff_ne_none.mpr hknown
      apply hone ⟨hv, ?_⟩
      cases hrep : hasReport t c.iAttrId c.iWarnId with
      | true => exact Or.inl (machinePass_iff.mpr ⟨hrep, hsome, ((below_iff _ _).mp hb).2⟩)
      | false => exact Or.inr ⟨hrep, fun _ => hsome⟩
  · rintro ⟨hpos, hview⟩
    constructor
    · rintro ⟨hv, hm | hs⟩
      · have hsome := (machinePass_iff.mp hm).2.1
        simp [(hview hv).1] at hsome
      · have hsome := hs.2 htype
        simp [(hview hv).1] at hsome
    · rintro (hm | hv | hs)
      · have hlt := (machinePass_iff.mp hm).2.2
        exact (below_iff _ _).mpr ⟨le_of_lt (hpos (Or.inl hm)), hlt⟩
      · exact (hview hv).2
      · rw [machineValue_of_no_report hs.1]
        exact below_of_pos (hpos (Or.inr hs))

theorem emptyViewConfig_iff (hnil : boundNodes t c = []) :
    ¬ (ViewPass tz t now i c ∧ (MachinePass t now i c ∨ SweepPass t c)) ∧
      (MachinePass t now i c ∨ ViewPass tz t now i c ∨ SweepPass t c →
        Below (lastSum now i (boundNodes t c)) c.iWarnMin) ↔
    (MachinePass t now i c ∨ SweepPass t c → 0 < c.iWarnMin.toInt) := by
  have hview : ¬ ViewPass tz t now i c := fun hv => hv.1 hnil
  have hsum : lastSum now i (boundNodes t c) = 0 := by rw [hnil]; rfl
  rw [hsum]
  constructor
  · rintro ⟨-, hbelow⟩ hpass
    refine pos_of_below (?_ : Below 0 c.iWarnMin)
    apply hbelow
    obtain hm | hs := hpass
    · exact Or.inl hm
    · exact Or.inr (Or.inr hs)
  · intro hpos
    refine ⟨fun h => hview h.1, ?_⟩
    rintro (hm | hv | hs)
    · exact below_of_pos (hpos (Or.inl hm))
    · exact absurd hv hview
    · exact below_of_pos (hpos (Or.inr hs))

end MinWarnings

/-- The configurations of machine 1 and of view 10. -/
def bothConfigs : WarnConfigs where
  configs :=
    [{ sampleConfig 3 with
        iWarnId := 1
        iWarnConfigFlag := 10
        iWarnConfigId := 2 },
      sampleConfig 3]
  keysNodup := by decide
  idsNodup := by decide

end XrkMonitor.WarnAttr
