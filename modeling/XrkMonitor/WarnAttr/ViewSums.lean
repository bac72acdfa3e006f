import Mathlib.Data.List.Nodup
import XrkMonitor.WarnAttr.Scan

/-!
# The values of a view

A scan adds the values of the machines to the configurations of their views. What a
configuration holds at the end is what it held at the start, moved on by
`AdaptViewReportValue`, and the values of the nodes that met it. `tally` says so for a
list of nodes with the views they are added to; the loops of the scan are compared
with it one node and one view at a time.
-/

namespace XrkMonitor.WarnAttr

open Library

section Tally

variable (tz now i : Nat)

/-- The nodes of a list that are added to a configuration. -/
def meeting (ps : List (AttrNode × Int)) (c : TWarnConfig) : List AttrNode :=
  (ps.filter fun p => c.key = (p.2, p.1.iAttrId)).map Prod.fst

/-- The sum of the last values of some nodes. -/
def lastSum (ns : List AttrNode) : UInt32 :=
  ns.foldl (fun x n => x + (adaptReportValue n.toTWarnAttrReportInfo now i).1) 0

/-- The sum of the values before the last of some nodes. -/
def preLastSum (ns : List AttrNode) : UInt32 :=
  ns.foldl (fun x n => x + (adaptReportValue n.toTWarnAttrReportInfo now i).2) 0

/-- A configuration after the nodes that meet it were added. -/
def tally (ps : List (AttrNode × Int)) (c : TWarnConfig) : TWarnConfig :=
  if meeting ps c = [] then c
  else
    let c' := adaptViewReportValue tz c now i
    { c' with
      dwReserved1 := c'.dwReserved1 + preLastSum now i (meeting ps c)
      dwReserved2 := c'.dwReserved2 + lastSum now i (meeting ps c) }

variable {tz now i} {ps : List (AttrNode × Int)} {n : AttrNode} {v : Int} {c : TWarnConfig}

theorem meeting_append_of_key (h : c.key = (v, n.iAttrId)) :
    meeting (ps ++ [(n, v)]) c = meeting ps c ++ [n] := by
  simp [meeting, h]

theorem meeting_append_of_ne (h : c.key ≠ (v, n.iAttrId)) :
    meeting (ps ++ [(n, v)]) c = meeting ps c := by
  simp [meeting, h]

theorem lastSum_append (ns : List AttrNode) (n : AttrNode) :
    lastSum now i (ns ++ [n]) =
      lastSum now i ns + (adaptReportValue n.toTWarnAttrReportInfo now i).1 := by
  simp [lastSum]

theorem preLastSum_append (ns : List AttrNode) (n : AttrNode) :
    preLastSum now i (ns ++ [n]) =
      preLastSum now i ns + (adaptReportValue n.toTWarnAttrReportInfo now i).2 := by
  simp [preLastSum]

/-- The parts of a configuration that a scan leaves alone. -/
def TWarnConfig.fixed (c : TWarnConfig) : TWarnConfig :=
  { c with
    dwReserved1 := 0
    dwReserved2 := 0
    dwReserved3 := 0 }

theorem fixed_of_reserved (c : TWarnConfig) (r₁ r₂ : UInt32) (r₃ : Nat) :
    TWarnConfig.fixed
      { c with
        dwReserved1 := r₁
        dwReserved2 := r₂
        dwReserved3 := r₃ } = c.fixed := rfl

theorem adaptView_fixed (tz now i : Nat) (c : TWarnConfig) :
    (adaptViewReportValue tz c now i).fixed = c.fixed := by
  rw [adaptViewReportValue, fixed_of_reserved]

theorem tally_fixed (ps : List (AttrNode × Int)) (c : TWarnConfig) :
    (tally tz now i ps c).fixed = c.fixed := by
  rw [tally]
  split
  · rfl
  · rw [fixed_of_reserved, adaptView_fixed]

theorem key_of_fixed {c c' : TWarnConfig} (h : c.fixed = c'.fixed) : c.key = c'.key := by
  change c.fixed.key = c'.fixed.key
  rw [h]

theorem id_of_fixed {c c' : TWarnConfig} (h : c.fixed = c'.fixed) :
    c.iWarnConfigId = c'.iWarnConfigId := by
  change c.fixed.iWarnConfigId = c'.fixed.iWarnConfigId
  rw [h]

@[simp] theorem tally_key (ps : List (AttrNode × Int)) (c : TWarnConfig) :
    (tally tz now i ps c).key = c.key := key_of_fixed (tally_fixed ps c)

@[simp] theorem tally_id (ps : List (AttrNode × Int)) (c : TWarnConfig) :
    (tally tz now i ps c).iWarnConfigId = c.iWarnConfigId := id_of_fixed (tally_fixed ps c)

theorem tally_add (hkey : c.key = (v, n.iAttrId)) (hmet : meeting ps c ≠ []) :
    tally tz now i (ps ++ [(n, v)]) c =
      addReportValForViewWarn (tally tz now i ps c) n now i := by
  simp [tally, meeting_append_of_key hkey, hmet, addReportValForViewWarn, lastSum_append,
    preLastSum_append, UInt32.add_assoc]

theorem tally_first (hkey : c.key = (v, n.iAttrId)) (hmet : meeting ps c = []) :
    tally tz now i (ps ++ [(n, v)]) c =
      addReportValForViewWarn (adaptViewReportValue tz (tally tz now i ps c) now i) n now i := by
  simp [tally, meeting_append_of_key hkey, hmet, addReportValForViewWarn, lastSum, preLastSum]

theorem tally_ne (hkey : c.key ≠ (v, n.iAttrId)) :
    tally tz now i (ps ++ [(n, v)]) c = tally tz now i ps c := by
  simp only [tally, meeting_append_of_ne hkey]

end Tally

section Loops

variable {tz now i : Nat} {cs : WarnConfigs} {ps : List (AttrNode × Int)} {acc : ScanAcc}
  {c c' : TWarnConfig}

/-- The scan stands where the list of nodes and views ends. -/
structure Tallied (tz now i : Nat) (cs : WarnConfigs) (ps : List (AttrNode × Int))
    (acc : ScanAcc) : Prop where
  configs : acc.configs = cs.configs.map (tally tz now i ps)
  met : ∀ c ∈ cs.configs, c.iWarnConfigId ∈ acc.mapViewWarnCfgs ↔ meeting ps c ≠ []
  known : ∀ id ∈ acc.mapViewWarnCfgs, ∃ c ∈ cs.configs, c.iWarnConfigId = id
  mapNodup : acc.mapViewWarnCfgs.Nodup

theorem Tallied.start (warns : List TAttrWarnInfo) :
    Tallied tz now i cs [] ⟨cs.configs, [], warns⟩ where
  configs := by
    have hid : tally tz now i [] = id := rfl
    simp [hid]
  met := by simp [meeting]
  known := by simp
  mapNodup := by simp

theorem getWarnConfigInfo_tally (configs : List TWarnConfig) (w a : Int) :
    getWarnConfigInfo (configs.map (tally tz now i ps)) w a =
      (getWarnConfigInfo configs w a).map (tally tz now i ps) := by
  simp only [getWarnConfigInfo, List.find?_map, Function.comp_def, tally_key]

theorem getWarnConfigInfo_spec {configs : List TWarnConfig} {w a : Int} {c : TWarnConfig}
    (h : getWarnConfigInfo configs w a = some c) : c ∈ configs ∧ c.key = (w, a) := by
  refine ⟨List.mem_of_find?_eq_some h, ?_⟩
  simpa using List.find?_some h

theorem WarnConfigs.eq_of_key (cs : WarnConfigs) (hc : c ∈ cs.configs)
    (hc' : c' ∈ cs.configs) (h : c.key = c'.key) : c = c' :=
  List.inj_on_of_nodup_map cs.keysNodup hc hc' h

theorem WarnConfigs.eq_of_id (cs : WarnConfigs) (hc : c ∈ cs.configs)
    (hc' : c' ∈ cs.configs) (h : c.iWarnConfigId = c'.iWarnConfigId) : c = c' :=
  List.inj_on_of_nodup_map cs.idsNodup hc hc' h

theorem setConfig_tally {c d : TWarnConfig} {n : AttrNode} {v : Int} (hc : c ∈ cs.configs)
    (hkey : c.key = (v, n.iAttrId)) (hd : d = tally tz now i (ps ++ [(n, v)]) c) :
    setConfig (cs.configs.map (tally tz now i ps)) d =
      cs.configs.map (tally tz now i (ps ++ [(n, v)])) := by
  have hdkey : d.key = c.key := by rw [hd, tally_key]
  simp only [setConfig, List.map_map]
  apply List.map_congr_left
  intro c' hc'
  simp only [Function.comp_apply, tally_key, hdkey]
  split
  · next heq => rw [cs.eq_of_key hc' hc heq, hd]
  · next hne => rw [tally_ne (hkey ▸ hne)]

/-- One view of a node. -/
theorem Tallied.addView (h : Tallied tz now i cs ps acc) (n : AttrNode) (v : Int) :
    Tallied tz now i cs (ps ++ [(n, v)]) (addView tz now i n acc v) := by
  have hget : getWarnConfigInfo acc.configs v n.iAttrId =
      (getWarnConfigInfo cs.configs v n.iAttrId).map (tally tz now i ps) := by
    rw [h.configs, getWarnConfigInfo_tally]
  cases hc : getWarnConfigInfo cs.configs v n.iAttrId with
  | none =>
    have hne : ∀ c ∈ cs.configs, c.key ≠ (v, n.iAttrId) := by
      intro c hmem
      simpa using List.find?_eq_none.mp hc c hmem
    rw [hc, Option.map_none] at hget
    simp only [WarnAttr.addView, hget]
    constructor
    · rw [h.configs]
      apply List.map_congr_left
      intro c hmem
      rw [tally_ne (hne c hmem)]
    · intro c hmem
      rw [meeting_append_of_ne (hne c hmem)]
      exact h.met c hmem
    · exact h.known
    · exact h.mapNodup
  | some c =>
    obtain ⟨hmem, hkey⟩ := getWarnConfigInfo_spec hc
    rw [hc, Option.map_some] at hget
    have hmet' : ∀ c' ∈ cs.configs, c'.key ≠ (v, n.iAttrId) →
        (c'.iWarnConfigId ∈ acc.mapViewWarnCfgs ++ [c.iWarnConfigId] ↔
          meeting (ps ++ [(n, v)]) c' ≠ []) := by
      intro c' hmem' hne
      have hid : c'.iWarnConfigId ≠ c.iWarnConfigId := by
        intro heq
        rw [cs.eq_of_id hmem' hmem heq] at hne
        exact hne hkey
      rw [meeting_append_of_ne hne]
      simp only [List.mem_append, List.mem_singleton, hid, or_false]
      exact h.met c' hmem'
    by_cases hin : c.iWarnConfigId ∈ acc.mapViewWarnCfgs
    · simp only [WarnAttr.addView, hget, tally_id, hin, reduceIte]
      constructor
      · rw [h.configs]
        exact setConfig_tally hmem hkey (tally_add hkey ((h.met c hmem).mp hin)).symm
      · intro c' hmem'
        by_cases hk : c'.key = (v, n.iAttrId)
        · have hc' : c' = c := cs.eq_of_key hmem' hmem (hk.trans hkey.symm)
          rw [meeting_append_of_key hk, hc']
          simp [hin]
        · rw [meeting_append_of_ne hk]
          exact h.met c' hmem'
      · exact h.known
      · exact h.mapNodup
    · have hnil : meeting ps c = [] := not_not.mp (mt (h.met c hmem).mpr hin)
      simp only [WarnAttr.addView, hget, tally_id, hin, reduceIte]
      constructor
      · rw [h.configs]
        exact setConfig_tally hmem hkey (tally_first hkey hnil).symm
      · intro c' hmem'
        by_cases hk : c'.key = (v, n.iAttrId)
        · have hc' : c' = c := cs.eq_of_key hmem' hmem (hk.trans hkey.symm)
          rw [meeting_append_of_key hk, hc']
          simp
        · exact hmet' c' hmem' hk
      · intro id hid
        obtain hid | hid := List.mem_append.mp hid
        · exact h.known id hid
        · exact ⟨c, hmem, (List.mem_singleton.mp hid).symm⟩
      · apply List.Nodup.append h.mapNodup (List.nodup_singleton _)
        simpa using hin

theorem Tallied.warns (h : Tallied tz now i cs ps acc) (warns : List TAttrWarnInfo) :
    Tallied tz now i cs ps
      { acc with
        listWarn := warns } :=
  ⟨h.configs, h.met, h.known, h.mapNodup⟩

theorem Tallied.addViews (n : AttrNode) (vs : List Int) (h : Tallied tz now i cs ps acc) :
    Tallied tz now i cs (ps ++ vs.map fun v => (n, v)) (vs.foldl (WarnAttr.addView tz now i n) acc)
    := by
  induction vs generalizing ps acc with
  | nil => simpa using h
  | cons v vs ih => simpa using ih (h.addView n v)

/-- The views a list of nodes is added to. -/
def pairsOf (t : ScanTables) (ns : List AttrNode) : List (AttrNode × Int) :=
  ns.flatMap fun n =>
    if (t.machineInfo n.iMachineId).isSome then (getReportViews t n).map fun v => (n, v) else []

theorem Tallied.scanNode (t : ScanTables) (n : AttrNode) (h : Tallied tz now i cs ps acc) :
    Tallied tz now i cs (ps ++ pairsOf t [n]) (scanNode tz t now i acc n) := by
  cases hm : t.machineInfo n.iMachineId with
  | none => simpa [WarnAttr.scanNode, pairsOf, hm] using h
  | some bWarnFlag =>
    simp only [WarnAttr.scanNode, pairsOf, hm, List.flatMap_cons, List.flatMap_nil,
      List.append_nil, Option.isSome_some, reduceIte]
    exact (h.warns _).addViews n (getReportViews t n)

theorem Tallied.scanNodes (t : ScanTables) (ns : List AttrNode) (h : Tallied tz now i cs ps acc) :
    Tallied tz now i cs (ps ++ pairsOf t ns) (ns.foldl (WarnAttr.scanNode tz t now i) acc) := by
  induction ns generalizing ps acc with
  | nil => simpa [pairsOf] using h
  | cons n ns ih => simpa [pairsOf] using ih (h.scanNode t n)

/-- The machines bound to a view that report its attribute. -/
def boundNodes (t : ScanTables) (c : TWarnConfig) : List AttrNode :=
  t.nodes.filter fun n =>
    (t.machineInfo n.iMachineId).isSome ∧ n.iAttrId = c.iAttrId ∧
      c.iWarnId ∈ getReportViews t n

theorem getReportViews_nodup (t : ScanTables) (n : AttrNode) : (getReportViews t n).Nodup := by
  simp only [getReportViews]
  split
  · next mv av hmv _ => exact (t.viewsNodup n.iMachineId mv hmv).filter _
  · exact List.nodup_nil

theorem meeting_pairsOf (t : ScanTables) (c : TWarnConfig) :
    meeting (pairsOf t t.nodes) c = boundNodes t c := by
  simp only [boundNodes]
  generalize t.nodes = ns
  induction ns with
  | nil => rfl
  | cons n ns ih =>
    have hone : meeting (pairsOf t [n]) c =
        if (t.machineInfo n.iMachineId).isSome ∧ n.iAttrId = c.iAttrId ∧
          c.iWarnId ∈ getReportViews t n then [n] else [] := by
      by_cases hm : (t.machineInfo n.iMachineId).isSome
      · by_cases ha : n.iAttrId = c.iAttrId
        · have hfilter : (getReportViews t n).filter (fun v => c.iWarnId = v) =
              if c.iWarnId ∈ getReportViews t n then [c.iWarnId] else [] := by
            simp only [eq_comm (a := c.iWarnId), List.filter_eq]
            by_cases hv : c.iWarnId ∈ getReportViews t n
            · simp [hv, List.count_eq_one_of_mem (getReportViews_nodup t n) hv]
            · simp [hv, List.count_eq_zero_of_not_mem hv]
          simp only [meeting, pairsOf, List.flatMap_cons, List.flatMap_nil, List.append_nil, hm,
            reduceIte, List.filter_map, TWarnConfig.key, Prod.mk.injEq, ha, Function.comp_def,
            and_true, hfilter, true_and]
          split <;> rfl
        · have ha' : ¬ c.iAttrId = n.iAttrId := fun h => ha h.symm
          simp [meeting, pairsOf, hm, TWarnConfig.key, ha, ha']
      · simp [meeting, pairsOf, hm]
    have hsplit : meeting (pairsOf t (n :: ns)) c =
        meeting (pairsOf t [n]) c ++ meeting (pairsOf t ns) c := by
      simp [meeting, pairsOf]
    rw [hsplit, hone, ih, List.filter_cons]
    split <;> simp_all

end Loops

section Scan

variable {tz now i : Nat} {t : ScanTables} {cs : WarnConfigs} {c : TWarnConfig}

theorem scanNodes_tallied (tz now i : Nat) (t : ScanTables) (cs : WarnConfigs) :
    Tallied tz now i cs (pairsOf t t.nodes) (scanNodes tz t cs.configs now i) :=
  (Tallied.start []).scanNodes t t.nodes

theorem mem_viewConfigs :
    c ∈ viewConfigs (scanNodes tz t cs.configs now i) ↔
      ∃ c₀ ∈ cs.configs, boundNodes t c₀ ≠ [] ∧ c = tally tz now i (pairsOf t t.nodes) c₀ := by
  have h := scanNodes_tallied tz now i t cs
  have hfind : ∀ c₀ ∈ cs.configs,
      (scanNodes tz t cs.configs now i).configs.find?
          (fun c => c.iWarnConfigId = c₀.iWarnConfigId) =
        some (tally tz now i (pairsOf t t.nodes) c₀) := by
    intro c₀ hc₀
    have hself : cs.configs.find? (fun c => c.iWarnConfigId = c₀.iWarnConfigId) = some c₀ := by
      have hsome : (cs.configs.find?
          (fun c => c.iWarnConfigId = c₀.iWarnConfigId)).isSome = true :=
        List.find?_isSome.mpr ⟨c₀, hc₀, by simp⟩
      obtain ⟨c₁, hc₁⟩ := Option.isSome_iff_exists.mp hsome
      have heq : c₁.iWarnConfigId = c₀.iWarnConfigId := by simpa using List.find?_some hc₁
      rw [hc₁, cs.eq_of_id (List.mem_of_find?_eq_some hc₁) hc₀ heq]
    rw [h.configs, List.find?_map]
    simp only [Function.comp_def, tally_id, hself, Option.map_some]
  simp only [viewConfigs, List.mem_filterMap, List.mem_insertionSort]
  constructor
  · rintro ⟨id, hid, hc⟩
    obtain ⟨c₀, hc₀, rfl⟩ := h.known id hid
    rw [hfind c₀ hc₀] at hc
    refine ⟨c₀, hc₀, ?_, (Option.some.inj hc).symm⟩
    rw [← meeting_pairsOf]
    exact (h.met c₀ hc₀).mp hid
  · rintro ⟨c₀, hc₀, hne, rfl⟩
    refine ⟨c₀.iWarnConfigId, (h.met c₀ hc₀).mpr ?_, hfind c₀ hc₀⟩
    rw [meeting_pairsOf]
    exact hne

/-- The values that were stored for the view are zero when they have moved on. -/
def NothingCarried (tz : Nat) (c : TWarnConfig) (now i : Nat) : Prop :=
  viewIsOld c now = true ∨
  (checkDayOfMin tz c.dwReserved3 = i → c.dwReserved1 = 0 ∧ c.dwReserved2 = 0) ∧
  (checkDayOfMin tz c.dwReserved3 ≠ i → (checkDayOfMin tz c.dwReserved3 + 1) % 1440 = i →
    c.dwReserved2 = 0)

instance (tz : Nat) (c : TWarnConfig) (now i : Nat) : Decidable (NothingCarried tz c now i) :=
  inferInstanceAs (Decidable (_ ∨ (_ → _) ∧ (_ → _ → _)))

theorem adaptedViewValues_of_old (h : viewIsOld c now = true) :
    adaptedViewValues tz c now i = (0, 0) := by
  rw [adaptedViewValues, if_pos h]

theorem adaptedViewValues_of_new (h : viewIsOld c now = false) :
    adaptedViewValues tz c now i =
      if checkDayOfMin tz c.dwReserved3 ≠ i then
        if (checkDayOfMin tz c.dwReserved3 + 1) % 1440 = i then (c.dwReserved2, 0) else (0, 0)
      else (c.dwReserved1, c.dwReserved2) := by
  rw [adaptedViewValues, if_neg (by rw [h]; exact Bool.false_ne_true)]

theorem nothingCarried_iff (c : TWarnConfig) :
    NothingCarried tz c now i ↔
      (adaptedViewValues tz c now i).1 = 0 ∧ (adaptedViewValues tz c now i).2 = 0 := by
  cases hold : viewIsOld c now with
  | true =>
    rw [adaptedViewValues_of_old hold]
    exact iff_of_true (Or.inl hold) ⟨rfl, rfl⟩
  | false =>
    rw [adaptedViewValues_of_new hold, NothingCarried, hold]
    generalize checkDayOfMin tz c.dwReserved3 = j
    by_cases hi : j = i
    · simp [hi]
    · by_cases hn : (j + 1) % 1440 = i
      · simp [hi, hn]
      · simp [hi, hn]

theorem tally_values (tz now i : Nat) (hne : boundNodes t c ≠ []) :
    (tally tz now i (pairsOf t t.nodes) c).dwReserved1 =
      (adaptedViewValues tz c now i).1 + preLastSum now i (boundNodes t c) ∧
    (tally tz now i (pairsOf t t.nodes) c).dwReserved2 =
      (adaptedViewValues tz c now i).2 + lastSum now i (boundNodes t c) := by
  rw [tally, meeting_pairsOf, if_neg hne, adaptViewReportValue]
  generalize adaptedViewValues tz c now i = vals
  exact ⟨rfl, rfl⟩

theorem tally_right_iff (hne : boundNodes t c ≠ []) :
    ((tally tz now i (pairsOf t t.nodes) c).dwReserved2 = lastSum now i (boundNodes t c) ∧
      (tally tz now i (pairsOf t t.nodes) c).dwReserved1 = preLastSum now i (boundNodes t c)) ↔
    NothingCarried tz c now i := by
  obtain ⟨hpre, hlast⟩ := tally_values tz now i hne
  rw [nothingCarried_iff, hpre, hlast, UInt32.add_eq_right, UInt32.add_eq_right]
  exact and_comm

end Scan

/-- The configurations after a scan. -/
def WarnConfigs.afterScan (cs : WarnConfigs) (tz : Nat) (t : ScanTables) (now i : Nat) :
    WarnConfigs where
  configs := (scanNodes tz t cs.configs now i).configs
  keysNodup := by
    rw [(scanNodes_tallied tz now i t cs).configs, List.map_map]
    simpa [Function.comp_def] using cs.keysNodup
  idsNodup := by
    rw [(scanNodes_tallied tz now i t cs).configs, List.map_map]
    simpa [Function.comp_def] using cs.idsNodup

/-- The state of the checker between scans. -/
structure ScanRun where
  s_iLastCheckMinIdx : Nat
  cs : WarnConfigs

/-- A call of `CheckAttrWarn`: the time, and the tables as they are then. -/
structure ScanInput where
  now : Nat
  t : ScanTables

section Runs

variable (tz : Nat)

/-- `CheckAttrWarn` gives the configurations `CheckViewWarn` is called with, and the warnings. -/
def checkAttrWarn (s : ScanRun) (a : ScanInput) :
    Option ((List TWarnConfig × List TAttrWarnInfo) × ScanRun) :=
  let iDayMinIdx := checkDayOfMin tz a.now
  if s.s_iLastCheckMinIdx = iDayMinIdx then
    some (([], []), s)
  else
    some ((viewConfigs (scanNodes tz a.t s.cs.configs a.now iDayMinIdx),
        scanWarns tz a.t s.cs.configs a.now iDayMinIdx),
      ⟨iDayMinIdx, s.cs.afterScan tz a.t a.now iDayMinIdx⟩)

/-- In a scan no configuration of a view with reports carries values over. -/
def ScanOk (s : ScanRun) (a : ScanInput) : Prop :=
  s.s_iLastCheckMinIdx ≠ checkDayOfMin tz a.now →
    ∀ c ∈ s.cs.configs, boundNodes a.t c ≠ [] →
      NothingCarried tz c a.now (checkDayOfMin tz a.now)

instance (s : ScanRun) (a : ScanInput) : Decidable (ScanOk tz s a) :=
  inferInstanceAs (Decidable (_ → ∀ c ∈ s.cs.configs, _ → _))

/-- The configurations that are checked hold the sums over the machines of their views. -/
def ViewsRight (a : ScanInput) (o : List TWarnConfig × List TAttrWarnInfo) : Prop :=
  ∀ c ∈ o.1,
    c.dwReserved2 = lastSum a.now (checkDayOfMin tz a.now) (boundNodes a.t c) ∧
    c.dwReserved1 = preLastSum a.now (checkDayOfMin tz a.now) (boundNodes a.t c)

instance (a : ScanInput) (o : List TWarnConfig × List TAttrWarnInfo) :
    Decidable (ViewsRight tz a o) :=
  inferInstanceAs (Decidable (∀ c ∈ o.1, _))

variable {tz}

theorem boundNodes_of_key {t : ScanTables} {c c' : TWarnConfig} (h : c.key = c'.key) :
    boundNodes t c = boundNodes t c' := by
  obtain ⟨hid, hattr⟩ := Prod.mk.inj h
  simp only [boundNodes, hid, hattr]

theorem checkAttrWarn_right (s : ScanRun) (a : ScanInput) (hok : ScanOk tz s a) :
    ∃ o s', checkAttrWarn tz s a = some (o, s') ∧ ViewsRight tz a o ∧ True := by
  by_cases hlast : s.s_iLastCheckMinIdx = checkDayOfMin tz a.now
  · refine ⟨([], []), s, by simp [checkAttrWarn, hlast], ?_, trivial⟩
    simp [ViewsRight]
  · refine ⟨_, _, if_neg hlast, ?_, trivial⟩
    intro c hc
    obtain ⟨c₀, hc₀, hne, rfl⟩ := mem_viewConfigs.mp hc
    rw [boundNodes_of_key (tally_key _ c₀)]
    exact (tally_right_iff hne).mpr (hok hlast c₀ hc₀ hne)

end Runs

section Inputs

/-- A node with the values of the last two minutes. -/
def sampleNode (iMachineId iAttrId : Int) (iMinIdx : Nat) (last pre : UInt32) : AttrNode where
  dwPreLastVal := pre
  dwLastVal := last
  dwCurVal := 0
  iMinIdx := iMinIdx
  dwLastReportTime := iMinIdx * 60
  bAttrDataType := .SUM_REPORT_M
  wStaticTime := 1
  dwLastToDbTime := 0
  wLastToDbIdx := 0
  iAttrId := iAttrId
  iMachineId := iMachineId

/-- Machine 1 is bound to view 10, with attribute 7, and reports it. -/
def sampleTables (iMinIdx : Nat) (last pre : UInt32) : ScanTables where
  nodes := [sampleNode 1 7 iMinIdx last pre]
  machineInfo := fun m => if m = 1 then some 1 else none
  machineViews := fun m => if m = 1 then some [10] else none
  attrViews := fun a => if a = 7 then some [10] else none
  nodesNodup := by simp
  viewsNodup := by
    intro m vs hvs
    by_cases hm : m = 1
    · simp only [hm, reduceIte, Option.mem_some_iff] at hvs
      simp [← hvs]
    · simp [hm] at hvs

/-- A configuration of view 10 for attribute 7. -/
def sampleConfig (iWarnMin : Int32) : TWarnConfig where
  iWarnId := 10
  iAttrId := 7
  iWarnMax := 0
  iWarnMin := iWarnMin
  iWarnWave := 0
  iWarnConfigFlag := 18
  iWarnConfigId := 1
  dwReserved1 := 0
  dwReserved2 := 0
  dwReserved3 := 0

def sampleConfigs (iWarnMin : Int32) : WarnConfigs where
  configs := [sampleConfig iWarnMin]
  keysNodup := by simp
  idsNodup := by simp

end Inputs

end XrkMonitor.WarnAttr
