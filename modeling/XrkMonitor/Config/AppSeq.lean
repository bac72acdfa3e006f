import Mathlib.Data.Nat.ModEq
import XrkMonitor.Config.Apps
import XrkMonitor.Sync.AppInfo

/-!
# The sequence number of an application

While an application stays in shared memory, the rows of `mt_app_info` and
`mt_module_info` change its slot. `dwSeq` goes up when its log server is looked up
again and when a module is added, and down when a module is deleted. The agents
compare nothing but `dwSeq`.

Between two looks for the server the number is the module count plus a constant.
`seq_identifies` says that it identifies what the agents get as long as the counts
of different periods do not meet; `seq_repeats` is a run in which they do.
-/

namespace XrkMonitor.Config

open Library

def SLOG_MODULE_COUNT_MAX_PER_APP : Nat := 50

/-- `TModuleInfo`. -/
structure TModuleInfo where
  iModuleId : Int
  iNameVmemIdx : Int
deriving Repr, DecidableEq

/-- The slot of an application with its modules. -/
structure AppSlot where
  info : AppInfo
  arrModuleList : Nat → TModuleInfo
  wModuleCount : Nat

/-- A row of `mt_module_info`. -/
structure ModuleRow where
  module_id : Int
  xrk_status : Int
  module_name : Option String
  module_id_ne : module_id ≠ 0

/-- The slot `ReadTableAppInfo` makes for a new application. -/
def newSlot (env : AppEnv) (row : AppRow) : AppSlot where
  info := newAppInfo env row
  arrModuleList := fun _ => ⟨0, 0⟩
  wModuleCount := 0

/-- A row of `mt_app_info` in use for the application of the slot. -/
def readAppRowSlot (env : AppEnv) (s : AppSlot) (row : AppRow) : AppSlot :=
  if row.update_time ≠ s.info.dwLastModTime then
    { s with info := updateAppInfo env row s.info }
  else s

/-- `GetAppModuleInfo` for a slot. -/
def getAppModuleInfo (s : AppSlot) (iModuleId : Int) : Option Nat × Option Nat :=
  getSlot SLOG_MODULE_COUNT_MAX_PER_APP (fun j => (s.arrModuleList j).iModuleId) s.wModuleCount true
    iModuleId

/-- The number of an application is changed. -/
def AppInfo.setSeq (info : AppInfo) (n : Nat) : AppInfo := { info with dwSeq := n }

theorem setSeq_server (info : AppInfo) (n : Nat) :
    (info.setSeq n).dwAppSrvMaster = info.dwAppSrvMaster ∧
      (info.setSeq n).wLogSrvPort = info.wLogSrvPort := ⟨rfl, rfl⟩

/-- A module goes into a free place. -/
def addModule (env : AppEnv) (s : AppSlot) (row : ModuleRow) (iFirstFreeModule : Nat) : AppSlot where
  info := s.info.setSeq (wordInc 32 s.info.dwSeq)
  arrModuleList := Function.update s.arrModuleList iFirstFreeModule
    ⟨row.module_id, saveName env.saveToVmem row.module_name⟩
  wModuleCount := wordInc 16 s.wModuleCount

/-- The module at a place is deleted. -/
def deleteModule (s : AppSlot) (iMatchModule : Nat) : AppSlot where
  info := s.info.setSeq (wordDec 32 s.info.dwSeq)
  arrModuleList := Function.update s.arrModuleList iMatchModule ⟨0, -1⟩
  wModuleCount := wordDec 16 s.wModuleCount

/-- The name of a module is brought up to date. -/
def renameModule (env : AppEnv) (s : AppSlot) (row : ModuleRow) (iMatchModule : Nat) : AppSlot :=
  { s with
    arrModuleList := Function.update s.arrModuleList iMatchModule
      { s.arrModuleList iMatchModule with
        iNameVmemIdx := updateName env.saveToVmem env.getFromVmem
          (s.arrModuleList iMatchModule).iNameVmemIdx row.module_name } }

/-- A row of `mt_module_info` for the application of the slot. -/
def readModuleRow (env : AppEnv) (s : AppSlot) (row : ModuleRow) : AppSlot :=
  let found := getAppModuleInfo s row.module_id
  if row.xrk_status = RECORD_STATUS_USE then
    match found.1, found.2 with
    | some iMatchModule, _ => renameModule env s row iMatchModule
    | none, some iFirstFreeModule => addModule env s row iFirstFreeModule
    | none, none => s
  else
    match found.1 with
    | some iMatchModule => deleteModule s iMatchModule
    | none => s

/-- A row that one of the two functions reads. -/
inductive RowRead
  | app (env : AppEnv) (row : AppRow)
  | module (env : AppEnv) (row : ModuleRow)

def readRow (s : AppSlot) : RowRead → AppSlot
  | .app env row => readAppRowSlot env s row
  | .module env row => readModuleRow env s row

def readRows (s : AppSlot) (rows : List RowRead) : AppSlot := rows.foldl readRow s

/-- The fields of the slot that the agents get, besides its id and number. -/
def AppSlot.sent (s : AppSlot) : Nat × Nat × Nat :=
  (s.info.dwAppSrvMaster, s.info.wLogSrvPort, s.wModuleCount)

/-! ### What a row does to the number -/

inductive SeqEffect
  | keep
  | server
  | add
  | delete
deriving Repr, DecidableEq

/-- The effect of a row, by the tests the functions make. -/
def rowEffect (s : AppSlot) : RowRead → SeqEffect
  | .app env row =>
    if row.update_time ≠ s.info.dwLastModTime ∧ serverChanged env s.info then .server else .keep
  | .module _ row =>
    let found := getAppModuleInfo s row.module_id
    if row.xrk_status = RECORD_STATUS_USE then
      if found.1 = none ∧ found.2 ≠ none then .add else .keep
    else if found.1 = none then .keep else .delete

/-- The module counts since the last look for the server: at that look, and the
highest one since. -/
structure Period where
  atLook : Nat
  highest : Nat
deriving Repr, DecidableEq

/-- The period after a row. -/
def Period.next (p : Period) (s : AppSlot) (r : RowRead) : Period :=
  match rowEffect s r with
  | .server => ⟨s.wModuleCount, s.wModuleCount⟩
  | .add => { p with highest := max p.highest (s.wModuleCount + 1) }
  | _ => p

/-- A look for the server finds the module count at its highest since the last
one, and no delete takes the count below that at the last look. -/
def SeqEffect.Ok (p : Period) (wModuleCount : Nat) : SeqEffect → Prop
  | .server => wModuleCount = p.highest
  | .delete => p.atLook < wModuleCount
  | .keep | .add => True

instance (p : Period) (wModuleCount : Nat) : ∀ e : SeqEffect, Decidable (e.Ok p wModuleCount)
  | .server => inferInstanceAs (Decidable (_ = _))
  | .delete => inferInstanceAs (Decidable (_ < _))
  | .keep | .add => inferInstanceAs (Decidable True)

def RowOk (p : Period) (s : AppSlot) (r : RowRead) : Prop := (rowEffect s r).Ok p s.wModuleCount

instance (p : Period) (s : AppSlot) (r : RowRead) : Decidable (RowOk p s r) :=
  inferInstanceAs (Decidable (SeqEffect.Ok _ _ _))

def RowsOk : Period → AppSlot → List RowRead → Prop
  | _, _, [] => True
  | p, s, r :: rs => RowOk p s r ∧ RowsOk (p.next s r) (readRow s r) rs

/-- The module count is the number of places in use. -/
def SlotOk (s : AppSlot) : Prop :=
  s.wModuleCount = (List.range SLOG_MODULE_COUNT_MAX_PER_APP).countP
    fun j => !((s.arrModuleList j).iModuleId == 0)

theorem newSlot_ok (env : AppEnv) (row : AppRow) : SlotOk (newSlot env row) := by
  simp [SlotOk, newSlot]

theorem SlotOk.le {s : AppSlot} (h : SlotOk s) : s.wModuleCount ≤ SLOG_MODULE_COUNT_MAX_PER_APP := by
  rw [h]
  exact List.countP_le_length.trans_eq List.length_range

theorem countP_update {α : Type*} (used : α → Bool) (f : Nat → α) {n c : Nat} (hc : c < n) (a : α) :
    (List.range n).countP (fun j => used (Function.update f c a j)) + (used (f c)).toNat =
      (List.range n).countP (fun j => used (f j)) + (used a).toNat := by
  induction n with
  | zero => exact absurd hc (Nat.not_lt_zero c)
  | succ n ih =>
    simp only [List.range_succ, List.countP_append, List.countP_singleton]
    rcases Nat.lt_succ_iff_lt_or_eq.mp hc with hlt | rfl
    · rw [Function.update_of_ne (Nat.ne_of_gt hlt)]
      have hrest := ih hlt
      omega
    · have hsame : (List.range c).countP (fun j => used (Function.update f c a j)) =
          (List.range c).countP fun j => used (f j) := by
        apply List.countP_congr
        intro j hj
        rw [Function.update_of_ne (Nat.ne_of_lt (List.mem_range.mp hj))]
      rw [hsame, Function.update_self]
      cases used a <;> cases used (f c) <;> simp

variable {s : AppSlot} {p : Period} {rs : List RowRead} {c : Nat}

theorem SlotOk.found (h : SlotOk s) {iModuleId : Int} (hne : iModuleId ≠ 0) :
    (getAppModuleInfo s iModuleId).1 =
      slotWith SLOG_MODULE_COUNT_MAX_PER_APP (fun j => (s.arrModuleList j).iModuleId) iModuleId := by
  apply getSlot_eq_slotWith _ hne
  rw [h]

theorem SlotOk.renameModule (h : SlotOk s) (env : AppEnv) (row : ModuleRow)
    (hc : c < SLOG_MODULE_COUNT_MAX_PER_APP) : SlotOk (renameModule env s row c) := by
  have hcount := countP_update (fun m : TModuleInfo => !(m.iModuleId == 0)) s.arrModuleList hc
    { s.arrModuleList c with
      iNameVmemIdx := updateName env.saveToVmem env.getFromVmem
        (s.arrModuleList c).iNameVmemIdx row.module_name }
  unfold SlotOk at h ⊢
  exact h.trans (Nat.add_right_cancel hcount).symm

theorem SlotOk.addModule (h : SlotOk s) (env : AppEnv) (row : ModuleRow)
    (hc : c < SLOG_MODULE_COUNT_MAX_PER_APP) (hfree : (s.arrModuleList c).iModuleId = 0) :
    SlotOk (addModule env s row c) ∧ (addModule env s row c).wModuleCount = s.wModuleCount + 1 := by
  have hcount := countP_update (fun m : TModuleInfo => !(m.iModuleId == 0)) s.arrModuleList hc ⟨row.module_id, saveName env.saveToVmem row.module_name⟩
  have hle := h.le
  have hinc : (Config.addModule env s row c).wModuleCount = s.wModuleCount + 1 := by
    apply wordInc_of_lt
    unfold SLOG_MODULE_COUNT_MAX_PER_APP at hle
    omega
  refine ⟨?_, hinc⟩
  unfold SlotOk at h ⊢
  rw [hinc, h]
  simp only [hfree, Bool.not_true, Bool.toNat_false, beq_self_eq_true,
    beq_eq_false_iff_ne.mpr row.module_id_ne, Bool.not_false, Bool.toNat_true, Nat.add_zero] at hcount
  exact hcount.symm

theorem SlotOk.deleteModule (h : SlotOk s) (hc : c < SLOG_MODULE_COUNT_MAX_PER_APP)
    (hused : (s.arrModuleList c).iModuleId ≠ 0) :
    SlotOk (deleteModule s c) ∧ (deleteModule s c).wModuleCount + 1 = s.wModuleCount := by
  have hcount := countP_update (fun m : TModuleInfo => !(m.iModuleId == 0)) s.arrModuleList hc ⟨0, -1⟩
  have hle := h.le
  simp only [beq_self_eq_true, beq_eq_false_iff_ne.mpr hused, Bool.not_false, Bool.toNat_true,
    Bool.not_true, Bool.toNat_false, Nat.add_zero] at hcount
  have hpos : 0 < s.wModuleCount := by
    rw [h, ← hcount]
    exact Nat.succ_pos _
  have hdec : (Config.deleteModule s c).wModuleCount = s.wModuleCount - 1 := by
    apply wordDec_of_pos hpos
    unfold SLOG_MODULE_COUNT_MAX_PER_APP at hle
    omega
  refine ⟨?_, by rw [hdec]; omega⟩
  have hold := h
  unfold SlotOk at hold ⊢
  rw [hdec, hold, ← hcount]
  rfl

/-- The number after an effect. -/
def SeqEffect.seq (n : Nat) : SeqEffect → Nat
  | .keep => n
  | .delete => wordDec 32 n
  | .server | .add => wordInc 32 n

/-- The module counts before and after an effect. -/
def SeqEffect.Counts (c c' : Nat) : SeqEffect → Prop
  | .add => c' = c + 1
  | .delete => c' + 1 = c
  | .keep | .server => c' = c

/-- What a row changes of the number, the module count and the server. -/
structure Changes (s s' : AppSlot) (e : SeqEffect) : Prop where
  seq : s'.info.dwSeq = e.seq s.info.dwSeq
  count : e.Counts s.wModuleCount s'.wModuleCount
  server : e ≠ .server →
    s'.info.dwAppSrvMaster = s.info.dwAppSrvMaster ∧ s'.info.wLogSrvPort = s.info.wLogSrvPort

theorem updateAppInfo_changes (env : AppEnv) (row : AppRow) (s : AppSlot) :
    Changes s { s with info := updateAppInfo env row s.info }
      (if serverChanged env s.info then .server else .keep) := by
  have hsame : serverChanged env { s.info with dwLastModTime := row.update_time } =
      serverChanged env s.info := rfl
  by_cases hc : serverChanged env s.info = true
  · rw [if_pos hc]
    refine ⟨?_, rfl, fun h => absurd rfl h⟩
    simp only [updateAppInfo, hsame, hc, if_true, setAppServer]
    split <;> rfl
  · rw [if_neg hc]
    refine ⟨?_, rfl, fun _ => ?_⟩
    · simp [updateAppInfo, hsame, hc, SeqEffect.seq]
    · simp [updateAppInfo, hsame, hc]

theorem SlotOk.readAppRowSlot (h : SlotOk s) (env : AppEnv) (row : AppRow) :
    SlotOk (readAppRowSlot env s row) ∧
      Changes s (readAppRowSlot env s row) (rowEffect s (.app env row)) := by
  simp only [Config.readAppRowSlot, rowEffect]
  by_cases hnew : row.update_time ≠ s.info.dwLastModTime
  · simp only [hnew, ne_eq, not_false_eq_true, true_and]
    exact ⟨h, updateAppInfo_changes env row s⟩
  · simp only [hnew, false_and, if_false]
    exact ⟨h, rfl, rfl, fun _ => ⟨rfl, rfl⟩⟩

theorem addModule_changes (env : AppEnv) (row : ModuleRow) (c : Nat)
    (hcount : (addModule env s row c).wModuleCount = s.wModuleCount + 1) :
    Changes s (addModule env s row c) .add := by
  refine ⟨?_, hcount, fun _ => ?_⟩
  · simp only [addModule, AppInfo.setSeq, SeqEffect.seq]
  · exact setSeq_server s.info (wordInc 32 s.info.dwSeq)

theorem deleteModule_changes (c : Nat)
    (hcount : (deleteModule s c).wModuleCount + 1 = s.wModuleCount) :
    Changes s (deleteModule s c) .delete := by
  refine ⟨?_, hcount, fun _ => ?_⟩
  · simp only [deleteModule, AppInfo.setSeq, SeqEffect.seq]
  · exact setSeq_server s.info (wordDec 32 s.info.dwSeq)

theorem SlotOk.readModuleRow (h : SlotOk s) (env : AppEnv) (row : ModuleRow) :
    SlotOk (readModuleRow env s row) ∧
      Changes s (readModuleRow env s row) (rowEffect s (.module env row)) := by
  have hfound := h.found row.module_id_ne
  have hkeep : SlotOk s ∧ Changes s s .keep := ⟨h, rfl, rfl, fun _ => ⟨rfl, rfl⟩⟩
  simp only [Config.readModuleRow, rowEffect]
  by_cases huse : row.xrk_status = RECORD_STATUS_USE
  · simp only [if_pos huse]
    cases hm : (getAppModuleInfo s row.module_id).1 with
    | some c =>
      obtain ⟨hc, -⟩ := slotWith_some (hfound.symm.trans hm)
      simp only [reduceCtorEq, false_and, if_false]
      exact ⟨h.renameModule env row hc, rfl, rfl, fun _ => ⟨rfl, rfl⟩⟩
    | none =>
      have hmiss := hfound.symm.trans hm
      have hsnd : (getAppModuleInfo s row.module_id).2 =
          slotWith SLOG_MODULE_COUNT_MAX_PER_APP (fun j => (s.arrModuleList j).iModuleId) 0 :=
        SlotList.getSlot_snd hmiss
      cases hf : (getAppModuleInfo s row.module_id).2 with
      | none => simpa using hkeep
      | some c =>
        obtain ⟨hc, hfree⟩ := slotWith_some (hsnd.symm.trans hf)
        obtain ⟨hok, hcount⟩ := h.addModule env row hc hfree
        simp only [ne_eq, reduceCtorEq, not_false_eq_true, and_self, if_true]
        exact ⟨hok, addModule_changes env row c hcount⟩
  · simp only [if_neg huse]
    cases hm : (getAppModuleInfo s row.module_id).1 with
    | none => simpa using hkeep
    | some c =>
      obtain ⟨hc, hid⟩ := slotWith_some (hfound.symm.trans hm)
      obtain ⟨hok, hcount⟩ := h.deleteModule hc (by rw [hid]; exact row.module_id_ne)
      simp only [reduceCtorEq, if_false]
      exact ⟨hok, deleteModule_changes c hcount⟩

theorem SlotOk.readRow (h : SlotOk s) (r : RowRead) :
    SlotOk (readRow s r) ∧ Changes s (readRow s r) (rowEffect s r) := by
  cases r with
  | app env row => exact h.readAppRowSlot env row
  | module env row => exact h.readModuleRow env row

/-! ### Runs -/

/-- The module count lies in the period. -/
def Period.Holds (p : Period) (s : AppSlot) : Prop :=
  p.atLook ≤ s.wModuleCount ∧ s.wModuleCount ≤ p.highest

theorem Period.Holds.next (hp : p.Holds s) (h : SlotOk s) {r : RowRead} (hok : RowOk p s r) :
    (p.next s r).Holds (readRow s r) := by
  obtain ⟨-, hch⟩ := h.readRow r
  obtain ⟨hlow, hhigh⟩ := hp
  have hcount := hch.count
  unfold RowOk at hok
  unfold Period.next Period.Holds
  cases he : rowEffect s r with
  | keep | server | add | delete =>
    simp only [he, SeqEffect.Counts, SeqEffect.Ok] at hcount hok ⊢
    omega

/-- What a run has done, `m` looks for the server among it. -/
structure RunSpec (p : Period) (s t : AppSlot) (m : Nat) : Prop where
  seq : t.info.dwSeq + s.wModuleCount ≡ s.info.dwSeq + t.wModuleCount + m [MOD 2 ^ 32]
  none_looked : m = 0 → p.atLook ≤ t.wModuleCount ∧
    t.info.dwAppSrvMaster = s.info.dwAppSrvMaster ∧ t.info.wLogSrvPort = s.info.wLogSrvPort
  looked : 0 < m → p.highest < t.wModuleCount + m

theorem wordInc_modEq (n : Nat) : wordInc 32 n ≡ n + 1 [MOD 2 ^ 32] := Nat.mod_modEq _ _

theorem wordDec_modEq (n : Nat) : wordDec 32 n + 1 ≡ n [MOD 2 ^ 32] := by
  unfold Nat.ModEq wordDec
  omega

/-- A run that keeps the periods apart. -/
theorem RowsOk.spec (hok : RowsOk p s rs) (h : SlotOk s) (hp : p.Holds s) :
    SlotOk (readRows s rs) ∧ ∃ m ≤ rs.length, RunSpec p s (readRows s rs) m := by
  induction rs generalizing p s with
  | nil => exact ⟨h, 0, Nat.le_refl 0, rfl, fun _ => ⟨hp.1, rfl, rfl⟩, fun h => absurd h (lt_irrefl 0)⟩
  | cons r rs ih =>
    obtain ⟨hrow, hrest⟩ := hok
    obtain ⟨h', hch⟩ := h.readRow r
    obtain ⟨hfin, m, hm, hspec⟩ := ih hrest h' (hp.next h hrow)
    refine ⟨hfin, ?_⟩
    obtain ⟨hseq, hnone, hlooked⟩ := hspec
    have hrun : readRows s (r :: rs) = readRows (readRow s r) rs := rfl
    rw [hrun]
    generalize readRows (readRow s r) rs = t at *
    generalize readRow s r = s' at *
    obtain ⟨hs, hc, hsrv⟩ := hch
    obtain ⟨hlow, hhigh⟩ := hp
    unfold RowOk at hrow
    unfold Period.next at hnone hlooked
    cases he : rowEffect s r with
    | keep =>
      simp only [he, SeqEffect.seq, SeqEffect.Counts] at hs hc hnone hlooked
      obtain ⟨h1, h2⟩ := hsrv (by simp [he])
      rw [hs, hc] at hseq
      rw [h1, h2] at hnone
      exact ⟨m, Nat.le_succ_of_le hm, hseq, hnone, hlooked⟩
    | server =>
      simp only [he, SeqEffect.seq, SeqEffect.Counts, SeqEffect.Ok] at hs hc hrow hnone hlooked
      refine ⟨m + 1, Nat.succ_le_succ hm, ?_, fun h0 => absurd h0 (Nat.succ_ne_zero m), fun _ => ?_⟩
      · have hinc := wordInc_modEq s.info.dwSeq
        rw [← hs] at hinc
        rw [hc] at hseq
        calc t.info.dwSeq + s.wModuleCount
            ≡ s'.info.dwSeq + t.wModuleCount + m [MOD 2 ^ 32] := hseq
          _ ≡ (s.info.dwSeq + 1) + t.wModuleCount + m [MOD 2 ^ 32] :=
            (hinc.add_right _).add_right _
          _ = s.info.dwSeq + t.wModuleCount + (m + 1) := by omega
      · rcases Nat.eq_zero_or_pos m with h0 | hpos
        · have hlow' := (hnone h0).1
          omega
        · have hhigh' := hlooked hpos
          omega
    | add =>
      simp only [he, SeqEffect.seq, SeqEffect.Counts] at hs hc hnone hlooked
      obtain ⟨h1, h2⟩ := hsrv (by simp [he])
      rw [h1, h2] at hnone
      refine ⟨m, Nat.le_succ_of_le hm, ?_, hnone, fun hpos => ?_⟩
      · have hinc := wordInc_modEq s.info.dwSeq
        rw [← hs] at hinc
        rw [hc] at hseq
        apply Nat.ModEq.add_right_cancel' 1
        calc t.info.dwSeq + s.wModuleCount + 1
            ≡ s'.info.dwSeq + t.wModuleCount + m [MOD 2 ^ 32] := hseq
          _ ≡ (s.info.dwSeq + 1) + t.wModuleCount + m [MOD 2 ^ 32] :=
            (hinc.add_right _).add_right _
          _ = s.info.dwSeq + t.wModuleCount + m + 1 := by omega
      · have hhigh' := hlooked hpos
        omega
    | delete =>
      simp only [he, SeqEffect.seq, SeqEffect.Counts] at hs hc hnone hlooked
      obtain ⟨h1, h2⟩ := hsrv (by simp [he])
      rw [h1, h2] at hnone
      refine ⟨m, Nat.le_succ_of_le hm, ?_, hnone, hlooked⟩
      have hdec := wordDec_modEq s.info.dwSeq
      rw [← hs] at hdec
      rw [← hc]
      calc t.info.dwSeq + (s'.wModuleCount + 1)
          = t.info.dwSeq + s'.wModuleCount + 1 := by omega
        _ ≡ s'.info.dwSeq + t.wModuleCount + m + 1 [MOD 2 ^ 32] := hseq.add_right 1
        _ = (s'.info.dwSeq + 1) + t.wModuleCount + m := by omega
        _ ≡ s.info.dwSeq + t.wModuleCount + m [MOD 2 ^ 32] := (hdec.add_right _).add_right _

theorem RowsOk.take (hok : RowsOk p s rs) (n : Nat) :
    RowsOk p s (rs.take n) := by
  induction rs generalizing p s n with
  | nil => simpa using hok
  | cons r rs ih =>
    cases n with
    | zero => trivial
    | succ n => exact ⟨hok.1, ih hok.2 n⟩

theorem RowsOk.drop (hok : RowsOk p s rs) (h : SlotOk s) (hp : p.Holds s)
    (n : Nat) : ∃ p' : Period, p'.Holds (readRows s (rs.take n)) ∧
      SlotOk (readRows s (rs.take n)) ∧ RowsOk p' (readRows s (rs.take n)) (rs.drop n) := by
  induction rs generalizing p s n with
  | nil => exact ⟨p, by simpa [readRows] using hp, by simpa [readRows] using h, by simp [RowsOk]⟩
  | cons r rs ih =>
    cases n with
    | zero => exact ⟨p, hp, h, hok⟩
    | succ n => exact ih hok.2 (h.readRow r).1 (hp.next h hok.1) n

theorem RowsOk.same_sent (hok : RowsOk p s rs) (h : SlotOk s) (hp : p.Holds s)
    (hlen : rs.length < 2 ^ 31) {i j : Nat} (hij : i ≤ j)
    (hseq : (readRows s (rs.take i)).info.dwSeq ≡ (readRows s (rs.take j)).info.dwSeq [MOD 2 ^ 32]) :
    (readRows s (rs.take i)).sent = (readRows s (rs.take j)).sent := by
  obtain ⟨p', hp', h', hok'⟩ := hok.drop h hp i
  have hsplit : rs.take j = rs.take i ++ (rs.drop i).take (j - i) := by
    rw [← List.take_add, Nat.add_sub_cancel' hij]
  have hrun : readRows s (rs.take j) =
      readRows (readRows s (rs.take i)) ((rs.drop i).take (j - i)) := by
    rw [hsplit]
    exact List.foldl_append
  rw [hrun] at hseq ⊢
  obtain ⟨hfin, m, hm, hspec⟩ := (hok'.take (j - i)).spec h' hp'
  generalize readRows (readRows s (rs.take i)) ((rs.drop i).take (j - i)) = t at *
  generalize readRows s (rs.take i) = u at *
  have hle := h'.le
  have hle' := hfin.le
  have hm' : m < 2 ^ 31 := by
    have hshort : ((rs.drop i).take (j - i)).length ≤ rs.length := by
      rw [List.length_take, List.length_drop]
      omega
    omega
  have hcounts : u.wModuleCount ≡ t.wModuleCount + m [MOD 2 ^ 32] := by
    apply Nat.ModEq.add_left_cancel' t.info.dwSeq
    calc t.info.dwSeq + u.wModuleCount
        ≡ u.info.dwSeq + t.wModuleCount + m [MOD 2 ^ 32] := hspec.seq
      _ ≡ t.info.dwSeq + t.wModuleCount + m [MOD 2 ^ 32] := (hseq.add_right _).add_right _
      _ = t.info.dwSeq + (t.wModuleCount + m) := by omega
  unfold SLOG_MODULE_COUNT_MAX_PER_APP at hle hle'
  have heq : u.wModuleCount = t.wModuleCount + m :=
    Nat.ModEq.eq_of_lt_of_lt hcounts (by omega) (by omega)
  have hzero : m = 0 := by
    by_contra hpos
    have hhigh := hspec.looked (Nat.pos_of_ne_zero hpos)
    have hin := hp'.2
    omega
  obtain ⟨-, h1, h2⟩ := hspec.none_looked hzero
  simp only [AppSlot.sent, h1, h2, heq, hzero, Nat.add_zero]

/-- The slot as the check of the agents' tables reads it. -/
def AppSlot.srv (s : AppSlot) (iAppId : Int32) : Sync.SrvAppInfo where
  iAppId := iAppId
  dwAppSrvMaster := UInt32.ofNat s.info.dwAppSrvMaster
  wLogSrvPort := UInt16.ofNat s.info.wLogSrvPort
  dwSeq := UInt32.ofNat s.info.dwSeq
  wModuleCount := UInt16.ofNat s.wModuleCount
  iNextIndex := -1

/-- An agent that took its row from slot `s` has the fields of slot `t`. -/
def Current (s t : AppSlot) (iAppId : Int32) (stackByte : UInt8) (r : Sync.AppInfo) : Prop :=
  let row := Sync.netAppConfigToLocal r (Sync.appInfoCheckCopyInfo stackByte (s.srv iAppId))
  row.dwAppSrvMaster = (t.srv iAppId).dwAppSrvMaster ∧
    row.wLogSrvPort = (t.srv iAppId).wLogSrvPort ∧ row.wModuleCount = (t.srv iAppId).wModuleCount

/-- In one stay of an application, two states with the same number have the same
fields, and an agent whose number is found the same has the fields of the slot. -/
def SeqIdentifies (s : AppSlot) (rs : List RowRead) : Prop :=
  ∀ i j,
    ((readRows s (rs.take i)).info.dwSeq = (readRows s (rs.take j)).info.dwSeq →
      (readRows s (rs.take i)).sent = (readRows s (rs.take j)).sent) ∧
    ∀ iAppId stackByte r,
      ((readRows s (rs.take j)).srv iAppId).dwSeq =
          (Sync.netAppConfigToLocal r (Sync.appInfoCheckCopyInfo stackByte
            ((readRows s (rs.take i)).srv iAppId))).dwSeq →
        Current (readRows s (rs.take i)) (readRows s (rs.take j)) iAppId stackByte r

theorem modEq_of_ofNat {a b : Nat} (h : UInt32.ofNat a = UInt32.ofNat b) : a ≡ b [MOD 2 ^ 32] := by
  have hnat := congrArg UInt32.toNat h
  rw [UInt32.toNat_ofNat', UInt32.toNat_ofNat'] at hnat
  exact hnat

/-- The sequence number identifies what the agents get while the module counts of
different periods do not meet. -/
theorem seq_identifies (env : AppEnv) (row : AppRow) (rs : List RowRead) (hlen : rs.length < 2 ^ 31)
    (hok : RowsOk ⟨0, 0⟩ (newSlot env row) rs) : SeqIdentifies (newSlot env row) rs := by
  have h := newSlot_ok env row
  have hp : Period.Holds ⟨0, 0⟩ (newSlot env row) := ⟨Nat.le_refl 0, Nat.le_refl 0⟩
  have hsame : ∀ i j, (readRows (newSlot env row) (rs.take i)).info.dwSeq ≡
      (readRows (newSlot env row) (rs.take j)).info.dwSeq [MOD 2 ^ 32] →
      (readRows (newSlot env row) (rs.take i)).sent = (readRows (newSlot env row) (rs.take j)).sent := by
    intro i j hseq
    rcases Nat.le_total i j with hij | hji
    · exact hok.same_sent h hp hlen hij hseq
    · exact (hok.same_sent h hp hlen hji hseq.symm).symm
  intro i j
  refine ⟨fun hseq => hsame i j (congrArg (· % 2 ^ 32) hseq), ?_⟩
  intro iAppId stackByte r hseq
  obtain ⟨h1, h2, h3⟩ : _ ∧ _ ∧ _ := by
    simpa only [AppSlot.sent, Prod.mk.injEq] using hsame i j (modEq_of_ofNat hseq.symm)
  exact ⟨congrArg UInt32.ofNat h1, congrArg UInt16.ofNat h2, congrArg UInt16.ofNat h3⟩

/-- Two servers in turn, and no string memory. -/
def serverEnv (srv : SLogServer) : AppEnv :=
  { noServer with getAppMasterSrv := fun _ => some srv, rand := 10 }

def firstServer : SLogServer := ⟨1, 100, 80, 1⟩

def secondServer : SLogServer := ⟨2, 200, 80, 1⟩

theorem firstApp_ne_zero : (7 : Int) ≠ 0 := Int.ofNat_ne_zero.mpr (Nat.succ_ne_zero 6)

def appRow (update_time : Nat) : AppRow := ⟨7, 0, update_time, none, firstApp_ne_zero⟩

def moduleRow (xrk_status : Int) : ModuleRow := ⟨3, xrk_status, none, by decide⟩

/-- A module comes, and then the server changes. -/
theorem seq_identifies_moduleFirst :
    SeqIdentifies (newSlot (serverEnv firstServer) (appRow 1))
      [.module noServer (moduleRow 0), .app (serverEnv secondServer) (appRow 2)] :=
  seq_identifies _ _ _ (by decide) ⟨by decide +kernel, by decide +kernel, trivial⟩

/-- A module comes and goes, and then the server changes: the number is that of the
time with the module. -/
theorem seq_repeats :
    ¬SeqIdentifies (newSlot (serverEnv firstServer) (appRow 1))
      [.module noServer (moduleRow 0), .module noServer (moduleRow 1),
        .app (serverEnv secondServer) (appRow 2)] := by
  intro h
  have hsent := (h 1 3).1 (by decide +kernel)
  exact absurd hsent (by decide +kernel)

end XrkMonitor.Config
