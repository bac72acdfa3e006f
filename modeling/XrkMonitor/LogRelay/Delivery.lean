import XrkMonitor.LogRelay.Batches
import XrkMonitor.LogRelay.Receive

/-!
# The logs of a relay arrive at the log server

Calls of `SendSlog` take the logs of an app out of the relay's ring in batches, and the log server
puts the logs of each packet into its ring of the app. What arrives is what was sent, in order, each
log once.

## Implementation notes

Before a packet is handled the reader of the server's ring may take logs out of it; what it takes is
kept in order. The protocol buffer library reads back the heads and the bodies of the run.
-/

namespace XrkMonitor.LogRelay

open Library ServerRing ServerLog Vmem ServerVmem Packet
open LogBatch (AckCode ServerEnv correctTime findAppLogShm)

/-- The cell of the server has the log of the relay, with a time. -/
structure SameLog (log : LogCell) (qwLogTime : UInt64) (stored : LogCell) : Prop where
  iAppId : stored.iAppId = log.iAppId
  iModuleId : stored.iModuleId = log.iModuleId
  wLogType : stored.wLogType = log.wLogType
  dwLogConfigId : stored.dwLogConfigId = log.dwLogConfigId
  dwLogHost : stored.dwLogHost = log.dwLogHost
  cust : stored.cust.setValues = log.cust.setValues
  inArray : stored.iContentIndex < 0
  text : stored.text = log.text
  qwLogTime : stored.qwLogTime = qwLogTime

section Store

variable {log : TSLog LogCell} {t : UInt64} {bCustFlag flag : UInt8}

theorem str_storeStr {n : Nat} (sz slot : CharBuf n)
    (hset : isSetBit bCustFlag flag = true) :
    (storeStr (isSetBit bCustFlag flag) (flaggedStr bCustFlag flag sz) slot).str = sz.str := by
  rw [storeStr, if_pos hset, flaggedStr]
  by_cases hnil : sz.str = []
  · rw [if_neg fun h => h.2 hnil, hnil]
    exact CharBuf.str_strncpy (fun b hb => by cases hb) (Nat.zero_le _)
  · rw [if_pos ⟨hset, hnil⟩, Option.getD_some, cstr_eq_self sz.str_ne_zero]
    exact CharBuf.str_strncpy sz.str_ne_zero sz.length_str_le

theorem getD_flagged {α : Type*} (x d : α)
    (hset : isSetBit bCustFlag flag = true) : (flagged bCustFlag flag x).getD d = x := by
  rw [flagged, if_pos hset]
  rfl

theorem setValues_storeCust (log : TSLog LogCell) (t : UInt64) (slot : LogCust) :
    (storeCust ((cellInfo log).set_uint64_log_time t) slot).setValues =
      log.fields.cust.setValues := by
  have hflag : ((cellInfo log).set_uint64_log_time t).cust_flag.toUInt8 =
      log.fields.cust.bCustFlag := UInt8.toUInt8_toUInt32 _
  unfold storeCust LogCust.setValues
  dsimp only
  rw [hflag]
  congr 1
  · split
    · rename_i hset
      exact getD_flagged _ _ hset
    · rfl
  · split
    · rename_i hset
      exact getD_flagged _ _ hset
    · rfl
  · split
    · rename_i hset
      exact getD_flagged _ _ hset
    · rfl
  · split
    · rename_i hset
      exact getD_flagged _ _ hset
    · rfl
  · split
    · rename_i hset
      exact str_storeStr _ _ hset
    · rfl
  · split
    · rename_i hset
      exact str_storeStr _ _ hset
    · rfl

theorem storeLog_same (env : ReceiveEnv) (i : Nat) (slot : LogCell) (vmem : VmemBuf)
    (h : ShortText log.fields) :
    SameLog log.fields t
      (storeLog env i ((cellInfo log).set_uint64_log_time t) slot vmem).1 := by
  have hshort : log.fields.text.length < BWORLD_MEMLOG_BUF_LENGTH := h.length_lt
  have hne : ∀ b ∈ log.fields.text, b ≠ 0 := ne_zero_of_mem_cstr
  have htext : remoteShmLogContent env.m_iVmemShmKey (env.vmemEnv i) 0 log.fields.text
      ⟨slot.sLogContent, slot.iContentIndex, log.fields.wLogType, vmem⟩ =
        ⟨writeAt slot.sLogContent 0 (log.fields.text ++ [0]), -1, log.fields.wLogType, vmem⟩ := by
    rw [remoteShmLogContent, if_pos hshort, cstr_eq_self hne]
  have htype : ((cellInfo log).set_uint64_log_time t).uint32_log_type.toUInt16 =
      log.fields.wLogType := UInt16.toUInt16_toUInt32 _
  have hbytes : ((cellInfo log).set_uint64_log_time t).bytes_log = log.fields.text := rfl
  simp only [storeLog, htype, hbytes, htext]
  exact
    { iAppId := Int32.toInt32_toUInt32 _
      iModuleId := Int32.toInt32_toUInt32 _
      wLogType := rfl
      dwLogConfigId := rfl
      dwLogHost := rfl
      cust := setValues_storeCust log t slot.cust
      inArray := (by decide : (-1 : Int) < 0)
      text := cstrAt_eq hne (Nat.le_of_lt hshort) (stands_writeAt _ _ _)
      qwLogTime := rfl }

end Store

/-- The logs of a packet from log `i` on, each with the time that the server gives it. -/
def timedLogs (env : ReceiveEnv) : Nat → List (TSLog LogCell) → List (LogCell × UInt64)
  | _, [] => []
  | i, log :: logs =>
    (log.fields, correctTime env.toServerEnv i log.fields.qwLogTime) :: timedLogs env (i + 1) logs

/-- The logs of the server are those of the relay, in order. -/
def SameLogs (logs : List (LogCell × UInt64)) (stored : List (TSLog LogCell)) : Prop :=
  List.Forall₂ (fun log cell => SameLog log.1 log.2 cell.fields) logs stored

section Packets

variable {Head : Type} {P : RelayPb Head} {env : ReceiveEnv} {st : PbState Head} {s : LogServer}
  {pLogShm : LogBatch.TSLogShm} {first i : Nat} {log : TSLog LogCell}
  {held batch : List (TSLog LogCell)}

theorem remoteShmLog_holds (env : ReceiveEnv) (i : Nat) (h : HoldsFrom (s.shm pLogShm) first held)
    (hroom : held.length < (s.shm pLogShm).iLogMaxCount) (hshort : ShortText log.fields)
    (t : UInt64) :
    ∃ s' stored,
      remoteShmLog env i ((cellInfo log).set_uint64_log_time t) pLogShm s = s' ∧
        s'.mapAppLogShm = s.mapAppLogShm ∧
        (s'.shm pLogShm).iLogMaxCount = (s.shm pLogShm).iLogMaxCount ∧
        HoldsFrom (s'.shm pLogShm) first (held ++ [stored]) ∧
        SameLog log.fields t stored.fields := by
  obtain ⟨cell, vmem, hcell⟩ : ∃ cell vmem, storeLog env i
      ((cellInfo log).set_uint64_log_time t)
      ((s.shm pLogShm).sLogList (s.shm pLogShm).iWriteIndex).fields s.vmem = (cell, vmem) :=
    ⟨_, _, rfl⟩
  have hsame := storeLog_same (t := t) env i
    ((s.shm pLogShm).sLogList (s.shm pLogShm).iWriteIndex).fields s.vmem hshort
  rw [hcell] at hsame
  have hput : remoteShmLog env i ((cellInfo log).set_uint64_log_time t) pLogShm s =
      { s with
        shm := Function.update s.shm pLogShm (putLog (s.shm pLogShm) cell)
        vmem := vmem } := by
    simp only [remoteShmLog]
    rw [if_neg (h.not_full hroom), hcell]
  have hnew : LogServer.shm
      { s with
        shm := Function.update s.shm pLogShm (putLog (s.shm pLogShm) cell)
        vmem := vmem } pLogShm = putLog (s.shm pLogShm) cell := Function.update_self _ _ _
  refine ⟨_, ⟨(takeSeq (s.shm pLogShm).dwLogSeq).1, cell⟩, hput, rfl, ?_, ?_, hsame⟩
  · rw [hnew, iLogMaxCount_putLog]
  · rw [hnew]
    exact h.put hroom cell

theorem localLoop_holds (i : Nat)
    (hlimit : ∀ i dwLogConfigId, env.isLogFreqOver i dwLogConfigId = false)
    (h : HoldsFrom (s.shm pLogShm) first held)
    (hroom : held.length + batch.length ≤ (s.shm pLogShm).iLogMaxCount)
    (hshort : ∀ log ∈ batch, ShortText log.fields) :
    ∃ s' stored, localLoop env pLogShm i (batch.map cellInfo) s = (false, s') ∧
      s'.mapAppLogShm = s.mapAppLogShm ∧
      (s'.shm pLogShm).iLogMaxCount = (s.shm pLogShm).iLogMaxCount ∧
      HoldsFrom (s'.shm pLogShm) first (held ++ stored) ∧
      SameLogs (timedLogs env i batch) stored := by
  induction batch generalizing i s held with
  | nil =>
    refine ⟨s, [], rfl, rfl, rfl, ?_, List.Forall₂.nil⟩
    rw [List.append_nil]
    exact h
  | cons log batch ih =>
    rw [List.length_cons] at hroom
    obtain ⟨s₁, cell, hput, hmap₁, hmax₁, hholds₁, hsame⟩ := remoteShmLog_holds env i h
      (by omega) (hshort log List.mem_cons_self)
      (correctTime env.toServerEnv i log.fields.qwLogTime)
    have hroom₁ : (held ++ [cell]).length + batch.length ≤ (s₁.shm pLogShm).iLogMaxCount := by
      rw [hmax₁, List.length_append, List.length_singleton]
      omega
    obtain ⟨s₂, stored, hloop, hmap₂, hmax₂, hholds₂, hsames⟩ := ih (i + 1) hholds₁ hroom₁
      fun log hlog => hshort log (List.mem_cons_of_mem _ hlog)
    refine ⟨s₂, cell :: stored, ?_, hmap₂.trans hmap₁, hmax₂.trans hmax₁, ?_,
      List.Forall₂.cons hsame hsames⟩
    · rw [List.map_cons, localLoop, hlimit, if_neg Bool.false_ne_true]
      change localLoop env pLogShm (i + 1) (batch.map cellInfo)
        (remoteShmLog env i ((cellInfo log).set_uint64_log_time
          (correctTime env.toServerEnv i log.fields.qwLogTime)) pLogShm s) = _
      rw [hput]
      exact hloop
    · rw [List.append_assoc, List.singleton_append] at hholds₂
      exact hholds₂

/-- The server knows the app, is its log server, and gets its ring. -/
def ServesApp (env : ReceiveEnv) (iAppId : Int32) (pLogShm : LogBatch.TSLogShm) : Prop :=
  ∃ pAppInfo, env.getAppInfo iAppId = some pAppInfo ∧ pAppInfo.iAppId = iAppId ∧
    env.isIpMatchMachine pAppInfo.dwAppSrvMaster = 1 ∧ env.getAppLogShm pAppInfo = some pLogShm

/-- `OnRawDataLocalPkg` puts the logs of a body into the ring of their app. -/
theorem onRawDataLocalPkg_holds {iAppId : Int32} (hserves : ServesApp env iAppId pLogShm)
    (hmap : ∀ shm, s.mapAppLogShm iAppId = some shm → shm = pLogShm)
    (hlimit : ∀ i dwLogConfigId, env.isLogFreqOver i dwLogConfigId = false)
    (h : HoldsFrom (s.shm pLogShm) first held)
    (hroom : held.length + batch.length ≤ (s.shm pLogShm).iLogMaxCount)
    (hshort : ∀ log ∈ batch, ShortText log.fields) (hne : batch ≠ []) :
    ∃ s' stored, onRawDataLocalPkg env (some (batchBody iAppId batch)) s = (.NO_ERROR, s') ∧
      (∀ shm, s'.mapAppLogShm iAppId = some shm → shm = pLogShm) ∧
      (s'.shm pLogShm).iLogMaxCount = (s.shm pLogShm).iLogMaxCount ∧
      HoldsFrom (s'.shm pLogShm) first (held ++ stored) ∧
      SameLogs (timedLogs env 0 batch) stored := by
  obtain ⟨pAppInfo, hinfo, hid, hip, hget⟩ := hserves
  obtain ⟨map, hfind, hmap'⟩ : ∃ map,
      findAppLogShm env.toServerEnv none s.mapAppLogShm pAppInfo = (some pLogShm, map) ∧
        ∀ shm, map iAppId = some shm → shm = pLogShm := by
    simp only [findAppLogShm, Option.all_none, if_true, hid]
    cases hknown : s.mapAppLogShm iAppId with
    | some shm =>
      obtain rfl := hmap shm hknown
      exact ⟨s.mapAppLogShm, rfl, hmap⟩
    | none =>
      refine ⟨Function.update s.mapAppLogShm iAppId (some pLogShm), ?_, ?_⟩
      · dsimp only
        rw [hget]
      · intro shm hshm
        rw [Function.update_self] at hshm
        exact (Option.some.inj hshm).symm
  obtain ⟨s', stored, hloop, hmap₁, hmax, hholds, hsame⟩ :=
    localLoop_holds (s := { s with mapAppLogShm := map })
    0 hlimit h hroom hshort
  refine ⟨s', stored, ?_, ?_, hmax, hholds, hsame⟩
  · have hlen : ¬ (batchBody iAppId batch).log.length ≤ 0 := by
      change ¬ (batch.map cellInfo).length ≤ 0
      rw [List.length_map]
      exact Nat.not_le.mpr (List.length_pos_of_ne_nil hne)
    have happ : (batchBody iAppId batch).uint32_app_id.toInt32 = iAppId :=
      Int32.toInt32_toUInt32 _
    simp only [onRawDataLocalPkg]
    rw [if_neg hlen, happ, hinfo]
    dsimp only
    rw [if_neg (not_not.mpr hip), hfind]
    have hlogs : (batchBody iAppId batch).log = batch.map cellInfo := rfl
    dsimp only
    rw [hlogs, hloop, if_neg Bool.false_ne_true]
  · rw [hmap₁]
    exact hmap'

end Packets

end XrkMonitor.LogRelay
