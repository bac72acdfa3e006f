import XrkMonitor.LogBatch.Agent
import XrkMonitor.LogBatch.Server
import XrkMonitor.Vmem.Runs

/-!
# The transfer of a batch of logs

The agent packs pending logs one after the other until a log finds no room.
The records in an app buffer are those of the logs that went there, and the
server's loop decodes them. A text that was continued in the variable-length
memory is sent with the byte that the static buffer had behind it, so the
server has the logs exactly when that byte was `NUL` each time.
-/

namespace XrkMonitor.LogBatch

open Library Vmem

/-- The packing calls of `ReadAppLog` for the pending logs, up to the first log
that is refused. -/
def packLogs : Agent → List PendingLog → Option Agent
  | a, [] => some a
  | a, p :: ps =>
    match readAppLogToBuf p.env a p.plog with
    | none => none
    | some r => if r.iRet < 0 then some r.agent else packLogs r.agent ps

/-- The logs that go to app buffer `i`, each with the agent before its call. -/
def packedInto (i : Nat) : Agent → List PendingLog → List (Agent × PendingLog)
  | _, [] => []
  | a, p :: ps =>
    match readAppLogToBuf p.env a p.plog with
    | none => []
    | some r =>
      if r.iRet < 0 then []
      else if r.slot = some i then (a, p) :: packedInto i r.agent ps
      else packedInto i r.agent ps

/-- What app buffer `i` holds. -/
def appBuf (a : Agent) (i : Nat) : List UInt8 :=
  if i < a.bReadAppTypeCount then (a.stAppLogRead i).sAppLogBuf else []

/-- A record of the app went to app buffer `i`. -/
structure Packs (a a' : Agent) (i : Nat) (iAppId : Int32) (record : List UInt8) : Prop where
  buf : ∀ j, appBuf a' j = appBuf a j ++ if j = i then record else []
  count : a.bReadAppTypeCount ≤ a'.bReadAppTypeCount
  count_le : a'.bReadAppTypeCount ≤ a.bReadAppTypeCount + 1
  lt : i < a'.bReadAppTypeCount
  app : (a'.stAppLogRead i).iReadAppId = iAppId
  apps : ∀ j < a.bReadAppTypeCount,
    (a'.stAppLogRead j).iReadAppId = (a.stAppLogRead j).iReadAppId

section Put

variable {a : Agent} {plog : MTLog} {record : List UInt8}

theorem findAppLogRead_spec {iAppId : Int32} {len i : Nat}
    (h : findAppLogRead a iAppId len = some i) :
    i < a.bReadAppTypeCount ∧ (a.stAppLogRead i).iReadAppId = iAppId := by
  have hmem := List.mem_of_find?_eq_some h
  have hprop := List.find?_some h
  simp only [Bool.and_eq_true, beq_iff_eq, decide_eq_true_eq] at hprop
  exact ⟨List.mem_range.mp hmem, hprop.1⟩

theorem putRecord_outcome (hlen : record.length < MAX_APP_LOG_PKG_LENGTH)
    (happ : plog.head.iAppId ∈ a.stAppConfigList) :
    ∃ r, putRecord a plog record = some r ∧ r.agent.stAppConfigList = a.stAppConfigList ∧
      r.agent.vmem = a.vmem ∧ r.agent.sLogBuf = a.sLogBuf ∧
      ((r.iRet = -1 ∧ r.agent = a ∧ MAX_APP_TYPE_READ_PER_EACH ≤ a.bReadAppTypeCount) ∨
        (r.iRet = 0 ∧ ∃ i, r.slot = some i ∧ Packs a r.agent i plog.head.iAppId record)) := by
  unfold putRecord
  cases hfind : findAppLogRead a plog.head.iAppId record.length with
  | some i =>
    obtain ⟨hi, hid⟩ := findAppLogRead_spec hfind
    refine ⟨_, rfl, rfl, rfl, rfl, Or.inr ⟨rfl, i, rfl, ?_, le_refl _, Nat.le_succ _, hi, ?_, ?_⟩⟩
    · intro j
      by_cases hj : j = i
      · subst hj
        simp [appBuf, hi]
      · simp [appBuf, hj]
    · simp [hid]
    · intro j _
      by_cases hj : j = i
      · subst hj
        simp
      · simp [hj]
  | none =>
    dsimp only
    split
    · rename_i hfull
      exact ⟨_, rfl, rfl, rfl, rfl, Or.inl ⟨rfl, rfl, hfull⟩⟩
    · obtain ⟨idx, hidx⟩ := Option.isSome_iff_exists.mp (List.isSome_idxOf?.mpr happ)
      rw [hidx]
      refine ⟨_, rfl, rfl, rfl, rfl, Or.inr ⟨rfl, a.bReadAppTypeCount, rfl, ?_, Nat.le_succ _,
        le_refl _, Nat.lt_succ_self _, ?_, ?_⟩⟩
      · intro j
        by_cases hj : j = a.bReadAppTypeCount
        · subst hj
          simp [appBuf]
        · have hlt : j < a.bReadAppTypeCount + 1 ↔ j < a.bReadAppTypeCount := by omega
          simp [appBuf, hj, hlt]
      · simp
      · intro j hj
        simp [Nat.ne_of_lt hj]

end Put

section Step

variable {a : Agent} {p : PendingLog} {live : SegId → List Chain}
  {rest : List (SegId × Chain)}

theorem PendingLog.length_record (p : PendingLog) (a : Agent) :
    (p.record a).bytes.length = logInfoSize + p.log.cust.length + (p.log.text.length + 1) := by
  rw [LogRecord.length_bytes]
  simp [PendingLog.record]

/-- The record is built from the log and the memory. -/
theorem readAppLogToBuf_eq (hp : p.Ok) (h : PoolsInv a.vmem live)
    (howns : Owns live (p.chains ++ rest)) :
    ∃ sLogBuf vmem live' plog, readAppLogToBuf p.env a p.plog =
        putRecord { a with sLogBuf := sLogBuf, vmem := vmem } plog (p.record a).bytes ∧
      Stands sLogBuf 0 (p.record a).bytes ∧ plog.head = p.log.head ∧ PoolsInv vmem live' ∧
      Owns live' rest := by
  have hids : ¬ (p.plog.head.iAppId = 0 ∨ p.plog.head.iModuleId = 0) := by
    rw [hp.head, not_or]
    exact ⟨hp.app, hp.module⟩
  let buf₀ := writeAt a.sLogBuf 0 (headBytes p.plog.head)
  obtain ⟨idx₁, vmem₁, live₁, hcust, hinv₁, howns₁⟩ :=
    copyCust_pending buf₀ hp h howns
  let buf₁ := writeAt (writeAt buf₀ logInfoSize p.log.cust) 26 (toBytes 2 p.log.cust.length)
  obtain ⟨idx₂, buf₂, vmem₂, live₂, htext, hstands, hframe, hinv₂, howns₂⟩ :=
    copyText_pending buf₁ hp hinv₁ howns₁
  let buf₃ := writeAt buf₂ 28 (toBytes 2 (p.log.text.length + 1))
  have hstand : Stands buf₃ 0 (p.record a).bytes := by
    have hsize : logInfoSize = 30 := rfl
    have hkeep : ∀ (q : Nat) (as : List UInt8), q + as.length ≤ logInfoSize + p.log.cust.length →
        Stands buf₁ q as → Stands buf₂ q as := by
      intro q as hq has
      rw [Stands, hframe q as.length hq]
      exact has
    have hbehind : buf₁ p.behind = a.sLogBuf p.behind := by
      simp only [buf₁, buf₀, writeAt, length_toBytes, length_headBytes, PendingLog.behind]
      rw [if_neg (by omega), if_neg (by omega), if_neg (by omega)]
    refine stands_append.mpr ⟨?_, stands_append.mpr ⟨?_, stands_append.mpr ⟨?_,
      stands_append.mpr ⟨?_, ?_⟩⟩⟩⟩
    · refine (hkeep 0 _ ?_ ?_).writeAt (Or.inl ?_)
      · rw [length_headBytes]
        omega
      · rw [show (p.record a).head = p.plog.head from hp.head.symm]
        refine ((stands_writeAt _ _ _).writeAt (Or.inl ?_)).writeAt (Or.inl ?_)
        · rw [length_headBytes]
          omega
        · rw [length_headBytes]
      · rw [length_headBytes]
        omega
    · rw [length_headBytes]
      refine (hkeep 26 _ ?_ (stands_writeAt _ _ _)).writeAt (Or.inl ?_)
      · rw [length_toBytes]
        omega
      · rw [length_toBytes]
    · rw [length_headBytes, length_toBytes]
      have hlen : (p.record a).content.length = p.log.text.length + 1 := by
        simp [PendingLog.record]
      rw [hlen]
      exact stands_writeAt _ _ _
    · rw [length_headBytes, length_toBytes, length_toBytes]
      refine (hkeep 30 _ (by simp [PendingLog.record, hsize]) ?_).writeAt (Or.inr ?_)
      · refine (stands_writeAt buf₀ logInfoSize p.log.cust).writeAt (Or.inr ?_)
        rw [length_toBytes]
        omega
      · rw [length_toBytes]
    · rw [length_headBytes, length_toBytes, length_toBytes]
      rw [hbehind] at hstands
      refine hstands.writeAt (Or.inr ?_)
      rw [length_toBytes]
      omega
  have hrecord : bytesAt buf₃ 0 (logInfoSize + p.log.cust.length + (p.log.text.length + 1)) =
      (p.record a).bytes := by
    have hbytes := hstand
    rw [Stands, p.length_record a] at hbytes
    exact hbytes
  refine ⟨buf₃, vmem₂, live₂, { p.plog with iCustVmemIndex := idx₁, iVarmemIndex := idx₂ }, ?_,
    hstand, hp.head, hinv₂, howns₂⟩
  unfold readAppLogToBuf
  rw [if_neg hids]
  simp only
  rw [hcust, Option.bind_some]
  simp only
  rw [htext, Option.bind_some]
  simp only
  rw [← hrecord]

theorem readAppLogToBuf_outcome (hp : p.Ok) (happ : p.log.head.iAppId ∈ a.stAppConfigList)
    (h : PoolsInv a.vmem live) (howns : Owns live (p.chains ++ rest)) :
    ∃ r live', readAppLogToBuf p.env a p.plog = some r ∧ PoolsInv r.agent.vmem live' ∧
      Owns live' rest ∧ r.agent.stAppConfigList = a.stAppConfigList ∧
      Stands r.agent.sLogBuf 0 (p.record a).bytes ∧
      ((r.iRet = -1 ∧ r.agent.bReadAppTypeCount = a.bReadAppTypeCount ∧
          r.agent.stAppLogRead = a.stAppLogRead ∧
          MAX_APP_TYPE_READ_PER_EACH ≤ a.bReadAppTypeCount) ∨
        (r.iRet = 0 ∧ ∃ i, r.slot = some i ∧
          Packs a r.agent i p.log.head.iAppId (p.record a).bytes)) := by
  obtain ⟨buf, vmem, live', plog, heq, hstand, hhead, hinv, howns'⟩ :=
    readAppLogToBuf_eq hp h howns
  have hlen : (p.record a).bytes.length < MAX_APP_LOG_PKG_LENGTH := by
    have hsize := hp.size
    rw [p.length_record a]
    omega
  have happ' : plog.head.iAppId ∈
      ({ a with sLogBuf := buf, vmem := vmem } : Agent).stAppConfigList := by
    rw [hhead]
    exact happ
  obtain ⟨r, hput, hlist, hvmem, hbuf, hout⟩ := putRecord_outcome hlen happ'
  refine ⟨r, live', heq.trans hput, by rw [hvmem]; exact hinv, howns', hlist,
    by rw [hbuf]; exact hstand, ?_⟩
  rcases hout with ⟨hret, hagent, hfull⟩ | ⟨hret, i, hslot, hpacks⟩
  · left
    rw [hagent]
    exact ⟨hret, rfl, rfl, hfull⟩
  · right
    rw [hhead] at hpacks
    exact ⟨hret, i, hslot, hpacks.buf, hpacks.count, hpacks.count_le, hpacks.lt, hpacks.app,
      hpacks.apps⟩

end Step

section Run

variable {a a' : Agent} {live : SegId → List Chain}

/-- The records in the app buffers after a run. -/
structure PackedRun (a a' : Agent) (ps : List PendingLog) : Prop where
  count : a.bReadAppTypeCount ≤ a'.bReadAppTypeCount
  apps : ∀ j < a.bReadAppTypeCount,
    (a'.stAppLogRead j).iReadAppId = (a.stAppLogRead j).iReadAppId
  buf : ∀ i, appBuf a' i = appBuf a i ++
    (packedInto i a ps).flatMap fun x => (x.2.record x.1).bytes
  mem : ∀ i, ∀ x ∈ packedInto i a ps, x.2 ∈ ps ∧
    x.2.log.head.iAppId = (a'.stAppLogRead i).iReadAppId

/-- Every run has a result, and the app buffers hold the records of the logs
that went to them. -/
theorem packLogs_packed (ps : List PendingLog) (hps : ∀ p ∈ ps, p.Ok)
    (happs : ∀ p ∈ ps, p.log.head.iAppId ∈ a.stAppConfigList) (h : PoolsInv a.vmem live)
    (howns : Owns live (ps.flatMap PendingLog.chains)) :
    ∃ a', packLogs a ps = some a' ∧ PackedRun a a' ps := by
  induction ps generalizing a live with
  | nil =>
    refine ⟨a, rfl, le_refl _, fun _ _ => rfl, ?_, ?_⟩
    · intro i
      simp [packedInto]
    · intro i x hx
      simp [packedInto] at hx
  | cons p ps ih =>
    rw [List.flatMap_cons] at howns
    obtain ⟨r, live', hread, hinv, howns', hlist, -, hout⟩ :=
      readAppLogToBuf_outcome (hps p (by simp)) (happs p (by simp)) h howns
    rcases hout with ⟨hret, hcount, hslots, -⟩ | ⟨hret, k, hslot, hpacks⟩
    · have hneg : r.iRet < 0 := by omega
      have hnone : ∀ i, packedInto i a (p :: ps) = [] := by
        intro i
        rw [packedInto, hread]
        simp only [if_pos hneg]
      refine ⟨r.agent, ?_, hcount.ge, ?_, ?_, ?_⟩
      · rw [packLogs, hread]
        simp only [if_pos hneg]
      · intro j _
        rw [hslots]
      · intro i
        rw [hnone i]
        simp [appBuf, hcount, hslots]
      · intro i x hx
        rw [hnone i] at hx
        simp at hx
    · have hneg : ¬ r.iRet < 0 := by omega
      obtain ⟨a', hrun, hpacked⟩ := ih (fun q hq => hps q (List.mem_cons_of_mem _ hq))
        (fun q hq => hlist ▸ happs q (List.mem_cons_of_mem _ hq)) hinv howns'
      have hinto : ∀ i, packedInto i a (p :: ps) =
          if k = i then (a, p) :: packedInto i r.agent ps else packedInto i r.agent ps := by
        intro i
        rw [packedInto, hread]
        simp only [if_neg hneg, hslot, Option.some.injEq]
      refine ⟨a', ?_, hpacks.count.trans hpacked.count, ?_, ?_, ?_⟩
      · rw [packLogs, hread]
        simp only [if_neg hneg]
        exact hrun
      · intro j hj
        rw [hpacked.apps j (lt_of_lt_of_le hj hpacks.count), hpacks.apps j hj]
      · intro i
        rw [hpacked.buf i, hpacks.buf i, hinto i]
        by_cases hik : k = i
        · subst hik
          simp
        · have hki : i ≠ k := fun heq => hik heq.symm
          simp [hik, hki]
      · intro i x hx
        rw [hinto i] at hx
        split at hx
        · rename_i hik
          subst hik
          rcases List.mem_cons.mp hx with rfl | hx
          · exact ⟨by simp, by rw [hpacked.apps k hpacks.lt, hpacks.app]⟩
          · obtain ⟨hmem, hid⟩ := hpacked.mem k x hx
            exact ⟨List.mem_cons_of_mem _ hmem, hid⟩
        · obtain ⟨hmem, hid⟩ := hpacked.mem i x hx
          exact ⟨List.mem_cons_of_mem _ hmem, hid⟩

end Run

section Transfer

variable {a : Agent} {live : SegId → List Chain} {env : ServerEnv}
  {map : Int32 → Option TSLogShm} {p : PendingLog}

/-- The log with the time that the server gives it in a round. -/
def correctLog (env : ServerEnv) (round : Nat) (log : AppLog) : AppLog :=
  { log with head := { log.head with qwLogTime := correctTime env round log.head.qwLogTime } }

/-- The server's loop writes exactly the logs, in order, each to the memory of
its app. -/
def Transferred (env : ServerEnv) (map : Int32 → Option TSLogShm) (content : List UInt8)
    (logs : List AppLog) : Prop :=
  (onRawDataClientLog env map content).1 = .finished ∧
    ((onRawDataClientLog env map content).2.writes.map fun w => (w.pShmLog.iAppId, w.pLog.appLog)) =
      logs.zipIdx.map fun x => (x.1.head.iAppId, correctLog env x.2 x.1)

/-- The byte behind a text from the memory is `NUL` before the log is packed. -/
def CleanBehind (a : Agent) (p : PendingLog) : Prop :=
  p.textChain = none ∨ a.sLogBuf p.behind = 0

theorem PendingLog.Ok.fits (hp : p.Ok) (a : Agent) : (p.record a).Fits := by
  have hsize := hp.size
  simp only [logInfoSize, MAX_APP_LOG_PKG_LENGTH] at hsize
  constructor
  · simp only [PendingLog.record]
    omega
  · simp only [PendingLog.record, List.length_append, List.length_singleton]
    omega
  · simp [PendingLog.record]

theorem PendingLog.Ok.cstr_record_iff (hp : p.Ok) (a : Agent) :
    cstr (p.record a).content = p.log.text ↔ CleanBehind a p := by
  unfold CleanBehind
  cases htext : p.textChain with
  | none =>
    simp only [PendingLog.record, htext, Option.isNone_none, if_true, true_or, iff_true]
    exact cstr_append_nul hp.text []
  | some x =>
    simp only [PendingLog.record, htext, Option.isNone_some, Bool.false_eq_true, if_false,
      reduceCtorEq, false_or]
    constructor
    · intro h
      by_contra hne
      have hall : ∀ b ∈ p.log.text ++ [a.sLogBuf p.behind], b ≠ 0 := by
        intro b hb
        rcases List.mem_append.mp hb with hb | hb
        · exact hp.text b hb
        · rw [List.mem_singleton.mp hb]
          exact hne
      rw [cstr_eq_self hall] at h
      simp at h
    · intro h
      rw [h]
      exact cstr_append_nul hp.text []

theorem appLog_correctRecord_iff (p : PendingLog) (a : Agent) (round : Nat) :
    (correctRecord env round (p.record a)).appLog = correctLog env round p.log ↔
      cstr (p.record a).content = p.log.text := by
  constructor
  · intro h
    exact congrArg AppLog.text h
  · intro h
    change (⟨_, _, cstr (p.record a).content⟩ : AppLog) = _
    rw [h]
    rfl

/-- The server has the logs of an app buffer exactly when each was packed with
a `NUL` behind its text. -/
theorem transferred_iff {xs : List (Agent × PendingLog)} {iAppId : Int32}
    (hxs : ∀ x ∈ xs, x.2.Ok ∧ x.2.log.head.iAppId = iAppId) (hserves : Serves env iAppId)
    (hmap : MapOk map) :
    Transferred env map (xs.flatMap fun x => (x.2.record x.1).bytes) (xs.map fun x => x.2.log) ↔
      ∀ x ∈ xs, CleanBehind x.1 x.2 := by
  let rs := xs.map fun x => x.2.record x.1
  have hcontent : rs.flatMap LogRecord.bytes = xs.flatMap fun x => (x.2.record x.1).bytes :=
    List.flatMap_map _ _ _
  have hrs : ∀ r ∈ rs, r.Fits ∧ r.head.iAppId = iAppId := by
    intro r hr
    obtain ⟨x, hx, rfl⟩ := List.mem_map.mp hr
    exact ⟨(hxs x hx).1.fits x.1, (hxs x hx).2⟩
  have hfuel : rs.length < (rs.flatMap LogRecord.bytes).length + 1 := by
    have hle : ∀ qs : List LogRecord, qs.length ≤ (qs.flatMap LogRecord.bytes).length := by
      intro qs
      induction qs with
      | nil => simp
      | cons q qs ih =>
        have hq := q.length_bytes
        have hsize : logInfoSize = 30 := rfl
        simp only [List.length_cons, List.flatMap_cons, List.length_append]
        omega
    have := hle rs
    omega
  obtain ⟨st', hloop, hwrites⟩ := logLoop_records hserves rs hrs [] _ 0 ⟨0, none, map, []⟩ rfl hmap
    (by rintro shm ⟨⟩) hfuel
  have hrun : onRawDataClientLog env map (xs.flatMap fun x => (x.2.record x.1).bytes) =
      (.finished, st') := by
    rw [← hcontent]
    exact hloop
  have hviews : (st'.writes.map fun w => (w.pShmLog.iAppId, w.pLog.appLog)) =
      xs.zipIdx.map fun y => (iAppId, (correctRecord env y.2 (y.1.2.record y.1.1)).appLog) := by
    have hfst : (fun w : ShmWrite => (w.pShmLog.iAppId, w.pLog.appLog)) =
        (fun v : Int32 × LogRecord => (v.1, v.2.appLog)) ∘ ShmWrite.view := rfl
    rw [hfst, ← List.map_map, hwrites]
    simp only [rs, List.map_nil, List.nil_append, List.zipIdx_map, List.map_map]
    rfl
  unfold Transferred
  rw [hrun]
  dsimp only
  rw [hviews, List.zipIdx_map, List.map_map, List.map_inj_left]
  constructor
  · rintro ⟨-, hsame⟩ x hx
    rw [← List.zipIdx_map_fst 0 xs] at hx
    obtain ⟨y, hy, rfl⟩ := List.mem_map.mp hx
    have hpair := congrArg Prod.snd (hsame y hy)
    exact ((hxs y.1 (List.fst_mem_of_mem_zipIdx hy)).1.cstr_record_iff y.1.1).mp
      ((appLog_correctRecord_iff y.1.2 y.1.1 y.2).mp hpair)
  · intro hclean
    refine ⟨rfl, ?_⟩
    intro y hy
    have hmem := List.fst_mem_of_mem_zipIdx hy
    refine Prod.ext (hxs y.1 hmem).2.symm ?_
    exact (appLog_correctRecord_iff y.1.2 y.1.1 y.2).mpr
      (((hxs y.1 hmem).1.cstr_record_iff y.1.1).mpr (hclean y.1 hmem))

/-- What is to hold of a batch: the server has the logs of every app buffer,
and on every content its loop ends and reads only inside. -/
def BatchRight (env : ServerEnv) (map : Int32 → Option TSLogShm) (a a' : Agent)
    (ps : List PendingLog) : Prop :=
  (∀ i < a'.bReadAppTypeCount, Transferred env map (appBuf a' i)
    ((packedInto i a ps).map fun x => x.2.log)) ∧
  ∀ content, (onRawDataClientLog env map content).1 ≠ .outside ∧
    (onRawDataClientLog env map content).1 ≠ .endless

theorem PackedRun.batchRight_iff {a' : Agent} {ps : List PendingLog} (h : PackedRun a a' ps)
    (ha : a.bReadAppTypeCount = 0) (hps : ∀ p ∈ ps, p.Ok)
    (hserves : ∀ p ∈ ps, Serves env p.log.head.iAppId) (hmap : MapOk map) :
    BatchRight env map a a' ps ↔
      ∀ i < a'.bReadAppTypeCount, ∀ x ∈ packedInto i a ps, CleanBehind x.1 x.2 := by
  have hbuffer : ∀ i, Transferred env map (appBuf a' i) ((packedInto i a ps).map fun x => x.2.log) ↔
      ∀ x ∈ packedInto i a ps, CleanBehind x.1 x.2 := by
    intro i
    have hempty : appBuf a i = [] := by
      rw [appBuf, if_neg (by omega)]
    rw [h.buf i, hempty, List.nil_append]
    cases hinto : packedInto i a ps with
    | nil =>
      simp only [List.flatMap_nil, List.map_nil, List.not_mem_nil, false_implies, implies_true,
        iff_true]
      exact ⟨rfl, rfl⟩
    | cons y ys =>
      rw [← hinto]
      have hmem : ∀ x ∈ packedInto i a ps, x.2 ∈ ps ∧
          x.2.log.head.iAppId = (a'.stAppLogRead i).iReadAppId := h.mem i
      have hy := hmem y (by simp [hinto])
      have hxs : ∀ x ∈ packedInto i a ps, x.2.Ok ∧
          x.2.log.head.iAppId = (a'.stAppLogRead i).iReadAppId := by
        intro x hx
        exact ⟨hps x.2 (hmem x hx).1, (hmem x hx).2⟩
      apply transferred_iff hxs _ hmap
      rw [← hy.2]
      exact hserves y.2 hy.1
  constructor
  · rintro ⟨hall, -⟩ i hi
    exact (hbuffer i).mp (hall i hi)
  · intro hclean
    exact ⟨fun i hi => (hbuffer i).mpr (hclean i hi), onRawDataClientLog_inside env map⟩

/-- A batch is right exactly when every text from the memory is packed with a
`NUL` behind it in the static buffer. -/
theorem batch_transfer_iff (ps : List PendingLog) (ha : a.bReadAppTypeCount = 0)
    (hps : ∀ p ∈ ps, p.Ok) (happs : ∀ p ∈ ps, p.log.head.iAppId ∈ a.stAppConfigList)
    (h : PoolsInv a.vmem live) (howns : Owns live (ps.flatMap PendingLog.chains))
    (hserves : ∀ p ∈ ps, Serves env p.log.head.iAppId) (hmap : MapOk map) :
    ∃ a', packLogs a ps = some a' ∧ (BatchRight env map a a' ps ↔
      ∀ i < a'.bReadAppTypeCount, ∀ x ∈ packedInto i a ps, CleanBehind x.1 x.2) := by
  obtain ⟨a', hrun, hpacked⟩ := packLogs_packed ps hps happs h howns
  exact ⟨a', hrun, hpacked.batchRight_iff ha hps hserves hmap⟩

end Transfer

variable {p q : PendingLog}

theorem not_cleanBehind_of_longer {a a' : Agent} (hp : p.Ok)
    (hstands : Stands a'.sLogBuf 0 (p.record a).bytes) (hq : q.textChain ≠ none)
    (hfrom : logInfoSize + p.log.cust.length ≤ q.behind) (hto : q.behind < p.behind) :
    ¬ CleanBehind a' q := by
  have htext : Stands a'.sLogBuf (logInfoSize + p.log.cust.length) p.log.text := by
    have hbytes : (p.record a).bytes = ((p.record a).bytes.take logInfoSize ++ p.log.cust) ++
        (p.log.text ++ [if p.textChain.isNone then 0 else a.sLogBuf p.behind]) := by
      have hdrop := (p.record a).drop_bytes
      rw [List.append_assoc]
      exact ((List.take_append_drop logInfoSize _).symm.trans (by rw [hdrop]; rfl))
    have hlen : ((p.record a).bytes.take logInfoSize).length = logInfoSize := by
      rw [List.length_take, p.length_record a]
      omega
    rw [hbytes] at hstands
    have hrest := (stands_append.mp (stands_append.mp hstands).2).1
    rwa [List.length_append, hlen, Nat.zero_add] at hrest
  obtain ⟨k, hk⟩ := Nat.exists_eq_add_of_le hfrom
  have hlt : k < p.log.text.length := by
    rw [hk, PendingLog.behind] at hto
    omega
  have hbyte : a'.sLogBuf q.behind = p.log.text[k] := by
    have hget := congrArg (fun bs : List UInt8 => bs[k]?) htext
    simpa [bytesAt, hlt, hk] using hget
  rintro (hnone | hzero)
  · exact hq hnone
  · exact hp.text _ (List.getElem_mem hlt) (hbyte.symm.trans hzero)

theorem packedInto_singleton {a : Agent} {p : PendingLog} {i : Nat} {x : Agent × PendingLog}
    (hx : x ∈ packedInto i a [p]) : x = (a, p) := by
  simp only [packedInto] at hx
  split at hx
  · simp at hx
  · split_ifs at hx
    · simp at hx
    · simpa using hx
    · simp at hx

theorem not_batchRight_of_longer {a : Agent} {live : SegId → List Chain} {env : ServerEnv}
    {map : Int32 → Option TSLogShm} (ha : a.bReadAppTypeCount = 0)
    (hps : ∀ x ∈ [p, q], x.Ok) (happs : ∀ x ∈ [p, q], x.log.head.iAppId ∈ a.stAppConfigList)
    (h : PoolsInv a.vmem live) (howns : Owns live ([p, q].flatMap PendingLog.chains))
    (hserves : ∀ x ∈ [p, q], Serves env x.log.head.iAppId) (hmap : MapOk map)
    (hq : q.textChain ≠ none) (hfrom : logInfoSize + p.log.cust.length ≤ q.behind)
    (hto : q.behind < p.behind) :
    ∃ a', packLogs a [p, q] = some a' ∧ ¬ BatchRight env map a a' [p, q] := by
  obtain ⟨a', hrun, hpacked⟩ := packLogs_packed [p, q] hps happs h howns
  refine ⟨a', hrun, ?_⟩
  rw [hpacked.batchRight_iff ha hps hserves hmap]
  intro hclean
  obtain ⟨r, live', hread, hinv, howns', hlist, hstands, hout⟩ :=
    readAppLogToBuf_outcome (hps p (by simp)) (happs p (by simp)) h howns
  rcases hout with ⟨-, -, -, hfull⟩ | ⟨hret, k, hslot, hpacks⟩
  · simp [ha, MAX_APP_TYPE_READ_PER_EACH] at hfull
  obtain ⟨r', -, hread', -, -, -, -, hout'⟩ := readAppLogToBuf_outcome (hps q (by simp))
    (by rw [hlist]; exact happs q (by simp)) hinv howns'
  rcases hout' with ⟨-, -, -, hfull⟩ | ⟨hret', i, hslot', hpacks'⟩
  · have hle := hpacks.count_le
    simp only [MAX_APP_TYPE_READ_PER_EACH] at hfull
    omega
  have hend : a' = r'.agent := by
    simp only [packLogs, hread, hread', hret, hret', lt_irrefl, if_false, Option.some.injEq] at hrun
    exact hrun.symm
  have hmem : (r.agent, q) ∈ packedInto i a [p, q] := by
    simp only [packedInto, hread, hread', hret, hret', lt_irrefl, if_false, hslot', if_true]
    split_ifs <;> simp
  have hlt : i < a'.bReadAppTypeCount := by
    rw [hend]
    exact hpacks'.lt
  exact not_cleanBehind_of_longer (hps p (by simp)) hstands hq hfrom hto (hclean i hlt _ hmem)

section LongLogs

def logHead (iAppId : Int32) : LogHead := ⟨1, iAppId, 1, 1, 1, 0⟩

/-- A log of app 7 whose text is `n` bytes longer than the part in the ring;
those stand in the memory. -/
def longLog (b : UInt8) (n : Nat) (x : SegId × Chain) : PendingLog where
  log := ⟨logHead 7, [], List.replicate (frontSize + n) b⟩
  plog := ⟨logHead 7, 0, chainIndex x.1 x.2, List.replicate frontSize b ++ [0, 0, 0, 0]⟩
  env := ⟨uncontended, uncontended⟩
  custChain := none
  textChain := some x

theorem behind_longLog (b : UInt8) (n : Nat) (x : SegId × Chain) :
    (longLog b n x).behind = 282 + n := by
  simp only [PendingLog.behind, longLog, List.length_nil, List.length_replicate, logInfoSize,
    frontSize]
  omega

theorem longLog_ok {b : UInt8} {n : Nat} {x : SegId × Chain} (hb : b ≠ 0) (hn : n < 900)
    (hseg : x.1.2 < VMEM_SHM_COUNT) (hdata : x.2.data = List.replicate n b) :
    (longLog b n x).Ok where
  head := rfl
  app := show (7 : Int32) ≠ 0 by decide
  module := show (1 : Int32) ≠ 0 by decide
  seg := by
    intro y hy
    rw [show (longLog b n x).chains = [x] from rfl, List.mem_singleton] at hy
    rw [hy]
    exact hseg
  custNone := fun _ => ⟨le_refl _, rfl⟩
  custSome := by rintro y ⟨⟩
  textNone := by rintro ⟨⟩
  textSome := by
    rintro y ⟨⟩
    refine ⟨rfl, by simp [longLog], ?_⟩
    change List.replicate (frontSize + n) b =
      (List.replicate frontSize b ++ [0, 0, 0, 0]).take frontSize ++ x.2.data
    rw [List.take_left' List.length_replicate, hdata, List.replicate_append_replicate]
  text := by
    intro c hc
    rw [List.eq_of_mem_replicate hc]
    exact hb
  size := by
    simp only [longLog, List.length_nil, List.length_replicate, logInfoSize, frontSize,
      MAX_APP_LOG_PKG_LENGTH]
    omega

/-- The agent after its start, with app 7 configured. -/
def freshAgent (vmem : VmemPools) : Agent where
  sLogBuf := fun _ => 0
  bReadAppTypeCount := 0
  stAppLogRead := fun _ => ⟨0, [], 0⟩
  stAppConfigList := [7]
  vmem := vmem

/-- A server that serves every app itself. -/
def soleServer : ServerEnv where
  isLogFreqOver := fun _ _ => false
  getAppInfo := fun iAppId => some ⟨iAppId, 1⟩
  isIpMatchMachine := fun _ => 1
  getAppLogShm := fun info => some ⟨info.iAppId⟩
  tmNow := 0
  gettimeofday := fun _ => 0
  machineId := 3

theorem soleServer_serves (iAppId : Int32) : Serves soleServer iAppId where
  freq := fun _ _ => rfl
  app := ⟨⟨iAppId, 1⟩, rfl, rfl, rfl, ⟨iAppId⟩, rfl, rfl⟩

theorem mapOk_none : MapOk fun _ => none := by
  rintro id shm ⟨⟩

variable {live : SegId → List Chain} {pdata : List UInt8}

theorem saveToVmem_forty (hlen : pdata.length = 40) :
    ∃ s c, saveToVmem uncontended initVmem pdata =
        (chainIndex (.v32, 0) c, initVmem.setShm .v32 0 s) ∧ c.data = pdata ∧
      PoolsInv (initVmem.setShm .v32 0 s) (Function.update (fun _ => []) (.v32, 0) [c]) := by
  have hcas : uncontended.cas .v32 0 0 = true := rfl
  have hsome : 0 < pdata.length := by omega
  obtain ⟨s, c, hsave, hdata, hinv⟩ := saveDataToVmem_stored initVmem_inv hsome
    (by rw [hlen]; decide) hcas (by rw [hlen]; decide)
  refine ⟨s, c, ?_, hdata, hinv⟩
  have hpos := chainIndex_pos (.v32, 0) c
  generalize initVmem.setShm .v32 0 s = q at hsave
  simp [saveToVmem, initVmem_inv.init, VMEM_MAX_DATA_LEN, tryBest, tryRest, VmemType.len, hlen,
    hsave, not_lt.mpr hpos.le]

theorem saveToVmem_five {s : VmemSegment}
    (h : PoolsInv (initVmem.setShm .v32 0 s) live) (hlen : pdata.length = 5) :
    ∃ p c, saveToVmem uncontended (initVmem.setShm .v32 0 s) pdata =
        (chainIndex (.v16, 0) c, p) ∧ c.data = pdata ∧
      PoolsInv p (Function.update live (.v16, 0) (c :: live (.v16, 0))) := by
  have hcas : uncontended.cas .v16 0 0 = true := rfl
  have hsome : 0 < pdata.length := by omega
  have hother : (initVmem.setShm .v32 0 s).shm .v16 0 = initVmem.shm .v16 0 :=
    shm_setShm_of_ne (g := (.v16, 0)) (by simp) s
  obtain ⟨s', c, hsave, hdata, hinv⟩ := saveDataToVmem_stored h hsome
    (by rw [hlen]; decide) hcas (by rw [hother, hlen]; decide)
  refine ⟨(initVmem.setShm .v32 0 s).setShm .v16 0 s', c, ?_, hdata, hinv⟩
  have hpos := chainIndex_pos (.v16, 0) c
  have hinit := h.init
  generalize (initVmem.setShm .v32 0 s).setShm .v16 0 s' = q at hsave
  generalize initVmem.setShm .v32 0 s = p at hsave hinit
  simp [saveToVmem, hinit, VMEM_MAX_DATA_LEN, tryBest, tryRest, VmemType.len, hlen, hsave,
    not_lt.mpr hpos.le]

theorem owns_longLog {b : UInt8} {n : Nat} {g : SegId} {c : Chain}
    {ps : List PendingLog} (h : Owns live (ps.flatMap PendingLog.chains)) (hnew : live g = []) :
    Owns (Function.update live g (c :: live g))
      ((longLog b n (g, c) :: ps).flatMap PendingLog.chains) := by
  intro y
  have hy := h y
  rw [List.flatMap_cons, show (longLog b n (g, c)).chains = [(g, c)] from rfl,
    List.singleton_append, List.count_cons]
  by_cases hg : y.1 = g
  · have hzero : List.count y (ps.flatMap PendingLog.chains) = 0 := by
      rw [hg, hnew] at hy
      simpa using hy
    rw [hzero, hg, Function.update_self, hnew, List.count_singleton]
    by_cases hc : y = (g, c)
    · subst hc
      simp
    · have hne : ((g, c) == y) = false := by simpa using fun heq => hc heq.symm
      simp [hne]
  · have hne : ((g, c) == y) = false := by
      simp only [beq_eq_false_iff_ne, ne_eq]
      rintro rfl
      exact hg rfl
    rw [Function.update_of_ne hg, hne]
    exact hy

/-- One long log after the start comes through. -/
theorem batch_transfer_iff_longLog :
    ∃ x vmem a', saveToVmem uncontended initVmem (List.replicate 40 97) =
        (chainIndex x.1 x.2, vmem) ∧
      packLogs (freshAgent vmem) [longLog 97 40 x] = some a' ∧
      BatchRight soleServer (fun _ => none) (freshAgent vmem) a' [longLog 97 40 x] := by
  have hlen : (List.replicate 40 (97 : UInt8)).length = 40 := List.length_replicate
  obtain ⟨s, c, hsave, hdata, hinv⟩ := saveToVmem_forty hlen
  have hok : (longLog 97 40 ((.v32, 0), c)).Ok :=
    longLog_ok (by decide) (by decide) (Nat.zero_lt_succ _) hdata
  have hone : ∀ {P : PendingLog → Prop}, P (longLog 97 40 ((.v32, 0), c)) →
      ∀ p ∈ [longLog 97 40 ((.v32, 0), c)], P p := by
    intro P hP p hp
    rwa [List.mem_singleton.mp hp]
  have howns : Owns (fun _ => []) (([] : List PendingLog).flatMap PendingLog.chains) :=
    fun _ => Nat.zero_le _
  obtain ⟨a', hrun, hiff⟩ := batch_transfer_iff (a := freshAgent (initVmem.setShm .v32 0 s))
    [longLog 97 40 ((.v32, 0), c)] rfl (hone hok) (hone (List.mem_singleton.mpr rfl)) hinv
    (owns_longLog howns rfl) (hone (soleServer_serves 7)) mapOk_none
  refine ⟨((.v32, 0), c), _, a', hsave, hrun, hiff.mpr ?_⟩
  intro i _ x hx
  rw [packedInto_singleton hx]
  exact Or.inr rfl

/-- The text of 257 bytes behind the one of 292 comes through with a byte of
the other. -/
theorem stale_byte_transferred :
    ∃ x₁ x₂ vmem₁ vmem a',
      saveToVmem uncontended initVmem (List.replicate 40 97) = (chainIndex x₁.1 x₁.2, vmem₁) ∧
      saveToVmem uncontended vmem₁ (List.replicate 5 98) = (chainIndex x₂.1 x₂.2, vmem) ∧
      packLogs (freshAgent vmem) [longLog 97 40 x₁, longLog 98 5 x₂] = some a' ∧
      ¬ BatchRight soleServer (fun _ => none) (freshAgent vmem) a'
        [longLog 97 40 x₁, longLog 98 5 x₂] := by
  have hlen₁ : (List.replicate 40 (97 : UInt8)).length = 40 := List.length_replicate
  have hlen₂ : (List.replicate 5 (98 : UInt8)).length = 5 := List.length_replicate
  obtain ⟨s, c₁, hsave₁, hdata₁, hinv₁⟩ := saveToVmem_forty hlen₁
  obtain ⟨vmem, c₂, hsave₂, hdata₂, hinv⟩ := saveToVmem_five hinv₁ hlen₂
  let p₁ := longLog 97 40 ((.v32, 0), c₁)
  let p₂ := longLog 98 5 ((.v16, 0), c₂)
  have hok₁ : p₁.Ok := longLog_ok (by decide) (by decide) (Nat.zero_lt_succ _) hdata₁
  have hok₂ : p₂.Ok := longLog_ok (by decide) (by decide) (Nat.zero_lt_succ _) hdata₂
  have hbase : Owns (fun _ => []) (([] : List PendingLog).flatMap PendingLog.chains) :=
    fun _ => Nat.zero_le _
  let live₁ : SegId → List Chain := Function.update (fun _ => []) (.v32, 0) [c₁]
  have howns₁ : Owns live₁ ([p₁].flatMap PendingLog.chains) := owns_longLog hbase rfl
  have howns : Owns (Function.update live₁ (.v16, 0) (c₂ :: live₁ (.v16, 0)))
      ([p₁, p₂].flatMap PendingLog.chains) := by
    intro y
    have hy := owns_longLog (b := 98) (n := 5) (c := c₂) (g := (.v16, 0)) howns₁ rfl y
    rw [show [p₁, p₂].flatMap PendingLog.chains = [((VmemType.v32, 0), c₁), ((VmemType.v16, 0), c₂)]
      from rfl, (List.Perm.swap _ _ _).count_eq]
    exact hy
  have hboth : ∀ {P : PendingLog → Prop}, P p₁ → P p₂ → ∀ p ∈ [p₁, p₂], P p := by
    intro P h₁ h₂ p hp
    simp only [List.mem_cons, List.not_mem_nil, or_false] at hp
    rcases hp with rfl | rfl
    · exact h₁
    · exact h₂
  have happ : (7 : Int32) ∈ (freshAgent vmem).stAppConfigList := List.mem_singleton.mpr rfl
  obtain ⟨a', hrun, hwrong⟩ := not_batchRight_of_longer (a := freshAgent vmem) rfl
    (hboth hok₁ hok₂) (hboth happ happ) hinv howns
    (hboth (soleServer_serves 7) (soleServer_serves 7)) mapOk_none (by rintro ⟨⟩)
    (by rw [behind_longLog]; exact (by decide : 30 + 0 ≤ 282 + 5))
    (by rw [behind_longLog, behind_longLog]; decide)
  exact ⟨((.v32, 0), c₁), ((.v16, 0), c₂), _, vmem, a', hsave₁, hsave₂, hrun, hwrong⟩

end LongLogs

end XrkMonitor.LogBatch
