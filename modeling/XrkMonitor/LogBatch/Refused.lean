import XrkMonitor.LogBatch.Transfer

/-!
# Logs that find no room

`ReadAppLogToBuf` builds the record of a log before it looks for room, and frees the strings of the
log while it does. A log that is refused then has lost what stood in the variable-length memory, and
the next call packs what is left in its cell.

## Implementation notes

`Remnant` is a log whose strings are gone: its index for the text is zero, which names no string.
The flush is the one line that empties the app buffers.
-/

namespace XrkMonitor.LogBatch

open Library Vmem

section Room

variable {a : Agent} {plog : MTLog} {record : List UInt8} {r : PackResult} {iAppId : Int32}
  {iUseBufLen i : Nat}

/-- An app buffer is left, or one of the app has room. -/
def HasRoom (a : Agent) (iAppId : Int32) (iUseBufLen : Nat) : Prop :=
  a.bReadAppTypeCount < MAX_APP_TYPE_READ_PER_EACH ∨
    ∃ i < a.bReadAppTypeCount, (a.stAppLogRead i).iReadAppId = iAppId ∧
      iUseBufLen ≤ MAX_APP_LOG_PKG_LENGTH - (a.stAppLogRead i).sAppLogBuf.length

theorem findAppLogRead_eq_none_iff : findAppLogRead a iAppId iUseBufLen = none ↔
    ¬ ∃ i < a.bReadAppTypeCount, (a.stAppLogRead i).iReadAppId = iAppId ∧
      iUseBufLen ≤ MAX_APP_LOG_PKG_LENGTH - (a.stAppLogRead i).sAppLogBuf.length := by
  unfold findAppLogRead
  rw [List.find?_eq_none]
  simp only [List.mem_range, Bool.and_eq_true, beq_iff_eq, decide_eq_true_eq, not_exists, not_and]

theorem putRecord_of_noRoom (h : ¬ HasRoom a plog.head.iAppId record.length) :
    putRecord a plog record = some ⟨-1, none, plog, a⟩ := by
  obtain ⟨hfull, hnone⟩ := not_or.mp h
  rw [putRecord, findAppLogRead_eq_none_iff.mpr hnone]
  dsimp only
  rw [if_pos (Nat.not_lt.mp hfull)]

theorem not_hasRoom_of_refused (h : putRecord a plog record = some r) (hret : r.iRet = -1) :
    ¬ HasRoom a plog.head.iAppId record.length := by
  unfold putRecord at h
  cases hfind : findAppLogRead a plog.head.iAppId record.length with
  | some i =>
    rw [hfind] at h
    rw [← Option.some.inj h] at hret
    cases hret
  | none =>
    rw [hfind] at h
    dsimp only at h
    by_cases hfull : MAX_APP_TYPE_READ_PER_EACH ≤ a.bReadAppTypeCount
    · rintro (hlt | hroom)
      · omega
      · exact findAppLogRead_eq_none_iff.mp hfind hroom
    · rw [if_neg hfull] at h
      by_cases hlen : record.length < MAX_APP_LOG_PKG_LENGTH
      · rw [if_pos hlen] at h
        cases hidx : a.stAppConfigList.idxOf? plog.head.iAppId with
        | some idx =>
          rw [hidx] at h
          rw [← Option.some.inj h] at hret
          cases hret
        | none =>
          rw [hidx] at h
          rw [← Option.some.inj h] at hret
          cases hret
      · rw [if_neg hlen] at h
        cases h

theorem app_mem_of_slot (hcount : a.bReadAppTypeCount = 0)
    (h : putRecord a plog record = some r) (hslot : r.slot = some i) :
    plog.head.iAppId ∈ a.stAppConfigList := by
  have hfind : findAppLogRead a plog.head.iAppId record.length = none := by
    rw [findAppLogRead_eq_none_iff, hcount]
    rintro ⟨i, hi, -⟩
    exact Nat.not_lt_zero i hi
  have hroom : ¬ MAX_APP_TYPE_READ_PER_EACH ≤ a.bReadAppTypeCount := by
    rw [hcount]
    decide
  unfold putRecord at h
  rw [hfind] at h
  dsimp only at h
  rw [if_neg hroom] at h
  by_cases hlen : record.length < MAX_APP_LOG_PKG_LENGTH
  · rw [if_pos hlen] at h
    cases hidx : a.stAppConfigList.idxOf? plog.head.iAppId with
    | some idx => exact List.isSome_idxOf?.mp (by rw [hidx]; rfl)
    | none =>
      rw [hidx] at h
      rw [← Option.some.inj h] at hslot
      cases hslot
  · rw [if_neg hlen] at h
    cases h

end Room

section Parts

variable {env : PackEnv} {a : Agent} {plog : MTLog} {r : PackResult} {sLogBuf : Nat → UInt8}
  {vmem : VmemPools}

theorem readAppLogToBuf_some (h : readAppLogToBuf env a plog = some r) :
    ∃ c t sLogBuf record,
      copyCust env.cust a.vmem (writeAt a.sLogBuf 0 (headBytes plog.head)) plog.iCustVmemIndex =
        some c ∧
      copyText env.text c.vmem (writeAt c.sLogBuf 26 (toBytes 2 c.len)) (logInfoSize + c.len) plog =
        some t ∧
      putRecord { a with sLogBuf := sLogBuf, vmem := t.vmem }
        { plog with iCustVmemIndex := c.index, iVarmemIndex := t.index } record = some r := by
  unfold readAppLogToBuf at h
  split_ifs at h
  obtain ⟨c, hcust, h⟩ := Option.bind_eq_some_iff.mp h
  obtain ⟨t, htext, h⟩ := Option.bind_eq_some_iff.mp h
  exact ⟨c, t, _, _, hcust, htext, h⟩

theorem putRecord_plog {record : List UInt8} (h : putRecord a plog record = some r) :
    r.plog = plog := by
  unfold putRecord at h
  split at h
  · rw [← Option.some.inj h]
  · split_ifs at h
    · rw [← Option.some.inj h]
    · split at h
      · rw [← Option.some.inj h]
      · rw [← Option.some.inj h]

theorem index_of_copyText {env : VmemEnv} {pbuf : Nat}
    {t : PartState} (h : copyText env vmem sLogBuf pbuf plog = some t)
    (hidx : 0 ≤ plog.iVarmemIndex) : t.index = 0 := by
  rw [copyText, if_neg (Int.not_lt.mpr hidx)] at h
  obtain ⟨x, -, h⟩ := Option.bind_eq_some_iff.mp h
  obtain ⟨f, -, h⟩ := Option.map_eq_some_iff.mp h
  rw [← h]

theorem index_of_copyCust {env : VmemEnv} {idx : Int}
    {c : PartState} {data : List UInt8} (h : copyCust env vmem sLogBuf idx = some c)
    (hidx : 0 < idx) (hget : getFromVmem vmem idx (sLogBufSize - logInfoSize) = some (0, data)) :
    c.index = 0 := by
  rw [copyCust, if_pos hidx, hget, Option.bind_some] at h
  dsimp only at h
  rw [if_pos (le_refl 0)] at h
  obtain ⟨f, -, h⟩ := Option.map_eq_some_iff.mp h
  rw [← h]

theorem getFromVmem_zero (vmem : VmemPools) (iBufLen : Int) :
    ∃ e, getFromVmem vmem 0 iBufLen = some (e, []) ∧ e < 0 := by
  unfold getFromVmem
  by_cases hinit : vmem.cIsInit = true
  · refine ⟨-3, ?_, by decide⟩
    rw [hinit]
    rfl
  · refine ⟨-101, ?_, by decide⟩
    rw [Bool.not_eq_true] at hinit
    rw [hinit]
    rfl

theorem freeVmem_zero (env : VmemEnv) (vmem : VmemPools) :
    ∃ e, freeVmem env vmem 0 = some (e, vmem) := by
  unfold freeVmem
  by_cases hinit : vmem.cIsInit = true
  · refine ⟨-3, ?_⟩
    rw [hinit]
    rfl
  · refine ⟨-101, ?_⟩
    rw [Bool.not_eq_true] at hinit
    rw [hinit]
    rfl

end Parts

section Plain

variable {env : PackEnv} {a : Agent} {plog : MTLog} {content : List UInt8}

/-- A log without strings keeps the memory and its cell. -/
theorem readAppLogToBuf_plain (hids : ¬ (plog.head.iAppId = 0 ∨ plog.head.iModuleId = 0))
    (hcust : plog.iCustVmemIndex ≤ 0)
    (htext : ∀ sLogBuf, copyText env.text a.vmem sLogBuf logInfoSize plog =
      some ⟨content.length, plog.iVarmemIndex, writeAt sLogBuf logInfoSize content, a.vmem⟩) :
    ∃ sLogBuf, readAppLogToBuf env a plog =
      putRecord { a with sLogBuf := sLogBuf } plog (LogRecord.bytes ⟨plog.head, [], content⟩) := by
  let buf₀ := writeAt a.sLogBuf 0 (headBytes plog.head)
  let buf₁ := writeAt buf₀ 26 (toBytes 2 0)
  let buf₂ := writeAt buf₁ logInfoSize content
  let buf₃ := writeAt buf₂ 28 (toBytes 2 content.length)
  have hsize : logInfoSize = 30 := rfl
  have hstand : Stands buf₃ 0 (LogRecord.bytes ⟨plog.head, [], content⟩) := by
    refine stands_append.mpr ⟨?_, stands_append.mpr ⟨?_, stands_append.mpr ⟨?_, ?_⟩⟩⟩
    · refine (((stands_writeAt _ _ _).writeAt (Or.inl ?_)).writeAt (Or.inl ?_)).writeAt (Or.inl ?_)
      · rw [length_headBytes]
      · rw [length_headBytes, hsize]
        decide
      · rw [length_headBytes]
        decide
    · rw [length_headBytes]
      refine ((stands_writeAt buf₀ 26 _).writeAt (Or.inl ?_)).writeAt (Or.inl ?_)
      · rw [length_toBytes, hsize]
        decide
      · rw [length_toBytes]
    · rw [length_headBytes, length_toBytes]
      exact stands_writeAt _ _ _
    · rw [length_headBytes, length_toBytes, length_toBytes, List.nil_append]
      refine (stands_writeAt buf₁ logInfoSize content).writeAt (Or.inr ?_)
      rw [length_toBytes, hsize]
  have hrecord : bytesAt buf₃ 0 (logInfoSize + 0 + content.length) =
      LogRecord.bytes ⟨plog.head, [], content⟩ := by
    rw [Stands, LogRecord.length_bytes] at hstand
    exact hstand
  refine ⟨buf₃, ?_⟩
  rw [readAppLogToBuf, if_neg hids]
  dsimp only
  rw [copyCust, if_neg (Int.not_lt.mpr hcust), Option.bind_some]
  dsimp only
  rw [Nat.add_zero, htext, Option.bind_some]
  dsimp only
  rw [← hrecord]
  rfl

theorem copyText_inline (env : VmemEnv) (vmem : VmemPools) (sLogBuf : Nat → UInt8) {pbuf : Nat}
    (hidx : plog.iVarmemIndex < 0) {text rest : List UInt8} (hne : ∀ b ∈ text, b ≠ 0)
    (hcontent : plog.sLogContent = text ++ 0 :: rest) :
    copyText env vmem sLogBuf pbuf plog = some ⟨(text ++ [0]).length, plog.iVarmemIndex,
      writeAt sLogBuf pbuf (text ++ [0]), vmem⟩ := by
  have hmem : (0 : UInt8) ∈ plog.sLogContent := by
    rw [hcontent]
    exact List.mem_append_right _ List.mem_cons_self
  have hstr : cstr plog.sLogContent = text := by
    rw [hcontent]
    exact cstr_append_nul hne rest
  rw [copyText, if_pos hidx, if_pos hmem, hstr, List.length_append, List.length_singleton]

theorem copyText_gone (env : VmemEnv) (vmem : VmemPools) (sLogBuf : Nat → UInt8) {pbuf : Nat}
    (hidx : plog.iVarmemIndex = 0) (hlen : frontSize ≤ plog.sLogContent.length) :
    copyText env vmem sLogBuf pbuf plog = some ⟨(plog.sLogContent.take frontSize).length,
      plog.iVarmemIndex, writeAt sLogBuf pbuf (plog.sLogContent.take frontSize), vmem⟩ := by
  obtain ⟨e, hget, hneg⟩ := getFromVmem_zero vmem (sLogBufSize - pbuf - frontSize - 1)
  obtain ⟨e', hfree⟩ := freeVmem_zero env vmem
  rw [copyText, hidx, if_neg (lt_irrefl 0)]
  dsimp only
  rw [hget, Option.bind_some]
  dsimp only
  rw [hfree, Option.map_some, if_neg (Int.not_le.mpr hneg), writeAt_nil, List.length_take,
    Nat.min_eq_left hlen]

end Plain

section Claimed

variable {a : Agent} {p : PendingLog} {live : SegId → List Chain}

/-- What a refused call leaves of a log whose text was continued in the memory. -/
structure PendingLog.Remnant (p : PendingLog) : Prop where
  head : p.plog.head = p.log.head
  app : p.log.head.iAppId ≠ 0
  module : p.log.head.iModuleId ≠ 0
  chains : p.chains = []
  cust : p.plog.iCustVmemIndex ≤ 0 ∧ p.log.cust = []
  index : p.plog.iVarmemIndex = 0
  text : frontSize ≤ p.plog.sLogContent.length ∧
    p.log.text = p.plog.sLogContent.take frontSize

/-- The bytes that the record of a log takes: there is one behind the text, unless the text has lost
its end. -/
def PendingLog.size (p : PendingLog) : Nat :=
  logInfoSize + p.log.cust.length + p.log.text.length + if p.plog.iVarmemIndex = 0 then 0 else 1

/-- The app buffers after they were sent. -/
def flush (a : Agent) : Agent := { a with bReadAppTypeCount := 0 }

/-- A call puts the whole log into an app buffer. -/
def EmitsLog (env : PackEnv) (a : Agent) (plog : MTLog) (log : AppLog) : Prop :=
  ∃ r i tail, readAppLogToBuf env a plog = some r ∧ r.iRet = 0 ∧ r.slot = some i ∧
    tail.length ≤ 1 ∧ appBuf r.agent i =
      appBuf a i ++ LogRecord.bytes ⟨log.head, log.cust, log.text ++ tail⟩

/-- A refused log keeps its cell and its strings, the app buffers are unchanged, and the call after
a flush emits the whole log. -/
def KeepsRefused (a : Agent) (p : PendingLog) : Prop :=
  ∀ r, readAppLogToBuf p.env a p.plog = some r → r.iRet = -1 →
    r.plog = p.plog ∧ r.agent.vmem = a.vmem ∧ r.agent.stAppLogRead = a.stAppLogRead ∧
      r.agent.bReadAppTypeCount = a.bReadAppTypeCount ∧
      ∀ env, EmitsLog env (flush r.agent) r.plog p.log

theorem PendingLog.ids_ne (hp : p.Ok ∨ p.Remnant) :
    ¬ (p.plog.head.iAppId = 0 ∨ p.plog.head.iModuleId = 0) := by
  rcases hp with hp | hp
  · rw [hp.head, not_or]
    exact ⟨hp.app, hp.module⟩
  · rw [hp.head, not_or]
    exact ⟨hp.app, hp.module⟩

theorem PendingLog.head_eq (hp : p.Ok ∨ p.Remnant) : p.plog.head = p.log.head := by
  rcases hp with hp | hp
  · exact hp.head
  · exact hp.head

theorem PendingLog.Ok.index_ne_zero (hp : p.Ok) : p.plog.iVarmemIndex ≠ 0 := by
  cases htext : p.textChain with
  | none =>
    have hneg := (hp.textNone htext).1
    omega
  | some x =>
    have hpos := chainIndex_pos x.1 x.2
    rw [(hp.textSome x htext).1]
    omega

theorem readAppLogToBuf_bare (hp : p.Ok ∨ p.Remnant) (hbare : p.chains = []) (env : PackEnv)
    (a : Agent) :
    ∃ sLogBuf tail, readAppLogToBuf env a p.plog = putRecord { a with sLogBuf := sLogBuf } p.plog
        (LogRecord.bytes ⟨p.log.head, p.log.cust, p.log.text ++ tail⟩) ∧
      tail.length = if p.plog.iVarmemIndex = 0 then 0 else 1 := by
  have hids := PendingLog.ids_ne hp
  have hhead := PendingLog.head_eq hp
  rcases hp with hp | hp
  · obtain ⟨hcust, htext⟩ := List.append_eq_nil_iff.mp hbare
    rw [Option.toList_eq_nil_iff] at hcust htext
    obtain ⟨hidx, hnil⟩ := hp.custNone hcust
    obtain ⟨hneg, rest, hcontent⟩ := hp.textNone htext
    obtain ⟨sLogBuf, hcall⟩ := readAppLogToBuf_plain (a := a) hids hidx fun buf =>
      copyText_inline env.text a.vmem buf hneg hp.text hcontent
    refine ⟨sLogBuf, [0], ?_, ?_⟩
    · rw [hcall, hhead, hnil]
    · rw [if_neg hp.index_ne_zero, List.length_singleton]
  · obtain ⟨hidx, hnil⟩ := hp.cust
    obtain ⟨hlen, htext⟩ := hp.text
    obtain ⟨sLogBuf, hcall⟩ := readAppLogToBuf_plain (a := a) hids hidx fun buf =>
      copyText_gone env.text a.vmem buf hp.index hlen
    refine ⟨sLogBuf, [], ?_, ?_⟩
    · rw [hcall, hhead, hnil, htext, List.append_nil]
    · rw [if_pos hp.index, List.length_nil]

theorem readAppLogToBuf_put (hp : p.Ok ∨ p.Remnant) (h : PoolsInv a.vmem live)
    (howns : Owns live p.chains) :
    ∃ sLogBuf vmem plog record, readAppLogToBuf p.env a p.plog =
        putRecord { a with sLogBuf := sLogBuf, vmem := vmem } plog record ∧
      plog.head = p.log.head ∧ record.length = p.size := by
  by_cases hbare : p.chains = []
  · obtain ⟨sLogBuf, tail, hcall, htail⟩ := readAppLogToBuf_bare hp hbare p.env a
    refine ⟨sLogBuf, a.vmem, p.plog, _, hcall, PendingLog.head_eq hp, ?_⟩
    rw [LogRecord.length_bytes, List.length_append, htail, PendingLog.size, ← Nat.add_assoc]
  · rcases hp with hp | hp
    · have howns' : Owns live (p.chains ++ []) := by rwa [List.append_nil]
      obtain ⟨sLogBuf, vmem, live', plog, hcall, -, hhead, -⟩ := readAppLogToBuf_eq hp h howns'
      refine ⟨sLogBuf, vmem, plog, _, hcall, hhead, ?_⟩
      rw [p.length_record a, PendingLog.size, if_neg hp.index_ne_zero]
      omega
    · exact absurd hp.chains hbare

theorem refused_iff (hp : p.Ok ∨ p.Remnant) (h : PoolsInv a.vmem live)
    (howns : Owns live p.chains) :
    (∃ r, readAppLogToBuf p.env a p.plog = some r ∧ r.iRet = -1) ↔
      ¬ HasRoom a p.log.head.iAppId p.size := by
  obtain ⟨sLogBuf, vmem, plog, record, hcall, hhead, hlen⟩ := readAppLogToBuf_put hp h howns
  rw [hcall, ← hhead, ← hlen]
  constructor
  · rintro ⟨r, hput, hret⟩
    have hfull := not_hasRoom_of_refused hput hret
    exact hfull
  · intro hroom
    exact ⟨_, putRecord_of_noRoom hroom, rfl⟩

/-- A log with a string in the memory does not keep its cell. -/
theorem plog_ne_of_strings {r : PackResult} (hp : p.Ok) (h : PoolsInv a.vmem live)
    (howns : Owns live p.chains) (hstrings : p.chains ≠ [])
    (hcall : readAppLogToBuf p.env a p.plog = some r) : r.plog ≠ p.plog := by
  obtain ⟨c, t, sLogBuf, record, hcust, htext, hput⟩ := readAppLogToBuf_some hcall
  have hplog := putRecord_plog hput
  cases htextChain : p.textChain with
  | some x =>
    have hpos := chainIndex_pos x.1 x.2
    have hidx := (hp.textSome x htextChain).1
    have hzero := index_of_copyText htext (by omega)
    intro hsame
    have hboth := congrArg MTLog.iVarmemIndex (hplog.symm.trans hsame)
    dsimp only at hboth
    omega
  | none =>
    cases hcustChain : p.custChain with
    | none =>
      refine absurd ?_ hstrings
      rw [PendingLog.chains, hcustChain, htextChain]
      rfl
    | some x =>
      have hpos := chainIndex_pos x.1 x.2
      obtain ⟨hidx, hdata⟩ := hp.custSome x hcustChain
      have hchains : p.chains = [x] := by
        rw [PendingLog.chains, hcustChain, htextChain]
        rfl
      rw [hchains] at howns
      have hsize := hp.size
      rw [hdata] at hsize
      have hfits : (x.2.data.length : Int) ≤ (sLogBufSize : Int) - logInfoSize := by
        unfold MAX_APP_LOG_PKG_LENGTH at hsize
        unfold sLogBufSize
        omega
      have hmem : x ∈ p.chains := by
        rw [hchains]
        exact List.mem_singleton.mpr rfl
      have hget := (howns.take h (hp.seg x hmem) p.env.cust hfits).1
      have hzero := index_of_copyCust hcust (by omega) (hidx ▸ hget)
      intro hsame
      have hboth := congrArg MTLog.iCustVmemIndex (hplog.symm.trans hsame)
      dsimp only at hboth
      omega

theorem keepsRefused_of_room (hp : p.Ok ∨ p.Remnant) (h : PoolsInv a.vmem live)
    (howns : Owns live p.chains) (hroom : HasRoom a p.log.head.iAppId p.size) :
    KeepsRefused a p := by
  intro r hcall hret
  exact absurd hroom ((refused_iff hp h howns).mp ⟨r, hcall, hret⟩)

theorem PendingLog.size_lt (hp : p.Ok ∨ p.Remnant) : p.size < MAX_APP_LOG_PKG_LENGTH := by
  rcases hp with hp | hp
  · have hsize := hp.size
    rw [PendingLog.size, if_neg hp.index_ne_zero]
    exact hsize
  · rw [PendingLog.size, if_pos hp.index, hp.cust.2, hp.text.2, List.length_take,
      Nat.min_eq_left hp.text.1]
    decide

theorem emitsLog_bare (hp : p.Ok ∨ p.Remnant) (hbare : p.chains = [])
    (happ : p.log.head.iAppId ∈ a.stAppConfigList) (hcount : a.bReadAppTypeCount = 0)
    (env : PackEnv) : EmitsLog env a p.plog p.log := by
  obtain ⟨sLogBuf, tail, hcall, htail⟩ := readAppLogToBuf_bare hp hbare env a
  have hlen : (LogRecord.bytes ⟨p.log.head, p.log.cust, p.log.text ++ tail⟩).length <
      MAX_APP_LOG_PKG_LENGTH := by
    have hsize := PendingLog.size_lt hp
    rw [PendingLog.size, ← htail] at hsize
    rw [LogRecord.length_bytes, List.length_append, ← Nat.add_assoc]
    exact hsize
  have hmem : p.plog.head.iAppId ∈
      ({ a with sLogBuf := sLogBuf } : Agent).stAppConfigList := by
    rw [PendingLog.head_eq hp]
    exact happ
  obtain ⟨r, hput, -, -, -, hout⟩ := putRecord_outcome hlen hmem
  rcases hout with ⟨-, -, hfull⟩ | ⟨hret, i, hslot, hpacks⟩
  · dsimp only at hfull
    rw [hcount] at hfull
    exact absurd hfull (by decide)
  · refine ⟨r, i, tail, hcall.trans hput, hret, hslot, ?_, ?_⟩
    · rw [htail]
      split <;> omega
    · have hbuf := hpacks.buf i
      rw [if_pos rfl] at hbuf
      exact hbuf

theorem keepsRefused_of_bare (hp : p.Ok ∨ p.Remnant) (hbare : p.chains = [])
    (happ : p.log.head.iAppId ∈ a.stAppConfigList) : KeepsRefused a p := by
  intro r hcall hret
  obtain ⟨sLogBuf, tail, heq, -⟩ := readAppLogToBuf_bare hp hbare p.env a
  rw [heq] at hcall
  have hroom := not_hasRoom_of_refused hcall hret
  rw [putRecord_of_noRoom hroom] at hcall
  obtain rfl := Option.some.inj hcall
  refine ⟨rfl, rfl, rfl, rfl, ?_⟩
  intro env
  have happ' : p.log.head.iAppId ∈ (flush { a with sLogBuf := sLogBuf }).stAppConfigList := happ
  exact emitsLog_bare hp hbare happ' rfl env

theorem not_keepsRefused_of_unknown (hp : p.Ok ∨ p.Remnant) (hbare : p.chains = [])
    (h : PoolsInv a.vmem live) (howns : Owns live p.chains)
    (hroom : ¬ HasRoom a p.log.head.iAppId p.size)
    (happ : p.log.head.iAppId ∉ a.stAppConfigList) : ¬ KeepsRefused a p := by
  intro hkeeps
  obtain ⟨r, hcall, hret⟩ := (refused_iff hp h howns).mpr hroom
  obtain ⟨hplog, -, -, -, hemits⟩ := hkeeps r hcall hret
  obtain ⟨r', i, -, hcall', -, hslot, -⟩ := hemits p.env
  obtain ⟨sLogBuf, tail, heq, -⟩ := readAppLogToBuf_bare hp hbare p.env a
  rw [heq] at hcall
  rw [putRecord_of_noRoom (not_hasRoom_of_refused hcall hret)] at hcall
  obtain rfl := Option.some.inj hcall
  obtain ⟨sLogBuf', tail', heq', -⟩ := readAppLogToBuf_bare hp hbare p.env
    (flush { a with sLogBuf := sLogBuf })
  have hput := heq'.symm.trans hcall'
  have hmem := app_mem_of_slot rfl hput hslot
  rw [PendingLog.head_eq hp] at hmem
  exact happ hmem

theorem not_keepsRefused_of_strings (hp : p.Ok) (h : PoolsInv a.vmem live)
    (howns : Owns live p.chains) (hroom : ¬ HasRoom a p.log.head.iAppId p.size)
    (hstrings : p.chains ≠ []) : ¬ KeepsRefused a p := by
  intro hkeeps
  obtain ⟨r, hcall, hret⟩ := (refused_iff (Or.inl hp) h howns).mpr hroom
  exact plog_ne_of_strings hp h howns hstrings hcall (hkeeps r hcall hret).1

/-- For every log and every filling of the app buffers: a refused log keeps its data, and the next
call emits it, exactly when there is room for it, or it has no string in the memory and its app is
configured. -/
theorem refused_keeps_iff (a : Agent) (p : PendingLog) (live : SegId → List Chain)
    (hp : p.Ok ∨ p.Remnant) (h : PoolsInv a.vmem live) (howns : Owns live p.chains) :
    KeepsRefused a p ↔ HasRoom a p.log.head.iAppId p.size ∨
      (p.chains = [] ∧ p.log.head.iAppId ∈ a.stAppConfigList) := by
  constructor
  · intro hkeeps
    by_contra hno
    obtain ⟨hroom, hrest⟩ := not_or.mp hno
    by_cases hbare : p.chains = []
    · exact not_keepsRefused_of_unknown hp hbare h howns hroom (fun happ => hrest ⟨hbare, happ⟩)
        hkeeps
    · rcases hp with hp | hp
      · exact not_keepsRefused_of_strings hp h howns hroom hbare hkeeps
      · exact hbare hp.chains
  · rintro (hroom | ⟨hbare, happ⟩)
    · exact keepsRefused_of_room hp h howns hroom
    · exact keepsRefused_of_bare hp hbare happ

end Claimed

section Examples

/-- The app buffers are taken by apps 8 to 17. -/
def fullAgent (vmem : VmemPools) : Agent where
  sLogBuf := fun _ => 0
  bReadAppTypeCount := MAX_APP_TYPE_READ_PER_EACH
  stAppLogRead := fun i => ⟨Int32.ofNat (i + 8), List.replicate 100 0, i + 1⟩
  stAppConfigList := [7, 8, 9, 10, 11, 12, 13, 14, 15, 16, 17]
  vmem := vmem

theorem not_hasRoom_fullAgent (vmem : VmemPools) (iUseBufLen : Nat) :
    ¬ HasRoom (fullAgent vmem) 7 iUseBufLen := by
  rintro (hlt | ⟨i, hi, happ, -⟩)
  · exact absurd hlt (lt_irrefl _)
  · have hother : ∀ i < MAX_APP_TYPE_READ_PER_EACH, Int32.ofNat (i + 8) ≠ 7 := by decide
    exact hother i hi happ

/-- A log of app 7 whose text is one letter. -/
def shortLog : PendingLog where
  log := ⟨logHead 7, [], [97]⟩
  plog := ⟨logHead 7, 0, -1, [97, 0]⟩
  env := ⟨uncontended, uncontended⟩
  custChain := none
  textChain := none

theorem shortLog_ok : shortLog.Ok where
  head := rfl
  app := show (7 : Int32) ≠ 0 by decide
  module := show (1 : Int32) ≠ 0 by decide
  seg := by rintro x ⟨⟩
  custNone := fun _ => ⟨le_refl _, rfl⟩
  custSome := by rintro x ⟨⟩
  textNone := fun _ => ⟨by decide, [], rfl⟩
  textSome := by rintro x ⟨⟩
  text := by
    intro b hb
    rw [List.mem_singleton.mp hb]
    decide
  size := by decide

theorem refused_keeps_short : KeepsRefused (fullAgent initVmem) shortLog := by
  refine (refused_keeps_iff (fullAgent initVmem) shortLog (fun _ => []) (Or.inl shortLog_ok)
    initVmem_inv (fun _ => Nat.zero_le _)).mpr (Or.inr ⟨rfl, ?_⟩)
  exact List.mem_cons_self

/-- A text of 292 bytes is refused and loses its last 40. -/
theorem refused_loses_text :
    ¬ ∀ (a : Agent) (p : PendingLog) (live : SegId → List Chain), p.Ok ∨ p.Remnant →
      PoolsInv a.vmem live → Owns live p.chains → KeepsRefused a p := by
  intro hall
  have hlen : (List.replicate 40 (97 : UInt8)).length = 40 := List.length_replicate
  obtain ⟨s, c, -, hdata, hinv⟩ := saveToVmem_forty hlen
  have hok : (longLog 97 40 ((.v32, 0), c)).Ok :=
    longLog_ok (by decide) (by decide) (Nat.zero_lt_succ _) hdata
  have howns : Owns (Function.update (fun _ => []) (VmemType.v32, 0) [c])
      (longLog 97 40 ((.v32, 0), c)).chains := by
    have hnone : Owns (fun _ => []) (([] : List PendingLog).flatMap PendingLog.chains) :=
      fun _ => Nat.zero_le _
    exact owns_longLog (b := 97) (n := 40) hnone rfl
  exact not_keepsRefused_of_strings hok hinv howns (not_hasRoom_fullAgent _ _)
    (List.cons_ne_nil _ _) (hall (fullAgent (initVmem.setShm .v32 0 s)) _ _ (Or.inl hok) hinv howns)

end Examples

end XrkMonitor.LogBatch
