import XrkMonitor.LogRelay.Send

/-!
# The batches of the relay

A call of `SendSlog` takes the next batch of the logs in the ring, and all that is in a message of it
is in the cells of its logs. A batch is small enough for the static buffer of `SendLogInfo`.

## Implementation notes

The bytes of a message are at most three times what `iLogLen` grows by for it.
-/

namespace XrkMonitor.LogRelay

open Library ServerRing ServerLog

/-- The text of the log is below `BWORLD_MEMLOG_BUF_LENGTH`, so that the array of its cell holds
it. -/
structure ShortText (c : LogCell) : Prop where
  inArray : c.iContentIndex < 0
  length_lt : c.text.length < BWORLD_MEMLOG_BUF_LENGTH

/-- The message of a log, by its cell. -/
def cellInfo (slot : TSLog LogCell) : SlogLogInfo :=
  logInfo
    { cust := slot.fields.cust
      dwLogConfigId := slot.fields.dwLogConfigId
      dwLogHost := slot.fields.dwLogHost
      dwLogSeq := UInt32.ofNat slot.dwLogSeq
      iAppId := slot.fields.iAppId
      iModuleId := slot.fields.iModuleId
      wLogType := slot.fields.wLogType
      qwLogTime := slot.fields.qwLogTime
      pszLog := slot.fields.text }

/-- A log of the relay itself. -/
def isOwn (own : OwnLogs) (slot : TSLog LogCell) : Bool :=
  slot.fields.iAppId = own.m_iLogAppId ∧ slot.fields.iModuleId = own.m_iLogModuleId

/-- The logs that at most `n` rounds take, with `iLogLen` as it is. -/
def takeBatch : Nat → Nat → List (TSLog LogCell) → List (TSLog LogCell)
  | 0, _, _ => []
  | _ + 1, _, [] => []
  | n + 1, iLogLen, log :: logs =>
    if 1200 ≤ iLogLen then []
    else log :: takeBatch n (iLogLen + logLen (cellInfo log)) logs

/-- The next batch. -/
def nextBatch (logs : List (TSLog LogCell)) : List (TSLog LogCell) :=
  takeBatch MAX_LOG_COUNT_PER_SEND 0 logs

/-- The body of a batch. -/
def batchBody (iAppId : Int32) (batch : List (TSLog LogCell)) : SlogClientPkgBody :=
  ⟨batch.map cellInfo, iAppId.toUInt32⟩

/-- A batch on its way with more logs. -/
def Batch.add (own : OwnLogs) (b : Batch) (batch : List (TSLog LogCell)) : Batch where
  log := b.log ++ batch.map cellInfo
  iLogLen := b.iLogLen + (batch.map fun log => logLen (cellInfo log)).sum
  iSelfCount := b.iSelfCount + batch.countP (isOwn own)

section GetLog

variable {r : Relay} {first : Nat} {log : TSLog LogCell} {logs : List (TSLog LogCell)}

/-- A batch on its way with one more log. -/
def Batch.next (own : OwnLogs) (b : Batch) (log : TSLog LogCell) : Batch where
  log := b.log ++ [cellInfo log]
  iLogLen := b.iLogLen + logLen (cellInfo log)
  iSelfCount := b.iSelfCount + if log.fields.iAppId = own.m_iLogAppId ∧
    log.fields.iModuleId = own.m_iLogModuleId then 1 else 0

theorem Batch.add_nil (own : OwnLogs) (b : Batch) : b.add own [] = b := by
  simp only [Batch.add, List.map_nil, List.append_nil, List.sum_nil, List.countP_nil, Nat.add_zero]

theorem Batch.add_cons (own : OwnLogs) (b : Batch) (log : TSLog LogCell)
    (batch : List (TSLog LogCell)) :
    b.add own (log :: batch) = (b.next own log).add own batch := by
  simp only [Batch.add, Batch.next, List.map_cons, List.sum_cons, List.countP_cons, isOwn,
    decide_eq_true_eq, List.append_assoc, List.singleton_append, Nat.add_assoc]
  rw [Nat.add_comm (batch.countP _)]

theorem str_copyStr {n : Nat} (slot out : CharBuf n) : (copyStr slot out).str = slot.str := by
  unfold copyStr
  by_cases hnil : slot.str = []
  · rw [if_pos hnil, hnil]
    exact CharBuf.str_clear out
  · rw [if_neg hnil]
    exact CharBuf.str_strncpy slot.str_ne_zero slot.length_str_le

theorem logInfo_logOut (slot : TSLog LogCell) (out : TSLogOut) :
    logInfo (logOut slot out slot.fields.text) = cellInfo slot := by
  unfold cellInfo logInfo logOut copyCust flaggedStr
  simp only [str_copyStr]

theorem getShmLog_shortText {c : LogCell} (h : ShortText c) (r : Relay) (sLogBuf : Nat → UInt8) :
    getShmLog 0 (c.shmText r.vmem) sLogBuf = some (.ok c.text) := by
  have htext : cstrAt (c.shmText r.vmem).mem 0 (sizeofLogBuf - 1) = c.text :=
    cstrAt_of_lt h.length_lt (by decide)
  have hget := getShmLog_array (p := 0) (s := c.shmText r.vmem) h.inArray
    (by rw [htext]; exact h.length_lt) sLogBuf
  rw [hget, htext]

theorem getLog_holds (env : GetLogEnv) (h : HoldsFrom r.shm first (log :: logs))
    (hshort : ShortText log.fields) :
    ∃ out, getLog env r = some (some out,
        { r with
          stLogOut := out
          shm := dropLog r.shm (first % r.shm.iLogMaxCount) }) ∧
      logInfo out = cellInfo log ∧ out.iAppId = log.fields.iAppId ∧
        out.iModuleId = log.fields.iModuleId := by
  obtain ⟨hstart, hslot, hseq⟩ := h.oldest
  refine ⟨logOut log r.stLogOut log.fields.text, ?_, logInfo_logOut log r.stLogOut, rfl, rfl⟩
  have hindex : r.shm.iLogStarIndex.toNat = first % r.shm.iLogMaxCount := by
    rw [hstart]
    rfl
  have hpos : ¬ r.shm.iLogStarIndex < 0 := by
    rw [hstart]
    omega
  simp only [getLog]
  rw [if_neg hpos, hindex, hslot, if_neg hseq, getShmLog_shortText hshort, Option.bind_some]
  simp only [releaseText]
  rw [hslot, if_pos hshort.inArray]
  rfl

theorem getLog_nil (env : GetLogEnv) (h : HoldsFrom r.shm first []) :
    getLog env r = some (none, r) := by
  rw [getLog, if_pos]
  rw [h.start_nil rfl]
  decide

theorem sendLoop_holds (own : OwnLogs) (env : Nat → GetLogEnv) {n : Nat} {b : Batch}
    (h : HoldsFrom r.shm first logs) (hshort : ∀ log ∈ logs, ShortText log.fields) :
    ∃ r' first', sendLoop own env n b r = some (b.add own (takeBatch n b.iLogLen logs), r') ∧
      HoldsFrom r'.shm first' (logs.drop (takeBatch n b.iLogLen logs).length) ∧
        r'.s_dwSeq = r.s_dwSeq := by
  induction n generalizing b r first logs with
  | zero =>
    refine ⟨r, first, ?_, h, rfl⟩
    rw [sendLoop, takeBatch, Batch.add_nil]
  | succ n ih =>
    rw [sendLoop]
    by_cases hfull : 1200 ≤ b.iLogLen
    · have hbatch : takeBatch (n + 1) b.iLogLen logs = [] := by
        cases logs with
        | nil => rfl
        | cons log logs => exact if_pos hfull
      rw [if_pos hfull, hbatch, Batch.add_nil]
      exact ⟨r, first, rfl, h, rfl⟩
    · rw [if_neg hfull]
      cases logs with
      | nil =>
        rw [getLog_nil _ h, takeBatch, Batch.add_nil]
        exact ⟨r, first, rfl, h, rfl⟩
      | cons log logs =>
        obtain ⟨out, hget, hinfo, happ, hmodule⟩ :=
          getLog_holds (env b.log.length) h (hshort log List.mem_cons_self)
        rw [hget, Option.bind_some, takeBatch, if_neg hfull]
        dsimp only
        rw [hinfo, happ, hmodule]
        have hdrop : HoldsFrom (Relay.shm
            { r with
              stLogOut := out
              shm := dropLog r.shm (first % r.shm.iLogMaxCount) }) (first + 1) logs := h.drop
        obtain ⟨r', first', hloop, hholds, hseq⟩ := ih (b := b.next own log) hdrop
          fun log hlog => hshort log (List.mem_cons_of_mem _ hlog)
        refine ⟨r', first', ?_, hholds, hseq⟩
        rw [b.add_cons]
        exact hloop

end GetLog

section Size

variable {m : SlogLogInfo} {log : TSLog LogCell} {logs : List (TSLog LogCell)} {n iLogLen : Nat}

/-- What varies in the length of a message is small. -/
structure SmallInfo (m : SlogLogInfo) : Prop where
  log : m.bytes_log.length < 256
  cust_5 : ∀ s, m.bytes_cust_5 = some s → 0 < s.length ∧ s.length < 16
  cust_6 : ∀ s, m.bytes_cust_6 = some s → 0 < s.length ∧ s.length < 32

theorem length_uint32Field_le (field : Nat) (x : UInt32) : (numField field x.toNat).length ≤ 6 :=
  length_numField_le field (lt_trans x.toNat_lt (by decide))

theorem length_optNum_le {α : Type*} {f : α → List UInt8} (hf : ∀ x, (f x).length ≤ 12)
    (x : Option α) : (optField f x).length ≤ 3 * (if x.isSome then 4 else 0) := by
  cases x with
  | none => exact Nat.zero_le _
  | some x => exact hf x

theorem length_optStr_le (field : Nat) {x : Option (List UInt8)} {k : Nat} (hk : k ≤ 128)
    (h : ∀ s, x = some s → 0 < s.length ∧ s.length < k) :
    (optField (bytesField field) x).length ≤ 3 * (x.getD []).length := by
  cases x with
  | none => exact Nat.zero_le _
  | some s =>
    obtain ⟨hpos, hlt⟩ := h s rfl
    have hle : (bytesField field s).length ≤ 0 + 2 + s.length :=
      length_bytesField_le field (by omega)
    change (bytesField field s).length ≤ 3 * s.length
    omega

theorem SmallInfo.length_bytes_le (h : SmallInfo m) : m.bytes.length + 3 ≤ 3 * logLen m := by
  have htime : (numField 3 m.uint64_log_time.toNat).length ≤ 11 :=
    length_numField_le 3 (lt_trans m.uint64_log_time.toNat_lt (by decide))
  have htext : (bytesField 6 m.bytes_log).length ≤ 1 + 2 + m.bytes_log.length :=
    length_bytesField_le 6 (lt_trans h.log (by decide))
  have hint : ∀ field (x : Int32), (int32Field field x).length ≤ 12 := by
    intro field x
    have hle : (int32Field field x).length ≤ 11 :=
      length_numField_le field (lt_trans x.toInt64.toUInt64.toNat_lt (by decide))
    exact Nat.le_succ_of_le hle
  have hnum : ∀ field (x : UInt32), (numField field x.toNat).length ≤ 12 :=
    fun field x => (length_uint32Field_le field x).trans (by decide)
  have happ := length_uint32Field_le 1 m.uint32_app_id
  have hmodule := length_uint32Field_le 2 m.uint32_module_id
  have hseq := length_uint32Field_le 4 m.uint32_log_seq
  have htype := length_uint32Field_le 5 m.uint32_log_type
  have hconfig := length_uint32Field_le 7 m.uint32_log_config_id
  have hhost := length_uint32Field_le 8 m.uint32_log_host
  have hflag := length_uint32Field_le 15 m.cust_flag
  have h₁ := length_optNum_le (hnum 9) m.uint32_cust_1
  have h₂ := length_optNum_le (hnum 10) m.uint32_cust_2
  have h₃ := length_optNum_le (hint 11) m.int32_cust_3
  have h₄ := length_optNum_le (hint 12) m.int32_cust_4
  have h₅ := length_optStr_le 13 (by decide) h.cust_5
  have h₆ := length_optStr_le 14 (by decide) h.cust_6
  rw [SlogLogInfo.bytes, logLen]
  simp only [List.length_append]
  omega

theorem SmallInfo.logLen_le (h : SmallInfo m) : logLen m ≤ 353 := by
  have hfour : ∀ b : Bool, (if b then 4 else 0) ≤ 4 := by decide
  have h₁ := hfour m.uint32_cust_1.isSome
  have h₂ := hfour m.uint32_cust_2.isSome
  have h₃ := hfour m.int32_cust_3.isSome
  have h₄ := hfour m.int32_cust_4.isSome
  have hstr : ∀ {x : Option (List UInt8)} {k : Nat},
      (∀ s, x = some s → 0 < s.length ∧ s.length < k + 1) → (x.getD []).length ≤ k := by
    intro x k hx
    cases x with
    | none => exact Nat.zero_le _
    | some s => exact Nat.le_of_lt_succ (hx s rfl).2
  have h₅ : (m.bytes_cust_5.getD []).length ≤ 15 := hstr h.cust_5
  have h₆ : (m.bytes_cust_6.getD []).length ≤ 31 := hstr h.cust_6
  have htext := h.log
  rw [logLen]
  omega

theorem flaggedStr_small {k : Nat} {bCustFlag flag : UInt8} {sz : CharBuf (k + 1)} {s : List UInt8}
    (h : flaggedStr bCustFlag flag sz = some s) : 0 < s.length ∧ s.length < k + 1 := by
  unfold flaggedStr at h
  split at h
  · rename_i hset
    rw [← Option.some.inj h]
    exact ⟨List.length_pos_of_ne_nil hset.2, Nat.lt_succ_of_le sz.length_str_le⟩
  · cases h

theorem smallInfo_cellInfo (h : ShortText log.fields) : SmallInfo (cellInfo log) where
  log := h.length_lt
  cust_5 := fun _ hs => flaggedStr_small hs
  cust_6 := fun _ hs => flaggedStr_small hs

theorem takeBatch_begins (n iLogLen : Nat) (logs : List (TSLog LogCell)) :
    takeBatch n iLogLen logs <+: logs := by
  induction n generalizing iLogLen logs with
  | zero => exact List.nil_prefix
  | succ n ih =>
    cases logs with
    | nil => exact List.nil_prefix
    | cons log logs =>
      rw [takeBatch]
      split
      · exact List.nil_prefix
      · exact List.cons_prefix_cons.mpr ⟨rfl, ih _ _⟩

theorem sum_takeBatch_le (hshort : ∀ log ∈ logs, ShortText log.fields) (hlen : iLogLen ≤ 1552) :
    iLogLen + ((takeBatch n iLogLen logs).map fun log => logLen (cellInfo log)).sum ≤ 1552 := by
  induction n generalizing iLogLen logs with
  | zero => exact hlen
  | succ n ih =>
    cases logs with
    | nil => exact hlen
    | cons log logs =>
      rw [takeBatch]
      split
      · exact hlen
      · have hlog := (smallInfo_cellInfo (hshort log List.mem_cons_self)).logLen_le
        have hnext : iLogLen + logLen (cellInfo log) ≤ 1552 := by omega
        have hrest := ih (fun log hlog => hshort log (List.mem_cons_of_mem _ hlog)) hnext
        rw [List.map_cons, List.sum_cons]
        omega

theorem length_logs_le {batch : List (TSLog LogCell)}
    (hshort : ∀ log ∈ batch, ShortText log.fields) :
    ((batch.map cellInfo).flatMap fun log => bytesField 1 log.bytes).length ≤
      3 * (batch.map fun log => logLen (cellInfo log)).sum := by
  induction batch with
  | nil => exact Nat.zero_le _
  | cons log batch ih =>
    have hsmall := smallInfo_cellInfo (hshort log List.mem_cons_self)
    have hbytes := hsmall.length_bytes_le
    have hlen := hsmall.logLen_le
    have hfield : (bytesField 1 (cellInfo log).bytes).length ≤
        1 + 2 + (cellInfo log).bytes.length := length_bytesField_le 1 (by omega)
    have hrest := ih fun log hlog => hshort log (List.mem_cons_of_mem _ hlog)
    rw [List.map_cons, List.flatMap_cons, List.length_append, List.map_cons, List.sum_cons]
    omega

theorem length_packet_le (iAppId : Int32) (seq : UInt32)
    (hshort : ∀ log ∈ logs, ShortText log.fields) :
    (headBytes seq).length + (batchBody iAppId (nextBatch logs)).bytes.length + 10 ≤ 8192 := by
  have hcmd : (numField 1 SLOG_CLIENT_SEND_LOG).length ≤ 3 := length_numField_le 1 (by decide)
  have hseq := length_uint32Field_le 2 seq
  have happ := length_uint32Field_le 2 iAppId.toUInt32
  have hsum : 0 + ((nextBatch logs).map fun log => logLen (cellInfo log)).sum ≤ 1552 :=
    sum_takeBatch_le hshort (by decide)
  have hlogs := length_logs_le fun log hlog =>
    hshort log ((takeBatch_begins MAX_LOG_COUNT_PER_SEND 0 logs).subset hlog)
  change _ ≤ 3 * ((nextBatch logs).map fun log => logLen (cellInfo log)).sum at hlogs
  have hbody : (batchBody iAppId (nextBatch logs)).bytes.length =
      (((nextBatch logs).map cellInfo).flatMap fun log => bytesField 1 log.bytes).length +
        (numField 2 iAppId.toUInt32.toNat).length := List.length_append
  have hhead : (headBytes seq).length =
      (numField 1 SLOG_CLIENT_SEND_LOG).length + (numField 2 seq.toNat).length :=
    List.length_append
  have hsame : ((takeBatch MAX_LOG_COUNT_PER_SEND 0 logs).map cellInfo) =
      (nextBatch logs).map cellInfo := rfl
  rw [hsame] at hlogs
  omega

end Size

section SendSlog

variable {r : Relay} {first : Nat} {logs : List (TSLog LogCell)}

theorem sendSlog_holds (own : OwnLogs) (env : Nat → GetLogEnv) (iAppId : Int32)
    (h : HoldsFrom r.shm first logs) (hshort : ∀ log ∈ logs, ShortText log.fields) :
    ∃ r' first', HoldsFrom r'.shm first' (logs.drop (nextBatch logs).length) ∧
      if (nextBatch logs).all (isOwn own) = true then
        sendSlog own env iAppId r = some (.nothing, r') ∧ r'.s_dwSeq = r.s_dwSeq
      else
        sendSlog own env iAppId r = some (.sent (Packet.frameBytes (headBytes r.s_dwSeq)
          (batchBody iAppId (nextBatch logs)).bytes), r') ∧ r'.s_dwSeq = r.s_dwSeq + 1 := by
  obtain ⟨r', first', hloop, hholds, hseq⟩ :=
    sendLoop_holds own env (n := MAX_LOG_COUNT_PER_SEND) (b := ⟨[], 0, 0⟩) h hshort
  change sendLoop own env MAX_LOG_COUNT_PER_SEND ⟨[], 0, 0⟩ r =
    some (Batch.add own ⟨[], 0, 0⟩ (nextBatch logs), r') at hloop
  have hbatch : Batch.add own ⟨[], 0, 0⟩ (nextBatch logs) =
      ⟨(nextBatch logs).map cellInfo, ((nextBatch logs).map fun log => logLen (cellInfo log)).sum,
        (nextBatch logs).countP (isOwn own)⟩ := by
    simp only [Batch.add, List.nil_append, Nat.zero_add]
  have hall : ((nextBatch logs).length ≤ 0 ∨
      (nextBatch logs).length ≤ (nextBatch logs).countP (isOwn own)) ↔
        (nextBatch logs).all (isOwn own) = true := by
    rw [List.all_eq_true, ← List.countP_eq_length]
    have hle := List.countP_le_length (p := isOwn own) (l := nextBatch logs)
    omega
  have hsend := length_packet_le iAppId r.s_dwSeq hshort
  have hfits : sendLogInfo (headBytes r.s_dwSeq) (batchBody iAppId (nextBatch logs)).bytes =
      some (Packet.frameBytes (headBytes r.s_dwSeq) (batchBody iAppId (nextBatch logs)).bytes) :=
    if_neg (by omega)
  rw [sendSlog, hloop, hbatch, Option.map_some]
  simp only [List.length_map, hall, hseq]
  split
  · exact ⟨r', first', hholds, rfl, hseq⟩
  · change sendLogInfo (headBytes r.s_dwSeq)
      (SlogClientPkgBody.bytes ⟨(nextBatch logs).map cellInfo, iAppId.toUInt32⟩) = _ at hfits
    rw [hfits]
    exact ⟨{ r' with s_dwSeq := r.s_dwSeq + 1 }, first', hholds, rfl, rfl⟩

end SendSlog

end XrkMonitor.LogRelay
