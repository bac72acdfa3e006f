import XrkMonitor.LogBatch.Refused
import XrkMonitor.MtLog.Truncate

/-!
# The text of a log from the writer to the packet

`MtReport_Log` puts a short text into the cell of the log, and of a long one the front; the rest
goes to the variable-length memory. `ReadAppLogToBuf` puts the parts together in a static buffer. It
counts a byte behind a long text that it does not write, so what an earlier log has left there is
sent.

## Implementation notes

The writer and the agent work at different times: the memory of the agent is any that a run of the
allocator reaches in which the strings of the log are still handed out. A log is emitted when a call
puts its record into an app buffer.
-/

namespace XrkMonitor.LogBatch

open Library Vmem

section Store

/-- The size of `MTLog::sLogContent`. -/
def logContentSize : Nat := 256

def MTLOG_TYPE_ERROR : UInt16 := 32

/-- What `snprintf` writes for a text that could not be saved. -/
def saveFailedText (iWrite : Int) : List UInt8 :=
  (("write shm log failed, SaveDataToVarmem ret:" ++ toString iWrite).toList.map fun c =>
    UInt8.ofNat c.toNat).take (logContentSize - 2)

/-- The lines of `MtReport_Log` that store the text. -/
def storeText (env : VmemEnv) (vmem : VmemPools) (plog : MTLog) (sLogBuf : List UInt8) :
    MTLog × VmemPools :=
  if sLogBuf.length < logContentSize then
    ({ plog with
        iVarmemIndex := -1
        sLogContent := sLogBuf ++ 0 :: plog.sLogContent.drop (sLogBuf.length + 1) }, vmem)
  else
    let r := saveToVmem env vmem (sLogBuf.drop (logContentSize - 4))
    if r.1 ≤ 0 then
      let text := saveFailedText r.1
      ({ plog with
          head := { plog.head with wLogType := MTLOG_TYPE_ERROR }
          iVarmemIndex := -1
          sLogContent := text ++ 0 :: (sLogBuf.take logContentSize).drop (text.length + 1) }, r.2)
    else ({ plog with iVarmemIndex := r.1, sLogContent := sLogBuf.take logContentSize }, r.2)

variable {env : VmemEnv} {vmem : VmemPools} {plog : MTLog} {text : List UInt8}

theorem storeText_short (h : text.length < logContentSize) :
    (storeText env vmem plog text).1 = { plog with
      iVarmemIndex := -1
      sLogContent := text ++ 0 :: plog.sLogContent.drop (text.length + 1) } := by
  rw [storeText, if_pos h]

theorem storeText_long (h : logContentSize ≤ text.length)
    (hsaved : 0 < (storeText env vmem plog text).1.iVarmemIndex) :
    (storeText env vmem plog text).1 = { plog with
      iVarmemIndex := (saveToVmem env vmem (text.drop frontSize)).1
      sLogContent := text.take logContentSize } := by
  rw [storeText, if_neg (Nat.not_lt.mpr h)] at hsaved ⊢
  dsimp only at hsaved ⊢
  by_cases hfail : (saveToVmem env vmem (text.drop (logContentSize - 4))).1 ≤ 0
  · rw [if_pos hfail] at hsaved
    have hneg : (0 : Int) < -1 := hsaved
    omega
  · rw [if_neg hfail]
    rfl

theorem index_storeText (h : logContentSize ≤ text.length)
    (hsaved : 0 < (saveToVmem env vmem (text.drop frontSize)).1) :
    (storeText env vmem plog text).1.iVarmemIndex =
      (saveToVmem env vmem (text.drop frontSize)).1 := by
  have hfail : ¬ (saveToVmem env vmem (text.drop (logContentSize - 4))).1 ≤ 0 :=
    Int.not_le.mpr hsaved
  rw [storeText, if_neg (Nat.not_lt.mpr h)]
  dsimp only
  rw [if_neg hfail]
  rfl

theorem iCustVmemIndex_storeText (env : VmemEnv) (vmem : VmemPools) (plog : MTLog)
    (text : List UInt8) :
    (storeText env vmem plog text).1.iCustVmemIndex = plog.iCustVmemIndex := by
  unfold storeText
  dsimp only
  split_ifs <;> rfl

end Store

section Emit

variable {a : Agent} {plog : MTLog} {record : List UInt8} {r : PackResult} {i : Nat}

/-- An app buffer takes a record of the app. -/
def Taken (a : Agent) (iAppId : Int32) (iUseBufLen : Nat) : Prop :=
  (∃ i < a.bReadAppTypeCount, (a.stAppLogRead i).iReadAppId = iAppId ∧
    iUseBufLen ≤ MAX_APP_LOG_PKG_LENGTH - (a.stAppLogRead i).sAppLogBuf.length) ∨
    (a.bReadAppTypeCount < MAX_APP_TYPE_READ_PER_EACH ∧ iAppId ∈ a.stAppConfigList)

theorem putRecord_of_taken (hlen : record.length < MAX_APP_LOG_PKG_LENGTH)
    (h : Taken a plog.head.iAppId record.length) :
    ∃ r i, putRecord a plog record = some r ∧ r.slot = some i := by
  unfold putRecord
  cases hfind : findAppLogRead a plog.head.iAppId record.length with
  | some i => exact ⟨_, i, rfl, rfl⟩
  | none =>
    obtain hroom | ⟨hcount, happ⟩ := h
    · exact absurd hroom (findAppLogRead_eq_none_iff.mp hfind)
    · obtain ⟨idx, hidx⟩ := Option.isSome_iff_exists.mp (List.isSome_idxOf?.mpr happ)
      dsimp only
      rw [if_neg (Nat.not_le.mpr hcount), if_pos hlen, hidx]
      exact ⟨_, a.bReadAppTypeCount, rfl, rfl⟩

/-- What a call puts is the record. -/
theorem putRecord_slot (h : putRecord a plog record = some r) (hslot : r.slot = some i) :
    Taken a plog.head.iAppId record.length ∧ appBuf r.agent i = appBuf a i ++ record := by
  unfold putRecord at h
  cases hfind : findAppLogRead a plog.head.iAppId record.length with
  | some j =>
    rw [hfind] at h
    obtain rfl := Option.some.inj h
    obtain rfl := Option.some.inj hslot
    constructor
    · left
      by_contra hno
      rw [findAppLogRead_eq_none_iff.mpr hno] at hfind
      cases hfind
    · have hlt := (findAppLogRead_spec hfind).1
      rw [appBuf, appBuf, if_pos hlt, if_pos hlt]
      dsimp only
      rw [Function.update_self]
  | none =>
    rw [hfind] at h
    dsimp only at h
    by_cases hfull : MAX_APP_TYPE_READ_PER_EACH ≤ a.bReadAppTypeCount
    · rw [if_pos hfull] at h
      obtain rfl := Option.some.inj h
      cases hslot
    · rw [if_neg hfull] at h
      by_cases hlen : record.length < MAX_APP_LOG_PKG_LENGTH
      · rw [if_pos hlen] at h
        cases hidx : a.stAppConfigList.idxOf? plog.head.iAppId with
        | some idx =>
          rw [hidx] at h
          obtain rfl := Option.some.inj h
          obtain rfl := Option.some.inj hslot
          constructor
          · right
            exact ⟨Nat.not_le.mp hfull, List.isSome_idxOf?.mp (by rw [hidx]; rfl)⟩
          · rw [appBuf, appBuf, if_pos (Nat.lt_succ_self _), if_neg (lt_irrefl _)]
            dsimp only
            rw [Function.update_self]
            rfl
        | none =>
          rw [hidx] at h
          obtain rfl := Option.some.inj h
          cases hslot
      · rw [if_neg hlen] at h
        cases h

end Emit

section Run

/-- A log on its way: the memory and the cell when its text is stored, and the memory and the agent
when it is packed. -/
structure TextRun where
  saveEnv : VmemEnv
  vmem : VmemPools
  cell : MTLog
  packEnv : PackEnv
  run : VmemRun
  agent : Agent

namespace TextRun

/-- The cell after the text was stored. -/
def stored (w : TextRun) (text : List UInt8) : MTLog :=
  (storeText w.saveEnv w.vmem w.cell text).1

/-- The log is packed from the memory that holds its strings. -/
structure Ok (w : TextRun) (head : LogHead) (cust text : List UInt8) : Prop where
  cell : w.cell.head = head
  app : head.iAppId ≠ 0
  module : head.iModuleId ≠ 0
  reached : Reached w.run
  vmem : w.agent.vmem = w.run.pools
  cust : (w.cell.iCustVmemIndex ≤ 0 ∧ cust = []) ∨ (w.cell.iCustVmemIndex, cust) ∈ w.run.handed
  text : logContentSize ≤ text.length →
    ((w.stored text).iVarmemIndex, text.drop frontSize) ∈ w.run.handed ∧
      (w.stored text).iVarmemIndex ≠ w.cell.iCustVmemIndex

/-- The call puts these bytes into an app buffer. -/
def Emits (w : TextRun) (text record : List UInt8) : Prop :=
  ∃ r i, readAppLogToBuf w.packEnv w.agent (w.stored text) = some r ∧ r.slot = some i ∧
    appBuf r.agent i = appBuf w.agent i ++ record

/-- What is emitted has the text and one `NUL`. -/
def TextRight (w : TextRun) (head : LogHead) (cust text : List UInt8) : Prop :=
  ∀ record, w.Emits text record → record = LogRecord.bytes ⟨head, cust, text ++ [0]⟩

/-- The call takes the log. -/
def Takes (w : TextRun) (head : LogHead) (cust text : List UInt8) : Prop :=
  Taken w.agent head.iAppId (logInfoSize + cust.length + (text.length + 1))

/-- The text stands in the cell, or the byte behind it in the static buffer is `NUL`. -/
def Clean (w : TextRun) (cust text : List UInt8) : Prop :=
  text.length < logContentSize ∨ w.agent.sLogBuf (logInfoSize + cust.length + text.length) = 0

end TextRun

variable {w : TextRun} {head : LogHead} {cust text : List UInt8} {live : SegId → List Chain}

theorem owns_of_nodup {chains : List (SegId × Chain)} (hnodup : chains.Nodup)
    (hmem : ∀ x ∈ chains, x.2 ∈ live x.1) : Owns live chains := by
  intro x
  by_cases hx : x ∈ chains
  · have hone := List.nodup_iff_count_le_one.mp hnodup x
    have hpos := List.count_pos_iff.mpr (hmem x hx)
    omega
  · rw [List.count_eq_zero_of_not_mem hx]
    exact Nat.zero_le _

theorem RunInv.chain {r : VmemRun} (h : RunInv r live) {index : Int} {data : List UInt8}
    (hx : (index, data) ∈ r.handed) :
    ∃ x : SegId × Chain, x.1.2 < VMEM_SHM_COUNT ∧ x.2 ∈ live x.1 ∧ index = chainIndex x.1 x.2 ∧
      data = x.2.data := by
  obtain ⟨g, c, hg, hc, hsame⟩ := h.stored hx
  obtain ⟨hidx, hdata⟩ := Prod.mk.inj hsame
  exact ⟨(g, c), hg, hc, hidx, hdata⟩

namespace TextRun

theorem Ok.custChain (hok : w.Ok head cust text) (h : RunInv w.run live) :
    ∃ custChain : Option (SegId × Chain),
      (custChain = none → w.cell.iCustVmemIndex ≤ 0 ∧ cust = []) ∧
      ∀ x, custChain = some x → x.1.2 < VMEM_SHM_COUNT ∧ x.2 ∈ live x.1 ∧
        w.cell.iCustVmemIndex = chainIndex x.1 x.2 ∧ cust = x.2.data := by
  rcases hok.cust with hnone | hhanded
  · exact ⟨none, fun _ => hnone, by rintro x ⟨⟩⟩
  · obtain ⟨x, hx⟩ := RunInv.chain h hhanded
    refine ⟨some x, by rintro ⟨⟩, ?_⟩
    rintro y ⟨⟩
    exact hx

theorem Ok.textChain (hok : w.Ok head cust text) (h : RunInv w.run live) :
    ∃ textChain : Option (SegId × Chain),
      (textChain = none ↔ text.length < logContentSize) ∧
      ∀ x, textChain = some x → x.1.2 < VMEM_SHM_COUNT ∧ x.2 ∈ live x.1 ∧
        (w.stored text).iVarmemIndex = chainIndex x.1 x.2 ∧ text.drop frontSize = x.2.data := by
  by_cases hlen : text.length < logContentSize
  · exact ⟨none, ⟨fun _ => hlen, fun _ => rfl⟩, by rintro x ⟨⟩⟩
  · obtain ⟨x, hx⟩ := RunInv.chain h (hok.text (Nat.not_lt.mp hlen)).1
    refine ⟨some x, ⟨by rintro ⟨⟩, fun hlt => absurd hlt hlen⟩, ?_⟩
    rintro y ⟨⟩
    exact hx

/-- The pending log of a run. -/
def pending (w : TextRun) (head : LogHead) (cust text : List UInt8)
    (custChain textChain : Option (SegId × Chain)) : PendingLog where
  log := ⟨head, cust, text⟩
  plog := w.stored text
  env := w.packEnv
  custChain := custChain
  textChain := textChain

theorem stored_head (hok : w.Ok head cust text) (h : RunInv w.run live) :
    (w.stored text).head = head := by
  by_cases hlen : text.length < logContentSize
  · rw [stored, storeText_short hlen]
    exact hok.cell
  · obtain ⟨x, -, -, hidx, -⟩ := RunInv.chain h (hok.text (Nat.not_lt.mp hlen)).1
    have hsaved : 0 < (storeText w.saveEnv w.vmem w.cell text).1.iVarmemIndex := by
      change 0 < (w.stored text).iVarmemIndex
      rw [hidx]
      exact chainIndex_pos x.1 x.2
    rw [stored, storeText_long (Nat.not_lt.mp hlen) hsaved]
    exact hok.cell

/-- The log of a run is pending, with its strings in the memory of the agent. -/
theorem Ok.exists_pending (hok : w.Ok head cust text) (hne : ∀ b ∈ text, b ≠ 0)
    (hlen : text.length < MtLog.formatSize) (hcust : cust.length ≤ 65) :
    ∃ custChain textChain live, (w.pending head cust text custChain textChain).Ok ∧
      PoolsInv w.agent.vmem live ∧
      Owns live (w.pending head cust text custChain textChain).chains ∧
      (textChain = none ↔ text.length < logContentSize) := by
  obtain ⟨live, hinv⟩ := hok.reached.inv
  have hpools : PoolsInv w.agent.vmem live := by
    rw [hok.vmem]
    exact hinv.pools
  have hhead := stored_head hok hinv
  obtain ⟨custChain, hcustNone, hcustSome⟩ := hok.custChain hinv
  obtain ⟨textChain, htextNone, htextSome⟩ := hok.textChain hinv
  have hcustIdx : (w.stored text).iCustVmemIndex = w.cell.iCustVmemIndex :=
    iCustVmemIndex_storeText _ _ _ _
  have htextLong : ∀ x, textChain = some x → logContentSize ≤ text.length := by
    intro x hx
    rw [← Nat.not_lt, ← htextNone, hx]
    rintro ⟨⟩
  refine ⟨custChain, textChain, live, ?_, hpools, ?_, htextNone⟩
  · constructor
    · exact hhead
    · exact hok.app
    · exact hok.module
    · intro x hx
      rcases List.mem_append.mp hx with hx | hx
      · exact (hcustSome x (Option.mem_toList.mp hx)).1
      · exact (htextSome x (Option.mem_toList.mp hx)).1
    · intro hnone
      obtain ⟨hidx, hnil⟩ := hcustNone hnone
      exact ⟨hcustIdx.le.trans hidx, hnil⟩
    · intro x hx
      obtain ⟨-, -, hidx, hdata⟩ := hcustSome x hx
      exact ⟨hcustIdx.trans hidx, hdata⟩
    · intro hnone
      have hshort := @storeText_short w.saveEnv w.vmem w.cell text (htextNone.mp hnone)
      have hidx : (w.stored text).iVarmemIndex = -1 := congrArg MTLog.iVarmemIndex hshort
      exact ⟨hidx.trans_lt (by decide), _, congrArg MTLog.sLogContent hshort⟩
    · intro x hx
      obtain ⟨-, -, hidx, hdata⟩ := htextSome x hx
      have hlong := htextLong x hx
      have hsaved : 0 < (storeText w.saveEnv w.vmem w.cell text).1.iVarmemIndex := by
        change 0 < (w.stored text).iVarmemIndex
        rw [hidx]
        exact chainIndex_pos x.1 x.2
      have hcontent : (w.stored text).sLogContent = text.take logContentSize :=
        congrArg MTLog.sLogContent (storeText_long hlong hsaved)
      refine ⟨hidx, ?_, ?_⟩
      · change frontSize ≤ (w.stored text).sLogContent.length
        rw [hcontent, List.length_take, Nat.min_eq_left hlong]
        decide
      · change text = (w.stored text).sLogContent.take frontSize ++ x.2.data
        have hmin : min frontSize logContentSize = frontSize := by decide
        rw [hcontent, List.take_take, hmin, ← hdata, List.take_append_drop]
    · exact hne
    · change logInfoSize + cust.length + text.length + 1 < MAX_APP_LOG_PKG_LENGTH
      unfold MtLog.formatSize MtLog.logBufSize at hlen
      unfold logInfoSize MAX_APP_LOG_PKG_LENGTH
      omega
  · refine owns_of_nodup (List.nodup_append.mpr ⟨Option.toList_nodup custChain,
      Option.toList_nodup textChain, ?_⟩) ?_
    · intro x hx y hy hsame
      obtain ⟨-, -, hidx, -⟩ := hcustSome x (Option.mem_toList.mp hx)
      obtain ⟨-, -, hidx', -⟩ := htextSome y (Option.mem_toList.mp hy)
      refine (hok.text (htextLong y (Option.mem_toList.mp hy))).2 ?_
      rw [hidx, hidx', hsame]
    · intro x hx
      rcases List.mem_append.mp hx with hx | hx
      · exact (hcustSome x (Option.mem_toList.mp hx)).2.1
      · exact (htextSome x (Option.mem_toList.mp hx)).2.1

/-- A run emits one record: that of its pending log. -/
theorem Ok.emits_iff (hok : w.Ok head cust text) (hne : ∀ b ∈ text, b ≠ 0)
    (hlen : text.length < MtLog.formatSize) (hcust : cust.length ≤ 65) :
    ∃ b, (text.length < logContentSize → b = 0) ∧
      (logContentSize ≤ text.length →
        b = w.agent.sLogBuf (logInfoSize + cust.length + text.length)) ∧
      ∀ record, w.Emits text record ↔
        w.Takes head cust text ∧ record = LogRecord.bytes ⟨head, cust, text ++ [b]⟩ := by
  obtain ⟨custChain, textChain, live, hp, hpools, howns, hshort⟩ :=
    hok.exists_pending hne hlen hcust
  let p := w.pending head cust text custChain textChain
  have howns' : Owns live (p.chains ++ []) := by rwa [List.append_nil]
  obtain ⟨sLogBuf, vmem, live', plog, hcall, -, hhead, -⟩ := readAppLogToBuf_eq hp hpools howns'
  have hsize : (p.record w.agent).bytes.length =
      logInfoSize + cust.length + (text.length + 1) := p.length_record w.agent
  have hfits : (p.record w.agent).bytes.length < MAX_APP_LOG_PKG_LENGTH := by
    rw [hsize, ← Nat.add_assoc]
    exact hp.size
  have hid : plog.head.iAppId = head.iAppId := congrArg LogHead.iAppId hhead
  refine ⟨if textChain.isNone then 0 else w.agent.sLogBuf p.behind, ?_, ?_, ?_⟩
  · intro hlt
    rw [hshort.mpr hlt]
    rfl
  · intro hle
    cases htext : textChain with
    | none => exact absurd (hshort.mp htext) (Nat.not_lt.mpr hle)
    | some x => rfl
  · intro record
    constructor
    · rintro ⟨r, i, hrun, hslot, hbuf⟩
      obtain ⟨htaken, hput⟩ := putRecord_slot (hcall.symm.trans hrun) hslot
      rw [hid, hsize] at htaken
      exact ⟨htaken, List.append_cancel_left (hbuf.symm.trans hput)⟩
    · rintro ⟨htaken, hrecord⟩
      have hroom : Taken { w.agent with sLogBuf := sLogBuf, vmem := vmem } plog.head.iAppId
          (p.record w.agent).bytes.length := by
        rw [hid, hsize]
        exact htaken
      obtain ⟨r, i, hput, hslot⟩ := putRecord_of_taken hfits hroom
      refine ⟨r, i, hcall.trans hput, hslot, ?_⟩
      rw [hrecord]
      exact (putRecord_slot hput hslot).2

theorem bytes_inj {b b' : UInt8}
    (h : LogRecord.bytes ⟨head, cust, text ++ [b]⟩ = LogRecord.bytes ⟨head, cust, text ++ [b']⟩) :
    b = b' := by
  have hlast := congrArg List.getLast? h
  simpa [LogRecord.bytes] using hlast

theorem Ok.textRight_iff (hok : w.Ok head cust text) (hne : ∀ b ∈ text, b ≠ 0)
    (hlen : text.length < MtLog.formatSize) (hcust : cust.length ≤ 65) :
    w.TextRight head cust text ↔ (w.Takes head cust text → w.Clean cust text) := by
  obtain ⟨b, hshort, hlong, hemits⟩ := hok.emits_iff hne hlen hcust
  have hclean : w.Clean cust text ↔ b = 0 := by
    by_cases hlt : text.length < logContentSize
    · exact ⟨fun _ => hshort hlt, fun _ => Or.inl hlt⟩
    · rw [hlong (Nat.not_lt.mp hlt)]
      exact ⟨fun h => h.resolve_left hlt, Or.inr⟩
  rw [hclean]
  constructor
  · intro hright htakes
    exact bytes_inj (hright _ ((hemits _).mpr ⟨htakes, rfl⟩))
  · intro hzero record hrecord
    obtain ⟨htakes, heq⟩ := (hemits record).mp hrecord
    rw [heq, hzero htakes]

end TextRun

/-- Two runs emit the same bytes. -/
def SameBytes (w w' : TextRun) (text : List UInt8) : Prop :=
  ∀ record record', w.Emits text record → w'.Emits text record' → record = record'

/-- For every text and any two runs with the same head and custom data: both emit the text and one
`NUL`, and the same bytes, exactly when in each the log is not taken, or its text is short, or the
byte behind it in the static buffer is `NUL`. -/
theorem text_emission_iff (w w' : TextRun) (head : LogHead) (cust text : List UInt8)
    (hok : w.Ok head cust text) (hok' : w'.Ok head cust text) (hne : ∀ b ∈ text, b ≠ 0)
    (hlen : text.length < MtLog.formatSize) (hcust : cust.length ≤ 65) :
    (w.TextRight head cust text ∧ w'.TextRight head cust text ∧ SameBytes w w' text) ↔
      (w.Takes head cust text → w.Clean cust text) ∧
        (w'.Takes head cust text → w'.Clean cust text) := by
  rw [← hok.textRight_iff hne hlen hcust, ← hok'.textRight_iff hne hlen hcust]
  constructor
  · rintro ⟨hright, hright', -⟩
    exact ⟨hright, hright'⟩
  · rintro ⟨hright, hright'⟩
    refine ⟨hright, hright', ?_⟩
    intro record record' hrecord hrecord'
    rw [hright record hrecord, hright' record' hrecord']

end Run

section Examples

/-- The memory with the last five bytes of a text of 257. -/
def fiveSaved : VmemRun :=
  ⟨(saveToVmem uncontended initVmem (List.replicate 5 98)).2, [(1048577, List.replicate 5 98)]⟩

/-- The first text is stored, and packed by an agent whose app buffers are empty. -/
def firstRun (run : VmemRun) (sLogBuf : Nat → UInt8) : TextRun where
  saveEnv := uncontended
  vmem := initVmem
  cell := ⟨logHead 7, 0, -1, []⟩
  packEnv := ⟨uncontended, uncontended⟩
  run := run
  agent := { freshAgent run.pools with sLogBuf := sLogBuf }

theorem vmem_firstRun (run : VmemRun) (sLogBuf : Nat → UInt8) :
    (firstRun run sLogBuf).agent.vmem = (firstRun run sLogBuf).run.pools := rfl

theorem stored_firstRun (run : VmemRun) (sLogBuf : Nat → UInt8) (text : List UInt8) :
    (firstRun run sLogBuf).stored text =
      (storeText uncontended initVmem ⟨logHead 7, 0, -1, []⟩ text).1 := rfl

theorem sLogBuf_firstRun (run : VmemRun) (sLogBuf : Nat → UInt8) :
    (firstRun run sLogBuf).agent.sLogBuf = sLogBuf := rfl

/-- It leaves five bytes in the memory. -/
def textRun (sLogBuf : Nat → UInt8) : TextRun := firstRun fiveSaved sLogBuf

theorem save_five : (saveToVmem uncontended initVmem (List.replicate 5 98)).1 = 1048577 :=
  save_first (by decide) (by decide)

theorem reached_fiveSaved : Reached fiveSaved := by
  refine ⟨[.save uncontended (List.replicate 5 98)], [1048577], ⟨trivial, fun _ _ _ => trivial⟩, ?_⟩
  simp only [runSteps, vmemStep, vmemStart, save_five]
  rfl

/-- A text of 257 letters. -/
def longText : List UInt8 := List.replicate (frontSize + 5) 98

theorem drop_longText : longText.drop frontSize = List.replicate 5 98 := by
  rw [longText, List.drop_replicate, Nat.add_sub_cancel_left]

theorem length_longText : longText.length = 257 := List.length_replicate

theorem index_longText (sLogBuf : Nat → UInt8) :
    ((textRun sLogBuf).stored longText).iVarmemIndex = 1048577 := by
  have hlong : logContentSize ≤ longText.length := by
    rw [length_longText]
    decide
  have hsaved : 0 < (saveToVmem uncontended initVmem (longText.drop frontSize)).1 := by
    rw [drop_longText, save_five]
    decide
  have hindex := @index_storeText uncontended initVmem ⟨logHead 7, 0, -1, []⟩ longText hlong hsaved
  rw [drop_longText, save_five] at hindex
  rw [textRun, stored_firstRun, hindex]

theorem textRun_ok (sLogBuf : Nat → UInt8) :
    (textRun sLogBuf).Ok (logHead 7) [] longText := by
  constructor
  · rfl
  · exact (by decide : (7 : Int32) ≠ 0)
  · exact (by decide : (1 : Int32) ≠ 0)
  · exact reached_fiveSaved
  · exact vmem_firstRun fiveSaved sLogBuf
  · exact Or.inl ⟨le_refl _, rfl⟩
  · intro _
    rw [index_longText, drop_longText]
    exact ⟨List.mem_singleton.mpr rfl, (by decide : (1048577 : Int) ≠ 0)⟩

theorem ne_zero_of_mem_longText : ∀ b ∈ longText, b ≠ 0 := by
  intro b hb
  rw [List.eq_of_mem_replicate hb]
  decide

/-- The static buffer after a text of one letter. -/
def afterShort : Nat → UInt8 := writeAt (fun _ => 0) 0 (LogRecord.bytes ⟨logHead 7, [], [97, 0]⟩)

/-- The static buffer after a text of 292 letters. -/
def afterLonger : Nat → UInt8 :=
  writeAt (fun _ => 0) 0 (LogRecord.bytes ⟨logHead 7, [], List.replicate 292 97 ++ [0]⟩)

theorem afterLonger_behind : afterLonger 287 ≠ 0 := by decide +kernel

/-- The long text comes out alike as the first one and behind a short one. -/
theorem text_emission_clean :
    (textRun fun _ => 0).TextRight (logHead 7) [] longText ∧
      (textRun afterShort).TextRight (logHead 7) [] longText ∧
      SameBytes (textRun fun _ => 0) (textRun afterShort) longText := by
  refine (text_emission_iff (textRun fun _ => 0) (textRun afterShort) (logHead 7) [] longText
    (textRun_ok _) (textRun_ok _) ne_zero_of_mem_longText ?_ (Nat.zero_le _)).mpr ⟨?_, ?_⟩
  · rw [length_longText]
    decide
  · exact fun _ => Or.inr rfl
  · intro _
    right
    rw [length_longText]
    decide

/-- Behind a longer text the byte of that one is sent. -/
theorem text_emission_stale :
    ¬ ∀ (w w' : TextRun) (head : LogHead) (cust text : List UInt8), w.Ok head cust text →
      w'.Ok head cust text → (∀ b ∈ text, b ≠ 0) → text.length < MtLog.formatSize →
      cust.length ≤ 65 → w.TextRight head cust text ∧ w'.TextRight head cust text ∧
        SameBytes w w' text := by
  intro hall
  have hlen : longText.length < MtLog.formatSize := by
    rw [length_longText]
    decide
  have hright := (hall (textRun fun _ => 0) (textRun afterLonger) (logHead 7) [] longText
    (textRun_ok _) (textRun_ok _) ne_zero_of_mem_longText hlen (Nat.zero_le _)).2.1
  have htakes : (textRun afterLonger).Takes (logHead 7) [] longText := by
    right
    exact ⟨Nat.zero_lt_succ _, List.mem_singleton.mpr rfl⟩
  have hclean := ((textRun_ok afterLonger).textRight_iff ne_zero_of_mem_longText hlen
    (Nat.zero_le _)).mp hright htakes
  rcases hclean with hshort | hzero
  · rw [length_longText] at hshort
    exact absurd hshort (by decide)
  · have hbehind : logInfoSize + ([] : List UInt8).length + 257 = 287 := by decide
    rw [length_longText, hbehind, textRun, sLogBuf_firstRun] at hzero
    exact afterLonger_behind hzero

end Examples

end XrkMonitor.LogBatch
