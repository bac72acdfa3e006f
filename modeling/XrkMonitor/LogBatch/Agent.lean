import XrkMonitor.LogBatch.Record
import XrkMonitor.Vmem.Calls

/-!
# The agent packs pending logs

`ReadAppLogToBuf` builds a record in a static buffer from the pending log, its
custom data and the rest of its text in the variable-length memory, and appends
it to the buffer of the log's app.

## Implementation notes

`sLogBuf` is memory that keeps its bytes from call to call. What is written to
an app buffer is a list, so `iReadAppLogBufLen` is its length. The number of the
app buffer that took the record is part of the result here, as is the changed
log. `none` stands for a failed `assert`, a string that leaves its array, or a
walk in the memory that does not end.
-/

namespace XrkMonitor.LogBatch

open Library Vmem

/-- `MTREPORT_LOG_MAX_LENGTH + 256`, the size of `sLogBuf`. -/
def sLogBufSize : Nat := 1280

def MAX_APP_LOG_PKG_LENGTH : Nat := 1200

def MAX_APP_TYPE_READ_PER_EACH : Nat := 10

/-- `sizeof(plog->sLogContent) - 4`, the text that is not in the memory. -/
def frontSize : Nat := 252

/-- `MTLog`, the fields of `LogInfo` together. -/
structure MTLog where
  head : LogHead
  iCustVmemIndex : Int
  iVarmemIndex : Int
  sLogContent : List UInt8

/-- `TAppLogRead`. -/
structure TAppLogRead where
  iReadAppId : Int32
  sAppLogBuf : List UInt8
  iAppInfoIdx : Nat

/-- The part of `stConfig` and the memory that packing uses; `stAppConfigList`
is the ids of the known apps. -/
structure Agent where
  sLogBuf : Nat → UInt8
  bReadAppTypeCount : Nat
  stAppLogRead : Nat → TAppLogRead
  stAppConfigList : List Int32
  vmem : VmemPools

/-- The outcomes of compare-and-swap while the custom data and the text are
freed. -/
structure PackEnv where
  cust : VmemEnv
  text : VmemEnv

/-- The variables after a part of the record was built: its length, the log's
index for it, the buffer and the memory. -/
structure PartState where
  len : Nat
  index : Int
  sLogBuf : Nat → UInt8
  vmem : VmemPools

/-- The custom data: `wCustDataLen` and the buffer with the data behind `LogInfo`. -/
def copyCust (env : VmemEnv) (vmem : VmemPools) (sLogBuf : Nat → UInt8) (iCustVmemIndex : Int) :
    Option PartState :=
  if 0 < iCustVmemIndex then
    (getFromVmem vmem iCustVmemIndex (sLogBufSize - logInfoSize)).bind fun r =>
      let sLogBuf := writeAt sLogBuf logInfoSize r.2
      if 0 ≤ r.1 then
        (freeVmem env vmem iCustVmemIndex).map fun f => ⟨r.2.length % 2 ^ 16, 0, sLogBuf, f.2⟩
      else some ⟨0, iCustVmemIndex, sLogBuf, vmem⟩
  else some ⟨0, iCustVmemIndex, sLogBuf, vmem⟩

/-- The text: `iLogContentLen` and the buffer with the text from `pbuf` on. -/
def copyText (env : VmemEnv) (vmem : VmemPools) (sLogBuf : Nat → UInt8) (pbuf : Nat)
    (plog : MTLog) : Option PartState :=
  if plog.iVarmemIndex < 0 then
    if (0 : UInt8) ∈ plog.sLogContent then
      let str := cstr plog.sLogContent
      some ⟨str.length + 1, plog.iVarmemIndex, writeAt sLogBuf pbuf (str ++ [0]), vmem⟩
    else none
  else
    let sLogBuf := writeAt sLogBuf pbuf (plog.sLogContent.take frontSize)
    (getFromVmem vmem plog.iVarmemIndex (sLogBufSize - pbuf - frontSize - 1)).bind fun r =>
      let sLogBuf := writeAt sLogBuf (pbuf + frontSize) r.2
      let iLogContentLen := if 0 ≤ r.1 then frontSize + r.2.length + 1 else frontSize
      (freeVmem env vmem plog.iVarmemIndex).map fun f => ⟨iLogContentLen, 0, sLogBuf, f.2⟩

/-- The first app buffer of the app that has room for `iUseBufLen` bytes. -/
def findAppLogRead (a : Agent) (iAppId : Int32) (iUseBufLen : Nat) : Option Nat :=
  (List.range a.bReadAppTypeCount).find? fun i =>
    (a.stAppLogRead i).iReadAppId == iAppId &&
      iUseBufLen ≤ MAX_APP_LOG_PKG_LENGTH - (a.stAppLogRead i).sAppLogBuf.length

/-- The return code, the app buffer that took the record, the log and the agent. -/
structure PackResult where
  iRet : Int
  slot : Option Nat
  plog : MTLog
  agent : Agent

/-- The end of `ReadAppLogToBuf`: `record` is the first `iUseBufLen` bytes of
`sLogBuf`. -/
def putRecord (a : Agent) (plog : MTLog) (record : List UInt8) : Option PackResult :=
  match findAppLogRead a plog.head.iAppId record.length with
  | some i =>
    let slot := { a.stAppLogRead i with
      sAppLogBuf := (a.stAppLogRead i).sAppLogBuf ++ record }
    some ⟨0, some i, plog, { a with stAppLogRead := Function.update a.stAppLogRead i slot }⟩
  | none =>
    if MAX_APP_TYPE_READ_PER_EACH ≤ a.bReadAppTypeCount then some ⟨-1, none, plog, a⟩
    else if record.length < MAX_APP_LOG_PKG_LENGTH then
      let n := a.bReadAppTypeCount
      match a.stAppConfigList.idxOf? plog.head.iAppId with
      | some idx =>
        some ⟨0, some n, plog, { a with
          stAppLogRead := Function.update a.stAppLogRead n ⟨plog.head.iAppId, record, idx⟩
          bReadAppTypeCount := n + 1 }⟩
      | none =>
        let slot := { a.stAppLogRead n with
          iReadAppId := plog.head.iAppId
          sAppLogBuf := record }
        some ⟨0, none, plog, { a with stAppLogRead := Function.update a.stAppLogRead n slot }⟩
    else none

/-- `ReadAppLogToBuf`. -/
def readAppLogToBuf (env : PackEnv) (a : Agent) (plog : MTLog) : Option PackResult :=
  if plog.head.iAppId = 0 ∨ plog.head.iModuleId = 0 then none
  else
    let sLogBuf := writeAt a.sLogBuf 0 (headBytes plog.head)
    (copyCust env.cust a.vmem sLogBuf plog.iCustVmemIndex).bind fun c =>
      let sLogBuf := writeAt c.sLogBuf 26 (toBytes 2 c.len)
      (copyText env.text c.vmem sLogBuf (logInfoSize + c.len) plog).bind fun t =>
        let plog := { plog with iCustVmemIndex := c.index, iVarmemIndex := t.index }
        let sLogBuf := writeAt t.sLogBuf 28 (toBytes 2 t.len)
        putRecord { a with sLogBuf := sLogBuf, vmem := t.vmem } plog
          (bytesAt sLogBuf 0 (logInfoSize + c.len + t.len))

/-- A pending log: what it says, its record in the ring, and the strings that
hold its custom data and the rest of its text. -/
structure PendingLog where
  log : AppLog
  plog : MTLog
  env : PackEnv
  custChain : Option (SegId × Chain)
  textChain : Option (SegId × Chain)

namespace PendingLog

/-- The strings of the log in the memory. -/
def chains (p : PendingLog) : List (SegId × Chain) := p.custChain.toList ++ p.textChain.toList

/-- The record in the ring says what the log says, within the size limits. -/
structure Ok (p : PendingLog) : Prop where
  head : p.plog.head = p.log.head
  app : p.log.head.iAppId ≠ 0
  module : p.log.head.iModuleId ≠ 0
  seg : ∀ x ∈ p.chains, x.1.2 < VMEM_SHM_COUNT
  custNone : p.custChain = none → p.plog.iCustVmemIndex ≤ 0 ∧ p.log.cust = []
  custSome : ∀ x, p.custChain = some x →
    p.plog.iCustVmemIndex = chainIndex x.1 x.2 ∧ p.log.cust = x.2.data
  textNone : p.textChain = none →
    p.plog.iVarmemIndex < 0 ∧ ∃ rest, p.plog.sLogContent = p.log.text ++ 0 :: rest
  textSome : ∀ x, p.textChain = some x →
    p.plog.iVarmemIndex = chainIndex x.1 x.2 ∧ frontSize ≤ p.plog.sLogContent.length ∧
      p.log.text = p.plog.sLogContent.take frontSize ++ x.2.data
  text : ∀ b ∈ p.log.text, b ≠ 0
  size : logInfoSize + p.log.cust.length + p.log.text.length + 1 < MAX_APP_LOG_PKG_LENGTH

/-- Where the byte behind the text stands in `sLogBuf`. -/
def behind (p : PendingLog) : Nat := logInfoSize + p.log.cust.length + p.log.text.length

/-- The record that is built: the byte behind a text in the memory is not
written. -/
def record (p : PendingLog) (a : Agent) : LogRecord where
  head := p.log.head
  cust := p.log.cust
  content := p.log.text ++ [if p.textChain.isNone then 0 else a.sLogBuf p.behind]

end PendingLog

/-- Every listed string is stored, as often as it is listed. -/
def Owns (live : SegId → List Chain) (chains : List (SegId × Chain)) : Prop :=
  ∀ x, chains.count x ≤ (live x.1).count x.2

section Parts

variable {vmem : VmemPools} {live : SegId → List Chain} {chains : List (SegId × Chain)}

theorem Owns.take {x : SegId × Chain} (howns : Owns live (x :: chains)) (h : PoolsInv vmem live)
    (hg : x.1.2 < VMEM_SHM_COUNT) (env : VmemEnv) {iBufLen : Int}
    (hbuf : (x.2.data.length : Int) ≤ iBufLen) :
    getFromVmem vmem (chainIndex x.1 x.2) iBufLen = some (0, x.2.data) ∧
      ∃ vmem' live', freeVmem env vmem (chainIndex x.1 x.2) = some (0, vmem') ∧
        PoolsInv vmem' live' ∧ Owns live' chains := by
  obtain ⟨g, c⟩ := x
  have hcount : (chains.count (g, c)) + 1 ≤ (live g).count c := by
    have := howns (g, c)
    rwa [List.count_cons_self] at this
  have hc : c ∈ live g := List.count_pos_iff.mp (by omega)
  refine ⟨getFromVmem_stored h hg hc hbuf, ?_⟩
  obtain ⟨l₁, l₂, hl⟩ := List.append_of_mem hc
  obtain ⟨vmem', hfree, hinv⟩ := freeVmem_stored env h hg l₁ l₂ hl
  refine ⟨vmem', _, hfree, hinv, ?_⟩
  rintro ⟨g', c'⟩
  have hc' := howns (g', c')
  rw [List.count_cons] at hc'
  dsimp only at hc' ⊢
  by_cases hgg : g' = g
  · subst hgg
    rw [Function.update_self]
    rw [hl, List.count_append, List.count_cons] at hc'
    rw [List.count_append]
    by_cases hcc : c = c'
    · subst hcc
      simp only [beq_self_eq_true, if_true] at hc'
      omega
    · have hne : ((g', c) == (g', c')) = false := by simpa using hcc
      have hne' : (c == c') = false := by simpa using hcc
      simp only [hne, hne', Bool.false_eq_true, if_false] at hc'
      omega
  · rw [Function.update_of_ne hgg]
    exact le_trans (Nat.le_add_right _ _) hc'

variable {p : PendingLog} {rest : List (SegId × Chain)}

theorem copyCust_pending (sLogBuf : Nat → UInt8) (hp : p.Ok) (h : PoolsInv vmem live)
    (howns : Owns live (p.chains ++ rest)) :
    ∃ idx vmem' live', copyCust p.env.cust vmem sLogBuf p.plog.iCustVmemIndex =
        some ⟨p.log.cust.length, idx, writeAt sLogBuf logInfoSize p.log.cust, vmem'⟩ ∧
      PoolsInv vmem' live' ∧ Owns live' (p.textChain.toList ++ rest) := by
  have hsize := hp.size
  cases hcust : p.custChain with
  | none =>
    obtain ⟨hidx, hnil⟩ := hp.custNone hcust
    refine ⟨p.plog.iCustVmemIndex, vmem, live, ?_, h, ?_⟩
    · rw [copyCust, if_neg (by omega), hnil, writeAt_nil]
      rfl
    · simpa [PendingLog.chains, hcust] using howns
  | some x =>
    obtain ⟨hidx, hdata⟩ := hp.custSome x hcust
    have howns' : Owns live (x :: (p.textChain.toList ++ rest)) := by
      simpa [PendingLog.chains, hcust] using howns
    have hlen : (x.2.data.length : Int) ≤ (sLogBufSize : Int) - logInfoSize := by
      have : p.log.cust.length = x.2.data.length := by rw [hdata]
      simp only [sLogBufSize, logInfoSize, MAX_APP_LOG_PKG_LENGTH] at hsize ⊢
      omega
    obtain ⟨hget, vmem', live', hfree, hinv, hrest⟩ :=
      howns'.take h (hp.seg x (by simp [PendingLog.chains, hcust])) p.env.cust hlen
    have hpos := chainIndex_pos x.1 x.2
    have hmod : x.2.data.length % 2 ^ 16 = x.2.data.length := by
      apply Nat.mod_eq_of_lt
      have : p.log.cust.length = x.2.data.length := by rw [hdata]
      simp only [logInfoSize, MAX_APP_LOG_PKG_LENGTH] at hsize
      omega
    refine ⟨0, vmem', live', ?_, hinv, hrest⟩
    rw [copyCust, hidx, if_pos hpos, hget]
    simp only [Option.bind_some, hfree, Option.map_some, le_refl, if_true, hmod, hdata]

/-- The text is copied to `pbuf`, with a `NUL` or the byte that was there
behind it. -/
theorem copyText_pending (sLogBuf : Nat → UInt8) (hp : p.Ok) (h : PoolsInv vmem live)
    (howns : Owns live (p.textChain.toList ++ rest)) :
    ∃ idx sLogBuf' vmem' live', copyText p.env.text vmem sLogBuf
        (logInfoSize + p.log.cust.length) p.plog =
          some ⟨p.log.text.length + 1, idx, sLogBuf', vmem'⟩ ∧
      Stands sLogBuf' (logInfoSize + p.log.cust.length)
        (p.log.text ++ [if p.textChain.isNone then 0 else sLogBuf p.behind]) ∧
      (∀ q n, q + n ≤ logInfoSize + p.log.cust.length → bytesAt sLogBuf' q n = bytesAt sLogBuf q n) ∧
      PoolsInv vmem' live' ∧ Owns live' rest := by
  have hsize := hp.size
  cases htext : p.textChain with
  | none =>
    obtain ⟨hidx, tail, hcontent⟩ := hp.textNone htext
    have hstr : cstr p.plog.sLogContent = p.log.text := by
      rw [hcontent]
      exact cstr_append_nul hp.text tail
    refine ⟨p.plog.iVarmemIndex, writeAt sLogBuf (logInfoSize + p.log.cust.length)
      (p.log.text ++ [0]), vmem, live, ?_, ?_, ?_, h, ?_⟩
    · rw [copyText, if_pos hidx, if_pos (by rw [hcontent]; simp), hstr]
    · exact stands_writeAt _ _ _
    · intro q n hq
      exact bytesAt_writeAt_of_disjoint (Or.inl hq)
    · simpa [htext] using howns
  | some x =>
    obtain ⟨hidx, hfront, hdata⟩ := hp.textSome x htext
    have howns' : Owns live (x :: rest) := by simpa [htext] using howns
    have hfrontlen : (p.plog.sLogContent.take frontSize).length = frontSize := by
      rw [List.length_take]
      omega
    have htextlen : p.log.text.length = frontSize + x.2.data.length := by
      rw [hdata, List.length_append, hfrontlen]
    have hlen : (x.2.data.length : Int) ≤
        (sLogBufSize : Int) - (logInfoSize + p.log.cust.length : Nat) - frontSize - 1 := by
      simp only [sLogBufSize, logInfoSize, frontSize, MAX_APP_LOG_PKG_LENGTH] at hsize htextlen ⊢
      omega
    obtain ⟨hget, vmem', live', hfree, hinv, hrest⟩ :=
      howns'.take h (hp.seg x (by simp [PendingLog.chains, htext])) p.env.text hlen
    have hpos := chainIndex_pos x.1 x.2
    refine ⟨0, writeAt (writeAt sLogBuf (logInfoSize + p.log.cust.length)
      (p.plog.sLogContent.take frontSize)) (logInfoSize + p.log.cust.length + frontSize) x.2.data,
      vmem', live', ?_, ?_, ?_, hinv, hrest⟩
    · rw [copyText, hidx, if_neg (by omega), hget]
      simp only [Option.bind_some, hfree, Option.map_some, le_refl, if_true, htextlen]
    · rw [hdata, List.append_assoc]
      refine stands_append.mpr ⟨?_, stands_append.mpr ⟨?_, ?_⟩⟩
      · exact (stands_writeAt _ _ _).writeAt (Or.inl (by rw [hfrontlen]))
      · rw [hfrontlen]
        exact stands_writeAt _ _ _
      · rw [hfrontlen]
        refine stands_cons.mpr ⟨?_, rfl⟩
        have hbehind : p.behind = logInfoSize + p.log.cust.length + frontSize + x.2.data.length := by
          rw [PendingLog.behind, htextlen]
          omega
        simp [writeAt, hfrontlen, hbehind]
    · intro q n hq
      rw [bytesAt_writeAt_of_disjoint (Or.inl (by omega)),
        bytesAt_writeAt_of_disjoint (Or.inl (by omega))]

end Parts

end XrkMonitor.LogBatch
