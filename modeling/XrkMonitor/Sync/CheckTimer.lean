import XrkMonitor.Packet.Signature
import XrkMonitor.Sync.LogConfig
import XrkMonitor.Timer.FreeCell

/-!
# The timer of a log-config check

`InitCheckLogConfig` makes the request and puts it into a timer under the
sequence number of the packet, and `OnPkgExpire` sends it. A table of more than
329 rows, or 327 with an enciphered signature, makes no packet. `MakePacket`
returns 0 then, and a timer with the key 0 is never armed, so nothing starts the
next check.

## Implementation notes

`MYSIZEOF(PKGSESSION)` is 36. The cipher of the signature and the bytes of the
client's TLV are parameters. The interval is written as the preprocessor expands
it: `CMD_CHECK_CONFIG_TIME_MS` has no parentheses.
-/

namespace XrkMonitor.Sync

open Library Packet Timer

def CMD_MONI_CHECK_LOG_CONFIG : Nat := 206
def REQ_PKG_HEAD_VERSION : UInt16 := 1
def SESS_FLAG_TIMEOUT_SENDPKG : UInt8 := 3

/-- The agent as far as a check reads it. `bFirst` is about the flag
`RESTART_FLAG_CHECK_LOG_CONFIG`, which is not set at the start. -/
structure CheckAgent where
  dwLastHelloOkTime : UInt32
  dwCurTime : UInt32
  dwPkgSeq : UInt32
  iEnableEncryptData : Bool
  bFirst : Bool
  stLogConfig : List SLogConfig
  length_stLogConfig : stLogConfig.length ≤ MAX_LOG_CONFIG_COUNT
  sSig : UInt32 → Vector UInt8 32
  stTlvInfo : Vector UInt8 52
  timer : MtReportTimer

/-- `IsHelloValid`. -/
def IsHelloValid (a : CheckAgent) : Prop := a.dwCurTime < a.dwLastHelloOkTime + 2 * 60

instance (a : CheckAgent) : Decidable (IsHelloValid a) := inferInstanceAs (Decidable (_ < _))

/-- The sequence number that `InitReqPkgHead` takes, and `dwPkgSeq` after it. -/
def nextPkgSeq (dwPkgSeq : UInt32) : UInt32 × UInt32 :=
  if dwPkgSeq = 0 then (1, 2) else (dwPkgSeq, dwPkgSeq + 1)

/-- `InitReqPkgHead`. -/
def initReqPkgHead (dwCmd : Nat) (dwSeq : UInt32) : ReqPkgHead where
  dwCmd := UInt32.ofNat dwCmd
  dwSeq := dwSeq
  wPkgLen := 0
  wToPkgBody := 0
  bRetCode := 0
  bResendTimes := 0
  wVersion := REQ_PKG_HEAD_VERSION
  dwRespMagicNum := 0
  sEchoBuf := Vector.replicate 32 0
  qwSessionId := 0
  sReserved := Vector.replicate 8 0

/-- The content that `MakeCheckLogConfigPkg` sets. -/
def checkContent (a : CheckAgent) (dwLastResponseTimeMs : UInt32) : List UInt8 :=
  requestContent configCodec dwLastResponseTimeMs.toNat
    (request configRows (askConfigSeq a.bFirst) a.stLogConfig)

/-- The parts that `MakeCheckLogConfigPkg` sets; without the cipher the signature is empty. -/
def checkParts (a : CheckAgent) (dwSeq dwLastResponseTimeMs : UInt32) : Parts where
  head := initReqPkgHead CMD_MONI_CHECK_LOG_CONFIG dwSeq
  sig := some (if a.iEnableEncryptData then
    ⟨UInt8.ofNat MT_SIGNATURE_TYPE_COMMON, (a.sSig dwSeq).toList⟩ else ⟨0, []⟩)
  content := checkContent a dwLastResponseTimeMs
  body := some ⟨[⟨UInt16.ofNat TLV_MONI_COMM_INFO, a.stTlvInfo.toList,
    length_stTlvInfo a.stTlvInfo⟩], one_tlv_lt _⟩

/-- What `MakeCheckLogConfigPkg` leaves in `pPkg`, and the key that it returns. -/
structure CheckPkg where
  pPkg : Option (List UInt8)
  dwKey : UInt32

/-- `MakeCheckLogConfigPkg`. -/
def makeCheckPkg (a : CheckAgent) (dwLastResponseTimeMs : UInt32) : CheckPkg × CheckAgent :=
  let (dwReqSeq, dwPkgSeq) := nextPkgSeq a.dwPkgSeq
  let pPkg := makePacket (checkParts a dwReqSeq dwLastResponseTimeMs) PKG_BUFF_LENGTH 0
  (⟨pPkg, if pPkg.isSome then dwReqSeq else 0⟩, { a with dwPkgSeq, bFirst := false })

/-- The bytes of `PKGSESSION` with its two fields that are set. -/
def pkgSession (iSockIndex : Int32) : List UInt8 :=
  (toBytes 4 iSockIndex.toUInt32.toNat).reverse ++ List.replicate 8 0 ++
    SESS_FLAG_TIMEOUT_SENDPKG :: List.replicate 23 0

/-- A call of `InitCheckLogConfig`: its arguments, what `rand`, the clock and `malloc` answer, and
the callback `OnPkgExpire`. -/
structure CheckCall where
  iSockIndex : Int32
  dwTimeOutMs : UInt32
  dwSrvRespTime : UInt32
  rand : Nat
  now : Nat
  isMalloc : Bool
  onPkgExpire : Nat

/-- `dwExpireTimeMs`. -/
def expireTimeMs (call : CheckCall) : Nat :=
  max (if call.dwTimeOutMs ≠ 0 then call.dwTimeOutMs.toNat else call.rand % 60 * 1000 + 1)
    (5 * 1000)

/-- The call of `AddTimer`. Where no packet was made, `pPkg` is the cleared buffer and `iPkgLen` is
still its size. -/
def checkTimerCall (call : CheckCall) (made : CheckPkg) : TimerCall where
  uiKey := made.dwKey.toNat
  uiTimeOut := expireTimeMs call
  onExpire := some call.onPkgExpire
  pSessShmData := pkgSession call.iSockIndex
  sData := made.pPkg.getD (List.replicate PKG_BUFF_LENGTH 0)

/-- What a check did: the packet, the arguments of `AddTimer`, and its results. -/
structure CheckTimer where
  made : CheckPkg
  timerCall : TimerCall
  iRet : Int
  pNode : Option Nat

/-- `InitCheckLogConfig`. -/
def initCheckLogConfig (a : CheckAgent) (call : CheckCall) : Option CheckTimer × CheckAgent :=
  if ¬ IsHelloValid a then (none, { a with timer := restartAgent a.timer })
  else
    let (made, a) := makeCheckPkg a call.dwSrvRespTime
    let timerCall := checkTimerCall call made
    let (iRet, pNode, timer) := addTimer a.timer timerCall call.now call.isMalloc
    (some ⟨made, timerCall, iRet, pNode⟩, { a with timer := timer })

/-- While the greeting is valid, a check makes its packet and arms a timer with it under a key that
is not zero. -/
def CheckSent (a : CheckAgent) (call : CheckCall) : Prop :=
  IsHelloValid a → ∃ check, (initCheckLogConfig a call).1 = some check ∧
    check.made.dwKey ≠ 0 ∧ check.timerCall.uiKey = check.made.dwKey.toNat ∧
    check.made.pPkg = some check.timerCall.sData ∧
    ArmedWith check.timerCall (check.iRet, check.pNode, (initCheckLogConfig a call).2.timer)

/-- The rows for which a packet has room. -/
def requestRows (iEnableEncryptData : Bool) : Nat := if iEnableEncryptData then 327 else 329

section Request

variable {a : CheckAgent}

theorem length_checkContent (dwLastResponseTimeMs : UInt32) :
    (checkContent a dwLastResponseTimeMs).length = 6 + 12 * a.stLogConfig.length := by
  have hrows : (request configRows (askConfigSeq a.bFirst) a.stLogConfig).length =
      a.stLogConfig.length := List.length_map _
  rw [checkContent, requestContent, List.length_append, List.length_append, length_toBytes,
    length_toBytes, length_entries configCodec_lawful, hrows]
  omega

theorem requestLen_le_iff (iEnableEncryptData : Bool) (n : Nat) :
    requestLen iEnableEncryptData n ≤ PKG_BUFF_LENGTH ↔ n ≤ requestRows iEnableEncryptData := by
  unfold requestLen requestRows PKG_BUFF_LENGTH
  cases iEnableEncryptData with
  | false =>
    simp only [Bool.false_eq_true, if_false]
    omega
  | true =>
    simp only [if_true]
    omega

theorem checkParts_fitsBuf_iff (dwSeq dwLastResponseTimeMs : UInt32) :
    (checkParts a dwSeq dwLastResponseTimeMs).fitsBuf PKG_BUFF_LENGTH ↔
      requestLen a.iEnableEncryptData a.stLogConfig.length ≤ PKG_BUFF_LENGTH := by
  have hsig : (checkParts a dwSeq dwLastResponseTimeMs).wRespSigLen =
      3 + if a.iEnableEncryptData then 32 else 0 := by
    unfold checkParts Parts.wRespSigLen
    cases a.iEnableEncryptData <;> simp [TSignature.bytes]
  have hbody : (checkParts a dwSeq dwLastResponseTimeMs).wRespBodyLen = 57 := by
    simp [checkParts, Parts.wRespBodyLen, TPkgBody.bytes, TWTlv.bytes]
  have hcontent : (checkParts a dwSeq dwLastResponseTimeMs).content.length =
      6 + 12 * a.stLogConfig.length := length_checkContent dwLastResponseTimeMs
  rw [Parts.fitsBuf, hsig, hbody, hcontent, requestLen]

theorem pPkg_makeCheckPkg (dwLastResponseTimeMs : UInt32) :
    (makeCheckPkg a dwLastResponseTimeMs).1.pPkg =
      makePacket (checkParts a (nextPkgSeq a.dwPkgSeq).1 dwLastResponseTimeMs) PKG_BUFF_LENGTH 0 :=
  rfl

theorem makeCheckPkg_isSome_iff (dwLastResponseTimeMs : UInt32) :
    (makeCheckPkg a dwLastResponseTimeMs).1.pPkg.isSome = true ↔
      a.stLogConfig.length ≤ requestRows a.iEnableEncryptData := by
  rw [← requestLen_le_iff, ← checkParts_fitsBuf_iff (nextPkgSeq a.dwPkgSeq).1 dwLastResponseTimeMs]
  rw [pPkg_makeCheckPkg, makePacket]
  split
  · rename_i hfit
    exact iff_of_true rfl hfit
  · rename_i hfit
    exact iff_of_false Bool.false_ne_true hfit

theorem nextPkgSeq_ne_zero (dwPkgSeq : UInt32) : (nextPkgSeq dwPkgSeq).1 ≠ 0 := by
  unfold nextPkgSeq
  split
  · decide
  · assumption

theorem dwKey_makeCheckPkg (dwLastResponseTimeMs : UInt32) :
    (makeCheckPkg a dwLastResponseTimeMs).1.dwKey =
      if (makeCheckPkg a dwLastResponseTimeMs).1.pPkg.isSome then (nextPkgSeq a.dwPkgSeq).1
      else 0 := rfl

theorem packet_pos {x : Parts} {iBufLen : Nat} {iRetCode : UInt8} {bytes : List UInt8}
    (h : makePacket x iBufLen iRetCode = some bytes) : 0 < bytes.length := by
  rw [makePacket] at h
  split at h
  · obtain rfl := Option.some.inj h
    rw [Parts.write, List.length_cons]
    exact Nat.succ_pos _
  · cases h

end Request

section Check

variable {a : CheckAgent} {call : CheckCall}

theorem timer_makeCheckPkg (dwLastResponseTimeMs : UInt32) :
    (makeCheckPkg a dwLastResponseTimeMs).2.timer = a.timer := rfl

theorem initCheckLogConfig_valid (h : IsHelloValid a) :
    initCheckLogConfig a call =
      (let made := (makeCheckPkg a call.dwSrvRespTime).1
       let result := addTimer a.timer (checkTimerCall call made) call.now call.isMalloc
       (some ⟨made, checkTimerCall call made, result.1, result.2.1⟩,
        { (makeCheckPkg a call.dwSrvRespTime).2 with timer := result.2.2 })) := by
  rw [initCheckLogConfig, if_neg (not_not_intro h), ← timer_makeCheckPkg call.dwSrvRespTime]

theorem sData_checkTimerCall {made : CheckPkg} {bytes : List UInt8} (h : made.pPkg = some bytes) :
    (checkTimerCall call made).sData = bytes := by
  change made.pPkg.getD _ = bytes
  rw [h, Option.getD_some]

theorem length_pkgSession_le (iSockIndex : Int32) :
    (pkgSession iSockIndex).length ≤ TIMER_NODE_SESS_DATA_LEN := by
  have hlen : (pkgSession iSockIndex).length = 36 := by simp [pkgSession]
  rw [hlen]
  decide

theorem checkSent_iff_armed (h : IsHelloValid a) :
    CheckSent a call ↔
      (makeCheckPkg a call.dwSrvRespTime).1.dwKey ≠ 0 ∧
        (makeCheckPkg a call.dwSrvRespTime).1.pPkg =
          some (checkTimerCall call (makeCheckPkg a call.dwSrvRespTime).1).sData ∧
        ArmedWith (checkTimerCall call (makeCheckPkg a call.dwSrvRespTime).1)
          (addTimer a.timer (checkTimerCall call (makeCheckPkg a call.dwSrvRespTime).1) call.now
            call.isMalloc) := by
  unfold CheckSent
  rw [initCheckLogConfig_valid h]
  dsimp only
  generalize addTimer a.timer (checkTimerCall call (makeCheckPkg a call.dwSrvRespTime).1) call.now
    call.isMalloc = result
  generalize (makeCheckPkg a call.dwSrvRespTime).1 = made
  constructor
  · intro hsent
    obtain ⟨check, hcheck, hkey, -, hmade, harmed⟩ := hsent h
    obtain rfl := Option.some.inj hcheck
    exact ⟨hkey, hmade, harmed⟩
  · rintro ⟨hkey, hmade, harmed⟩ -
    exact ⟨_, rfl, hkey, rfl, hmade, harmed⟩

theorem checkSent_iff_of_valid (h : IsHelloValid a) :
    CheckSent a call ↔
      a.stLogConfig.length ≤ requestRows a.iEnableEncryptData ∧
        Takes a.timer (nextPkgSeq a.dwPkgSeq).1.toNat ∧ call.isMalloc = true := by
  have hkey := dwKey_makeCheckPkg (a := a) call.dwSrvRespTime
  have hpacket := pPkg_makeCheckPkg (a := a) call.dwSrvRespTime
  rw [checkSent_iff_armed h, addTimer_armed_iff, ← makeCheckPkg_isSome_iff call.dwSrvRespTime]
  generalize (makeCheckPkg a call.dwSrvRespTime).1 = made at hkey hpacket ⊢
  have huiKey : (checkTimerCall call made).uiKey = made.dwKey.toNat := rfl
  rw [huiKey]
  constructor
  · rintro ⟨-, hmade, -, htakes, hmalloc⟩
    have hsome : made.pPkg.isSome = true := Option.isSome_iff_exists.mpr ⟨_, hmade⟩
    rw [hkey, if_pos hsome] at htakes
    exact ⟨hsome, htakes, hmalloc (packet_pos (hpacket.symm.trans hmade))⟩
  · rintro ⟨hsome, htakes, hmalloc⟩
    obtain ⟨bytes, hbytes⟩ := Option.isSome_iff_exists.mp hsome
    rw [hkey, if_pos hsome, sData_checkTimerCall hbytes]
    exact ⟨nextPkgSeq_ne_zero _, hbytes, length_pkgSession_le _, htakes, fun _ => hmalloc⟩

/-- For every table, every state of the timers and every call: a check is sent exactly if the
greeting is not valid any more and stops it, or the table has at most 329 rows (327 with an
enciphered signature), the timers take the sequence number up, and the packet can be copied. -/
theorem check_sent_iff (a : CheckAgent) (call : CheckCall) :
    CheckSent a call ↔
      ¬ IsHelloValid a ∨
        (a.stLogConfig.length ≤ requestRows a.iEnableEncryptData ∧
          Takes a.timer (nextPkgSeq a.dwPkgSeq).1.toNat ∧ call.isMalloc = true) := by
  by_cases h : IsHelloValid a
  · rw [checkSent_iff_of_valid h, or_iff_right (not_not_intro h)]
  · exact iff_of_true (fun hvalid => absurd hvalid h) (Or.inl h)

/-- A table of 330 rows. -/
def fullTable : List SLogConfig :=
  (List.range 330).map fun i => { SLogConfig.zero with dwSeq := 1, dwCfgId := UInt32.ofNat (i + 1) }

theorem length_fullTable : fullTable.length = 330 := by
  rw [fullTable, List.length_map, List.length_range]

theorem length_fullTable_le : fullTable.length ≤ MAX_LOG_CONFIG_COUNT := by
  rw [length_fullTable]
  decide

/-- An agent with this table, a valid greeting and no timer. -/
def fullAgent : CheckAgent where
  dwLastHelloOkTime := 1000
  dwCurTime := 1005
  dwPkgSeq := 7
  iEnableEncryptData := false
  bFirst := false
  stLogConfig := fullTable
  length_stLogConfig := length_fullTable_le
  sSig := fun _ => Vector.replicate 32 0
  stTlvInfo := Vector.replicate 52 0
  timer := initTimer 1000000000 1

/-- With 330 rows no packet is made, and no timer is armed, though all timers are free. -/
theorem full_table_stops : IsHelloValid fullAgent ∧
    ¬ CheckSent fullAgent ⟨0, 10000, 0, 0, 1000000000, true, 0⟩ := by
  have hvalid : IsHelloValid fullAgent := by
    unfold IsHelloValid fullAgent
    decide
  refine ⟨hvalid, ?_⟩
  rw [checkSent_iff_of_valid hvalid]
  rintro ⟨hrows, -⟩
  have hrows : fullTable.length ≤ 329 := hrows
  rw [length_fullTable] at hrows
  omega

end Check

end XrkMonitor.Sync
