import XrkMonitor.Config.LogFreq
import XrkMonitor.LogBatch.Server

/-!
# The frequency limit in packets of logs

`OnRawDataClientLog` and `OnRawDataLocalPkg` ask the limiter for each log of a packet and
leave the loop at the first log that is over the limit of its configuration. Whether they
answer `ERR_LOG_FREQ_OVER_LIMIT` is read off the place where the loop stopped, so that all
logs behind are given up with it, those of other configurations too.

## Implementation notes

The client loop is the one of `LogBatch.Server`, with the counters of `Config.LogFreq` as its
limiter. The rounds in which a log went to the writer are kept. A packet of the local kind is
given by its app and its logs, or nothing where it cannot be parsed; of a log the configuration
and the time are kept. `WriteAppLogToShm` and `RemoteShmLog` are the writers.
-/

namespace XrkMonitor.LogBatch

open Library
open Config (FreqServer isLogFreqOver)

/-- The answers to a packet of logs. -/
inductive AckCode
  | NO_ERROR
  | ERR_INVALID_PACKET
  | ERR_INVALID_APPID
  | ERR_APP_LOG_DISPATCH_INVALID
  | ERR_LOG_FREQ_OVER_LIMIT
deriving DecidableEq, Repr

section Client

/-- The variables of the client loop, the limiter, and the rounds that wrote a log. -/
structure ClientRun where
  st : LoopState
  server : FreqServer
  written : List Nat

/-- What the loop gets from outside, with the answers of the limiter. -/
def limitEnv (env : ServerEnv) (s : FreqServer) (now : Nat) : ServerEnv :=
  { env with isLogFreqOver := fun _ cfg => (isLogFreqOver s cfg.toNat now).1 }

/-- The limiter after it was asked for the log at `iRead`. -/
def askLimit (now : Nat) (content : List UInt8) (iRead : Nat) (s : FreqServer) : FreqServer :=
  if iRead + logInfoSize < content.length then
    let head := (logInfoNtoH ((content.drop iRead).take logInfoSize)).1
    (isLogFreqOver s head.dwLogConfigId.toNat now).2
  else s

/-- The loop of `OnRawDataClientLog` with its limiter. -/
def clientLoop (env : ServerEnv) (now : Nat) (content : List UInt8) :
    Nat → Nat → ClientRun → LoopEnd × ClientRun
  | 0, _, x => (.endless, x)
  | fuel + 1, round, x =>
    let server := askLimit now content x.st.iRead x.server
    match logRound (limitEnv env x.server now) content round x.st with
    | .error e => (e, { x with server := server })
    | .ok st =>
      clientLoop env now content fuel (round + 1)
        { st := st
          server := server
          written :=
            if st.writes.length = x.st.writes.length then x.written else x.written ++ [round] }

/-- The answer of `OnRawDataClientLog`; there is none to a loop that does not end or leaves the
content. -/
def clientAck (content : List UInt8) (r : LoopEnd × ClientRun) : Option AckCode :=
  match r.1 with
  | .finished | .freqOver =>
    if r.2.st.iRead + logInfoSize < content.length then some .ERR_LOG_FREQ_OVER_LIMIT
    else some .NO_ERROR
  | .invalidPacket => some .ERR_INVALID_PACKET
  | .dispatchInvalid => some .ERR_APP_LOG_DISPATCH_INVALID
  | .invalidAppid => some .ERR_INVALID_APPID
  | .outside | .endless => none

end Client

section Local

/-- The fields of `SlogLogInfo` that the loop uses. -/
structure SlogLogInfo where
  uint32_log_config_id : UInt32
  uint64_log_time : UInt64
deriving DecidableEq

/-- The limiter, the rounds that wrote a log, and the logs that were written. -/
structure LocalRun where
  server : FreqServer
  written : List Nat
  writes : List (TSLogShm × SlogLogInfo)

/-- The loop of `OnRawDataLocalPkg`, with the round in which it stopped. -/
def localLoop (env : ServerEnv) (now : Nat) (pLogShm : TSLogShm) :
    List SlogLogInfo → Nat → LocalRun → Nat × LocalRun
  | [], i, x => (i, x)
  | plog :: logs, i, x =>
    let (isOver, server) := isLogFreqOver x.server plog.uint32_log_config_id.toNat now
    if isOver then (i, { x with server := server })
    else
      localLoop env now pLogShm logs (i + 1)
        { server := server
          written := x.written ++ [i]
          writes := x.writes ++
            [(pLogShm, { plog with uint64_log_time := correctTime env i plog.uint64_log_time })] }

/-- The checks of `OnRawDataLocalPkg` before the loop. -/
def localCheck (env : ServerEnv) (mapAppLogShm : Int32 → Option TSLogShm) (iAppId : Int32)
    (logs : Option (List SlogLogInfo)) : Except AckCode (TSLogShm × List SlogLogInfo) :=
  match logs with
  | none => .error .ERR_INVALID_PACKET
  | some logs =>
    if logs.length = 0 then .error .ERR_INVALID_PACKET
    else
      match env.getAppInfo iAppId with
      | none => .error .ERR_INVALID_APPID
      | some pAppInfo =>
        if env.isIpMatchMachine pAppInfo.dwAppSrvMaster ≠ 1 then
          .error .ERR_APP_LOG_DISPATCH_INVALID
        else
          match (findAppLogShm env none mapAppLogShm pAppInfo).1 with
          | none => .error .ERR_INVALID_APPID
          | some shm => .ok (shm, logs)

end Local

/-- A packet of logs. -/
inductive LogPacket
  | client (content : List UInt8)
  | localPkg (iAppId : Int32) (logs : Option (List SlogLogInfo))

/-- The answer to a packet, the limiter after it, and the rounds that wrote a log. -/
structure PacketResult where
  ack : Option AckCode
  server : FreqServer
  written : List Nat

/-- `OnRawDataClientLog` and `OnRawDataLocalPkg`. -/
def handlePacket (env : ServerEnv) (now : Nat) (mapAppLogShm : Int32 → Option TSLogShm)
    (s : FreqServer) : LogPacket → PacketResult
  | .client content =>
    let r := clientLoop env now content (content.length + 1) 0 ⟨⟨0, none, mapAppLogShm, []⟩, s, []⟩
    ⟨clientAck content r, r.2.server, r.2.written⟩
  | .localPkg iAppId logs =>
    match localCheck env mapAppLogShm iAppId logs with
    | .error e => ⟨some e, s, []⟩
    | .ok (shm, logs) =>
      let r := localLoop env now shm logs 0 ⟨s, [], []⟩
      ⟨some (if r.1 < logs.length then .ERR_LOG_FREQ_OVER_LIMIT else .NO_ERROR),
        r.2.server, r.2.written⟩

section Statement

/-- A log of a packet: its configuration, and its app where its lengths fit the packet. -/
structure PacketLog where
  dwLogConfigId : UInt32
  app : Option Int32
deriving DecidableEq

/-- The logs in a content from a position on; behind one whose lengths do not fit there are none. -/
def packetLogs (content : List UInt8) : Nat → Nat → List PacketLog
  | 0, _ => []
  | fuel + 1, iRead =>
    if iRead + logInfoSize < content.length then
      let (head, wCustDataLen, wLogDataLen) :=
        logInfoNtoH ((content.drop iRead).take logInfoSize)
      if content.length < iRead + logInfoSize + wCustDataLen + wLogDataLen then
        [⟨head.dwLogConfigId, none⟩]
      else
        ⟨head.dwLogConfigId, some head.iAppId⟩ ::
          packetLogs content fuel (iRead + logInfoSize + wCustDataLen + wLogDataLen)
    else []

/-- The logs of a packet; a local packet that does not pass the checks has none. -/
def LogPacket.logs (env : ServerEnv) (mapAppLogShm : Int32 → Option TSLogShm) :
    LogPacket → List PacketLog
  | .client content => packetLogs content (content.length + 1) 0
  | .localPkg iAppId logs =>
    match localCheck env mapAppLogShm iAppId logs with
    | .error _ => []
    | .ok (_, logs) => logs.map fun plog => ⟨plog.uint32_log_config_id, some iAppId⟩

/-- A well-formed log of a known app. -/
def Known (env : ServerEnv) (log : PacketLog) : Prop :=
  ∃ iAppId, log.app = some iAppId ∧ (env.getAppInfo iAppId).isSome = true

/-- The limiter of a configuration has reached its limit: a minute runs, and one more log is as
many as the limit. -/
def AtLimit (s : FreqServer) (dwLogConfigId : UInt32) (now : Nat) : Prop :=
  ∃ p ∈ Config.chargedSlot s dwLogConfigId.toNat,
    (s.freq p).dwLogFreqStartTime ≠ 0 ∧ now < ((s.freq p).dwLogFreqStartTime + 60) % 2 ^ 32 ∧
      Config.toInt (s.table.stConfig p).dwSpeedFreq ≤ (s.freq p).iLogWriteCount + 1

/-- The limiter after it was asked for some logs. -/
def limiterAfter (s : FreqServer) (now : Nat) (logs : List PacketLog) : FreqServer :=
  logs.foldl (fun s log => (isLogFreqOver s log.dwLogConfigId.toNat now).2) s

/-- The limiter of log `j` has reached its limit when the logs before it have been counted. -/
def LimitReached (s : FreqServer) (now : Nat) (logs : List PacketLog) (j : Nat) : Prop :=
  ∃ log, logs[j]? = some log ∧ AtLimit (limiterAfter s now (logs.take j)) log.dwLogConfigId now

/-- Log `j` is not written although it is well-formed and of a known app, and the packet is answered
with the limit. -/
def LeftOut (env : ServerEnv) (logs : List PacketLog) (r : PacketResult) (j : Nat) : Prop :=
  r.ack = some .ERR_LOG_FREQ_OVER_LIMIT ∧ j ∉ r.written ∧ ∃ log, logs[j]? = some log ∧ Known env log

/-- A log is left out only for its own configuration, and the answer tells whether one was. -/
def RateFair (env : ServerEnv) (now : Nat) (logs : List PacketLog) (r : PacketResult) : Prop :=
  (∀ j log, logs[j]? = some log → LeftOut env logs r j → AtLimit r.server log.dwLogConfigId now) ∧
    (r.ack = some .ERR_LOG_FREQ_OVER_LIMIT ↔ ∃ j, LeftOut env logs r j)

/-- The logs before `k` pass the limiter and those of known apps are written, no other is, and the
packet is answered with the limit when the limiter of log `k` has reached it. -/
structure StopsAt (env : ServerEnv) (now : Nat) (s : FreqServer) (logs : List PacketLog)
    (r : PacketResult) (k : Nat) : Prop where
  le : k ≤ logs.length
  passed : ∀ j < k, ¬ LimitReached s now logs j
  written : ∀ j log, logs[j]? = some log → Known env log → (j ∈ r.written ↔ j < k)
  overLimit : r.ack = some .ERR_LOG_FREQ_OVER_LIMIT ↔ LimitReached s now logs k

end Statement

section Limiter

variable {s : FreqServer} {now : Nat} {log : PacketLog} {logs : List PacketLog} {j : Nat}

theorem findLogConfig_frame (s : FreqServer) (id : Int) :
    (Config.findLogConfig s id).table = s.table ∧ (Config.findLogConfig s id).freq = s.freq := by
  unfold Config.findLogConfig
  split
  · exact ⟨rfl, rfl⟩
  · split
    · exact ⟨rfl, rfl⟩
    · split
      · exact ⟨rfl, rfl⟩
      · exact ⟨rfl, rfl⟩

theorem isLogFreqOver_fst (s : FreqServer) (cfg : UInt32) (now : Nat) :
    (isLogFreqOver s cfg.toNat now).1 = true ↔ AtLimit s cfg now := by
  obtain ⟨htable, hfreq⟩ := findLogConfig_frame s cfg.toNat
  unfold isLogFreqOver AtLimit Config.chargedSlot
  cases hslot : (Config.findLogConfig s cfg.toNat).s_pLogConfig with
  | none => simp [hslot]
  | some p =>
    simp only [hslot, htable, hfreq]
    by_cases hspeed : (s.table.stConfig p).dwSpeedFreq = 0
    · simp [hspeed]
    · rw [if_pos hspeed]
      have hfilter : (some p).filter (fun p => (s.table.stConfig p).dwSpeedFreq != 0) = some p := by
        simp [hspeed]
      rw [hfilter]
      simp only [Config.chargeFreq, Option.mem_some_iff, exists_eq_left']
      split
      · rename_i hnew
        simp only [Bool.false_eq_true, false_iff, not_and]
        intro hstart hopen
        omega
      · rename_i hopen
        split
        · rename_i hfull
          simp only [true_iff]
          exact ⟨fun h => hopen (Or.inl h), by omega, hfull⟩
        · rename_i hfree
          simp only [Bool.false_eq_true, false_iff, not_and]
          exact fun _ _ => hfree

theorem limitReached_zero :
    LimitReached s now (log :: logs) 0 ↔ AtLimit s log.dwLogConfigId now := by
  simp [LimitReached, limiterAfter]

theorem limitReached_succ :
    LimitReached s now (log :: logs) (j + 1) ↔
      LimitReached (isLogFreqOver s log.dwLogConfigId.toNat now).2 now logs j := by
  simp [LimitReached, limiterAfter]

end Limiter

section Scheme

/-- What the rest of a loop does that starts in round `base` with the rounds `before` written. -/
structure LoopStops (env : ServerEnv) (now : Nat) (s : FreqServer) (logs : List PacketLog)
    (base : Nat) (before done : List Nat) (overLimit : Prop) (k : Nat) : Prop where
  le : k ≤ logs.length
  passed : ∀ j < k, ¬ LimitReached s now logs j
  written : ∀ j log, logs[j]? = some log → Known env log → (base + j ∈ done ↔ j < k)
  earlier : ∀ i < base, i ∈ done ↔ i ∈ before
  overLimit : overLimit ↔ LimitReached s now logs k

variable {env : ServerEnv} {now base k : Nat} {s : FreqServer} {log : PacketLog}
  {logs : List PacketLog} {before before' done : List Nat} {overLimit : Prop}

theorem LoopStops.stop (hbefore : ∀ i ∈ before, i < base)
    (hover : overLimit ↔ LimitReached s now logs 0) :
    LoopStops env now s logs base before before overLimit 0 where
  le := Nat.zero_le _
  passed := by simp
  written := by
    intro j log _ _
    simp only [Nat.not_lt_zero, iff_false]
    intro hmem
    have hlt := hbefore _ hmem
    omega
  earlier := fun _ _ => Iff.rfl
  overLimit := hover

theorem LoopStops.cons (hpass : ¬ AtLimit s log.dwLogConfigId now)
    (hbefore : ∀ i < base, i ∈ before' ↔ i ∈ before) (hknown : Known env log → base ∈ before')
    (h : LoopStops env now (isLogFreqOver s log.dwLogConfigId.toNat now).2 logs (base + 1)
      before' done overLimit k) :
    LoopStops env now s (log :: logs) base before done overLimit (k + 1) where
  le := by
    rw [List.length_cons]
    exact Nat.succ_le_succ h.le
  passed := by
    intro j hj
    cases j with
    | zero => rwa [limitReached_zero]
    | succ j =>
      rw [limitReached_succ]
      exact h.passed j (Nat.lt_of_succ_lt_succ hj)
  written := by
    intro j log' hj hlog'
    cases j with
    | zero =>
      obtain rfl : log = log' := by simpa using hj
      have hmem := (h.earlier base (Nat.lt_succ_self base)).mpr (hknown hlog')
      simpa using hmem
    | succ j =>
      have hrest := h.written j log' (by simpa using hj) hlog'
      rw [Nat.add_assoc, Nat.add_comm 1 j] at hrest
      rw [hrest, Nat.succ_lt_succ_iff]
  earlier := by
    intro i hi
    rw [h.earlier i (Nat.lt_succ_of_lt hi), hbefore i hi]
  overLimit := by
    rw [limitReached_succ]
    exact h.overLimit

end Scheme

section Loops

variable {env : ServerEnv} {now : Nat}

theorem localLoop_stops (shm : TSLogShm) (iAppId : Int32) (logs : List SlogLogInfo) (i : Nat)
    (x : LocalRun) (hbefore : ∀ j ∈ x.written, j < i) :
    ∃ k, LoopStops env now x.server
        (logs.map fun plog => ⟨plog.uint32_log_config_id, some iAppId⟩) i x.written
        (localLoop env now shm logs i x).2.written
        ((localLoop env now shm logs i x).1 < i + logs.length) k := by
  induction logs generalizing i x with
  | nil =>
    refine ⟨0, LoopStops.stop hbefore ?_⟩
    simp [localLoop, LimitReached]
  | cons plog logs ih =>
    rw [List.map_cons, localLoop]
    by_cases hover : (isLogFreqOver x.server plog.uint32_log_config_id.toNat now).1 = true
    · refine ⟨0, ?_⟩
      simp only [hover, if_true]
      apply LoopStops.stop hbefore
      rw [limitReached_zero]
      simp [(isLogFreqOver_fst _ _ _).mp hover]
    · have hpass := (not_congr (isLogFreqOver_fst _ _ _)).mp hover
      simp only [hover, Bool.false_eq_true, if_false]
      obtain ⟨k, hk⟩ := ih (i + 1)
        { server := (isLogFreqOver x.server plog.uint32_log_config_id.toNat now).2
          written := x.written ++ [i]
          writes := x.writes ++
            [(shm, { plog with uint64_log_time := correctTime env i plog.uint64_log_time })] } (by
          intro j hj
          rcases List.mem_append.mp hj with hj | hj
          · exact Nat.lt_succ_of_lt (hbefore j hj)
          · obtain rfl : j = i := by simpa using hj
            exact Nat.lt_succ_self j)
      rw [List.length_cons, Nat.add_comm logs.length 1, ← Nat.add_assoc]
      refine ⟨k + 1, LoopStops.cons hpass ?_ (fun _ => ?_) hk⟩
      · intro j hj
        simp [Nat.ne_of_lt hj]
      · simp

theorem localCheck_ne {mapAppLogShm : Int32 → Option TSLogShm} {iAppId : Int32}
    {logs : Option (List SlogLogInfo)} {e : AckCode}
    (h : localCheck env mapAppLogShm iAppId logs = .error e) : e ≠ .ERR_LOG_FREQ_OVER_LIMIT := by
  rintro rfl
  unfold localCheck at h
  split at h
  · simp at h
  · split at h
    · simp at h
    · split at h
      · simp at h
      · split at h
        · simp at h
        · split at h
          · simp at h
          · simp at h

theorem readRecord_limit (env : ServerEnv) (content : List UInt8) (round iRead : Nat)
    (hmore : iRead + logInfoSize < content.length) :
    let info := logInfoNtoH ((content.drop iRead).take logInfoSize)
    let next := iRead + logInfoSize + info.2.1 + info.2.2
    readRecord env content round iRead =
      if env.isLogFreqOver round info.1.dwLogConfigId then .error .freqOver
      else if content.length < next then .error .invalidPacket
      else .ok (⟨info.1, (content.drop (iRead + logInfoSize)).take info.2.1,
        (content.drop (iRead + logInfoSize + info.2.1)).take info.2.2⟩, next) := by
  rw [readRecord, if_pos hmore, readAt_of_le (show iRead + logInfoSize ≤ content.length by omega),
    Option.map_some]
  generalize logInfoNtoH ((content.drop iRead).take logInfoSize) = info
  obtain ⟨head, wCustDataLen, wLogDataLen⟩ := info
  dsimp only
  split
  · rfl
  · split
    · rfl
    · rename_i hfit
      rw [readAt_of_le (show iRead + logInfoSize + wCustDataLen ≤ content.length by omega),
        readAt_of_le (show iRead + logInfoSize + wCustDataLen + wLogDataLen ≤
          content.length by omega)]

theorem writeRecord_ends (env : ServerEnv) (round : Nat) (st : LoopState) (r : LogRecord) :
    (∃ e, writeRecord env round st r = .error e ∧ e ≠ .freqOver ∧ e ≠ .finished) ∨
      ∃ st', writeRecord env round st r = .ok st' ∧ st'.iRead = st.iRead ∧
        ((env.getAppInfo r.head.iAppId).isSome = true → st'.writes.length ≠ st.writes.length) := by
  unfold writeRecord
  split
  · rename_i hnone
    exact Or.inr ⟨st, rfl, rfl, by simp [hnone]⟩
  · split
    · exact Or.inl ⟨_, rfl, by simp, by simp⟩
    · split
      · exact Or.inl ⟨_, rfl, by simp, by simp⟩
      · exact Or.inr ⟨_, rfl, rfl, by simp⟩

theorem packetLogs_more (content : List UInt8) (fuel iRead : Nat)
    (hmore : iRead + logInfoSize < content.length) :
    let info := logInfoNtoH ((content.drop iRead).take logInfoSize)
    let next := iRead + logInfoSize + info.2.1 + info.2.2
    ∃ log rest, packetLogs content (fuel + 1) iRead = log :: rest ∧
      log.dwLogConfigId = info.1.dwLogConfigId ∧
      (next ≤ content.length →
        log.app = some info.1.iAppId ∧ rest = packetLogs content fuel next) := by
  rw [packetLogs, if_pos hmore]
  generalize logInfoNtoH ((content.drop iRead).take logInfoSize) = info
  obtain ⟨head, wCustDataLen, wLogDataLen⟩ := info
  dsimp only
  split
  · rename_i hshort
    exact ⟨_, _, rfl, rfl, fun hfit => absurd hfit (Nat.not_le_of_lt hshort)⟩
  · exact ⟨_, _, rfl, rfl, fun _ => ⟨rfl, rfl⟩⟩

theorem clientAck_ne (content : List UInt8) {e : LoopEnd} (x : ClientRun) (hover : e ≠ .freqOver)
    (hfinished : e ≠ .finished) : clientAck content (e, x) ≠ some .ERR_LOG_FREQ_OVER_LIMIT := by
  cases e with
  | finished => exact absurd rfl hfinished
  | freqOver => exact absurd rfl hover
  | _ => simp [clientAck]

/-- The loop ends over the limit exactly when the limiter of the log it stopped at has reached it,
and only then something is left behind the place where it stopped. -/
theorem clientLoop_stops (content : List UInt8) (fuel round : Nat) (x : ClientRun)
    (hbefore : ∀ j ∈ x.written, j < round) :
    ∃ k, LoopStops env now x.server (packetLogs content fuel x.st.iRead) round x.written
        (clientLoop env now content fuel round x).2.written
        (clientAck content (clientLoop env now content fuel round x) =
          some .ERR_LOG_FREQ_OVER_LIMIT) k := by
  induction fuel generalizing round x with
  | zero =>
    refine ⟨0, LoopStops.stop hbefore ?_⟩
    simp [clientLoop, clientAck, packetLogs, LimitReached]
  | succ fuel ih =>
    by_cases hmore : x.st.iRead + logInfoSize < content.length
    · have hread := readRecord_limit (limitEnv env x.server now) content round x.st.iRead hmore
      obtain ⟨log, rest, hlogs, hcfg, hfits⟩ := packetLogs_more content fuel x.st.iRead hmore
      have hask : askLimit now content x.st.iRead x.server =
          (isLogFreqOver x.server log.dwLogConfigId.toNat now).2 := by
        rw [askLimit, if_pos hmore, hcfg]
      generalize logInfoNtoH ((content.drop x.st.iRead).take logInfoSize) = info at *
      obtain ⟨head, wCustDataLen, wLogDataLen⟩ := info
      dsimp only at hread hcfg hfits
      have hlimit : (limitEnv env x.server now).isLogFreqOver round head.dwLogConfigId = true ↔
          AtLimit x.server log.dwLogConfigId now := by
        rw [← isLogFreqOver_fst, hcfg]
        rfl
      rw [hlogs, clientLoop, hask, logRound, hread]
      by_cases hover : AtLimit x.server log.dwLogConfigId now
      · rw [if_pos (hlimit.mpr hover)]
        refine ⟨0, LoopStops.stop hbefore ?_⟩
        rw [limitReached_zero]
        simp [clientAck, hmore, hover]
      · rw [if_neg (mt hlimit.mp hover)]
        by_cases hfit : content.length < x.st.iRead + logInfoSize + wCustDataLen + wLogDataLen
        · rw [if_pos hfit]
          refine ⟨0, LoopStops.stop hbefore ?_⟩
          rw [limitReached_zero]
          simp [clientAck, hover]
        · obtain ⟨happ, rfl⟩ := hfits (Nat.le_of_not_lt hfit)
          rw [if_neg hfit]
          dsimp only
          generalize hrecord : LogRecord.mk head _ _ = r
          have hid : r.head.iAppId = head.iAppId := by rw [← hrecord]
          rcases writeRecord_ends (limitEnv env x.server now) round
              { x.st with
                iRead := x.st.iRead + logInfoSize + wCustDataLen + wLogDataLen } r with
            ⟨e, hwrite, hnot, hmiss⟩ | ⟨st', hwrite, hpos, hgrows⟩
          · rw [hwrite]
            refine ⟨0, LoopStops.stop hbefore ?_⟩
            rw [limitReached_zero]
            exact ⟨fun hack => absurd hack (clientAck_ne content _ hnot hmiss),
              fun hreached => absurd hreached hover⟩
          · rw [hwrite]
            dsimp only
            generalize hdone : (if st'.writes.length = x.st.writes.length then x.written
              else x.written ++ [round]) = done
            have hmem : ∀ j ∈ done, j ∈ x.written ∨ j = round := by
              intro j hj
              rw [← hdone] at hj
              split at hj
              · exact Or.inl hj
              · simpa using hj
            have hkept : ∀ j ∈ x.written, j ∈ done := by
              intro j hj
              rw [← hdone]
              split
              · exact hj
              · exact List.mem_append_left [round] hj
            obtain ⟨k, hk⟩ := ih (round + 1)
              ⟨st', (isLogFreqOver x.server log.dwLogConfigId.toNat now).2, done⟩ (by
                intro j hj
                rcases hmem j hj with hj | rfl
                · exact Nat.lt_succ_of_lt (hbefore j hj)
                · exact Nat.lt_succ_self _)
            rw [hpos] at hk
            refine ⟨k + 1, LoopStops.cons hover ?_ ?_ hk⟩
            · intro j hj
              constructor
              · intro hjdone
                exact (hmem j hjdone).resolve_right (Nat.ne_of_lt hj)
              · exact hkept j
            · rintro ⟨iAppId, hsome, hknown⟩
              obtain rfl : head.iAppId = iAppId := Option.some.inj (happ.symm.trans hsome)
              rw [← hdone, if_neg (hgrows (hid ▸ hknown))]
              simp
    · refine ⟨0, ?_⟩
      have hnone : packetLogs content (fuel + 1) x.st.iRead = [] := by
        rw [packetLogs, if_neg hmore]
      rw [hnone, clientLoop, logRound, readRecord, if_neg hmore]
      apply LoopStops.stop hbefore
      simp [clientAck, hmore, LimitReached]

end Loops

/-- Configuration 5 has reached its limit of ten, configuration 6 has no limit. -/
def limitedServer : FreqServer where
  table :=
    { Config.emptyConfigs with
      stConfig := fun c => { Config.emptyConfigs.stConfig c with dwSpeedFreq := if c = 0 then 10 else 0 } }
  freq := fun _ => ⟨100, 9⟩
  st_mapLogConfig := fun id => if id = 5 then some 0 else some 1
  s_pLogConfig := none

/-- One app, which is served here. -/
def oneApp : ServerEnv where
  isLogFreqOver := fun _ _ => false
  getAppInfo := fun _ => some ⟨7, 0⟩
  isIpMatchMachine := fun _ => 1
  getAppLogShm := fun info => some ⟨info.iAppId⟩
  tmNow := 120
  gettimeofday := fun _ => 120000000
  machineId := 1

/-- A log of each of the two configurations. -/
def mixedPacket : LogPacket := .localPkg 7 (some [⟨5, 0⟩, ⟨6, 0⟩])

end XrkMonitor.LogBatch
