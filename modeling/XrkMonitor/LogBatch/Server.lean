import XrkMonitor.LogBatch.Record

/-!
# The server walks over a packet of logs

The loop of `OnRawDataClientLog` reads one `LogInfo` after the other, checks
its lengths against the content, finds the shared memory of the app and hands
the record to `WriteAppLogToShm`. The pointer to the shared memory is carried
from one record to the next.

## Implementation notes

Every read of the content goes through `readAt`, and the loop ends with
`outside` where one would leave the content. It ends with `endless` when it has
made more rounds than it was given. The tables of apps and machines, the
clocks, the frequency limit and the shared memory of an app are inputs. The
conversion to host order in place is not kept: no header is read twice.
-/

namespace XrkMonitor.LogBatch

open Library

/-- The fields of `AppInfo` that the loop uses. -/
structure AppInfo where
  iAppId : Int32
  dwAppSrvMaster : UInt32

/-- `TSLogShm`, by the app it belongs to. -/
structure TSLogShm where
  iAppId : Int32
deriving DecidableEq

/-- A call of `WriteAppLogToShm`. -/
structure ShmWrite where
  pShmLog : TSLogShm
  pLog : LogRecord
  dwLogHost : Int32
deriving DecidableEq

/-- What the loop gets from outside of the packet; rounds are numbered from 0. -/
structure ServerEnv where
  isLogFreqOver : Nat → UInt32 → Bool
  getAppInfo : Int32 → Option AppInfo
  isIpMatchMachine : UInt32 → Int
  getAppLogShm : AppInfo → Option TSLogShm
  tmNow : UInt32
  gettimeofday : Nat → UInt64
  machineId : Int32

/-- How the loop ends. -/
inductive LoopEnd where
  | finished | freqOver | invalidPacket | dispatchInvalid | invalidAppid | outside | endless
deriving DecidableEq, Repr

/-- The variables of the loop. -/
structure LoopState where
  iRead : Nat
  pLogShm : Option TSLogShm
  mapAppLogShm : Int32 → Option TSLogShm
  writes : List ShmWrite

/-- Bytes of the content, if they are all inside it. -/
def readAt (content : List UInt8) (off len : Nat) : Option (List UInt8) :=
  if off + len ≤ content.length then some ((content.drop off).take len) else none

/-- The shared memory for the app: the pointer and the map afterwards. -/
def findAppLogShm (env : ServerEnv) (pLogShm : Option TSLogShm)
    (mapAppLogShm : Int32 → Option TSLogShm) (pAppInfo : AppInfo) :
    Option TSLogShm × (Int32 → Option TSLogShm) :=
  if pLogShm.all fun shm => shm.iAppId != pAppInfo.iAppId then
    let pLogShm := match mapAppLogShm pAppInfo.iAppId with
      | some shm => some shm
      | none => pLogShm
    match pLogShm with
    | some shm => (some shm, mapAppLogShm)
    | none =>
      match env.getAppLogShm pAppInfo with
      | none => (none, mapAppLogShm)
      | some shm => (some shm, Function.update mapAppLogShm pAppInfo.iAppId (some shm))
  else (pLogShm, mapAppLogShm)

/-- The time of a log that is more than two minutes old is the server's. -/
def correctTime (env : ServerEnv) (round : Nat) (qwLogTime : UInt64) : UInt64 :=
  if qwLogTime.toNat / 1000000 + 120 < env.tmNow.toNat then env.gettimeofday round else qwLogTime

/-- The record that is written in a round. -/
def correctRecord (env : ServerEnv) (round : Nat) (r : LogRecord) : LogRecord :=
  { r with head := { r.head with qwLogTime := correctTime env round r.head.qwLogTime } }

/-- The first part of a round: the record at `iRead` and the position behind
it, or how the loop ends. -/
def readRecord (env : ServerEnv) (content : List UInt8) (round iRead : Nat) :
    Except LoopEnd (LogRecord × Nat) :=
  if iRead + logInfoSize < content.length then
    match (readAt content iRead logInfoSize).map logInfoNtoH with
    | none => .error .outside
    | some (head, wCustDataLen, wLogDataLen) =>
      if env.isLogFreqOver round head.dwLogConfigId then .error .freqOver
      else if content.length < iRead + logInfoSize + wCustDataLen + wLogDataLen then
        .error .invalidPacket
      else
        match readAt content (iRead + logInfoSize) wCustDataLen,
          readAt content (iRead + logInfoSize + wCustDataLen) wLogDataLen with
        | some cust, some text =>
          .ok (⟨head, cust, text⟩, iRead + logInfoSize + wCustDataLen + wLogDataLen)
        | _, _ => .error .outside
  else .error .finished

/-- The second part of a round: the record is written to the memory of its
app. -/
def writeRecord (env : ServerEnv) (round : Nat) (st : LoopState) (pInfo : LogRecord) :
    Except LoopEnd LoopState :=
  match env.getAppInfo pInfo.head.iAppId with
  | none => .ok st
  | some pAppInfo =>
    if env.isIpMatchMachine pAppInfo.dwAppSrvMaster ≠ 1 then .error .dispatchInvalid
    else
      match findAppLogShm env st.pLogShm st.mapAppLogShm pAppInfo with
      | (none, _) => .error .invalidAppid
      | (some shm, map) =>
        .ok { st with
          pLogShm := some shm
          mapAppLogShm := map
          writes := st.writes ++ [⟨shm, correctRecord env round pInfo, env.machineId⟩] }

/-- One round of the loop of `OnRawDataClientLog`: how the loop ends in it, or
the variables after it. -/
def logRound (env : ServerEnv) (content : List UInt8) (round : Nat) (st : LoopState) :
    Except LoopEnd LoopState :=
  match readRecord env content round st.iRead with
  | .error e => .error e
  | .ok (pInfo, iRead) => writeRecord env round { st with iRead := iRead } pInfo

/-- The loop of `OnRawDataClientLog`. -/
def logLoop (env : ServerEnv) (content : List UInt8) : Nat → Nat → LoopState → LoopEnd × LoopState
  | 0, _, st => (.endless, st)
  | fuel + 1, round, st =>
    match logRound env content round st with
    | .error e => (e, st)
    | .ok st => logLoop env content fuel (round + 1) st

/-- `OnRawDataClientLog` on the content of a packet. -/
def onRawDataClientLog (env : ServerEnv) (mapAppLogShm : Int32 → Option TSLogShm)
    (content : List UInt8) : LoopEnd × LoopState :=
  logLoop env content (content.length + 1) 0 ⟨0, none, mapAppLogShm, []⟩

section Safety

variable {env : ServerEnv} {content : List UInt8} {round : Nat} {st st' : LoopState}

theorem readAt_of_le {off len : Nat} (h : off + len ≤ content.length) :
    readAt content off len = some ((content.drop off).take len) := if_pos h

theorem readRecord_inside (env : ServerEnv) (content : List UInt8) (round iRead : Nat) :
    (∀ e, readRecord env content round iRead = .error e → e ≠ .outside ∧ e ≠ .endless) ∧
      ∀ r n, readRecord env content round iRead = .ok (r, n) → iRead < n ∧ n ≤ content.length := by
  have hsize : logInfoSize = 30 := rfl
  unfold readRecord
  split
  · rename_i hmore
    rw [readAt_of_le (show iRead + logInfoSize ≤ content.length by omega), Option.map_some]
    generalize logInfoNtoH (List.take logInfoSize (List.drop iRead content)) = info
    obtain ⟨head, wCustDataLen, wLogDataLen⟩ := info
    dsimp only
    split
    · exact ⟨by rintro e ⟨⟩; simp, by rintro r n ⟨⟩⟩
    · split
      · exact ⟨by rintro e ⟨⟩; simp, by rintro r n ⟨⟩⟩
      · rename_i hfit
        rw [readAt_of_le (show iRead + logInfoSize + wCustDataLen ≤ content.length by omega),
          readAt_of_le (show iRead + logInfoSize + wCustDataLen + wLogDataLen ≤
            content.length by omega)]
        refine ⟨by rintro e ⟨⟩, ?_⟩
        rintro r n ⟨⟩
        omega
  · exact ⟨by rintro e ⟨⟩; simp, by rintro r n ⟨⟩⟩

theorem writeRecord_inside (env : ServerEnv) (round : Nat) (st : LoopState) (r : LogRecord) :
    (∀ e, writeRecord env round st r = .error e → e ≠ .outside ∧ e ≠ .endless) ∧
      ∀ st', writeRecord env round st r = .ok st' → st'.iRead = st.iRead := by
  unfold writeRecord
  split
  · exact ⟨by rintro e ⟨⟩, by rintro st' ⟨⟩; rfl⟩
  · split
    · exact ⟨by rintro e ⟨⟩; simp, by rintro st' ⟨⟩⟩
    · split
      · exact ⟨by rintro e ⟨⟩; simp, by rintro st' ⟨⟩⟩
      · exact ⟨by rintro e ⟨⟩, by rintro st' ⟨⟩; rfl⟩

theorem logRound_inside (env : ServerEnv) (content : List UInt8) (round : Nat) (st : LoopState) :
    (∀ e, logRound env content round st = .error e → e ≠ .outside ∧ e ≠ .endless) ∧
      ∀ st', logRound env content round st = .ok st' →
        st.iRead < st'.iRead ∧ st'.iRead ≤ content.length := by
  obtain ⟨herr, hok⟩ := readRecord_inside env content round st.iRead
  unfold logRound
  cases hread : readRecord env content round st.iRead with
  | error e =>
    refine ⟨?_, by rintro st' ⟨⟩⟩
    rintro e' ⟨⟩
    exact herr e hread
  | ok rn =>
    obtain ⟨hlt, hle⟩ := hok rn.1 rn.2 hread
    obtain ⟨hwerr, hwok⟩ := writeRecord_inside env round { st with iRead := rn.2 } rn.1
    refine ⟨hwerr, ?_⟩
    intro st' hst'
    rw [hwok st' hst']
    exact ⟨hlt, hle⟩

theorem logLoop_inside (fuel : Nat) (hin : st.iRead ≤ content.length)
    (hfuel : content.length < st.iRead + fuel) :
    (logLoop env content fuel round st).1 ≠ .outside ∧
      (logLoop env content fuel round st).1 ≠ .endless := by
  induction fuel generalizing round st with
  | zero => omega
  | succ fuel ih =>
    obtain ⟨herr, hok⟩ := logRound_inside env content round st
    unfold logLoop
    cases hround : logRound env content round st with
    | error e => exact herr e hround
    | ok st' =>
      obtain ⟨hlt, hle⟩ := hok st' hround
      exact ih hle (by omega)

theorem onRawDataClientLog_inside (env : ServerEnv) (mapAppLogShm : Int32 → Option TSLogShm)
    (content : List UInt8) :
    (onRawDataClientLog env mapAppLogShm content).1 ≠ .outside ∧
      (onRawDataClientLog env mapAppLogShm content).1 ≠ .endless :=
  logLoop_inside _ (Nat.zero_le _) (by simp only; omega)

end Safety

section Decode

variable {env : ServerEnv} {map : Int32 → Option TSLogShm} {iAppId : Int32} {r : LogRecord}

/-- The frequency limit is not reached, the app is known and served here, and
its memory can be attached. -/
structure Serves (env : ServerEnv) (iAppId : Int32) : Prop where
  freq : ∀ round cfg, env.isLogFreqOver round cfg = false
  app : ∃ info, env.getAppInfo iAppId = some info ∧ info.iAppId = iAppId ∧
    env.isIpMatchMachine info.dwAppSrvMaster = 1 ∧
    ∃ shm, env.getAppLogShm info = some shm ∧ shm.iAppId = iAppId

/-- The memories in the map are those of their apps. -/
def MapOk (map : Int32 → Option TSLogShm) : Prop := ∀ id shm, map id = some shm → shm.iAppId = id

/-- The lengths of the record fit their fields, and something follows `LogInfo`. -/
structure LogRecord.Fits (r : LogRecord) : Prop where
  cust : r.cust.length < 256 ^ 2
  content : r.content.length < 256 ^ 2
  pos : 0 < r.content.length

theorem LogRecord.drop_bytes (r : LogRecord) : r.bytes.drop logInfoSize = r.cust ++ r.content := by
  have hsplit : r.bytes = (headBytes r.head ++ (toBytes 2 r.cust.length ++
      toBytes 2 r.content.length)) ++ (r.cust ++ r.content) := by
    simp [LogRecord.bytes]
  rw [hsplit]
  apply List.drop_left'
  simp [logInfoSize]

theorem readAt_append (pre post : List UInt8) {mid : List UInt8} {m k : Nat}
    (hlen : m + k ≤ mid.length) :
    readAt (pre ++ (mid ++ post)) (pre.length + m) k = some ((mid.drop m).take k) := by
  have hle : m ≤ mid.length := by omega
  rw [readAt, if_pos (by simp only [List.length_append]; omega), ← List.drop_drop,
    List.drop_left, List.drop_append_of_le_length hle, List.take_append_of_le_length]
  rw [List.length_drop]
  omega

theorem readRecord_bytes (hfreq : ∀ round cfg, env.isLogFreqOver round cfg = false) (hr : r.Fits)
    (pre post : List UInt8) (round : Nat) :
    readRecord env (pre ++ (r.bytes ++ post)) round pre.length =
      .ok (r, pre.length + r.bytes.length) := by
  have hlen := r.length_bytes
  have hpos := hr.pos
  have hmore : pre.length + logInfoSize < (pre ++ (r.bytes ++ post)).length := by
    simp only [List.length_append]
    omega
  have hhead : readAt (pre ++ (r.bytes ++ post)) pre.length logInfoSize =
      some (r.bytes.take logInfoSize) := by
    have hle : 0 + logInfoSize ≤ r.bytes.length := by omega
    simpa using readAt_append pre post hle
  have hcust : readAt (pre ++ (r.bytes ++ post)) (pre.length + logInfoSize) r.cust.length =
      some r.cust := by
    rw [readAt_append pre post (by omega), r.drop_bytes, List.take_left]
  have htext : readAt (pre ++ (r.bytes ++ post)) (pre.length + logInfoSize + r.cust.length)
      r.content.length = some r.content := by
    rw [Nat.add_assoc, readAt_append pre post (by omega), ← List.drop_drop, r.drop_bytes, List.drop_left,
      List.take_length]
  have hfit : ¬ (pre ++ (r.bytes ++ post)).length <
      pre.length + logInfoSize + r.cust.length + r.content.length := by
    simp only [List.length_append]
    omega
  rw [readRecord, if_pos hmore, hhead, Option.map_some, logInfoNtoH_bytes hr.cust hr.content]
  simp only [hfreq, Bool.false_eq_true, if_false, if_neg hfit, hcust, htext, Except.ok.injEq,
    Prod.mk.injEq, true_and]
  omega

/-- The pointer is not set yet or points to the memory of the app. -/
def PointsTo (pLogShm : Option TSLogShm) (iAppId : Int32) : Prop :=
  ∀ shm, pLogShm = some shm → shm.iAppId = iAppId

theorem writeRecord_serves (hserves : Serves env iAppId) (st : LoopState)
    (hmap : MapOk st.mapAppLogShm) (hptr : PointsTo st.pLogShm iAppId)
    (happ : r.head.iAppId = iAppId) (round : Nat) :
    ∃ shm map, writeRecord env round st r = .ok { st with
        pLogShm := some shm
        mapAppLogShm := map
        writes := st.writes ++ [⟨shm, correctRecord env round r, env.machineId⟩] } ∧
      shm.iAppId = iAppId ∧ MapOk map := by
  obtain ⟨info, hinfo, hid, hlocal, shm₀, hattach, hshm₀⟩ := hserves.app
  have hfind : ∃ shm map, findAppLogShm env st.pLogShm st.mapAppLogShm info = (some shm, map) ∧
      shm.iAppId = iAppId ∧ MapOk map := by
    unfold findAppLogShm
    cases hp : st.pLogShm with
    | some shm =>
      have hown := hptr shm hp
      refine ⟨shm, st.mapAppLogShm, ?_, hown, hmap⟩
      rw [if_neg]
      simp [hown, hid]
    | none =>
      rw [if_pos (by rfl)]
      cases hm : st.mapAppLogShm info.iAppId with
      | some shm => exact ⟨shm, st.mapAppLogShm, rfl, (hmap _ _ hm).trans hid, hmap⟩
      | none =>
        refine ⟨shm₀, Function.update st.mapAppLogShm info.iAppId (some shm₀), ?_, hshm₀, ?_⟩
        · simp only [hattach]
        · intro id shm hupd
          by_cases heq : id = info.iAppId
          · subst heq
            rw [Function.update_self] at hupd
            rw [← Option.some.inj hupd, hshm₀, hid]
          · rw [Function.update_of_ne heq] at hupd
            exact hmap id shm hupd
  obtain ⟨shm, map, hfind, hown, hmap'⟩ := hfind
  refine ⟨shm, map, ?_, hown, hmap'⟩
  unfold writeRecord
  rw [happ, hinfo]
  simp only [hlocal, ne_eq, not_true_eq_false, if_false, hfind]

/-- The app of the memory and the record of a call of `WriteAppLogToShm`. -/
def ShmWrite.view (w : ShmWrite) : Int32 × LogRecord := (w.pShmLog.iAppId, w.pLog)

theorem logLoop_records (hserves : Serves env iAppId) (rs : List LogRecord)
    (hrs : ∀ r ∈ rs, r.Fits ∧ r.head.iAppId = iAppId) (pre : List UInt8) (fuel round : Nat)
    (st : LoopState) (hread : st.iRead = pre.length) (hmap : MapOk st.mapAppLogShm)
    (hptr : PointsTo st.pLogShm iAppId) (hfuel : rs.length < fuel) :
    ∃ st', logLoop env (pre ++ rs.flatMap LogRecord.bytes) fuel round st = (.finished, st') ∧
      st'.writes.map ShmWrite.view = st.writes.map ShmWrite.view ++
        (rs.zipIdx round).map fun x => (iAppId, correctRecord env x.2 x.1) := by
  induction rs generalizing pre fuel round st with
  | nil =>
    obtain ⟨fuel, rfl⟩ : ∃ k, fuel = k + 1 := ⟨fuel - 1, by simp at hfuel; omega⟩
    refine ⟨st, ?_, by simp⟩
    have hend : ¬ st.iRead + logInfoSize < (pre ++ [].flatMap LogRecord.bytes).length := by
      simp [hread]
    rw [logLoop, logRound, readRecord, if_neg hend]
  | cons r rs ih =>
    obtain ⟨fuel, rfl⟩ : ∃ k, fuel = k + 1 := ⟨fuel - 1, by omega⟩
    obtain ⟨hfits, happ⟩ := hrs r (by simp)
    obtain ⟨shm, map, hwrite, hown, hmap'⟩ := writeRecord_serves hserves
      { st with iRead := pre.length + r.bytes.length } hmap hptr happ round
    obtain ⟨st', hloop, hwrites⟩ := ih (fun q hq => hrs q (List.mem_cons_of_mem _ hq))
      (pre ++ r.bytes) fuel (round + 1) ⟨pre.length + r.bytes.length, some shm, map,
        st.writes ++ [⟨shm, correctRecord env round r, env.machineId⟩]⟩ (by simp) hmap'
      (by rintro s ⟨⟩; exact hown) (by simp at hfuel; omega)
    refine ⟨st', ?_, ?_⟩
    · rw [List.flatMap_cons, logLoop, logRound, hread, readRecord_bytes hserves.freq hfits]
      dsimp only
      rw [hwrite]
      dsimp only
      rw [List.append_assoc] at hloop
      exact hloop
    · rw [hwrites, List.zipIdx_cons, List.map_cons]
      simp [ShmWrite.view, hown]

end Decode

end XrkMonitor.LogBatch
