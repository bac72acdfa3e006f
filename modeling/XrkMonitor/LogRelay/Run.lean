import XrkMonitor.LogRelay.Delivery

/-!
# Runs of the relay and the log server

A round is a call of `SendSlog`, after which the server handles the packet if one was sent. The
logs of a ring are cut into batches, one for each round; the server stores the logs of the batches,
but for those with logs of the relay itself only.

## Implementation notes

In a round a reader may take logs out of the ring of the server before the packet comes. The ring
has room for a batch if its logs and those already there fit. Logs that the relay writes itself
during the run are left out.
-/

namespace XrkMonitor.LogRelay

open Library ServerRing ServerLog ServerVmem Packet

section Rounds

variable {Head : Type}

/-- What a round gets from outside. -/
structure RoundEnv (Head : Type) where
  getLog : Nat → GetLogEnv
  receive : ReceiveEnv
  pbState : PbState Head
  readLogs : Nat

/-- The relay, the log server, and the logs that were read from the ring of the server. -/
structure RelaySystem where
  relay : Relay
  server : LogServer
  read : List (TSLog LogCell)

/-- What becomes of a call of `SendSlog`: its result, and what the server does with the packet. -/
structure RoundResult where
  sent : SendResult
  handled : Option Handled
deriving DecidableEq

/-- A reader takes logs out of a ring of the server. -/
def LogServer.readLogs (s : LogServer) (pLogShm : LogBatch.TSLogShm) (n : Nat) : LogServer :=
  { s with shm := Function.update s.shm pLogShm (takeLogs n (s.shm pLogShm)).2 }

/-- A round. -/
def relayRound (P : RelayPb Head) (own : OwnLogs) (iAppId : Int32)
    (pLogShm : LogBatch.TSLogShm) (env : RoundEnv Head) (s : RelaySystem) :
    Option (RoundResult × RelaySystem) :=
  (sendSlog own env.getLog iAppId s.relay).bind fun (result, relay) =>
    let server := s.server.readLogs pLogShm env.readLogs
    let read := s.read ++ (takeLogs env.readLogs (s.server.shm pLogShm)).1
    match result with
    | .nothing => some (⟨.nothing, none⟩, ⟨relay, server, read⟩)
    | .refused => some (⟨.refused, none⟩, ⟨relay, server, read⟩)
    | .sent packet =>
      (onRawData P env.receive env.pbState packet server).map fun (handled, server) =>
        (⟨.sent packet, some handled⟩, ⟨relay, server, read⟩)

/-- Rounds one after the other. -/
def relayRun (P : RelayPb Head) (own : OwnLogs) (iAppId : Int32) (pLogShm : LogBatch.TSLogShm) :
    List (RoundEnv Head) → RelaySystem → Option (List RoundResult × RelaySystem)
  | [], s => some ([], s)
  | env :: envs, s =>
    (relayRound P own iAppId pLogShm env s).bind fun (result, s) =>
      (relayRun P own iAppId pLogShm envs s).map fun (results, s) => (result :: results, s)

/-- The batches of the first `n` rounds. -/
def batches : Nat → List (TSLog LogCell) → List (List (TSLog LogCell))
  | 0, _ => []
  | n + 1, logs => nextBatch logs :: batches n (logs.drop (nextBatch logs).length)

/-- The logs that the first `n` rounds leave. -/
def logsLeft (n : Nat) (logs : List (TSLog LogCell)) : List (TSLog LogCell) :=
  logs.drop (batches n logs).flatten.length

/-- The logs of a batch that the server stores. -/
def storedLogs (own : OwnLogs) (env : RoundEnv Head) (batch : List (TSLog LogCell)) :
    List (LogCell × UInt64) :=
  if batch.all (isOwn own) then [] else timedLogs env.receive 0 batch

/-- The logs that the server stores in a run. -/
def relayedLogs (own : OwnLogs) (envs : List (RoundEnv Head))
    (batches : List (List (TSLog LogCell))) : List (LogCell × UInt64) :=
  (envs.zip batches).flatMap fun (env, batch) => storedLogs own env batch

/-- The ring of the server, with `len` logs in it, has room for what comes. -/
def RingRoom (own : OwnLogs) (iLogMaxCount : Nat) :
    Nat → List (RoundEnv Head × List (TSLog LogCell)) → Prop
  | _, [] => True
  | len, (env, batch) :: rounds =>
    len - env.readLogs + (storedLogs own env batch).length ≤ iLogMaxCount ∧
      RingRoom own iLogMaxCount (len - env.readLogs + (storedLogs own env batch).length) rounds

/-- The packet, if there is one, fits into the buffer of the server, which takes it. -/
inductive RoundOk : RoundResult → Prop
  | nothing : RoundOk ⟨.nothing, none⟩
  | sent {packet : List UInt8} (h : packet.length ≤ ibufsz) :
      RoundOk ⟨.sent packet, some (.logs .NO_ERROR)⟩

/-- The library reads the head of a packet of logs, which has no result, and its command. -/
def HeadRead (P : RelayPb Head) : Prop :=
  ∀ seq, ∃ pbHead, P.head.parseFromArray (headBytes seq) = some pbHead ∧
    P.head.uint32_result pbHead = 0 ∧ P.en_cmd pbHead = SLOG_CLIENT_SEND_LOG

/-- The server of a round has the app and its ring, and its limits are not reached. -/
structure ServerReady (env : RoundEnv Head) (iAppId : Int32) (pLogShm : LogBatch.TSLogShm) :
    Prop where
  app : ServesApp env.receive iAppId pLogShm
  limit : ∀ i dwLogConfigId, env.receive.isLogFreqOver i dwLogConfigId = false

/-- The logs that are in the two rings between rounds. -/
structure BetweenRounds (iAppId : Int32) (pLogShm : LogBatch.TSLogShm) (s : RelaySystem)
    (logs held : List (TSLog LogCell)) : Prop where
  relay : RingHolds s.relay.shm logs
  short : ∀ log ∈ logs, ShortText log.fields
  server : RingHolds (s.server.shm pLogShm) held
  known : ∀ shm, s.server.mapAppLogShm iAppId = some shm → shm = pLogShm

end Rounds

section Batches

variable {logs : List (TSLog LogCell)}

theorem nextBatch_begins (logs : List (TSLog LogCell)) : nextBatch logs <+: logs :=
  takeBatch_begins _ _ _

theorem nextBatch_append_drop (logs : List (TSLog LogCell)) :
    nextBatch logs ++ logs.drop (nextBatch logs).length = logs := by
  obtain ⟨rest, hrest⟩ := nextBatch_begins logs
  have hdrop : logs.drop (nextBatch logs).length = rest := by
    calc
      logs.drop (nextBatch logs).length
          = (nextBatch logs ++ rest).drop (nextBatch logs).length := by rw [hrest]
      _ = rest := List.drop_left
  rw [hdrop, hrest]

theorem nextBatch_pos (hne : logs ≠ []) : 0 < (nextBatch logs).length := by
  cases logs with
  | nil => exact absurd rfl hne
  | cons log logs => exact Nat.succ_pos _

theorem flatten_batches_append (n : Nat) (logs : List (TSLog LogCell)) :
    (batches n logs).flatten ++ logsLeft n logs = logs := by
  induction n generalizing logs with
  | zero => rfl
  | succ n ih =>
    have hrest := ih (logs.drop (nextBatch logs).length)
    rw [logsLeft, List.drop_drop] at hrest
    rw [logsLeft, batches, List.flatten_cons, List.append_assoc, List.length_append, hrest]
    exact nextBatch_append_drop logs

theorem logsLeft_succ (n : Nat) (logs : List (TSLog LogCell)) :
    logsLeft (n + 1) logs = logsLeft n (logs.drop (nextBatch logs).length) := by
  rw [logsLeft, logsLeft, batches, List.flatten_cons, List.length_append, List.drop_drop]

theorem logsLeft_of_length_le {n : Nat} (h : logs.length ≤ n) : logsLeft n logs = [] := by
  induction n generalizing logs with
  | zero =>
    rw [List.eq_nil_of_length_eq_zero (Nat.le_zero.mp h)]
    rfl
  | succ n ih =>
    rw [logsLeft_succ]
    apply ih
    rw [List.length_drop]
    by_cases hnil : logs = []
    · rw [hnil]
      exact Nat.zero_le _
    · have hpos := nextBatch_pos hnil
      omega

end Batches

section Frames

variable {Head : Type} {P : RelayPb Head}

theorem onRawData_frame (hhead : HeadRead P) (env : ReceiveEnv) (st : PbState Head)
    (s : LogServer) {seq : UInt32} {body : SlogClientPkgBody}
    (hread : P.parseBody body.bytes = some body)
    (hlen : (headBytes seq).length + body.bytes.length + 10 ≤ ibufsz) :
    onRawData P env st (frameBytes (headBytes seq) body.bytes) s =
      some (.logs (onRawDataLocalPkg env (some body) s).1,
        (onRawDataLocalPkg env (some body) s).2) := by
  obtain ⟨pbHead, hparse, hresult, hcmd⟩ := hhead seq
  have hpack := length_frameBytes (headBytes seq) body.bytes
  have hsize : (headBytes seq).length + body.bytes.length + 10 < 2 ^ 31 :=
    lt_of_le_of_lt hlen (by decide)
  have hne : headBytes seq ≠ [] := by
    intro hnil
    have hpos : 0 < (headBytes seq).length := by
      rw [headBytes, List.length_append]
      exact Nat.add_pos_left (by decide) _
    rw [hnil] at hpos
    exact absurd hpos (by decide)
  have htake : (frameBytes (headBytes seq) body.bytes).take ibufsz =
      frameBytes (headBytes seq) body.bytes := List.take_of_length_le (by omega)
  have hframe := isPacketPbRead_frame (headBytes seq) body.bytes st (Or.inl hne) (by omega)
  let st' := { st with
    m_iPbHeadLen := (headBytes seq).length
    m_iPbBodyLen := body.bytes.length
    m_bIsPbReq := true }
  have hheadLen : st'.m_iPbHeadLen = (headBytes seq).length := rfl
  have hcheck := checkBasicPacketPbRead_frame body.bytes hne (by omega) hparse hresult hheadLen rfl
  have hbodyAt := (bytesIn_frame (headBytes seq) body.bytes).2
  have hplace : 1 + 4 + ((headBytes seq).length : Int).toNat + 4 = 9 + (headBytes seq).length := by
    omega
  simp only [onRawData, htake]
  rw [hframe, Option.bind_some]
  dsimp only
  rw [if_neg (by decide), hcheck, Option.bind_some]
  dsimp only
  rw [if_neg (not_not.mpr rfl), if_neg (not_not.mpr hcmd), hplace, hbodyAt, Option.map_some, hread]

end Frames

section Runs

variable {Head : Type} {P : RelayPb Head} {own : OwnLogs} {iAppId : Int32}
  {pLogShm : LogBatch.TSLogShm} {env : RoundEnv Head} {envs : List (RoundEnv Head)}
  {s : RelaySystem} {logs held : List (TSLog LogCell)}

theorem length_timedLogs (env : ReceiveEnv) (i : Nat) (batch : List (TSLog LogCell)) :
    (timedLogs env i batch).length = batch.length := by
  induction batch generalizing i with
  | nil => rfl
  | cons log batch ih => rw [timedLogs, List.length_cons, List.length_cons, ih]

theorem onRawData_holds (hhead : HeadRead P) (hready : ServerReady env iAppId pLogShm)
    (hread : P.parseBody (batchBody iAppId (nextBatch logs)).bytes =
      some (batchBody iAppId (nextBatch logs)))
    (hshort : ∀ log ∈ logs, ShortText log.fields) (hne : nextBatch logs ≠ []) {server : LogServer}
    (hholds : RingHolds (server.shm pLogShm) held)
    (hknown : ∀ shm, server.mapAppLogShm iAppId = some shm → shm = pLogShm)
    (hroom : held.length + (nextBatch logs).length ≤ (server.shm pLogShm).iLogMaxCount)
    (seq : UInt32) :
    ∃ server' stored, onRawData P env.receive env.pbState
        (frameBytes (headBytes seq) (batchBody iAppId (nextBatch logs)).bytes) server =
          some (.logs .NO_ERROR, server') ∧
      (∀ shm, server'.mapAppLogShm iAppId = some shm → shm = pLogShm) ∧
      (server'.shm pLogShm).iLogMaxCount = (server.shm pLogShm).iLogMaxCount ∧
      RingHolds (server'.shm pLogShm) (held ++ stored) ∧
      SameLogs (timedLogs env.receive 0 (nextBatch logs)) stored := by
  obtain ⟨first, hfirst⟩ := hholds
  have hsize := length_packet_le iAppId seq hshort
  have hbatch : ∀ log ∈ nextBatch logs, ShortText log.fields :=
    fun log hlog => hshort log ((nextBatch_begins logs).subset hlog)
  obtain ⟨server', stored, hpkg, hknown', hmax, hholds', hsame⟩ :=
    onRawDataLocalPkg_holds hready.app hknown hready.limit hfirst hroom hbatch hne
  refine ⟨server', stored, ?_, hknown', hmax, ⟨first, hholds'⟩, hsame⟩
  rw [onRawData_frame hhead env.receive env.pbState server hread (hsize.trans (by decide)), hpkg]

/-- A round takes the next batch from the relay to the server. -/
theorem relayRound_holds (hhead : HeadRead P) (hready : ServerReady env iAppId pLogShm)
    (hread : P.parseBody (batchBody iAppId (nextBatch logs)).bytes =
      some (batchBody iAppId (nextBatch logs)))
    (h : BetweenRounds iAppId pLogShm s logs held)
    (hroom : held.length - env.readLogs + (storedLogs own env (nextBatch logs)).length ≤
      (s.server.shm pLogShm).iLogMaxCount) :
    ∃ result s' stored, relayRound P own iAppId pLogShm env s = some (result, s') ∧
      RoundOk result ∧
      BetweenRounds iAppId pLogShm s' (logs.drop (nextBatch logs).length)
        (held.drop env.readLogs ++ stored) ∧
      s'.read = s.read ++ held.take env.readLogs ∧
      (s'.server.shm pLogShm).iLogMaxCount = (s.server.shm pLogShm).iLogMaxCount ∧
      SameLogs (storedLogs own env (nextBatch logs)) stored := by
  obtain ⟨first, hrelay⟩ := h.relay
  obtain ⟨start, hserver⟩ := h.server
  obtain ⟨relay', first', hleft, hsend⟩ := sendSlog_holds own env.getLog iAppId hrelay h.short
  obtain ⟨shm', start', htake, hrest, hmax⟩ := hserver.takeLogs env.readLogs
  have hshm : (s.server.readLogs pLogShm env.readLogs).shm pLogShm = shm' := by
    rw [LogServer.readLogs, htake]
    exact Function.update_self _ _ _
  have hlong : ∀ log ∈ logs.drop (nextBatch logs).length, ShortText log.fields :=
    fun log hlog => h.short log ((List.drop_suffix _ _).subset hlog)
  have hreader : RingHolds ((s.server.readLogs pLogShm env.readLogs).shm pLogShm)
      (held.drop env.readLogs) := by
    rw [hshm]
    exact ⟨start', hrest⟩
  by_cases hown : (nextBatch logs).all (isOwn own) = true
  · rw [if_pos hown] at hsend
    refine ⟨⟨.nothing, none⟩,
      ⟨relay', s.server.readLogs pLogShm env.readLogs, s.read ++ held.take env.readLogs⟩, [], ?_,
      .nothing, ⟨⟨first', hleft⟩, hlong, ?_, h.known⟩, rfl, ?_, ?_⟩
    · rw [relayRound, hsend.1, htake]
      rfl
    · rw [List.append_nil]
      exact hreader
    · rw [hshm]
      exact hmax
    · rw [storedLogs, if_pos hown]
      exact List.Forall₂.nil
  · rw [if_neg hown] at hsend
    rw [storedLogs, if_neg hown, length_timedLogs] at hroom
    have hne : nextBatch logs ≠ [] := by
      intro hnil
      rw [hnil] at hown
      exact hown rfl
    have hfits : (held.drop env.readLogs).length + (nextBatch logs).length ≤
        ((s.server.readLogs pLogShm env.readLogs).shm pLogShm).iLogMaxCount := by
      rw [List.length_drop, hshm, hmax]
      exact hroom
    obtain ⟨server', stored, hraw, hknown, hmax', hholds, hsame⟩ := onRawData_holds hhead hready
      hread h.short hne hreader h.known hfits s.relay.s_dwSeq
    refine ⟨⟨.sent (frameBytes (headBytes s.relay.s_dwSeq)
        (batchBody iAppId (nextBatch logs)).bytes), some (.logs .NO_ERROR)⟩,
      ⟨relay', server', s.read ++ held.take env.readLogs⟩, stored, ?_, .sent ?_,
      ⟨⟨first', hleft⟩, hlong, hholds, hknown⟩, rfl, ?_, ?_⟩
    · simp only [relayRound, hsend.1, Option.bind_some, hraw, Option.map_some, htake]
    · rw [length_frameBytes]
      exact (length_packet_le iAppId s.relay.s_dwSeq h.short).trans (by decide)
    · rw [hmax', hshm]
      exact hmax
    · rw [storedLogs, if_neg hown]
      exact hsame

/-- What the rounds of a run leave in the two rings, and what was read. -/
theorem relayRun_holds (hhead : HeadRead P) (hready : ∀ env ∈ envs, ServerReady env iAppId pLogShm)
    (hread : ∀ batch ∈ batches envs.length logs,
      P.parseBody (batchBody iAppId batch).bytes = some (batchBody iAppId batch))
    (h : BetweenRounds iAppId pLogShm s logs held)
    (hroom : RingRoom own (s.server.shm pLogShm).iLogMaxCount held.length
      (envs.zip (batches envs.length logs))) :
    ∃ results s' rest new, relayRun P own iAppId pLogShm envs s = some (results, s') ∧
      (∀ result ∈ results, RoundOk result) ∧
      BetweenRounds iAppId pLogShm s' (logsLeft envs.length logs) rest ∧
      s'.read ++ rest = s.read ++ (held ++ new) ∧
      SameLogs (relayedLogs own envs (batches envs.length logs)) new := by
  induction envs generalizing s logs held with
  | nil =>
    refine ⟨[], s, held, [], rfl, List.forall_mem_nil _, h, ?_, List.Forall₂.nil⟩
    rw [List.append_nil]
  | cons env envs ih =>
    rw [List.length_cons, batches, List.zip_cons_cons, RingRoom] at hroom
    rw [List.length_cons, batches] at hread
    obtain ⟨result, s₁, stored, hround, hok, hbetween, hreadlogs, hmax, hsame⟩ :=
      relayRound_holds hhead (hready env List.mem_cons_self) (hread _ List.mem_cons_self) h
        hroom.1
    have hlen : (held.drop env.readLogs ++ stored).length =
        held.length - env.readLogs + (storedLogs own env (nextBatch logs)).length := by
      rw [List.length_append, List.length_drop, hsame.length_eq]
    have hnext := hroom.2
    rw [← hlen, ← hmax] at hnext
    obtain ⟨results, s₂, rest, new, hrun, hoks, hbetween', hread', hsames⟩ := ih
      (fun env henv => hready env (List.mem_cons_of_mem _ henv))
      (fun batch hbatch => hread batch (List.mem_cons_of_mem _ hbatch)) hbetween hnext
    refine ⟨result :: results, s₂, rest, stored ++ new, ?_, ?_, ?_, ?_, ?_⟩
    · rw [relayRun, hround, Option.bind_some]
      dsimp only
      rw [hrun, Option.map_some]
    · exact List.forall_mem_cons.mpr ⟨hok, hoks⟩
    · rw [List.length_cons, logsLeft_succ]
      exact hbetween'
    · calc
        s₂.read ++ rest
            = (s.read ++ held.take env.readLogs) ++
                ((held.drop env.readLogs ++ stored) ++ new) := by rw [hread', hreadlogs]
        _ = s.read ++ ((held.take env.readLogs ++ held.drop env.readLogs) ++
              (stored ++ new)) := by simp only [List.append_assoc]
        _ = s.read ++ (held ++ (stored ++ new)) := by rw [List.take_append_drop]
    · rw [List.length_cons, batches, relayedLogs, List.zip_cons_cons, List.flatMap_cons]
      exact List.rel_append hsame hsames

/-- The logs of the ring are sent in packets that the server takes, and what it has in its ring, or
had and was read, is what was there before and the logs of the batches, in order and each once.
After as many rounds as there are logs, all have been sent. -/
theorem relay_delivers (own : OwnLogs) (hhead : HeadRead P)
    (hready : ∀ env ∈ envs, ServerReady env iAppId pLogShm)
    (hread : ∀ batch ∈ batches envs.length logs,
      P.parseBody (batchBody iAppId batch).bytes = some (batchBody iAppId batch))
    (h : BetweenRounds iAppId pLogShm s logs held)
    (hroom : RingRoom own (s.server.shm pLogShm).iLogMaxCount held.length
      (envs.zip (batches envs.length logs))) :
    (∃ results s' rest new, relayRun P own iAppId pLogShm envs s = some (results, s') ∧
      (∀ result ∈ results, RoundOk result) ∧
      RingHolds s'.relay.shm (logsLeft envs.length logs) ∧
      RingHolds (s'.server.shm pLogShm) rest ∧
      s'.read ++ rest = s.read ++ (held ++ new) ∧
      SameLogs (relayedLogs own envs (batches envs.length logs)) new) ∧
    (batches envs.length logs).flatten ++ logsLeft envs.length logs = logs ∧
    (logs.length ≤ envs.length → logsLeft envs.length logs = []) := by
  obtain ⟨results, s', rest, new, hrun, hoks, hbetween, hall, hsame⟩ :=
    relayRun_holds hhead hready hread h hroom
  exact ⟨⟨results, s', rest, new, hrun, hoks, hbetween.relay, hbetween.server, hall, hsame⟩,
    flatten_batches_append _ _, logsLeft_of_length_le⟩

end Runs

section Samples

/-- A cell of app 7 with the text of one character, a number and a string. -/
def relayCell (c : UInt8) : LogCell where
  cust :=
    { bCustFlag := MTLOG_CUST_FLAG_C1_SET ||| MTLOG_CUST_FLAG_C5_SET
      dwCust_1 := 3
      dwCust_2 := 0
      iCust_3 := 0
      iCust_4 := 0
      szCust_5 := CharBuf.strncpy 16 [120]
      szCust_6 := CharBuf.zero 32 }
  dwLogConfigId := 4
  dwLogHost := 0
  qwLogTime := 1700000000000000
  iAppId := 7
  iModuleId := 2
  wLogType := 1
  iContentIndex := -1
  dwStartWriteLogTime := 1700000000
  sLogContent := fun i => if i = 0 then c else 0

/-- Two logs. -/
def relayLogs : List (TSLog LogCell) := [⟨5, relayCell 97⟩, ⟨6, relayCell 98⟩]

/-- The heads of packets of logs, and the bodies of the two logs and of none. -/
def relayPb : RelayPb Unit where
  head :=
    { parseFromArray := fun bs =>
        if numField 1 SLOG_CLIENT_SEND_LOG <+: bs then some () else none
      appendToString := fun _ => none
      uint32_result := fun _ => 0
      uint32_magic_response_num := fun _ => 0
      set_uint32_result := fun h _ => h
      set_uint32_magic_response_num := fun h _ => h
      set_str_errmsg := fun h _ => h }
  en_cmd := fun _ => SLOG_CLIENT_SEND_LOG
  parseBody := fun bs =>
    [batchBody 7 relayLogs, batchBody 7 []].find? fun body => body.bytes = bs

/-- A round on the day of the logs, with a server for app 7. -/
def relayEnv : RoundEnv Unit where
  getLog := fun _ => ⟨1700000001, fun _ => 0, ⟨fun _ _ _ => true, fun _ _ _ => 0⟩, fun _ => []⟩
  receive :=
    { isLogFreqOver := fun _ _ => false
      getAppInfo := fun iAppId => if iAppId = 7 then some ⟨7, 1⟩ else none
      isIpMatchMachine := fun _ => 1
      getAppLogShm := fun pAppInfo => some ⟨pAppInfo.iAppId⟩
      tmNow := 1700000002
      gettimeofday := fun _ => 1700000002000000
      machineId := 1
      m_iVmemShmKey := 0
      vmemEnv := fun _ _ => ⟨fun _ _ _ => true, fun _ _ _ => 0⟩
      tv_sec := 1700000002 }
  pbState := heartState
  readLogs := 0

/-- The relay with the two logs, and the server without a log. -/
def relaySystem : RelaySystem where
  relay :=
    { shm := ⟨4, 0, 2, 7, fun i => if i = 0 then ⟨5, relayCell 97⟩ else ⟨6, relayCell 98⟩⟩
      vmem := initVmem
      stLogOut := ⟨(relayCell 0).cust, 0, 0, 0, 0, 0, 0, 0, []⟩
      s_dwSeq := 1 }
  server :=
    { mapAppLogShm := fun _ => none
      shm := fun _ => ⟨4, -1, 0, 1, fun _ => ⟨0, relayCell 0⟩⟩
      vmem := initVmem }
  read := []

/-- Two rounds bring both logs over. -/
theorem relay_delivers_two :
    ∃ results s' rest new,
      relayRun relayPb ⟨1, 1⟩ 7 ⟨7⟩ [relayEnv, relayEnv] relaySystem = some (results, s') ∧
      (∀ result ∈ results, RoundOk result) ∧ RingHolds s'.relay.shm [] ∧
      RingHolds (s'.server.shm ⟨7⟩) rest ∧ s'.read ++ rest = new ∧
      SameLogs [(relayCell 97, 1700000000000000), (relayCell 98, 1700000000000000)] new := by
  have hhead : HeadRead relayPb := by
    intro seq
    have hbegins : numField 1 SLOG_CLIENT_SEND_LOG <+: headBytes seq := List.prefix_append _ _
    have hparse : (if numField 1 SLOG_CLIENT_SEND_LOG <+: headBytes seq then some () else none) =
        some () := if_pos hbegins
    exact ⟨(), hparse, rfl, rfl⟩
  have hready : ∀ env ∈ [relayEnv, relayEnv], ServerReady env 7 ⟨7⟩ := by
    intro env henv
    have henv' : env = relayEnv := by
      rcases List.mem_pair.mp henv with h | h
      · exact h
      · exact h
    rw [henv']
    exact ⟨⟨⟨7, 1⟩, rfl, rfl, rfl, rfl⟩, fun _ _ => rfl⟩
  have hread : ∀ batch ∈ batches 2 relayLogs,
      relayPb.parseBody (batchBody 7 batch).bytes = some (batchBody 7 batch) := by
    intro batch hbatch
    change batch ∈ [relayLogs, []] at hbatch
    rcases List.mem_pair.mp hbatch with h | h
    · rw [h]
      decide +kernel
    · rw [h]
      decide +kernel
  have hshort : ∀ log ∈ relayLogs, ShortText log.fields := by
    intro log hlog
    rcases List.mem_pair.mp hlog with h | h
    · rw [h]
      exact ⟨by decide, by decide +kernel⟩
    · rw [h]
      exact ⟨by decide, by decide +kernel⟩
  have hrelay : RingHolds relaySystem.relay.shm relayLogs := by
    refine ⟨0, by decide, by decide, rfl, fun hnil => absurd hnil (List.cons_ne_nil _ _),
      fun _ => rfl, ?_⟩
    intro j log hj
    cases j with
    | zero =>
      rw [← Option.some.inj hj]
      exact ⟨rfl, by decide⟩
    | succ j =>
      cases j with
      | zero =>
        rw [← Option.some.inj hj]
        exact ⟨rfl, by decide⟩
      | succ j => cases hj
  have hserver : RingHolds (relaySystem.server.shm ⟨7⟩) [] :=
    ⟨0, by decide, by decide, rfl, fun _ => rfl, fun hne => absurd rfl hne,
      fun _ _ hj => by cases hj⟩
  have hbetween : BetweenRounds 7 ⟨7⟩ relaySystem relayLogs [] :=
    ⟨hrelay, hshort, hserver, fun _ hknown => by cases hknown⟩
  obtain ⟨⟨results, s', rest, new, hrun, hoks, hleft, hheld, hall, hsame⟩, -, hnone⟩ :=
    relay_delivers ⟨1, 1⟩ hhead hready hread hbetween ⟨by decide, by decide, trivial⟩
  rw [hnone (le_refl 2)] at hleft
  exact ⟨results, s', rest, new, hrun, hoks, hleft, hheld, hall, hsame⟩

end Samples

end XrkMonitor.LogRelay
