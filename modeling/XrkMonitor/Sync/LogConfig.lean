import XrkMonitor.Library.TableRounds
import XrkMonitor.Sync.Wire

/-!
# Synchronisation of the log configurations

The agent's table of log configurations follows the list of the server, round by
round: an answer has room for a part of the changes only. A round keeps the table
in order and does not harm what is up to date, and rounds that find the server
unchanged bring the table to its list.

Two things stand in the way. A request has twelve bytes for each row and must fit
into one packet; for a larger table no request is sent. And the log line of a
deletion reads the record of the last addition or modification, which is missing
when the answer has deletions only.

## Implementation notes

The log lines that are written are parameters of a round. The bytes of the test
keys are copied as they are, so a record has them as one string of bytes; of a row
of the agent only the keys that its count covers are modelled.
-/

namespace XrkMonitor.Sync

open Library Packet

def MAX_SLOG_CONFIG_COUNT : Nat := 2000
def MAX_LOG_CONFIG_COUNT : Nat := 1050
def MAX_SLOG_TEST_KEYS_PER_CONFIG : Nat := 10
def sizeofSLogTestKey : Nat := 22

/-- `MtSLogConfig`, in host byte order. -/
structure MtSLogConfig where
  dwSeq : UInt32
  dwCfgId : UInt32
  iAppId : Int32
  iModuleId : Int32
  iLogType : Int32
  dwSpeedFreq : UInt32
  wTestKeyCount : UInt16
  stTestKeys : List UInt8
deriving DecidableEq

/-- A slot of the server's `SLogClientConfig`. -/
structure SLogClientConfig where
  dwConfigSeq : UInt32
  dwCfgId : UInt32
  iAppId : Int32
  iModuleId : Int32
  iLogType : Int32
  dwSpeedFreq : UInt32
  wTestKeyCount : UInt16
  stTestKeys : List UInt8
  iNextIndex : Int
  length_stTestKeys : stTestKeys.length = sizeofSLogTestKey * wTestKeyCount.toNat
  wTestKeyCount_le : wTestKeyCount.toNat ≤ MAX_SLOG_TEST_KEYS_PER_CONFIG

/-- A row of the agent's `SLogConfig`. -/
structure SLogConfig where
  dwSeq : UInt32
  dwCfgId : UInt32
  iAppId : Int32
  iModuleId : Int32
  iLogType : Int32
  wTestKeyCount : UInt16
  stTestKeys : List UInt8
  dwSpeedFreq : UInt32
  bLogFreqUseFlag : UInt8
  iWriteLogCount : Int32
  qwLastFreqTime : UInt64
deriving DecidableEq

section Server

/-- The configurations of the server: the slots, and the chain of `psysConfig` through them. -/
structure ConfigChain where
  stConfig : Nat → SLogClientConfig
  iLogConfigIndexStart : Int
  wLogConfigCount : Nat

/-- The configurations that the walk reaches. -/
def ConfigChain.configs (c : ConfigChain) : List SLogClientConfig :=
  (chainSlots MAX_SLOG_CONFIG_COUNT (fun i => (c.stConfig i).iNextIndex) c.wLogConfigCount
    c.iLogConfigIndexStart).map c.stConfig

/-- `LOG_CHECK_COPY_CONFIG_INFO`. -/
def logCheckCopyConfigInfo (s : SLogClientConfig) : MtSLogConfig where
  dwSeq := s.dwConfigSeq
  dwCfgId := s.dwCfgId
  iAppId := s.iAppId
  iModuleId := s.iModuleId
  iLogType := s.iLogType
  dwSpeedFreq := s.dwSpeedFreq
  wTestKeyCount := s.wTestKeyCount
  stTestKeys := s.stTestKeys

/-- The bytes of a record, as far as its test keys go. -/
def MtSLogConfig.bytes (v : MtSLogConfig) : List UInt8 :=
  toBytes 4 v.dwSeq.toNat ++ (toBytes 4 v.dwCfgId.toNat ++ (toBytes 4 v.iAppId.toUInt32.toNat ++
    (toBytes 4 v.iModuleId.toUInt32.toNat ++ (toBytes 4 v.iLogType.toUInt32.toNat ++
      (toBytes 4 v.dwSpeedFreq.toNat ++ (toBytes 2 v.wTestKeyCount.toNat ++ v.stTestKeys))))))

/-- `LOG_CONFIG_NTOH` of the bytes. -/
def MtSLogConfig.read (bs : List UInt8) : MtSLogConfig where
  dwSeq := UInt32.ofNat (netAt bs 0 4)
  dwCfgId := UInt32.ofNat (netAt bs 4 4)
  iAppId := (UInt32.ofNat (netAt bs 8 4)).toInt32
  iModuleId := (UInt32.ofNat (netAt bs 12 4)).toInt32
  iLogType := (UInt32.ofNat (netAt bs 16 4)).toInt32
  dwSpeedFreq := UInt32.ofNat (netAt bs 20 4)
  wTestKeyCount := UInt16.ofNat (netAt bs 24 2)
  stTestKeys := slice bs 26 (sizeofSLogTestKey * netAt bs 24 2)

def configCodec : ChangeCodec Nat MtSLogConfig where
  enc := MtSLogConfig.bytes
  dec := MtSLogConfig.read
  encKey := toBytes 4
  decKey := fun bs => netAt bs 0 4

def configSource : SourceSpec Nat SLogClientConfig MtSLogConfig where
  id := fun s => s.dwCfgId.toNat
  seq := fun s => s.dwConfigSeq.toNat
  net := logCheckCopyConfigInfo

/-- `InnerDealLogConfigCheck` over the chain. -/
def innerDealLogConfigCheck (c : ConfigChain) (entries : List (Entry Nat)) :
    Answer Nat MtSLogConfig :=
  answerRows (changeSize configCodec) respBufSize configSource c.configs
    ⟨entries, sizeofTPkgBody, [], false⟩

/-- `SetLogConfigCheckInfo`: the changes of the answer. A chain that ends before its count is
followed through a null pointer. -/
def setLogConfigCheckInfo (c : ConfigChain) (entries : List (Entry Nat)) :
    Option (List (Change Nat MtSLogConfig)) :=
  let a := innerDealLogConfigCheck c entries
  if (0 ≤ c.iLogConfigIndexStart ∧ c.iLogConfigIndexStart < MAX_SLOG_CONFIG_COUNT) ∧
      c.configs.length < c.wLogConfigCount ∧ a.full = false then none
  else
    some (if a.full then a else answerGone (changeSize configCodec) respBufSize a.entries a).changes

/-- `DealCmdCheckLogConfig`: the content of the answer. -/
def dealCmdCheckLogConfig (c : ConfigChain) (content : List UInt8) : Option (List UInt8) := do
  let entries ← readRequest configCodec content
  let changes ← setLogConfigCheckInfo c entries
  some (answerBody configCodec changes)

end Server

section Agent

/-- `CmpSLogConfig`. -/
def cmpSLogConfig (a b : Nat) : Int := if a > b then 1 else if a < b then -1 else 0

/-- `NET_LOG_CONFIG_TO_LOCAL`. -/
def netLogConfigToLocal (r : SLogConfig) (v : MtSLogConfig) : SLogConfig :=
  { r with
    dwSeq := v.dwSeq
    dwCfgId := v.dwCfgId
    iAppId := v.iAppId
    iModuleId := v.iModuleId
    iLogType := v.iLogType
    dwSpeedFreq := v.dwSpeedFreq
    wTestKeyCount := v.wTestKeyCount
    stTestKeys := v.stTestKeys }

/-- A row after `memset`. -/
def SLogConfig.zero : SLogConfig := ⟨0, 0, 0, 0, 0, 0, [], 0, 0, 0, 0⟩

def configRows : RowSpec Nat SLogConfig MtSLogConfig where
  key := fun r => r.dwCfgId.toNat
  id := fun v => v.dwCfgId.toNat
  fresh := fun v => netLogConfigToLocal SLogConfig.zero v
  assign := netLogConfigToLocal
  key_fresh := fun _ => rfl
  key_assign := fun _ _ => rfl

def configSeq (r : SLogConfig) : Nat := r.dwSeq.toNat

/-- The sequence number that `MakeCheckLogConfigPkg` names; the first request after a start names
the one before. -/
def askConfigSeq (first : Bool) (r : SLogConfig) : Nat :=
  if first then (r.dwSeq - 1).toNat else configSeq r

/-- The length that `MakePacket` checks for a request with `n` rows: the head, the signature (an
empty one, or 32 enciphered bytes), the content and the body with the client's TLV. -/
def requestLen (encrypt : Bool) (n : Nat) : Nat :=
  (2 + 68 + 3 + 1) + (3 + if encrypt then 32 else 0) + (6 + 12 * n) + (1 + 4 + 52)

/-- The content of `MakeCheckLogConfigPkg`, if the packet can be made. -/
def makeCheckLogConfigPkg (encrypt : Bool) (dwServerResponseTime : Nat) (first : Bool)
    (table : List SLogConfig) : Option (List UInt8) :=
  if PKG_BUFF_LENGTH < requestLen encrypt table.length then none
  else some (requestContent configCodec dwServerResponseTime
    (request configRows (askConfigSeq first) table))

/-- `DealRespCheckLogConfig`; `none` if a log line reads through a null pointer. -/
def dealRespCheckLogConfig (errLog infoLog : Nat → Bool) (content : List UInt8)
    (table : List SLogConfig) : Option (List SLogConfig) :=
  if checkPkgBody content then
    applyChanges cmpSLogConfig configRows MAX_LOG_CONFIG_COUNT errLog infoLog 0
      ((getWTlvType2_list content).map (readChange configCodec)) none table
  else some table

/-- What a round takes from outside: the time of the last response, and which log lines are
written. -/
structure Round where
  dwServerResponseTime : Nat
  errLog : Nat → Bool
  infoLog : Nat → Bool

/-- A request, its answer, and what the agent makes of it. -/
def checkLogConfig (c : ConfigChain) (encrypt : Bool) (round : Round) (first : Bool)
    (table : List SLogConfig) : Option (List SLogConfig) :=
  match (makeCheckLogConfigPkg encrypt round.dwServerResponseTime first table).bind
      (dealCmdCheckLogConfig c) with
  | none => some table
  | some content => dealRespCheckLogConfig round.errLog round.infoLog content table

/-- Rounds one after the other; `first` is about the first of them. -/
def checkRounds (c : ConfigChain) (encrypt : Bool) : Bool → List Round → List SLogConfig →
    Option (List SLogConfig)
  | _, [], table => some table
  | first, round :: rounds, table =>
    (checkLogConfig c encrypt round first table).bind (checkRounds c encrypt false rounds)

end Agent

section Spec

/-- The transferred fields of a configuration of the server. -/
def SLogClientConfig.view (s : SLogClientConfig) : MtSLogConfig := logCheckCopyConfigInfo s

/-- The transferred fields of a row of the agent. -/
def SLogConfig.view (r : SLogConfig) : MtSLogConfig where
  dwSeq := r.dwSeq
  dwCfgId := r.dwCfgId
  iAppId := r.iAppId
  iModuleId := r.iModuleId
  iLogType := r.iLogType
  dwSpeedFreq := r.dwSpeedFreq
  wTestKeyCount := r.wTestKeyCount
  stTestKeys := r.stTestKeys

/-- What a round must keep: the order, the bound, and every row that is up to date, unless it takes
the fields of the server. -/
structure RoundKept (configs : List SLogClientConfig) (table table' : List SLogConfig) : Prop where
  sorted : SortedBy configRows.key table'
  length_le : table'.length ≤ MAX_LOG_CONFIG_COUNT
  current : ∀ s ∈ configs, ∀ r ∈ table, r.dwCfgId = s.dwCfgId → r.dwSeq = s.dwConfigSeq →
    ∃ r' ∈ table', r'.dwCfgId = s.dwCfgId ∧ r'.dwSeq = s.dwConfigSeq ∧ (r' = r ∨ r'.view = s.view)

/-- Every round comes to an end and keeps what it must. -/
def RoundsKept (c : ConfigChain) (encrypt : Bool) : Bool → List Round → List SLogConfig → Prop
  | _, [], _ => True
  | first, round :: rounds, table =>
    ∃ table', checkLogConfig c encrypt round first table = some table' ∧
      RoundKept c.configs table table' ∧ RoundsKept c encrypt false rounds table'

/-- The table has exactly the identities and sequence numbers of the server. -/
def ConfigsSynced (configs : List SLogClientConfig) (table : List SLogConfig) : Prop :=
  (table.map fun r => (r.dwCfgId, r.dwSeq)).Perm (configs.map fun s => (s.dwCfgId, s.dwConfigSeq))

/-- The request does not name the configuration with its sequence number. -/
def ConfigChanged (first : Bool) (table : List SLogConfig) (s : SLogClientConfig) : Prop :=
  ∀ r ∈ table, r.dwCfgId = s.dwCfgId → askConfigSeq first r ≠ s.dwConfigSeq.toNat

/-- The server does not have the configuration of a row. -/
def ConfigGone (configs : List SLogClientConfig) (r : SLogConfig) : Prop :=
  ∀ s ∈ configs, s.dwCfgId ≠ r.dwCfgId

instance (first : Bool) (table : List SLogConfig) (s : SLogClientConfig) :
    Decidable (ConfigChanged first table s) :=
  inferInstanceAs (Decidable (∀ r ∈ table, _))

instance (configs : List SLogClientConfig) (r : SLogConfig) : Decidable (ConfigGone configs r) :=
  inferInstanceAs (Decidable (∀ s ∈ configs, _))

/-- The state before a round lets it work: the request fits into a packet, and if there is nothing
to add or to modify, no log line of a deletion is written; an answer has at most 149 of them. -/
structure RoundOk (c : ConfigChain) (encrypt : Bool) (round : Round) (first : Bool)
    (table : List SLogConfig) : Prop where
  fits : requestLen encrypt table.length ≤ PKG_BUFF_LENGTH
  log : (∀ s ∈ c.configs, ¬ ConfigChanged first table s) →
    ∀ i < min (table.countP (ConfigGone c.configs)) 149, round.infoLog i = false

/-- Every round of a run finds such a state. -/
def RoundsOk (c : ConfigChain) (encrypt : Bool) : Bool → List Round → List SLogConfig → Prop
  | _, [], _ => True
  | first, round :: rounds, table =>
    RoundOk c encrypt round first table ∧
      ∀ table', checkLogConfig c encrypt round first table = some table' →
        RoundsOk c encrypt false rounds table'

end Spec

section Codec

/-- The records that the server writes. -/
def configRecords : Set MtSLogConfig :=
  {v | v.stTestKeys.length = sizeofSLogTestKey * v.wTestKeyCount.toNat ∧
    v.wTestKeyCount.toNat ≤ MAX_SLOG_TEST_KEYS_PER_CONFIG}

theorem mem_configRecords (s : SLogClientConfig) : logCheckCopyConfigInfo s ∈ configRecords :=
  ⟨s.length_stTestKeys, s.wTestKeyCount_le⟩

theorem MtSLogConfig.length_bytes (v : MtSLogConfig) : v.bytes.length = 26 + v.stTestKeys.length := by
  simp only [MtSLogConfig.bytes, List.length_append, length_toBytes]
  omega

theorem MtSLogConfig.read_bytes {v : MtSLogConfig} (hv : v ∈ configRecords) (rest : List UInt8) :
    MtSLogConfig.read (v.bytes ++ rest) = v := by
  have hcount : netAt (v.bytes ++ rest) 24 2 = v.wTestKeyCount.toNat := by
    simp [MtSLogConfig.bytes, List.append_assoc, netAt_append_right]
  have hkeys : slice (v.bytes ++ rest) 26 (sizeofSLogTestKey * v.wTestKeyCount.toNat) =
      v.stTestKeys := by
    have hsplit : v.bytes ++ rest = (toBytes 4 v.dwSeq.toNat ++ (toBytes 4 v.dwCfgId.toNat ++
        (toBytes 4 v.iAppId.toUInt32.toNat ++ (toBytes 4 v.iModuleId.toUInt32.toNat ++
          (toBytes 4 v.iLogType.toUInt32.toNat ++ (toBytes 4 v.dwSpeedFreq.toNat ++
            toBytes 2 v.wTestKeyCount.toNat)))))) ++ (v.stTestKeys ++ rest) := by
      simp [MtSLogConfig.bytes]
    exact slice_of_split hsplit (by simp) hv.1
  rw [MtSLogConfig.read, hcount, hkeys]
  simp [MtSLogConfig.bytes, List.append_assoc, netAt_append_right]

theorem configCodec_lawful : configCodec.Lawful configRecords {k | k < 2 ^ 32} where
  length_encKey := fun _ => length_toBytes 4 _
  decKey_encKey := fun _ hk rest => netAt_zero hk rest
  length_enc := by
    rintro v ⟨hlen, hcount⟩
    change v.bytes.length < 2 ^ 16
    rw [v.length_bytes, hlen]
    unfold sizeofSLogTestKey MAX_SLOG_TEST_KEYS_PER_CONFIG at *
    omega
  dec_enc := fun _ hv rest => MtSLogConfig.read_bytes hv rest

theorem cmpSLogConfig_comparesOn (D : Set Nat) : ComparesOn cmpSLogConfig D where
  neg_iff := by
    intro a _ b _
    unfold cmpSLogConfig
    split
    · omega
    · split
      · omega
      · omega
  pos_iff := by
    intro a _ b _
    unfold cmpSLogConfig
    split
    · omega
    · split
      · omega
      · omega

theorem configs_carry : Carries configRows configSource configSeq where
  id := fun _ => rfl
  fresh := fun _ => rfl
  assign := fun _ _ => rfl

end Codec

section Answer

variable {c : ConfigChain} {encrypt first : Bool} {round : Round} {table : List SLogConfig}
  {ch : Change Nat MtSLogConfig}

/-- The changes that the request asks for. -/
def configDiff (c : ConfigChain) (first : Bool) (table : List SLogConfig) :
    List (Change Nat MtSLogConfig) :=
  diff configSource c.configs (request configRows (askConfigSeq first) table)

/-- The changes of the answer. -/
def configAnswer (c : ConfigChain) (first : Bool) (table : List SLogConfig) :
    List (Change Nat MtSLogConfig) :=
  takeFit (changeSize configCodec) respBufSize sizeofTPkgBody (configDiff c first table)

theorem configAnswer_prefix_diff (c : ConfigChain) (first : Bool) (table : List SLogConfig) :
    configAnswer c first table <+: configDiff c first table :=
  takeFit_prefix _ _

theorem writable_configDiff (h : ch ∈ configDiff c first table) :
    Writable configRecords {k | k < 2 ^ 32} ch := by
  cases ch with
  | add v =>
    obtain ⟨s, -, rfl, -⟩ := add_mem_diff.mp h
    exact mem_configRecords s
  | mod v =>
    obtain ⟨s, -, rfl, -⟩ := mod_mem_diff.mp h
    exact mem_configRecords s
  | del k =>
    obtain ⟨r, -, rfl⟩ := List.mem_map.mp (del_mem_diff.mp h).1
    exact r.dwCfgId.toNat_lt

theorem changeSize_bounds (h : Writable configRecords {k | k < 2 ^ 32} ch) :
    8 ≤ changeSize configCodec ch ∧ (ch.isAdd = true → 30 ≤ changeSize configCodec ch) ∧
      changeSize configCodec ch ≤ 250 := by
  have hrecord : ∀ v ∈ configRecords, 26 ≤ v.bytes.length ∧ v.bytes.length ≤ 246 := by
    rintro v ⟨hlen, hcount⟩
    rw [v.length_bytes, hlen]
    unfold sizeofSLogTestKey MAX_SLOG_TEST_KEYS_PER_CONFIG at *
    omega
  cases ch with
  | add v =>
    have hv := hrecord v h
    change 8 ≤ 4 + v.bytes.length ∧ (_ → 30 ≤ 4 + v.bytes.length) ∧ 4 + v.bytes.length ≤ 250
    omega
  | mod v =>
    have hv := hrecord v h
    change 8 ≤ 4 + v.bytes.length ∧ (_ → 30 ≤ 4 + v.bytes.length) ∧ 4 + v.bytes.length ≤ 250
    omega
  | del k =>
    have hk : changeSize configCodec (.del k : Change Nat MtSLogConfig) = 8 := by
      simp only [changeSize, changeTlv, configCodec, length_toBytes]
    rw [hk]
    refine ⟨le_rfl, ?_, by decide⟩
    intro hadd
    cases hadd

theorem configAnswer_bounds (c : ConfigChain) (first : Bool) (table : List SLogConfig) :
    (configAnswer c first table).length ≤ 149 ∧ adds (configAnswer c first table) ≤ 39 := by
  have hsum : sizeofTPkgBody + ((configAnswer c first table).map (changeSize configCodec)).sum ≤
      respBufSize := sum_takeFit_le _ (by decide)
  have hall : ∀ ch ∈ configAnswer c first table, Writable configRecords {k | k < 2 ^ 32} ch :=
    fun ch hch => writable_configDiff ((configAnswer_prefix_diff c first table).subset hch)
  have hcount : ∀ cs : List (Change Nat MtSLogConfig),
      (∀ ch ∈ cs, Writable configRecords {k | k < 2 ^ 32} ch) →
        8 * cs.length ≤ (cs.map (changeSize configCodec)).sum ∧
          30 * adds cs ≤ (cs.map (changeSize configCodec)).sum := by
    intro cs h
    induction cs with
    | nil => exact ⟨le_rfl, le_rfl⟩
    | cons ch cs ih =>
      have hrest := ih fun d hd => h d (List.mem_cons_of_mem _ hd)
      obtain ⟨hsize, hadd, -⟩ := changeSize_bounds (h ch List.mem_cons_self)
      rw [List.map_cons, List.sum_cons, List.length_cons, adds_cons]
      refine ⟨by omega, ?_⟩
      split
      · rename_i hb
        have := hadd hb
        omega
      · omega
  have hbounds := hcount _ hall
  unfold sizeofTPkgBody respBufSize at hsum
  omega

theorem setLogConfigCheckInfo_eq (hchain : c.configs.length = c.wLogConfigCount)
    (hsort : SortedBy configRows.key table) :
    setLogConfigCheckInfo c (request configRows (askConfigSeq first) table) =
      some (configAnswer c first table) := by
  have hnodup : ((request configRows (askConfigSeq first) table).map Entry.id).Nodup := by
    rw [request_ids]
    exact hsort.nodup
  have hmarked : request configRows (askConfigSeq first) table =
      marked [] (request configRows (askConfigSeq first) table) := by
    simp [marked, request]
  have hanswer : (answer (changeSize configCodec) respBufSize configSource c.configs
      ⟨request configRows (askConfigSeq first) table, sizeofTPkgBody, [], false⟩).changes = _ :=
    changes_answer hnodup hmarked rfl rfl
  unfold setLogConfigCheckInfo
  rw [if_neg (by omega)]
  exact congrArg some hanswer

theorem checkLogConfig_eq (hchain : c.configs.length = c.wLogConfigCount)
    (hsort : SortedBy configRows.key table)
    (hfits : requestLen encrypt table.length ≤ PKG_BUFF_LENGTH) :
    checkLogConfig c encrypt round first table =
      applyChanges cmpSLogConfig configRows MAX_LOG_CONFIG_COUNT round.errLog round.infoLog 0
        (configAnswer c first table) none table := by
  have hlen : table.length < 2 ^ 16 := by
    unfold requestLen PKG_BUFF_LENGTH at hfits
    omega
  have hread : readRequest configCodec (requestContent configCodec round.dwServerResponseTime
      (request configRows (askConfigSeq first) table)) =
      some (request configRows (askConfigSeq first) table) := by
    apply readRequest_requestContent configCodec_lawful
    · intro e he
      obtain ⟨r, -, rfl⟩ := List.mem_map.mp he
      refine ⟨r.dwCfgId.toNat_lt, ?_, rfl⟩
      unfold askConfigSeq configSeq
      split
      · exact UInt32.toNat_lt _
      · exact UInt32.toNat_lt _
    · rwa [request, List.length_map]
  have hwritable : ∀ ch ∈ configAnswer c first table, Writable configRecords {k | k < 2 ^ 32} ch :=
    fun ch hch => writable_configDiff ((configAnswer_prefix_diff c first table).subset hch)
  have hcount : (configAnswer c first table).length < 256 := by
    have := (configAnswer_bounds c first table).1
    omega
  rw [checkLogConfig, makeCheckLogConfigPkg, if_neg (by omega), Option.bind_some,
    dealCmdCheckLogConfig, hread]
  simp only [Option.bind_eq_bind, Option.bind_some, setLogConfigCheckInfo_eq hchain hsort]
  rw [dealRespCheckLogConfig, checkPkgBody_answerBody configCodec_lawful hwritable hcount, if_pos rfl,
    read_answerBody configCodec_lawful hwritable hcount]

end Answer

section Rounds

variable {c : ConfigChain} {encrypt first : Bool} {round : Round} {table : List SLogConfig}
  {table' : List SLogConfig} {keys : List Nat}

/-- The identities of the server and of a table. -/
def configKeys (c : ConfigChain) (table : List SLogConfig) : List Nat :=
  c.configs.map configSource.id ++ table.map configRows.key

theorem nodup_configs (hS : (c.configs.map SLogClientConfig.dwCfgId).Nodup) :
    (c.configs.map configSource.id).Nodup := by
  have hcomp : configSource.id = UInt32.toNat ∘ SLogClientConfig.dwCfgId := rfl
  rw [hcomp, ← List.map_map]
  exact hS.map fun a b => UInt32.toNat_inj.mp

theorem RoundOk.quiet (hok : RoundOk c encrypt round first table)
    (hsort : SortedBy configRows.key table) :
    quiet round.infoLog 0 none (configAnswer c first table) = true := by
  apply quiet_prefix (configAnswer_prefix_diff c first table)
  intro hnil j hj
  apply hok.log
  · rw [← List.length_eq_zero_iff, length_changed, List.countP_eq_zero] at hnil
    intro s hs hchanged
    apply hnil s hs
    rw [changeOf_isSome_iff hsort.nodup]
    exact fun r hr hkey => hchanged r hr (UInt32.toNat_inj.mp hkey)
  · have hgone : (gone configSource c.configs (request configRows (askConfigSeq first) table)).length =
        table.countP (ConfigGone c.configs) := by
      rw [length_gone]
      apply List.countP_congr
      intro r _
      rw [decide_eq_true_eq, decide_eq_true_eq, List.mem_map]
      constructor
      · intro h s hs heq
        exact h ⟨s, hs, congrArg UInt32.toNat heq⟩
      · rintro h ⟨s, hs, heq⟩
        exact h s hs (UInt32.toNat_inj.mp heq)
    have hle := (configAnswer_prefix_diff c first table).length_le
    have hbound := (configAnswer_bounds c first table).1
    rw [configDiff, diff, hnil, List.nil_append, hgone] at hle
    omega

theorem checkLogConfig_spec (hchain : c.configs.length = c.wLogConfigCount)
    (hS : (c.configs.map SLogClientConfig.dwCfgId).Nodup) (hsort : SortedBy configRows.key table)
    (hok : RoundOk c encrypt round first table)
    (hkeys : ∀ k ∈ configKeys c table, k ∈ keys) :
    ∃ table', checkLogConfig c encrypt round first table = some table' ∧
      SortedBy configRows.key table' ∧ table'.length ≤ MAX_LOG_CONFIG_COUNT ∧
      (∀ x ∈ table', configRows.key x ∈ keys) ∧
      ∀ k, rowOf configRows.key table' k = rowAfter configRows (configAnswer c first table) table k := by
  have happ : Applies configRows (configAnswer c first table) table :=
    (applies_diff (fun _ => rfl) (nodup_configs hS) hsort.nodup _).of_prefix_of
      (configAnswer_prefix_diff c first table)
  have hD : ∀ x ∈ table, configRows.key x ∈ {k | k ∈ keys} :=
    fun x hx => hkeys _ (List.mem_append_right _ (List.mem_map_of_mem hx))
  have hk : ∀ ch ∈ configAnswer c first table, ch.key configRows ∈ {k | k ∈ keys} := by
    intro ch hch
    have hmem := (configAnswer_prefix_diff c first table).subset hch
    apply hkeys
    cases ch with
    | add v =>
      obtain ⟨s, hs, rfl, -⟩ := add_mem_diff.mp hmem
      exact List.mem_append_left _ (List.mem_map_of_mem hs)
    | mod v =>
      obtain ⟨s, hs, rfl, -⟩ := mod_mem_diff.mp hmem
      exact List.mem_append_left _ (List.mem_map_of_mem hs)
    | del k => exact List.mem_append_right _ (del_mem_diff.mp hmem).1
  have hroom : table.length + adds (configAnswer c first table) ≤ MAX_LOG_CONFIG_COUNT := by
    have hadds := (configAnswer_bounds c first table).2
    have hfits := hok.fits
    unfold requestLen PKG_BUFF_LENGTH at hfits
    unfold MAX_LOG_CONFIG_COUNT
    omega
  obtain ⟨table', heq, hsort', hkeys', hlen', hrow⟩ := applyChanges_all (cmpSLogConfig_comparesOn _) hD
    hsort happ hk hroom (hok.quiet hsort) round.errLog
  refine ⟨table', ?_, hsort', hlen'.trans hroom, hkeys', hrow⟩
  rw [checkLogConfig_eq hchain hsort hok.fits, heq]

theorem current_kept (hS : (c.configs.map SLogClientConfig.dwCfgId).Nodup)
    (hsort : SortedBy configRows.key table)
    (hrow : ∀ k, rowOf configRows.key table' k =
      rowAfter configRows (configAnswer c first table) table k) {s : SLogClientConfig}
    (hs : s ∈ c.configs) {r : SLogConfig} (hr : r ∈ table) (hid : r.dwCfgId = s.dwCfgId)
    (hseq : r.dwSeq = s.dwConfigSeq) :
    ∃ r' ∈ table', r'.dwCfgId = s.dwCfgId ∧ r'.dwSeq = s.dwConfigSeq ∧ (r' = r ∨ r'.view = s.view) := by
  have hnodup := nodup_configs hS
  have happ : Applies configRows (configAnswer c first table) table :=
    (applies_diff (fun _ => rfl) hnodup hsort.nodup _).of_prefix_of
      (configAnswer_prefix_diff c first table)
  have hold : rowOf configRows.key table s.dwCfgId.toNat = some r := by
    rw [← hid]
    exact rowOf_eq_some_of_mem hsort.nodup hr
  have hnew := hrow s.dwCfgId.toNat
  by_cases hmem : s.dwCfgId.toNat ∈ (configAnswer c first table).map (Change.key configRows)
  · obtain ⟨ch, hch, hkey⟩ := List.mem_map.mp hmem
    have hdiff := (configAnswer_prefix_diff c first table).subset hch
    rw [← hkey, rowAfter_of_mem happ.nodup hch, hkey, hold] at hnew
    cases ch with
    | add v =>
      exfalso
      apply happ.add_new v hch
      rw [show configRows.id v = s.dwCfgId.toNat from hkey, mem_keys_iff, hold]
      rfl
    | mod v =>
      obtain ⟨s', hs', rfl, -⟩ := mod_mem_diff.mp hdiff
      obtain rfl : s' = s := by
        have hfound := rowOf_eq_some_of_mem hnodup hs'
        rw [show configSource.id s' = configSource.id s from hkey,
          rowOf_eq_some_of_mem hnodup hs] at hfound
        exact (Option.some.inj hfound).symm
      exact ⟨_, (rowOf_some hnew).1, rfl, rfl, Or.inr rfl⟩
    | del k =>
      exfalso
      apply (del_mem_diff.mp hdiff).2
      rw [show k = configSource.id s from hkey]
      exact List.mem_map_of_mem hs
  · rw [rowAfter_of_notMem hmem, hold] at hnew
    exact ⟨r, (rowOf_some hnew).1, hid, hseq, Or.inl rfl⟩

/-- The identities on which a table and the server disagree. -/
def openKeys (c : ConfigChain) (keys : List Nat) (table : List SLogConfig) : Nat :=
  disagreements configRows configSource configSeq c.configs keys table

theorem openKeys_le (hS : (c.configs.map SLogClientConfig.dwCfgId).Nodup)
    (hsort : SortedBy configRows.key table)
    (hrow : ∀ k, rowOf configRows.key table' k =
      rowAfter configRows (configAnswer c first table) table k) (keys : List Nat) :
    openKeys c keys table' ≤ openKeys c keys table :=
  disagreements_le keys configs_carry (nodup_configs hS) hsort.nodup
    (configAnswer_prefix_diff c first table) hrow

theorem openKeys_sub_one (hS : (c.configs.map SLogClientConfig.dwCfgId).Nodup)
    (hsort : SortedBy configRows.key table)
    (hrow : ∀ k, rowOf configRows.key table' k =
      rowAfter configRows (configAnswer c false table) table k)
    (hkeys : ∀ k ∈ configKeys c table, k ∈ keys) :
    openKeys c keys table' ≤ openKeys c keys table - 1 := by
  have hnodup := nodup_configs hS
  have hpre : configAnswer c false table <+: diff configSource c.configs
      (request configRows configSeq table) := configAnswer_prefix_diff c false table
  by_cases hnil : configAnswer c false table = []
  · have hzero : openKeys c keys table = 0 := by
      rw [openKeys, disagreements, List.countP_eq_zero]
      intro k _ hk
      refine takeFit_ne_nil (diff_ne_nil (of_decide_eq_true hk)) ?_ hnil
      intro ch hch
      have hwritable : Writable configRecords {k | k < 2 ^ 32} ch :=
        writable_configDiff (show ch ∈ configDiff c false table from hch)
      have hsize := (changeSize_bounds hwritable).2.2
      unfold sizeofTPkgBody respBufSize
      omega
    have hle := openKeys_le hS hsort hrow keys
    omega
  · have hall : ∀ k, k ∈ c.configs.map configSource.id ∨ k ∈ table.map configRows.key → k ∈ keys :=
      fun k hk => hkeys k (List.mem_append.mpr hk)
    have hlt := disagreements_lt keys configs_carry hnodup hsort.nodup hpre hnil hrow hall
    unfold openKeys
    omega

theorem checkRounds_spec (hchain : c.configs.length = c.wLogConfigCount)
    (hS : (c.configs.map SLogClientConfig.dwCfgId).Nodup) (rounds : List Round)
    (hsort : SortedBy configRows.key table)
    (hkeys : ∀ k ∈ configKeys c table, k ∈ keys) (hok : RoundsOk c encrypt first rounds table) :
    RoundsKept c encrypt first rounds table ∧
      ∃ table', checkRounds c encrypt first rounds table = some table' ∧
        SortedBy configRows.key table' ∧ (∀ k ∈ configKeys c table', k ∈ keys) ∧
        openKeys c keys table' ≤ openKeys c keys table - (rounds.length - if first then 1 else 0) := by
  induction rounds generalizing first table with
  | nil => exact ⟨trivial, table, rfl, hsort, hkeys, by simp⟩
  | cons round rounds ih =>
    obtain ⟨hround, hrest⟩ := hok
    obtain ⟨table₁, heq, hsort₁, hlen₁, hkeys₁, hrow⟩ :=
      checkLogConfig_spec hchain hS hsort hround hkeys
    have hin : ∀ k ∈ configKeys c table₁, k ∈ keys := by
      intro k hk
      rcases List.mem_append.mp hk with hk | hk
      · exact hkeys k (List.mem_append_left _ hk)
      · obtain ⟨x, hx, rfl⟩ := List.mem_map.mp hk
        exact hkeys₁ x hx
    obtain ⟨hkept, table', hrun, hsort', hkeys', hopen⟩ := ih hsort₁ hin (hrest table₁ heq)
    have hcurrent : RoundKept c.configs table table₁ :=
      ⟨hsort₁, hlen₁, fun s hs r hr hid hseq => current_kept hS hsort hrow hs hr hid hseq⟩
    refine ⟨⟨table₁, heq, hcurrent, hkept⟩, table', ?_, hsort', hkeys', ?_⟩
    · rw [checkRounds, heq, Option.bind_some, hrun]
    · rw [List.length_cons]
      simp only [Bool.false_eq_true, if_false] at hopen
      cases first with
      | true =>
        have hle := openKeys_le hS hsort hrow keys
        simp only [if_true]
        omega
      | false =>
        have hle := openKeys_sub_one hS hsort hrow hkeys
        simp only [Bool.false_eq_true, if_false]
        omega

theorem synced_of_openKeys (hS : (c.configs.map SLogClientConfig.dwCfgId).Nodup)
    (hsort : SortedBy configRows.key table)
    (hkeys : ∀ k ∈ configKeys c table, k ∈ keys) (hopen : openKeys c keys table = 0) :
    ConfigsSynced c.configs table := by
  have hf : ∀ r : SLogConfig, (UInt32.toNat ∘ Prod.fst) (r.dwCfgId, r.dwSeq) = configRows.key r :=
    fun _ => rfl
  have hg : ∀ s : SLogClientConfig,
      (UInt32.toNat ∘ Prod.fst) (s.dwCfgId, s.dwConfigSeq) = configSource.id s := fun _ => rfl
  apply (perm_map_iff_rowOf hf hg hsort.nodup (nodup_configs hS)).mpr
  intro k
  have hagrees : Agrees configRows configSource configSeq c.configs table k := by
    by_cases hk : k ∈ keys
    · rw [openKeys, disagreements, List.countP_eq_zero] at hopen
      have hno := hopen k hk
      rwa [decide_eq_true_eq, not_not] at hno
    · have hnot : k ∉ configKeys c table := fun h => hk (hkeys k h)
      rw [configKeys, List.mem_append, not_or] at hnot
      rw [Agrees, rowOf_eq_none_iff.mpr hnot.1, rowOf_eq_none_iff.mpr hnot.2]
      rfl
  unfold Agrees at hagrees
  cases hr : rowOf configRows.key table k with
  | none =>
    rw [hr] at hagrees
    rw [Option.map_eq_none_iff.mp hagrees.symm]
    rfl
  | some r =>
    rw [hr, Option.map_some] at hagrees
    obtain ⟨s, hs, hseq⟩ := Option.map_eq_some_iff.mp hagrees.symm
    have hid : r.dwCfgId = s.dwCfgId :=
      UInt32.toNat_inj.mp ((rowOf_some hr).2.trans (rowOf_some hs).2.symm)
    have hseq' : r.dwSeq = s.dwConfigSeq := UInt32.toNat_inj.mp hseq.symm
    rw [hs, Option.map_some, Option.map_some, hid, hseq']

/-- In every run whose rounds find a table that fits into a request, and write no log line in an
answer of deletions only, each round keeps the table in order and what is up to date in it, and once
the run is long enough the table is the list of the server. -/
theorem log_config_rounds (c : ConfigChain) (encrypt first : Bool) (rounds : List Round)
    (table : List SLogConfig) (hchain : c.configs.length = c.wLogConfigCount)
    (hS : (c.configs.map SLogClientConfig.dwCfgId).Nodup) (hsort : SortedBy configRows.key table)
    (hok : RoundsOk c encrypt first rounds table) :
    RoundsKept c encrypt first rounds table ∧
      (1 + c.configs.length + table.length ≤ rounds.length →
        ∃ table', checkRounds c encrypt first rounds table = some table' ∧
          SortedBy configRows.key table' ∧ ConfigsSynced c.configs table') := by
  obtain ⟨hkept, table', hrun, hsort', hkeys', hopen⟩ :=
    checkRounds_spec hchain hS rounds hsort (fun _ hk => hk) hok
  refine ⟨hkept, ?_⟩
  intro hlong
  have hbound : openKeys c (configKeys c table) table ≤ c.configs.length + table.length := by
    refine (List.countP_le_length).trans ?_
    simp [configKeys]
  have hzero : openKeys c (configKeys c table) table' = 0 := by
    split at hopen
    · omega
    · omega
  exact ⟨table', hrun, hsort', synced_of_openKeys hS hsort' hkeys' hzero⟩

/-- A server with one configuration. -/
def oneConfig : ConfigChain where
  stConfig := fun _ => ⟨2, 1, 10, 20, 3, 0, 0, [], -1, rfl, by decide⟩
  iLogConfigIndexStart := 0
  wLogConfigCount := 1

/-- A server without configurations. -/
def noConfig : ConfigChain := { oneConfig with wLogConfigCount := 0 }

/-- The row of the configuration from before a change, and after it. -/
def oldConfig : SLogConfig := ⟨1, 1, 10, 21, 3, 0, [], 0, 0, 0, 0⟩
def newConfig : SLogConfig := ⟨2, 1, 10, 20, 3, 0, [], 0, 0, 0, 0⟩

/-- All log lines are written. -/
def loudRound : Round := ⟨5, fun _ => true, fun _ => true⟩

theorem roundOk_oneConfig {table : List SLogConfig} (hlen : table.length ≤ 1)
    (hgone : table.countP (ConfigGone oneConfig.configs) = 0) :
    RoundOk oneConfig false loudRound false table where
  fits := by
    unfold requestLen PKG_BUFF_LENGTH
    simp only [Bool.false_eq_true, if_false]
    omega
  log := by
    intro _ i hi
    rw [hgone] at hi
    omega

theorem roundsOk_oneConfig :
    RoundsOk oneConfig false false [loudRound, loudRound, loudRound] [oldConfig] := by
  have hfirst : checkLogConfig oneConfig false loudRound false [oldConfig] = some [newConfig] := by
    decide +kernel
  have hnext : checkLogConfig oneConfig false loudRound false [newConfig] = some [newConfig] := by
    decide +kernel
  refine ⟨roundOk_oneConfig (by decide) (by decide), ?_⟩
  intro table₁ h₁
  obtain rfl := Option.some.inj (hfirst.symm.trans h₁)
  refine ⟨roundOk_oneConfig (by decide) (by decide), ?_⟩
  intro table₂ h₂
  obtain rfl := Option.some.inj (hnext.symm.trans h₂)
  exact ⟨roundOk_oneConfig (by decide) (by decide), fun _ _ => trivial⟩

theorem log_config_rounds_oneConfig :
    RoundsKept oneConfig false false [loudRound, loudRound, loudRound] [oldConfig] ∧
      ∃ table', checkRounds oneConfig false false [loudRound, loudRound, loudRound] [oldConfig] =
          some table' ∧
        SortedBy configRows.key table' ∧ ConfigsSynced oneConfig.configs table' := by
  have h := log_config_rounds oneConfig false false [loudRound, loudRound, loudRound] [oldConfig]
    (by decide) (by decide) (by decide) roundsOk_oneConfig
  exact ⟨h.1, h.2 (by decide)⟩

/-- An answer with a deletion only ends the agent in its log line. -/
theorem deletion_log_null :
    noConfig.configs.length = noConfig.wLogConfigCount ∧
      (noConfig.configs.map SLogClientConfig.dwCfgId).Nodup ∧ SortedBy configRows.key [oldConfig] ∧
      [oldConfig].length ≤ MAX_LOG_CONFIG_COUNT ∧
      ¬ RoundsKept noConfig false false [loudRound] [oldConfig] := by
  refine ⟨by decide, by decide, by decide, by decide, ?_⟩
  rintro ⟨table', heq, -⟩
  have hnone : checkLogConfig noConfig false loudRound false [oldConfig] = none := by decide +kernel
  cases hnone.symm.trans heq

end Rounds

end XrkMonitor.Sync
