import XrkMonitor.Sync.Wire

/-!
# Synchronisation of the applications

The agent's table of applications follows the list of the server. The server
compares sequence numbers; for an application that is new or has another number it
sends a record of its fields, and for an entry that it does not have a deletion.

## Implementation notes

The record is a local variable of `InnerDealAppInfoCheck` that is not initialised.
`APPINFO_CHECK_COPY_INFO` sets all its fields except the type, so every record of
an answer carries the byte that the stack had in its place; it is a parameter. The
applications of the server are private ones, whose type is `0`. The log lines of
the agent that are written are parameters too, one for each TLV: the line of a
deletion reads the record of the last addition or modification.
-/

namespace XrkMonitor.Sync

open Library Packet

def MAX_SLOG_APP_COUNT : Nat := 200
def MAX_APP_COUNT : Nat := 120

/-- `MtAppInfo`, in host byte order. -/
structure MtAppInfo where
  iAppId : Int32
  bAppType : UInt8
  wModuleCount : UInt16
  dwSeq : UInt32
  wLogSrvPort : UInt16
  dwAppSrvMaster : UInt32
deriving DecidableEq

/-- A slot of the server's `AppInfo`. -/
structure SrvAppInfo where
  iAppId : Int32
  dwAppSrvMaster : UInt32
  wLogSrvPort : UInt16
  dwSeq : UInt32
  wModuleCount : UInt16
  iNextIndex : Int

/-- A row of the agent's `AppInfo`. -/
structure AppInfo where
  iAppId : Int32
  dwAppSrvMaster : UInt32
  wLogSrvPort : UInt16
  bAppType : UInt8
  wModuleCount : UInt16
  dwSeq : UInt32
  dwLastTrySendLogTime : UInt32
  dwTrySendCount : UInt32
  dwSendOkCount : UInt32
  dwTrySendFailedCount : UInt32
deriving DecidableEq

section Server

/-- The applications of the server: the slots, and the chain of `psysConfig` through them. -/
structure AppChain where
  stInfo : Nat → SrvAppInfo
  iAppInfoIndexStart : Int
  wAppInfoCount : Nat

/-- The applications that the walk reaches. -/
def AppChain.apps (c : AppChain) : List SrvAppInfo :=
  (chainSlots MAX_SLOG_APP_COUNT (fun i => (c.stInfo i).iNextIndex) c.wAppInfoCount
    c.iAppInfoIndexStart).map c.stInfo

/-- `APPINFO_CHECK_COPY_INFO`; `stackByte` stands in the place of the type. -/
def appInfoCheckCopyInfo (stackByte : UInt8) (s : SrvAppInfo) : MtAppInfo where
  iAppId := s.iAppId
  bAppType := stackByte
  wModuleCount := s.wModuleCount
  dwSeq := s.dwSeq
  wLogSrvPort := s.wLogSrvPort
  dwAppSrvMaster := s.dwAppSrvMaster

/-- The bytes of a record. -/
def MtAppInfo.bytes (v : MtAppInfo) : List UInt8 :=
  toBytes 4 v.iAppId.toUInt32.toNat ++ (toBytes 1 v.bAppType.toNat ++
    (toBytes 2 v.wModuleCount.toNat ++ (toBytes 4 v.dwSeq.toNat ++
      (toBytes 2 v.wLogSrvPort.toNat ++ toBytes 4 v.dwAppSrvMaster.toNat))))

/-- `APP_CONFIG_NTOH` of the bytes. -/
def MtAppInfo.read (bs : List UInt8) : MtAppInfo where
  iAppId := (UInt32.ofNat (netAt bs 0 4)).toInt32
  bAppType := UInt8.ofNat (netAt bs 4 1)
  wModuleCount := UInt16.ofNat (netAt bs 5 2)
  dwSeq := UInt32.ofNat (netAt bs 7 4)
  wLogSrvPort := UInt16.ofNat (netAt bs 11 2)
  dwAppSrvMaster := UInt32.ofNat (netAt bs 13 4)

def appCodec : ChangeCodec Int MtAppInfo where
  enc := MtAppInfo.bytes
  dec := MtAppInfo.read
  encKey := fun k => toBytes 4 (Int32.ofInt k).toUInt32.toNat
  decKey := fun bs => (UInt32.ofNat (netAt bs 0 4)).toInt32.toInt

def appSource (stackByte : UInt8) : SourceSpec Int SrvAppInfo MtAppInfo where
  id := fun s => s.iAppId.toInt
  seq := fun s => s.dwSeq.toNat
  net := appInfoCheckCopyInfo stackByte

/-- `InnerDealAppInfoCheck` over the chain. -/
def innerDealAppInfoCheck (c : AppChain) (stackByte : UInt8) (entries : List (Entry Int)) :
    Answer Int MtAppInfo :=
  answerRows (changeSize appCodec) respBufSize (appSource stackByte) c.apps
    ⟨entries, sizeofTPkgBody, [], false⟩

/-- `SetAppInfoCheck`: the changes of the answer. A chain that ends before its count is followed
through a null pointer. -/
def setAppInfoCheck (c : AppChain) (stackByte : UInt8) (entries : List (Entry Int)) :
    Option (List (Change Int MtAppInfo)) :=
  let a := innerDealAppInfoCheck c stackByte entries
  if (0 ≤ c.iAppInfoIndexStart ∧ c.iAppInfoIndexStart < MAX_SLOG_APP_COUNT) ∧
      c.apps.length < c.wAppInfoCount ∧ a.full = false then none
  else some (if a.full then a else answerGone (changeSize appCodec) respBufSize a.entries a).changes

/-- `DealCmdCheckAppInfo`: the content of the answer. -/
def dealCmdCheckAppInfo (c : AppChain) (stackByte : UInt8) (content : List UInt8) :
    Option (List UInt8) := do
  let entries ← readRequest appCodec content
  let changes ← setAppInfoCheck c stackByte entries
  some (answerBody appCodec changes)

end Server

section Agent

/-- `CmpAppConfig`: the difference of the identities as an `int`. -/
def cmpAppConfig (a b : Int) : Int := Int.bmod (a - b) (2 ^ 32)

/-- `NET_APP_CONFIG_TO_LOCAL`. -/
def netAppConfigToLocal (r : AppInfo) (v : MtAppInfo) : AppInfo :=
  { r with
    iAppId := v.iAppId
    dwAppSrvMaster := v.dwAppSrvMaster
    wLogSrvPort := v.wLogSrvPort
    bAppType := v.bAppType
    wModuleCount := v.wModuleCount
    dwSeq := v.dwSeq }

/-- A row after `memset`. -/
def AppInfo.zero : AppInfo := ⟨0, 0, 0, 0, 0, 0, 0, 0, 0, 0⟩

def appRows : RowSpec Int AppInfo MtAppInfo where
  key := fun r => r.iAppId.toInt
  id := fun v => v.iAppId.toInt
  fresh := fun v => netAppConfigToLocal AppInfo.zero v
  assign := netAppConfigToLocal
  key_fresh := fun _ => rfl
  key_assign := fun _ _ => rfl

/-- The sequence number that `MakeCheckAppConfigPkg` names; the first request after a start names
the one before. -/
def askSeq (first : Bool) (r : AppInfo) : Nat :=
  if first then (r.dwSeq - 1).toNat else r.dwSeq.toNat

/-- The content of `MakeCheckAppConfigPkg`. -/
def makeCheckAppConfigPkg (dwServerResponseTime : Nat) (first : Bool) (table : List AppInfo) :
    List UInt8 :=
  requestContent appCodec dwServerResponseTime (request appRows (askSeq first) table)

/-- `DealRespCheckAppConfig`; `none` if a log line reads through a null pointer. -/
def dealRespCheckAppConfig (errLog infoLog : Nat → Bool) (content : List UInt8)
    (table : List AppInfo) : Option (List AppInfo) :=
  if checkPkgBody content then
    applyChanges cmpAppConfig appRows MAX_APP_COUNT errLog infoLog 0
      ((getWTlvType2_list content).map (readChange appCodec)) none table
  else some table

/-- A request, its answer, and what the agent makes of it. -/
def checkAppConfig (c : AppChain) (stackByte : UInt8) (dwServerResponseTime : Nat) (first : Bool)
    (errLog infoLog : Nat → Bool) (table : List AppInfo) : Option (List AppInfo) :=
  match dealCmdCheckAppInfo c stackByte (makeCheckAppConfigPkg dwServerResponseTime first table) with
  | none => some table
  | some content => dealRespCheckAppConfig errLog infoLog content table

end Agent

section Spec

/-- The transferred fields of an application of the server; it is a private one. -/
def SrvAppInfo.view (s : SrvAppInfo) : MtAppInfo := appInfoCheckCopyInfo 0 s

/-- The transferred fields of a row of the agent. -/
def AppInfo.view (r : AppInfo) : MtAppInfo where
  iAppId := r.iAppId
  bAppType := r.bAppType
  wModuleCount := r.wModuleCount
  dwSeq := r.dwSeq
  wLogSrvPort := r.wLogSrvPort
  dwAppSrvMaster := r.dwAppSrvMaster

/-- The agent has exactly the applications of the server, in the order of their identities. -/
def AppsSynced (apps : List SrvAppInfo) (result : Option (List AppInfo)) : Prop :=
  ∃ table, result = some table ∧ SortedBy appRows.key table ∧
    (table.map AppInfo.view).Perm (apps.map SrvAppInfo.view)

/-- The agent does not have the application. -/
def AppNew (table : List AppInfo) (s : SrvAppInfo) : Prop := ∀ r ∈ table, r.iAppId ≠ s.iAppId

/-- The request does not name the application with its sequence number. -/
def AppChanged (first : Bool) (table : List AppInfo) (s : SrvAppInfo) : Prop :=
  ∀ r ∈ table, r.iAppId = s.iAppId → askSeq first r ≠ s.dwSeq.toNat

/-- The server does not have the application of a row. -/
def AppGone (apps : List SrvAppInfo) (r : AppInfo) : Prop := ∀ s ∈ apps, s.iAppId ≠ r.iAppId

instance (table : List AppInfo) (s : SrvAppInfo) : Decidable (AppNew table s) :=
  inferInstanceAs (Decidable (∀ r ∈ table, _))

instance (first : Bool) (table : List AppInfo) (s : SrvAppInfo) :
    Decidable (AppChanged first table s) :=
  inferInstanceAs (Decidable (∀ r ∈ table, _))

instance (apps : List SrvAppInfo) (r : AppInfo) : Decidable (AppGone apps r) :=
  inferInstanceAs (Decidable (∀ s ∈ apps, _))

/-- The answer has room for all changes: a record takes 21 bytes and a deletion 8. -/
def AnswerRoom (first : Bool) (apps : List SrvAppInfo) (table : List AppInfo) : Prop :=
  1 + 21 * apps.countP (AppChanged first table) + 8 * table.countP (AppGone apps) ≤ respBufSize

/-- When the exchange transfers the applications. -/
structure AppSyncCond (stackByte : UInt8) (first : Bool) (infoLog : Nat → Bool)
    (apps : List SrvAppInfo) (table : List AppInfo) : Prop where
  type : (∃ s ∈ apps, AppChanged first table s) → stackByte = 0
  same : ∀ s ∈ apps, ∀ r ∈ table, r.iAppId = s.iAppId → askSeq first r = s.dwSeq.toNat →
    r.view = s.view
  room : table.length + apps.countP (AppNew table) ≤ MAX_APP_COUNT
  log : (∀ s ∈ apps, ¬ AppChanged first table s) →
    ∀ i < table.countP (AppGone apps), infoLog i = false

end Spec

section Codec

theorem MtAppInfo.read_bytes (v : MtAppInfo) (rest : List UInt8) :
    MtAppInfo.read (v.bytes ++ rest) = v := by
  simp [MtAppInfo.read, MtAppInfo.bytes, List.append_assoc, netAt_append_right]

theorem MtAppInfo.length_bytes (v : MtAppInfo) : v.bytes.length = 17 := by
  simp [MtAppInfo.bytes]

theorem appCodec_lawful : appCodec.Lawful Set.univ (Set.range Int32.toInt) where
  length_encKey := fun _ => length_toBytes 4 _
  decKey_encKey := by
    rintro _ ⟨a, rfl⟩ rest
    change (UInt32.ofNat (netAt (toBytes 4 (Int32.ofInt a.toInt).toUInt32.toNat ++ rest) 0 4)).toInt32.toInt =
      a.toInt
    rw [netAt_uint32, UInt32.ofNat_toNat, Int32.ofInt_toInt, Int32.toInt32_toUInt32]
  length_enc := by
    intro v _
    rw [appCodec, MtAppInfo.length_bytes]
    decide
  dec_enc := fun v _ rest => MtAppInfo.read_bytes v rest

theorem cmpAppConfig_comparesOn {D : Set Int} (h : ∀ a ∈ D, ∀ b ∈ D, a - b < 2 ^ 31) :
    ComparesOn cmpAppConfig D where
  neg_iff := by
    intro a ha b hb
    have h₁ := h a ha b hb
    have h₂ := h b hb a ha
    rw [cmpAppConfig, Int.bmod_eq_of_le (by omega) (by omega)]
    omega
  pos_iff := by
    intro a ha b hb
    have h₁ := h a ha b hb
    have h₂ := h b hb a ha
    rw [cmpAppConfig, Int.bmod_eq_of_le (by omega) (by omega)]
    omega

end Codec

section Exchange

variable {c : AppChain} {stackByte : UInt8} {first : Bool} {errLog infoLog : Nat → Bool}
  {table : List AppInfo} {dwServerResponseTime : Nat} {s : SrvAppInfo}

/-- The changes that the request asks for. -/
def appDiff (c : AppChain) (stackByte : UInt8) (first : Bool) (table : List AppInfo) :
    List (Change Int MtAppInfo) :=
  diff (appSource stackByte) c.apps (request appRows (askSeq first) table)

theorem changeSize_add_mod (v : MtAppInfo) :
    changeSize appCodec (.add v) = 21 ∧ changeSize appCodec (.mod v) = 21 := by
  have hlen := v.length_bytes
  simp only [changeSize, changeTlv, appCodec, hlen, and_self]

theorem changeSize_del (k : Int) : changeSize appCodec (.del k) = 8 := by
  simp only [changeSize, changeTlv, appCodec, length_toBytes]

theorem rowOf_isNone_iff (s : SrvAppInfo) :
    rowOf appRows.key table s.iAppId.toInt = none ↔ AppNew table s := by
  rw [rowOf_eq_none_iff, List.mem_map]
  constructor
  · intro h r hr heq
    exact h ⟨r, hr, congrArg Int32.toInt heq⟩
  · rintro h ⟨r, hr, heq⟩
    exact h r hr (Int32.toInt_inj.mp heq)

theorem length_changed_apps (hsort : SortedBy appRows.key table) :
    (changed (appSource stackByte) c.apps (request appRows (askSeq first) table)).length =
      c.apps.countP (AppChanged first table) := by
  rw [length_changed]
  apply List.countP_congr
  intro s _
  rw [changeOf_isSome_iff hsort.nodup, decide_eq_true_eq]
  exact forall₂_congr fun r _ => imp_congr_left Int32.toInt_inj

theorem length_gone_apps :
    (gone (appSource stackByte) c.apps (request appRows (askSeq first) table)).length =
      table.countP (AppGone c.apps) := by
  rw [length_gone]
  apply List.countP_congr
  intro r _
  rw [decide_eq_true_eq, decide_eq_true_eq, List.mem_map]
  constructor
  · intro h s hs heq
    exact h ⟨s, hs, congrArg Int32.toInt heq⟩
  · rintro h ⟨s, hs, heq⟩
    exact h s hs (Int32.toInt_inj.mp heq)

theorem adds_appDiff :
    adds (appDiff c stackByte first table) = c.apps.countP (AppNew table) := by
  rw [appDiff, adds_diff]
  apply List.countP_congr
  intro s _
  rw [Option.isNone_iff_eq_none, decide_eq_true_eq]
  exact rowOf_isNone_iff s

theorem sum_changeSize (hsort : SortedBy appRows.key table) :
    ((appDiff c stackByte first table).map (changeSize appCodec)).sum =
      21 * c.apps.countP (AppChanged first table) + 8 * table.countP (AppGone c.apps) := by
  have hchanged : (changed (appSource stackByte) c.apps (request appRows (askSeq first) table)).map
      (changeSize appCodec) = List.replicate (c.apps.countP (AppChanged first table)) 21 := by
    rw [← length_changed_apps hsort, List.eq_replicate_iff]
    refine ⟨List.length_map _, ?_⟩
    intro n hn
    obtain ⟨ch, hch, rfl⟩ := List.mem_map.mp hn
    have hdel := isDel_of_mem_changed hch
    cases ch with
    | add v => exact (changeSize_add_mod v).1
    | mod v => exact (changeSize_add_mod v).2
    | del k => cases hdel
  have hgone : (gone (appSource stackByte) c.apps (request appRows (askSeq first) table)).map
      (changeSize appCodec) = List.replicate (table.countP (AppGone c.apps)) 8 := by
    rw [← length_gone_apps, List.eq_replicate_iff]
    refine ⟨List.length_map _, ?_⟩
    intro n hn
    obtain ⟨ch, hch, rfl⟩ := List.mem_map.mp hn
    obtain ⟨e, -, rfl⟩ := List.mem_map.mp hch
    exact changeSize_del e.id
  rw [appDiff, diff, List.map_append, hchanged, hgone, List.sum_append, List.sum_replicate_nat,
    List.sum_replicate_nat]
  omega

theorem setAppInfoCheck_eq (hchain : c.apps.length = c.wAppInfoCount)
    (hsort : SortedBy appRows.key table) (hroom : AnswerRoom first c.apps table) :
    setAppInfoCheck c stackByte (request appRows (askSeq first) table) =
      some (appDiff c stackByte first table) := by
  have hnodup : ((request appRows (askSeq first) table).map Entry.id).Nodup := by
    rw [request_ids]
    exact hsort.nodup
  have hmarked : request appRows (askSeq first) table =
      marked [] (request appRows (askSeq first) table) := by
    simp [marked, request]
  have hanswer : (answer (changeSize appCodec) respBufSize (appSource stackByte) c.apps
      ⟨request appRows (askSeq first) table, sizeofTPkgBody, [], false⟩).changes = _ :=
    changes_answer hnodup hmarked rfl rfl
  have hfit : takeFit (changeSize appCodec) respBufSize sizeofTPkgBody
      (appDiff c stackByte first table) = appDiff c stackByte first table := by
    apply takeFit_eq_self
    rw [sum_changeSize hsort]
    unfold AnswerRoom at hroom
    unfold sizeofTPkgBody
    omega
  unfold setAppInfoCheck
  rw [if_neg (by omega)]
  exact congrArg some (hanswer.trans hfit)

theorem checkAppConfig_eq (hchain : c.apps.length = c.wAppInfoCount)
    (hsort : SortedBy appRows.key table) (hlen : table.length < MAX_APP_COUNT)
    (hroom : AnswerRoom first c.apps table) :
    checkAppConfig c stackByte dwServerResponseTime first errLog infoLog table =
      applyChanges cmpAppConfig appRows MAX_APP_COUNT errLog infoLog 0
        (appDiff c stackByte first table) none table := by
  have hread : readRequest appCodec (makeCheckAppConfigPkg dwServerResponseTime first table) =
      some (request appRows (askSeq first) table) := by
    apply readRequest_requestContent appCodec_lawful
    · intro e he
      obtain ⟨r, -, rfl⟩ := List.mem_map.mp he
      refine ⟨⟨r.iAppId, rfl⟩, ?_, rfl⟩
      unfold askSeq
      split
      · exact UInt32.toNat_lt _
      · exact UInt32.toNat_lt _
    · rw [request, List.length_map]
      unfold MAX_APP_COUNT at hlen
      omega
  have hwritable : ∀ ch ∈ appDiff c stackByte first table,
      Writable Set.univ (Set.range Int32.toInt) ch := by
    intro ch hch
    cases ch with
    | add v => trivial
    | mod v => trivial
    | del k =>
      obtain ⟨r, -, rfl⟩ := List.mem_map.mp (del_mem_diff.mp hch).1
      exact ⟨r.iAppId, rfl⟩
  have hcount : (appDiff c stackByte first table).length < 256 := by
    rw [appDiff, diff, List.length_append, length_changed_apps hsort, length_gone_apps]
    unfold AnswerRoom respBufSize at hroom
    omega
  rw [checkAppConfig, dealCmdCheckAppInfo, hread]
  simp only [Option.bind_eq_bind, Option.bind_some, setAppInfoCheck_eq hchain hsort hroom]
  rw [dealRespCheckAppConfig, checkPkgBody_answerBody appCodec_lawful hwritable hcount, if_pos rfl,
    read_answerBody appCodec_lawful hwritable hcount]

/-- The keys that take part in an exchange. -/
def appKeys (apps : List SrvAppInfo) (table : List AppInfo) : Set Int :=
  {k | k ∈ apps.map (fun s => s.iAppId.toInt) ∨ k ∈ table.map appRows.key}

theorem key_mem_appKeys {ch : Change Int MtAppInfo} (h : ch ∈ appDiff c stackByte first table) :
    ch.key appRows ∈ appKeys c.apps table := by
  cases ch with
  | add v =>
    obtain ⟨s, hs, rfl, -⟩ := add_mem_diff.mp h
    exact Or.inl (List.mem_map_of_mem hs)
  | mod v =>
    obtain ⟨s, hs, rfl, -⟩ := mod_mem_diff.mp h
    exact Or.inl (List.mem_map_of_mem hs)
  | del k => exact Or.inr (del_mem_diff.mp h).1

theorem nodup_apps (hS : (c.apps.map SrvAppInfo.iAppId).Nodup) :
    (c.apps.map (appSource stackByte).id).Nodup := by
  have hcomp : (appSource stackByte).id = Int32.toInt ∘ SrvAppInfo.iAppId := rfl
  rw [hcomp, ← List.map_map]
  exact hS.map fun a b => Int32.toInt_inj.mp

theorem perm_view_iff_rowOf (hS : (c.apps.map SrvAppInfo.iAppId).Nodup) (stackByte : UInt8)
    {rows : List AppInfo} (hsort : SortedBy appRows.key rows) :
    (rows.map AppInfo.view).Perm (c.apps.map SrvAppInfo.view) ↔
      ∀ k, (rowOf appRows.key rows k).map AppInfo.view =
        (rowOf (appSource stackByte).id c.apps k).map SrvAppInfo.view := by
  have hf : ∀ r : AppInfo, appRows.id r.view = appRows.key r := fun _ => rfl
  have hg : ∀ s : SrvAppInfo, appRows.id s.view = (appSource stackByte).id s := fun _ => rfl
  exact perm_map_iff_rowOf hf hg hsort.nodup (nodup_apps hS)

theorem view_rowAfter_app (hS : (c.apps.map SrvAppInfo.iAppId).Nodup)
    (hsort : SortedBy appRows.key table) (stackByte : UInt8) (first : Bool)
    (hs : s ∈ c.apps) :
    (AppChanged first table s →
      (rowAfter appRows (appDiff c stackByte first table) table s.iAppId.toInt).map AppInfo.view =
        some (appInfoCheckCopyInfo stackByte s)) ∧
    ∀ r ∈ table, r.iAppId = s.iAppId → askSeq first r = s.dwSeq.toNat →
      rowAfter appRows (appDiff c stackByte first table) table s.iAppId.toInt = some r := by
  have hrow := rowAfter_diff (R := appRows) (S := appSource stackByte) (fun _ => rfl) (nodup_apps hS)
    hsort.nodup (askSeq first) s.iAppId.toInt
  have hfound : rowOf (appSource stackByte).id c.apps s.iAppId.toInt = some s :=
    rowOf_eq_some_of_mem (nodup_apps hS) hs
  rw [hfound, Option.map_some] at hrow
  change rowAfter appRows (appDiff c stackByte first table) table _ = _ at hrow
  refine ⟨?_, ?_⟩
  · intro hchanged
    rw [hrow]
    cases hold : rowOf appRows.key table s.iAppId.toInt with
    | none => rfl
    | some r =>
      obtain ⟨hr, hkey⟩ := rowOf_some hold
      have hne := hchanged r hr (Int32.toInt_inj.mp hkey)
      change ((some (if s.dwSeq.toNat ≠ askSeq first r then netAppConfigToLocal r
        (appInfoCheckCopyInfo stackByte s) else r)).map AppInfo.view) = _
      rw [if_pos (Ne.symm hne)]
      rfl
  · intro r hr hid hask
    have hold : rowOf appRows.key table r.iAppId.toInt = some r := rowOf_eq_some_of_mem hsort.nodup hr
    rw [hid] at hold
    rw [hrow, hold]
    change some (if s.dwSeq.toNat ≠ askSeq first r then _ else r) = _
    rw [if_neg (by simp [hask])]

theorem appInfoCheckCopyInfo_eq_view :
    appInfoCheckCopyInfo stackByte s = s.view ↔ stackByte = 0 := by
  simp [SrvAppInfo.view, appInfoCheckCopyInfo]

/-- After all changes the agent has the fields of the server exactly if the records carry the right
type and the rows that were left alone have the fields already. -/
theorem view_rowAfter_iff (hS : (c.apps.map SrvAppInfo.iAppId).Nodup)
    (hsort : SortedBy appRows.key table) (stackByte : UInt8) (first : Bool) :
    (∀ k, (rowAfter appRows (appDiff c stackByte first table) table k).map AppInfo.view =
        (rowOf (appSource stackByte).id c.apps k).map SrvAppInfo.view) ↔
      ((∃ s ∈ c.apps, AppChanged first table s) → stackByte = 0) ∧
        ∀ s ∈ c.apps, ∀ r ∈ table, r.iAppId = s.iAppId → askSeq first r = s.dwSeq.toNat →
          r.view = s.view := by
  have hfound : ∀ s ∈ c.apps, rowOf (appSource stackByte).id c.apps s.iAppId.toInt = some s :=
    fun s hs => rowOf_eq_some_of_mem (nodup_apps hS) hs
  constructor
  · intro hall
    refine ⟨?_, ?_⟩
    · rintro ⟨s, hs, hchanged⟩
      have hview := hall s.iAppId.toInt
      rw [(view_rowAfter_app hS hsort stackByte first hs).1 hchanged, hfound s hs] at hview
      exact appInfoCheckCopyInfo_eq_view.mp (Option.some.inj hview)
    · intro s hs r hr hid hask
      have hview := hall s.iAppId.toInt
      rw [(view_rowAfter_app hS hsort stackByte first hs).2 r hr hid hask, hfound s hs] at hview
      exact Option.some.inj hview
  · rintro ⟨htype, hsame⟩ k
    cases hs : rowOf (appSource stackByte).id c.apps k with
    | none =>
      rw [appDiff, rowAfter_diff (fun _ => rfl) (nodup_apps hS) hsort.nodup, hs]
      rfl
    | some s =>
      obtain ⟨hmem, rfl⟩ := rowOf_some hs
      by_cases hchanged : AppChanged first table s
      · have hview := (view_rowAfter_app hS hsort stackByte first hmem).1 hchanged
        rw [appInfoCheckCopyInfo_eq_view.mpr (htype ⟨s, hmem, hchanged⟩)] at hview
        exact hview
      · unfold AppChanged at hchanged
        push Not at hchanged
        obtain ⟨r, hr, hid, hask⟩ := hchanged
        have hrow := (view_rowAfter_app hS hsort stackByte first hmem).2 r hr hid hask
        change (rowAfter appRows _ table s.iAppId.toInt).map AppInfo.view = some s.view
        rw [hrow, Option.map_some, hsame s hmem r hr hid hask]

/-- The exchange leaves the agent with the applications of the server exactly if the byte on the
stack is `0` when a record is sent, the rows with the sequence number of the server have its fields,
the table has room for the additions before the deletions, and no log line of a deletion is written
when the answer has deletions only. -/
theorem app_info_sync_iff (c : AppChain) (stackByte : UInt8) (dwServerResponseTime : Nat) (first : Bool)
    (errLog infoLog : Nat → Bool) (table : List AppInfo) (hchain : c.apps.length = c.wAppInfoCount)
    (hS : (c.apps.map SrvAppInfo.iAppId).Nodup) (hsort : SortedBy appRows.key table)
    (hlen : table.length < MAX_APP_COUNT) (hroom : AnswerRoom first c.apps table)
    (hids : ∀ a ∈ appKeys c.apps table, ∀ b ∈ appKeys c.apps table, a - b < 2 ^ 31) :
    AppsSynced c.apps
        (checkAppConfig c stackByte dwServerResponseTime first errLog infoLog table) ↔
      AppSyncCond stackByte first infoLog c.apps table := by
  have hcmp := cmpAppConfig_comparesOn hids
  have hD : ∀ x ∈ table, appRows.key x ∈ appKeys c.apps table :=
    fun x hx => Or.inr (List.mem_map_of_mem hx)
  have happ : Applies appRows (appDiff c stackByte first table) table :=
    applies_diff (fun _ => rfl) (nodup_apps hS) hsort.nodup _
  have hk : ∀ ch ∈ appDiff c stackByte first table, ch.key appRows ∈ appKeys c.apps table :=
    fun ch hch => key_mem_appKeys hch
  have hquietIff : quiet infoLog 0 none (appDiff c stackByte first table) = true ↔
      ((∀ s ∈ c.apps, ¬ AppChanged first table s) →
        ∀ i < table.countP (AppGone c.apps), infoLog i = false) := by
    rw [appDiff, quiet_diff, length_gone_apps, ← List.length_eq_zero_iff, length_changed_apps hsort,
      List.countP_eq_zero]
    simp
  rw [checkAppConfig_eq hchain hsort hlen hroom]
  by_cases hquiet : quiet infoLog 0 none (appDiff c stackByte first table) = true
  · by_cases hfull : table.length + adds (appDiff c stackByte first table) ≤ MAX_APP_COUNT
    · obtain ⟨rows', heq, hsort', -, -, hrow⟩ :=
        applyChanges_all hcmp hD hsort happ hk hfull hquiet errLog
      have hperm := perm_view_iff_rowOf hS stackByte hsort'
      simp only [hrow, view_rowAfter_iff hS hsort] at hperm
      rw [adds_appDiff] at hfull
      constructor
      · rintro ⟨rows, hrows, -, hview⟩
        obtain rfl : rows' = rows := Option.some.inj (heq.symm.trans hrows)
        obtain ⟨htype, hsame⟩ := hperm.mp hview
        exact ⟨htype, hsame, hfull, hquietIff.mp hquiet⟩
      · intro hcond
        exact ⟨rows', heq, hsort', hperm.mpr ⟨hcond.type, hcond.same⟩⟩
    · have hnodel : ∀ ch ∈ changed (appSource stackByte) c.apps (request appRows (askSeq first) table),
          ch.isDel = false := fun ch hch => isDel_of_mem_changed hch
      have hmissing : MAX_APP_COUNT < table.length +
          adds (changed (appSource stackByte) c.apps (request appRows (askSeq first) table)) := by
        rw [adds_changed]
        exact not_le.mp hfull
      obtain ⟨rows', v, heq, hv, hnone⟩ := applyChanges_stopped hcmp hD hsort happ
        (fun ch hch => hk ch (List.mem_append_left _ hch)) hnodel hlen.le hmissing errLog infoLog 0 none
      change applyChanges _ _ _ _ _ _ (appDiff c stackByte first table) _ _ = _ at heq
      constructor
      · rintro ⟨rows, hrows, hsort', hview⟩
        obtain rfl : rows' = rows := Option.some.inj (heq.symm.trans hrows)
        obtain ⟨s, hs, rfl, -⟩ := add_mem_diff.mp (List.mem_append_left _ hv)
        have hrow := (perm_view_iff_rowOf hS stackByte hsort').mp hview s.iAppId.toInt
        have hfound : rowOf (appSource stackByte).id c.apps s.iAppId.toInt = some s :=
          rowOf_eq_some_of_mem (nodup_apps hS) hs
        have hlost : rowOf appRows.key rows' s.iAppId.toInt = none := hnone
        rw [hfound, hlost] at hrow
        cases hrow
      · intro hcond
        rw [adds_appDiff] at hfull
        exact absurd hcond.room hfull
  · rw [applyChanges_crash hcmp hD hsort happ hk (Bool.not_eq_true _ ▸ hquiet)]
    constructor
    · rintro ⟨rows, hrows, -⟩
      cases hrows
    · intro hcond
      exact absurd (hquietIff.mpr hcond.log) hquiet

/-- A server with one application. -/
def oneApp : AppChain where
  stInfo := fun _ => ⟨1, 10, 80, 2, 3, -1⟩
  iAppInfoIndexStart := 0
  wAppInfoCount := 1

/-- The row of the application from before a change. -/
def staleApp : AppInfo := ⟨1, 10, 80, 0, 2, 1, 0, 0, 0, 0⟩

theorem appKeys_oneApp : ∀ a ∈ appKeys oneApp.apps [staleApp],
    ∀ b ∈ appKeys oneApp.apps [staleApp], a - b < 2 ^ 31 := by
  have hone : ∀ a ∈ appKeys oneApp.apps [staleApp], a = 1 := by
    intro a ha
    have hkeys : oneApp.apps.map (fun s => s.iAppId.toInt) = [1] ∧
        [staleApp].map appRows.key = [1] := by decide
    unfold appKeys at ha
    rw [hkeys.1, hkeys.2] at ha
    simpa using ha
  intro a ha b hb
  rw [hone a ha, hone b hb]
  decide

theorem app_info_sync_iff_oneApp :
    AppsSynced oneApp.apps
        (checkAppConfig oneApp 0 5 false (fun _ => true) (fun _ => true) [staleApp]) ↔
      AppSyncCond 0 false (fun _ => true) oneApp.apps [staleApp] :=
  app_info_sync_iff oneApp 0 5 false _ _ [staleApp] (by decide) (by decide) (by decide) (by decide)
    (by unfold AnswerRoom; decide) appKeys_oneApp

/-- A byte of the stack becomes the type of the application. -/
theorem app_type_from_stack :
    oneApp.apps.length = oneApp.wAppInfoCount ∧ (oneApp.apps.map SrvAppInfo.iAppId).Nodup ∧
      SortedBy appRows.key [staleApp] ∧ [staleApp].length < MAX_APP_COUNT ∧
      AnswerRoom false oneApp.apps [staleApp] ∧
      ¬ AppsSynced oneApp.apps
        (checkAppConfig oneApp 7 5 false (fun _ => true) (fun _ => true) [staleApp]) := by
  refine ⟨by decide, by decide, by decide, by decide, by unfold AnswerRoom; decide, ?_⟩
  have hresult : checkAppConfig oneApp 7 5 false (fun _ => true) (fun _ => true) [staleApp] =
      some [⟨1, 10, 80, 7, 3, 2, 0, 0, 0, 0⟩] := by decide +kernel
  rintro ⟨table, htable, -, hperm⟩
  rw [hresult, Option.some.injEq] at htable
  subst htable
  have hmem := hperm.mem_iff (a := ⟨1, 7, 3, 2, 80, 10⟩)
  exact absurd (hmem.mp (by decide)) (by decide)

end Exchange

end XrkMonitor.Sync
