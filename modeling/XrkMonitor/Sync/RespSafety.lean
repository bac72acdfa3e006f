import XrkMonitor.Library.OrderedTable
import XrkMonitor.Sync.AppInfo
import XrkMonitor.Sync.LogConfig

/-!
# Responses to the check requests, byte by byte

The two functions that take the changes of a response cast the value of a TLV to a record, whatever
its length, and copy as many test keys as the record says. A deletion writes the identity of the
last record to the log, also where there was none.

## Implementation notes

A turn of the loop has no result if it reads behind the value of its TLV, writes behind the test
keys of a row or follows the pointer before it was set; what it would do then depends on foreign
bytes.
The sort is any that keeps its promise. The log lines that are written are parameters of a turn.
-/

namespace XrkMonitor.Sync

open Library Packet

variable {κ ρ ν : Type*}

section Loop

/-- What the two functions have of their own: the rows, the records, the comparison, the limit of
the table, the bytes of a record that are swapped, those that are copied behind them, and the room
for these in a row. -/
structure RespSpec (κ ρ ν : Type*) where
  rows : RowSpec κ ρ ν
  codec : ChangeCodec κ ν
  cmp : κ → κ → Int
  cap : Nat
  headSize : Nat
  tailSize : ν → Nat
  tailCap : Nat

/-- The types and values of `n` TLVs. -/
def tlvValues : Nat → List UInt8 → List (Nat × List UInt8)
  | 0, _ => []
  | n + 1, rest =>
    (netAt rest 0 2, slice rest 4 (netAt rest 2 2)) ::
      tlvValues n (rest.drop (4 + netAt rest 2 2))

/-- The TLVs of a response. -/
def respTlvs : List UInt8 → List (Nat × List UInt8)
  | [] => []
  | bTlvNum :: rest => tlvValues bTlvNum.toNat rest

/-- The TLVs of an addition and of a modification have a record. -/
def HasRecord (wType : Nat) : Prop := wType = TLV_MONI_CONFIG_MOD ∨ wType = TLV_MONI_CONFIG_ADD

instance (wType : Nat) : Decidable (HasRecord wType) := inferInstanceAs (Decidable (_ ∨ _))

/-- The record with its test keys lies in the value, and they fit a row. -/
def CopyOk (S : RespSpec κ ρ ν) (sValue : List UInt8) : Prop :=
  S.headSize + S.tailSize (S.codec.dec sValue) ≤ sValue.length ∧
    S.tailSize (S.codec.dec sValue) ≤ S.tailCap

instance (S : RespSpec κ ρ ν) (sValue : List UInt8) : Decidable (CopyOk S sValue) :=
  inferInstanceAs (Decidable (_ ∧ _))

/-- After a turn: whether the loop goes on, `pcfg`, and the table. -/
structure Turn (ρ ν : Type*) where
  goesOn : Bool
  pcfg : Option ν
  rows : List ρ

/-- A turn that adds a row. -/
def addTurn (S : RespSpec κ ρ ν) (sort : List ρ → List ρ) (sValue : List UInt8) (rows : List ρ) :
    Option (Turn ρ ν) :=
  if S.cap ≤ rows.length then some ⟨false, some (S.codec.dec sValue), rows⟩
  else if CopyOk S sValue then
    some ⟨true, some (S.codec.dec sValue), sort (rows ++ [S.rows.fresh (S.codec.dec sValue)])⟩
  else none

/-- A turn that changes a row in its place. -/
def modTurn (S : RespSpec κ ρ ν) (sValue : List UInt8) (rows : List ρ) : Option (Turn ρ ν) :=
  match searchKey S.cmp S.rows.key (S.rows.id (S.codec.dec sValue)) rows with
  | none => some ⟨true, some (S.codec.dec sValue), rows⟩
  | some j =>
    if CopyOk S sValue then
      some ⟨true, some (S.codec.dec sValue),
        rows.modify j fun r => S.rows.assign r (S.codec.dec sValue)⟩
    else none

/-- A turn that deletes a row. -/
def delTurn (S : RespSpec κ ρ ν) (errLog infoLog : Bool) (sValue : List UInt8) (pcfg : Option ν)
    (rows : List ρ) : Option (Turn ρ ν) :=
  if sValue.length < 4 then none
  else
    match searchKey S.cmp S.rows.key (S.codec.decKey sValue) rows with
    | none => if errLog && pcfg.isNone then none else some ⟨true, pcfg, rows⟩
    | some j => if infoLog && pcfg.isNone then none else some ⟨true, pcfg, rows.eraseIdx j⟩

/-- A turn of the loop. -/
def dealTlv (S : RespSpec κ ρ ν) (sort : List ρ → List ρ) (errLog infoLog : Bool)
    (tlv : Nat × List UInt8) (pcfg : Option ν) (rows : List ρ) : Option (Turn ρ ν) :=
  if HasRecord tlv.1 ∧ tlv.2.length < S.headSize then none
  else if tlv.1 = TLV_MONI_CONFIG_ADD then addTurn S sort tlv.2 rows
  else if tlv.1 = TLV_MONI_CONFIG_MOD then modTurn S tlv.2 rows
  else delTurn S errLog infoLog tlv.2 pcfg rows

/-- The loop over the TLVs: the tables after them. -/
def dealTlvs (S : RespSpec κ ρ ν) (sort : List ρ → List ρ) (errLog infoLog : Nat → Bool) :
    Nat → List (Nat × List UInt8) → Option ν → List ρ → Option (List (List ρ))
  | _, [], _, _ => some []
  | i, tlv :: tlvs, pcfg, rows =>
    (dealTlv S sort (errLog i) (infoLog i) tlv pcfg rows).bind fun t =>
      if t.goesOn then
        (dealTlvs S sort errLog infoLog (i + 1) tlvs t.pcfg t.rows).map (t.rows :: ·)
      else some [t.rows]

/-- The tables after the TLVs of a response; one that is refused has none. -/
def dealResp (S : RespSpec κ ρ ν) (sort : List ρ → List ρ) (errLog infoLog : Nat → Bool)
    (content : List UInt8) (rows : List ρ) : Option (List (List ρ)) :=
  if checkPkgBody content then dealTlvs S sort errLog infoLog 0 (respTlvs content) none rows
  else some []

/-- The log configurations. -/
def logResp : RespSpec Nat SLogConfig MtSLogConfig where
  rows := configRows
  codec := configCodec
  cmp := cmpSLogConfig
  cap := MAX_LOG_CONFIG_COUNT
  headSize := 26
  tailSize := fun v => sizeofSLogTestKey * v.wTestKeyCount.toNat
  tailCap := sizeofSLogTestKey * MAX_SLOG_TEST_KEYS_PER_CONFIG

/-- The applications. -/
def appResp : RespSpec Int AppInfo MtAppInfo where
  rows := appRows
  codec := appCodec
  cmp := cmpAppConfig
  cap := MAX_APP_COUNT
  headSize := 17
  tailSize := fun _ => 0
  tailCap := 0

/-- `DealRespCheckLogConfig`: the table after each TLV. -/
def dealRespCheckLogConfigTables (sort : List SLogConfig → List SLogConfig)
    (errLog infoLog : Nat → Bool) (content : List UInt8) (table : List SLogConfig) :
    Option (List (List SLogConfig)) :=
  dealResp logResp sort errLog infoLog content table

/-- `DealRespCheckAppConfig`: the table after each TLV. -/
def dealRespCheckAppConfigTables (sort : List AppInfo → List AppInfo)
    (errLog infoLog : Nat → Bool) (content : List UInt8) (table : List AppInfo) :
    Option (List (List AppInfo)) :=
  dealResp appResp sort errLog infoLog content table

end Loop

section Spec

variable [LinearOrder κ]

/-- A table is in order and within its limit. -/
def TableOk (S : RespSpec κ ρ ν) (rows : List ρ) : Prop :=
  OrderedBy S.rows.key rows ∧ rows.length ≤ S.cap

/-- With any sort the loop comes to its end, and every table on the way is in order. -/
def Robust (S : RespSpec κ ρ ν) (deal : (List ρ → List ρ) → Option (List (List ρ))) : Prop :=
  ∀ sort, SortsBy S.cmp S.rows.key sort →
    ∃ tables, deal sort = some tables ∧ ∀ rows ∈ tables, TableOk S rows

/-- The identities of the table after a TLV. -/
def idsAfter (S : RespSpec κ ρ ν) (tlv : Nat × List UInt8) (ids : List κ) : List κ :=
  if tlv.1 = TLV_MONI_CONFIG_ADD then
    ids.orderedInsert (· ≤ ·) (S.rows.id (S.codec.dec tlv.2))
  else if tlv.1 = TLV_MONI_CONFIG_MOD then ids
  else
    match findKey S.cmp (S.codec.decKey tlv.2) ids with
    | none => ids
    | some j => ids.eraseIdx j

/-- A TLV that the code can take, with these identities in the table and `pcfg` set or not. -/
structure TlvOk (S : RespSpec κ ρ ν) (errLog infoLog pcfgSet : Bool) (ids : List κ)
    (tlv : Nat × List UInt8) : Prop where
  head : HasRecord tlv.1 → S.headSize ≤ tlv.2.length
  add : tlv.1 = TLV_MONI_CONFIG_ADD → ids.length < S.cap →
    CopyOk S tlv.2 ∧ Consistent S.cmp (S.rows.id (S.codec.dec tlv.2) :: ids)
  mod : tlv.1 = TLV_MONI_CONFIG_MOD →
    (findKey S.cmp (S.rows.id (S.codec.dec tlv.2)) ids).isSome → CopyOk S tlv.2
  del : ¬ HasRecord tlv.1 → 4 ≤ tlv.2.length ∧
    ((if (findKey S.cmp (S.codec.decKey tlv.2) ids).isSome then infoLog else errLog) = true →
      pcfgSet = true)

/-- The loop finds only such TLVs, up to an addition to a full table. -/
def TlvsOk (S : RespSpec κ ρ ν) (errLog infoLog : Nat → Bool) :
    Nat → Bool → List κ → List (Nat × List UInt8) → Prop
  | _, _, _, [] => True
  | i, pcfgSet, ids, tlv :: tlvs =>
    TlvOk S (errLog i) (infoLog i) pcfgSet ids tlv ∧
      (¬ (tlv.1 = TLV_MONI_CONFIG_ADD ∧ S.cap ≤ ids.length) →
        TlvsOk S errLog infoLog (i + 1) (pcfgSet || decide (HasRecord tlv.1))
          (idsAfter S tlv ids) tlvs)

instance (S : RespSpec κ ρ ν) (errLog infoLog pcfgSet : Bool) (ids : List κ)
    (tlv : Nat × List UInt8) : Decidable (TlvOk S errLog infoLog pcfgSet ids tlv) :=
  decidable_of_iff
    ((HasRecord tlv.1 → S.headSize ≤ tlv.2.length) ∧
      (tlv.1 = TLV_MONI_CONFIG_ADD → ids.length < S.cap →
        CopyOk S tlv.2 ∧ Consistent S.cmp (S.rows.id (S.codec.dec tlv.2) :: ids)) ∧
      (tlv.1 = TLV_MONI_CONFIG_MOD →
        (findKey S.cmp (S.rows.id (S.codec.dec tlv.2)) ids).isSome → CopyOk S tlv.2) ∧
      (¬ HasRecord tlv.1 → 4 ≤ tlv.2.length ∧
        ((if (findKey S.cmp (S.codec.decKey tlv.2) ids).isSome then infoLog else errLog) = true →
          pcfgSet = true)))
    ⟨fun h => ⟨h.1, h.2.1, h.2.2.1, h.2.2.2⟩, fun h => ⟨h.head, h.add, h.mod, h.del⟩⟩

instance decidableTlvsOk (S : RespSpec κ ρ ν) (errLog infoLog : Nat → Bool) :
    ∀ i pcfgSet ids tlvs, Decidable (TlvsOk S errLog infoLog i pcfgSet ids tlvs)
  | _, _, _, [] => isTrue trivial
  | i, pcfgSet, ids, tlv :: tlvs =>
    have := decidableTlvsOk S errLog infoLog (i + 1) (pcfgSet || decide (HasRecord tlv.1))
      (idsAfter S tlv ids) tlvs
    inferInstanceAs (Decidable (_ ∧ (_ → _)))

/-- What the two functions rely on: identities that compare equal are equal, and a record is read
from its own bytes. -/
structure RespSpec.Lawful (S : RespSpec κ ρ ν) : Prop where
  cmp_self : ∀ k, S.cmp k k = 0
  eq_of_id : ∀ v r, S.cmp (S.rows.id v) (S.rows.key r) = 0 → S.rows.key r = S.rows.id v
  id_append : ∀ bs more, S.headSize ≤ bs.length →
    S.rows.id (S.codec.dec (bs ++ more)) = S.rows.id (S.codec.dec bs)
  dec_append : ∀ bs more, CopyOk S bs → S.codec.dec (bs ++ more) = S.codec.dec bs
  decKey_append : ∀ bs more, 4 ≤ bs.length → S.codec.decKey (bs ++ more) = S.codec.decKey bs

/-- What a turn leaves behind for a TLV that the code can take. -/
structure TurnRight (S : RespSpec κ ρ ν) (tlv : Nat × List UInt8) (pcfg : Option ν)
    (rows : List ρ) (t : Turn ρ ν) : Prop where
  table : TableOk S t.rows
  goesOn : t.goesOn = true ↔ ¬ (tlv.1 = TLV_MONI_CONFIG_ADD ∧ S.cap ≤ rows.length)
  keys : t.goesOn = true → t.rows.map S.rows.key = idsAfter S tlv (rows.map S.rows.key)
  pcfg : t.pcfg.isSome = (pcfg.isSome || decide (HasRecord tlv.1))

end Spec

section Turns

variable {S : RespSpec κ ρ ν} {sort : List ρ → List ρ} {errLog infoLog : Bool}
  {tlv : Nat × List UInt8} {pcfg : Option ν} {rows : List ρ} {t : Turn ρ ν}

theorem add_ne_mod : TLV_MONI_CONFIG_ADD ≠ TLV_MONI_CONFIG_MOD := by decide

theorem hasRecord_cases (wType : Nat) :
    wType = TLV_MONI_CONFIG_ADD ∨ wType = TLV_MONI_CONFIG_MOD ∨ ¬ HasRecord wType := by
  by_cases hrec : HasRecord wType
  · rcases hrec with hmod | hadd
    · exact Or.inr (Or.inl hmod)
    · exact Or.inl hadd
  · exact Or.inr (Or.inr hrec)

theorem dealTlv_some (h : dealTlv S sort errLog infoLog tlv pcfg rows = some t) :
    (tlv.1 = TLV_MONI_CONFIG_ADD ∧ S.headSize ≤ tlv.2.length ∧
        addTurn S sort tlv.2 rows = some t) ∨
      (tlv.1 = TLV_MONI_CONFIG_MOD ∧ S.headSize ≤ tlv.2.length ∧ modTurn S tlv.2 rows = some t) ∨
        (¬ HasRecord tlv.1 ∧ delTurn S errLog infoLog tlv.2 pcfg rows = some t) := by
  unfold dealTlv at h
  have hhead : ¬ (HasRecord tlv.1 ∧ tlv.2.length < S.headSize) := by
    intro hshort
    rw [if_pos hshort] at h
    cases h
  rw [if_neg hhead] at h
  rcases hasRecord_cases tlv.1 with hadd | hmod | hother
  · rw [if_pos hadd] at h
    exact Or.inl ⟨hadd, Nat.not_lt.mp fun hlt => hhead ⟨Or.inr hadd, hlt⟩, h⟩
  · rw [if_neg (hmod ▸ add_ne_mod.symm), if_pos hmod] at h
    exact Or.inr (Or.inl ⟨hmod, Nat.not_lt.mp fun hlt => hhead ⟨Or.inl hmod, hlt⟩, h⟩)
  · rw [if_neg fun hadd => hother (Or.inr hadd), if_neg fun hmod => hother (Or.inl hmod)] at h
    exact Or.inr (Or.inr ⟨hother, h⟩)

theorem dealTlv_add (hadd : tlv.1 = TLV_MONI_CONFIG_ADD) (hhead : S.headSize ≤ tlv.2.length) :
    dealTlv S sort errLog infoLog tlv pcfg rows = addTurn S sort tlv.2 rows := by
  rw [dealTlv, if_neg fun h => Nat.not_lt.mpr hhead h.2, if_pos hadd]

theorem dealTlv_mod (hmod : tlv.1 = TLV_MONI_CONFIG_MOD) (hhead : S.headSize ≤ tlv.2.length) :
    dealTlv S sort errLog infoLog tlv pcfg rows = modTurn S tlv.2 rows := by
  rw [dealTlv, if_neg fun h => Nat.not_lt.mpr hhead h.2, if_neg (hmod ▸ add_ne_mod.symm),
    if_pos hmod]

theorem dealTlv_del (hother : ¬ HasRecord tlv.1) :
    dealTlv S sort errLog infoLog tlv pcfg rows =
      delTurn S errLog infoLog tlv.2 pcfg rows := by
  rw [dealTlv, if_neg fun h => hother h.1, if_neg fun hadd => hother (Or.inr hadd),
    if_neg fun hmod => hother (Or.inl hmod)]

theorem not_null_iff {log : Bool} :
    ¬ (log && pcfg.isNone) = true ↔ (log = true → pcfg.isSome = true) := by
  cases log with
  | false => exact iff_of_true Bool.false_ne_true fun h => by cases h
  | true =>
    cases pcfg with
    | none => exact iff_of_false (fun h => h rfl) fun h => by cases h rfl
    | some v => exact iff_of_true Bool.false_ne_true fun _ => rfl

end Turns

section Steps

variable [LinearOrder κ] {S : RespSpec κ ρ ν} {sort : List ρ → List ρ} {errLog infoLog : Bool}
  {tlv : Nat × List UInt8} {pcfg : Option ν} {rows : List ρ} {t : Turn ρ ν} {sValue : List UInt8}

theorem addTurn_of_ok (hsort : SortsBy S.cmp S.rows.key sort) (hrows : TableOk S rows)
    (hadd : tlv.1 = TLV_MONI_CONFIG_ADD)
    (hok : (rows.map S.rows.key).length < S.cap → CopyOk S tlv.2 ∧
      Consistent S.cmp (S.rows.id (S.codec.dec tlv.2) :: rows.map S.rows.key)) :
    ∃ t : Turn ρ ν, addTurn S sort tlv.2 rows = some t ∧ TurnRight S tlv pcfg rows t := by
  have hset : (pcfg.isSome || decide (HasRecord tlv.1)) = true := by
    have hrec : HasRecord tlv.1 := Or.inr hadd
    rw [decide_eq_true hrec, Bool.or_true]
  by_cases hfull : S.cap ≤ rows.length
  · refine ⟨_, if_pos hfull, hrows, ?_, fun h => absurd h Bool.false_ne_true, hset.symm⟩
    exact iff_of_false Bool.false_ne_true (not_not.mpr ⟨hadd, hfull⟩)
  · have hlen := Nat.not_le.mp hfull
    rw [List.length_map] at hok
    obtain ⟨hcopy, hcons⟩ := hok hlen
    rw [← S.rows.key_fresh] at hcons
    have hkeys := hsort.keys_concat hrows.1 hcons
    refine ⟨_, (if_neg hfull).trans (if_pos hcopy), ⟨?_, ?_⟩, ?_, ?_, hset.symm⟩
    · rw [orderedBy_iff_keys, hkeys]
      exact (orderedBy_iff_keys.mp hrows.1).orderedInsert _ _
    · rw [(hsort.perm _).length_eq, List.length_append, List.length_singleton]
      exact hlen
    · exact iff_of_true rfl fun h => hfull h.2
    · intro _
      rw [idsAfter, if_pos hadd, ← S.rows.key_fresh]
      exact hkeys

theorem modTurn_of_ok (hS : S.Lawful) (hrows : TableOk S rows)
    (hmod : tlv.1 = TLV_MONI_CONFIG_MOD)
    (hok : (findKey S.cmp (S.rows.id (S.codec.dec tlv.2)) (rows.map S.rows.key)).isSome →
      CopyOk S tlv.2) :
    ∃ t : Turn ρ ν, modTurn S tlv.2 rows = some t ∧ TurnRight S tlv pcfg rows t := by
  have hset : (pcfg.isSome || decide (HasRecord tlv.1)) = true := by
    have hrec : HasRecord tlv.1 := Or.inl hmod
    rw [decide_eq_true hrec, Bool.or_true]
  have hnotAdd : ¬ tlv.1 = TLV_MONI_CONFIG_ADD := fun hadd => add_ne_mod (hadd.symm.trans hmod)
  have hids : idsAfter S tlv (rows.map S.rows.key) = rows.map S.rows.key := by
    rw [idsAfter, if_neg hnotAdd, if_pos hmod]
  have hgoes : true = true ↔ ¬ (tlv.1 = TLV_MONI_CONFIG_ADD ∧ S.cap ≤ rows.length) :=
    iff_of_true rfl fun h => hnotAdd h.1
  rw [← searchKey_eq_findKey] at hok
  rw [modTurn]
  cases hfound : searchKey S.cmp S.rows.key (S.rows.id (S.codec.dec tlv.2)) rows with
  | none => exact ⟨_, rfl, hrows, hgoes, fun _ => hids.symm, hset.symm⟩
  | some j =>
    rw [hfound] at hok
    obtain ⟨r, hr, hzero⟩ := searchKey_cmp hfound
    have hsame := (S.rows.key_assign r (S.codec.dec tlv.2)).trans (hS.eq_of_id _ _ hzero).symm
    have hkeys : (rows.modify j fun r => S.rows.assign r (S.codec.dec tlv.2)).map S.rows.key =
        rows.map S.rows.key := keys_modify hr hsame
    refine ⟨_, if_pos (hok rfl), ⟨hrows.1.congr hkeys, ?_⟩, hgoes,
      fun _ => hkeys.trans hids.symm, hset.symm⟩
    rw [List.length_modify]
    exact hrows.2

theorem delTurn_of_ok (hrows : TableOk S rows) (hother : ¬ HasRecord tlv.1)
    (hhead : 4 ≤ tlv.2.length)
    (hlog : (if (findKey S.cmp (S.codec.decKey tlv.2) (rows.map S.rows.key)).isSome then infoLog
      else errLog) = true → pcfg.isSome = true) :
    ∃ t : Turn ρ ν, delTurn S errLog infoLog tlv.2 pcfg rows = some t ∧
      TurnRight S tlv pcfg rows t := by
  have hset : (pcfg.isSome || decide (HasRecord tlv.1)) = pcfg.isSome := by
    rw [decide_eq_false hother, Bool.or_false]
  have hnotAdd : ¬ tlv.1 = TLV_MONI_CONFIG_ADD := fun hadd => hother (Or.inr hadd)
  have hnotMod : ¬ tlv.1 = TLV_MONI_CONFIG_MOD := fun hmod => hother (Or.inl hmod)
  have hgoes : true = true ↔ ¬ (tlv.1 = TLV_MONI_CONFIG_ADD ∧ S.cap ≤ rows.length) :=
    iff_of_true rfl fun h => hnotAdd h.1
  have hids : idsAfter S tlv (rows.map S.rows.key) =
      match searchKey S.cmp S.rows.key (S.codec.decKey tlv.2) rows with
      | none => rows.map S.rows.key
      | some j => (rows.map S.rows.key).eraseIdx j := by
    rw [idsAfter, if_neg hnotAdd, if_neg hnotMod, searchKey_eq_findKey]
  rw [← searchKey_eq_findKey] at hlog
  rw [delTurn, if_neg (Nat.not_lt.mpr hhead)]
  cases hfound : searchKey S.cmp S.rows.key (S.codec.decKey tlv.2) rows with
  | none =>
    rw [hfound] at hlog hids
    exact ⟨_, if_neg (not_null_iff.mpr hlog), hrows, hgoes, fun _ => hids.symm, hset.symm⟩
  | some j =>
    rw [hfound] at hlog hids
    refine ⟨_, if_neg (not_null_iff.mpr hlog), ⟨hrows.1.eraseIdx j, ?_⟩, hgoes,
      fun _ => (keys_eraseIdx _ _ _).trans hids.symm, hset.symm⟩
    exact (List.length_eraseIdx_le rows j).trans hrows.2

theorem dealTlv_of_ok (hS : S.Lawful) (hsort : SortsBy S.cmp S.rows.key sort)
    (hrows : TableOk S rows)
    (hok : TlvOk S errLog infoLog pcfg.isSome (rows.map S.rows.key) tlv) :
    ∃ t : Turn ρ ν, dealTlv S sort errLog infoLog tlv pcfg rows = some t ∧
      TurnRight S tlv pcfg rows t := by
  rcases hasRecord_cases tlv.1 with hadd | hmod | hother
  · rw [dealTlv_add hadd (hok.head (Or.inr hadd))]
    exact addTurn_of_ok hsort hrows hadd (hok.add hadd)
  · rw [dealTlv_mod hmod (hok.head (Or.inl hmod))]
    exact modTurn_of_ok hS hrows hmod (hok.mod hmod)
  · obtain ⟨hhead, hlog⟩ := hok.del hother
    rw [dealTlv_del hother]
    exact delTurn_of_ok hrows hother hhead hlog

theorem ok_of_addTurn
    (honly : ∀ rows, OrderedBy S.rows.key (sort rows) → Consistent S.cmp (rows.map S.rows.key))
    (h : addTurn S sort sValue rows = some t)
    (hrows : OrderedBy S.rows.key t.rows) (hlen : rows.length < S.cap) :
    CopyOk S sValue ∧ Consistent S.cmp (S.rows.id (S.codec.dec sValue) :: rows.map S.rows.key) := by
  rw [addTurn, if_neg (Nat.not_le.mpr hlen)] at h
  by_cases hcopy : CopyOk S sValue
  · rw [if_pos hcopy] at h
    rw [← Option.some.inj h] at hrows
    have hcons := honly _ hrows
    rw [List.map_append, List.map_singleton, S.rows.key_fresh] at hcons
    have hperm := List.perm_append_singleton (S.rows.id (S.codec.dec sValue))
      (rows.map S.rows.key)
    refine ⟨hcopy, ?_⟩
    intro a ha b hb
    exact hcons a (hperm.mem_iff.mpr ha) b (hperm.mem_iff.mpr hb)
  · rw [if_neg hcopy] at h
    cases h

omit [LinearOrder κ] in
theorem ok_of_modTurn (h : modTurn S sValue rows = some t)
    (hfind : (findKey S.cmp (S.rows.id (S.codec.dec sValue)) (rows.map S.rows.key)).isSome) :
    CopyOk S sValue := by
  rw [← searchKey_eq_findKey, Option.isSome_iff_exists] at hfind
  obtain ⟨j, hj⟩ := hfind
  rw [modTurn, hj] at h
  by_contra hcopy
  dsimp only at h
  rw [if_neg hcopy] at h
  cases h

omit [LinearOrder κ] in
theorem ok_of_delTurn (h : delTurn S errLog infoLog sValue pcfg rows = some t) :
    4 ≤ sValue.length ∧
      ((if (findKey S.cmp (S.codec.decKey sValue) (rows.map S.rows.key)).isSome then infoLog
        else errLog) = true → pcfg.isSome = true) := by
  unfold delTurn at h
  by_cases hhead : sValue.length < 4
  · rw [if_pos hhead] at h
    cases h
  · rw [if_neg hhead] at h
    refine ⟨Nat.not_lt.mp hhead, ?_⟩
    rw [← searchKey_eq_findKey]
    cases hfound : searchKey S.cmp S.rows.key (S.codec.decKey sValue) rows with
    | none =>
      rw [hfound] at h
      refine not_null_iff.mp fun hnull => ?_
      exact absurd ((if_pos hnull).symm.trans h) (Option.some_ne_none t).symm
    | some j =>
      rw [hfound] at h
      refine not_null_iff.mp fun hnull => ?_
      exact absurd ((if_pos hnull).symm.trans h) (Option.some_ne_none t).symm

theorem tlvOk_of_dealTlv
    (honly : ∀ rows, OrderedBy S.rows.key (sort rows) → Consistent S.cmp (rows.map S.rows.key))
    (hdeal : dealTlv S sort errLog infoLog tlv pcfg rows = some t)
    (hrows : OrderedBy S.rows.key t.rows) :
    TlvOk S errLog infoLog pcfg.isSome (rows.map S.rows.key) tlv := by
  rcases dealTlv_some hdeal with ⟨hadd, hhead, h⟩ | ⟨hmod, hhead, h⟩ | ⟨hother, h⟩
  · refine ⟨fun _ => hhead, ?_, ?_, fun hnot => absurd (Or.inr hadd) hnot⟩
    · intro _ hlen
      rw [List.length_map] at hlen
      exact ok_of_addTurn honly h hrows hlen
    · exact fun hmod => absurd (hadd.symm.trans hmod) add_ne_mod
  · refine ⟨fun _ => hhead, ?_, fun _ => ok_of_modTurn h, fun hnot => absurd (Or.inl hmod) hnot⟩
    exact fun hadd => absurd (hadd.symm.trans hmod) add_ne_mod
  · refine ⟨fun hrec => absurd hrec hother, ?_, ?_, fun _ => ok_of_delTurn h⟩
    · exact fun hadd => absurd (Or.inr hadd) hother
    · exact fun hmod => absurd (Or.inl hmod) hother

end Steps

section Runs

variable [LinearOrder κ] {S : RespSpec κ ρ ν} {sort : List ρ → List ρ}
  {errLog infoLog : Nat → Bool} {tlv : Nat × List UInt8} {tlvs : List (Nat × List UInt8)}
  {pcfg : Option ν} {rows : List ρ} {i : Nat} {tables : List (List ρ)}

theorem dealTlvs_of_ok (hS : S.Lawful) (hsort : SortsBy S.cmp S.rows.key sort)
    (hrows : TableOk S rows)
    (hok : TlvsOk S errLog infoLog i pcfg.isSome (rows.map S.rows.key) tlvs) :
    ∃ tables, dealTlvs S sort errLog infoLog i tlvs pcfg rows = some tables ∧
      ∀ rows ∈ tables, TableOk S rows := by
  induction tlvs generalizing i pcfg rows with
  | nil => exact ⟨[], rfl, fun _ h => by cases h⟩
  | cons tlv tlvs ih =>
    obtain ⟨hfirst, hrest⟩ := hok
    obtain ⟨t, hdeal, hright⟩ := dealTlv_of_ok hS hsort hrows hfirst
    rw [dealTlvs, hdeal, Option.bind_some]
    by_cases hgoes : t.goesOn = true
    · have hmore := hright.goesOn.mp hgoes
      rw [← List.length_map S.rows.key] at hmore
      have hok' := hrest hmore
      rw [← hright.pcfg, ← hright.keys hgoes] at hok'
      obtain ⟨tables, hrun, htables⟩ := ih hright.table hok'
      refine ⟨t.rows :: tables, ?_, ?_⟩
      · rw [if_pos hgoes, hrun, Option.map_some]
      · exact List.forall_mem_cons.mpr ⟨hright.table, htables⟩
    · refine ⟨[t.rows], ?_, ?_⟩
      · rw [if_neg hgoes]
      · exact List.forall_mem_singleton.mpr hright.table

omit [LinearOrder κ] in
theorem mem_dealTlvs {t : Turn ρ ν}
    (hturn : dealTlv S sort (errLog i) (infoLog i) tlv pcfg rows = some t)
    (hdeal : dealTlvs S sort errLog infoLog i (tlv :: tlvs) pcfg rows = some tables) :
    t.rows ∈ tables := by
  rw [dealTlvs, hturn, Option.bind_some] at hdeal
  by_cases hgoes : t.goesOn = true
  · rw [if_pos hgoes] at hdeal
    obtain ⟨rest, -, rfl⟩ := Option.map_eq_some_iff.mp hdeal
    exact List.mem_cons_self
  · rw [if_neg hgoes] at hdeal
    rw [← Option.some.inj hdeal]
    exact List.mem_singleton.mpr rfl

theorem tlvsOk_of_dealTlvs (hS : S.Lawful) (hsort : SortsBy S.cmp S.rows.key sort)
    (honly : ∀ rows, OrderedBy S.rows.key (sort rows) → Consistent S.cmp (rows.map S.rows.key))
    (hrows : TableOk S rows)
    (hdeal : dealTlvs S sort errLog infoLog i tlvs pcfg rows = some tables)
    (htables : ∀ rows ∈ tables, TableOk S rows) :
    TlvsOk S errLog infoLog i pcfg.isSome (rows.map S.rows.key) tlvs := by
  induction tlvs generalizing i pcfg rows tables with
  | nil => trivial
  | cons tlv tlvs ih =>
    have hbind := hdeal
    rw [dealTlvs] at hbind
    obtain ⟨t, hturn, hbind⟩ := Option.bind_eq_some_iff.mp hbind
    have hfirst := tlvOk_of_dealTlv honly hturn (htables _ (mem_dealTlvs hturn hdeal)).1
    refine ⟨hfirst, ?_⟩
    intro hmore
    obtain ⟨t', hturn', hright⟩ := dealTlv_of_ok hS hsort hrows hfirst
    obtain rfl := Option.some.inj (hturn.symm.trans hturn')
    rw [List.length_map] at hmore
    have hgoes := hright.goesOn.mpr hmore
    rw [if_pos hgoes] at hbind
    obtain ⟨rest, hrun, rfl⟩ := Option.map_eq_some_iff.mp hbind
    rw [← hright.pcfg, ← hright.keys hgoes]
    exact ih hright.table hrun (List.forall_mem_cons.mp htables).2

theorem robust_iff (hS : S.Lawful) {content : List UInt8} (hcheck : checkPkgBody content = true)
    (hrows : TableOk S rows) :
    Robust S (fun sort => dealResp S sort errLog infoLog content rows) ↔
      TlvsOk S errLog infoLog 0 false (rows.map S.rows.key) (respTlvs content) := by
  have hresp : ∀ sort, dealResp S sort errLog infoLog content rows =
      dealTlvs S sort errLog infoLog 0 (respTlvs content) none rows := fun _ => if_pos hcheck
  constructor
  · intro hrobust
    obtain ⟨sort, hsort, honly⟩ := exists_sortsBy_only hS.cmp_self S.rows.key
    obtain ⟨tables, hdeal, htables⟩ := hrobust sort hsort
    exact tlvsOk_of_dealTlvs hS hsort honly hrows ((hresp sort).symm.trans hdeal) htables
  · intro hok sort hsort
    obtain ⟨tables, hdeal, htables⟩ := @dealTlvs_of_ok _ _ _ _ S sort errLog infoLog
      (respTlvs content) none rows 0 hS hsort hrows hok
    exact ⟨tables, (hresp sort).trans hdeal, htables⟩

end Runs

section Refine

variable {S : RespSpec κ ρ ν} {errLog infoLog : Nat → Bool} {tlv long : Nat × List UInt8}
  {tlvs longs : List (Nat × List UInt8)} {pcfg last : Option ν} {rows : List ρ} {i : Nat}
  {tables : List (List ρ)} {t : Turn ρ ν}

/-- The value of a TLV, and the bytes from there to the end of the body. -/
def Cut (tlv long : Nat × List UInt8) : Prop := long.1 = tlv.1 ∧ tlv.2 <+: long.2

end Refine

section Responses

theorem cmpSLogConfig_eq_zero {a b : Nat} (h : cmpSLogConfig a b = 0) : b = a := by
  unfold cmpSLogConfig at h
  by_cases hgt : a > b
  · rw [if_pos hgt] at h
    cases h
  · by_cases hlt : a < b
    · rw [if_neg hgt, if_pos hlt] at h
      cases h
    · exact le_antisymm (Nat.not_lt.mp hlt) (Nat.not_lt.mp hgt)

variable {bs : List UInt8}

theorem MtSLogConfig.read_append (h : CopyOk logResp bs) (more : List UInt8) :
    MtSLogConfig.read (bs ++ more) = MtSLogConfig.read bs := by
  have hlen : 26 + sizeofSLogTestKey * netAt bs 24 2 ≤ bs.length := by
    have hcopy : 26 + sizeofSLogTestKey * (UInt16.ofNat (netAt bs 24 2)).toNat ≤ bs.length := h.1
    have hlt : netAt bs 24 2 < 256 ^ 2 := netAt_lt (by omega)
    rwa [UInt16.toNat_ofNat_of_lt' hlt] at hcopy
  have hfield : ∀ p k, p + k ≤ 26 → netAt (bs ++ more) p k = netAt bs p k :=
    fun p k hp => netAt_append_left more (by omega)
  rw [MtSLogConfig.read, MtSLogConfig.read, hfield 0 4 (by decide), hfield 4 4 (by decide),
    hfield 8 4 (by decide), hfield 12 4 (by decide), hfield 16 4 (by decide),
    hfield 20 4 (by decide), hfield 24 2 (by decide), slice_append_of_le hlen]

theorem MtAppInfo.read_append (h : 17 ≤ bs.length) (more : List UInt8) :
    MtAppInfo.read (bs ++ more) = MtAppInfo.read bs := by
  have hfield : ∀ p k, p + k ≤ 17 → netAt (bs ++ more) p k = netAt bs p k :=
    fun p k hp => netAt_append_left more (hp.trans h)
  rw [MtAppInfo.read, MtAppInfo.read, hfield 0 4 (by decide), hfield 4 1 (by decide),
    hfield 5 2 (by decide), hfield 7 4 (by decide), hfield 11 2 (by decide),
    hfield 13 4 (by decide)]

theorem logResp_lawful : logResp.Lawful where
  cmp_self := by
    intro k
    change cmpSLogConfig k k = 0
    rw [cmpSLogConfig, if_neg (lt_irrefl _), if_neg (lt_irrefl _)]
  eq_of_id := fun _ _ h => cmpSLogConfig_eq_zero h
  id_append := by
    intro bs more h
    have hlen : 26 ≤ bs.length := h
    change (UInt32.ofNat (netAt (bs ++ more) 4 4)).toNat = (UInt32.ofNat (netAt bs 4 4)).toNat
    rw [netAt_append_left more (by omega)]
  dec_append := fun _ more h => MtSLogConfig.read_append h more
  decKey_append := fun _ more h => netAt_append_left more h

theorem cmpAppConfig_eq_zero {a b : Int32} (h : cmpAppConfig a.toInt b.toInt = 0) :
    b.toInt = a.toInt := by
  unfold cmpAppConfig Int.bmod at h
  have ha := a.toInt_lt
  have ha' := a.le_toInt
  have hb := b.toInt_lt
  have hb' := b.le_toInt
  dsimp only at h
  split at h
  · omega
  · omega

theorem appResp_lawful : appResp.Lawful where
  cmp_self := by
    intro k
    change Int.bmod (k - k) (2 ^ 32) = 0
    rw [Int.sub_self]
    rfl
  eq_of_id := fun _ _ h => cmpAppConfig_eq_zero h
  id_append := by
    intro bs more h
    change (MtAppInfo.read (bs ++ more)).iAppId.toInt = (MtAppInfo.read bs).iAppId.toInt
    rw [MtAppInfo.read_append h more]
  dec_append := fun _ more h => MtAppInfo.read_append h.1 more
  decKey_append := by
    intro bs more h
    change (UInt32.ofNat (netAt (bs ++ more) 0 4)).toInt32.toInt =
      (UInt32.ofNat (netAt bs 0 4)).toInt32.toInt
    rw [netAt_append_left more h]

/-- For all responses that `CheckPkgBody` accepts and all tables in order: both functions follow no
pointer before it was set, read only inside the TLV at hand, write test keys only inside a row, and
leave the table in order and within its limit after every TLV, exactly when the TLVs that they find
are ones that they can take. -/
theorem config_responses_iff (errLog infoLog errLog' infoLog' : Nat → Bool)
    (logContent appContent : List UInt8) (logTable : List SLogConfig) (appTable : List AppInfo)
    (hlog : checkPkgBody logContent = true) (happ : checkPkgBody appContent = true)
    (hlogTable : TableOk logResp logTable) (happTable : TableOk appResp appTable) :
    (Robust logResp (fun sort =>
        dealRespCheckLogConfigTables sort errLog infoLog logContent logTable) ∧
      Robust appResp (fun sort =>
        dealRespCheckAppConfigTables sort errLog' infoLog' appContent appTable)) ↔
      TlvsOk logResp errLog infoLog 0 false (logTable.map configRows.key) (respTlvs logContent) ∧
        TlvsOk appResp errLog' infoLog' 0 false (appTable.map appRows.key)
          (respTlvs appContent) :=
  and_congr (robust_iff logResp_lawful hlog hlogTable) (robust_iff appResp_lawful happ happTable)

/-- A log configuration without test keys, and its deletion. -/
def addedAndGoneConfig : List UInt8 :=
  [2, 0, 205, 0, 26, 0, 0, 0, 1, 0, 0, 0, 5, 0, 0, 0, 7, 0, 0, 0, 8, 0, 0, 0, 3, 0, 0, 0, 0, 0, 0,
    0, 207, 0, 4, 0, 0, 0, 5]

/-- An application, and its deletion. -/
def addedAndGoneApp : List UInt8 :=
  [2, 0, 205, 0, 17, 0, 0, 0, 7, 0, 0, 1, 0, 0, 0, 2, 31, 144, 127, 0, 0, 1,
    0, 207, 0, 4, 0, 0, 0, 7]

theorem config_responses_addedAndGone :
    Robust logResp (fun sort => dealRespCheckLogConfigTables sort (fun _ => true) (fun _ => true)
        addedAndGoneConfig []) ∧
      Robust appResp (fun sort => dealRespCheckAppConfigTables sort (fun _ => true) (fun _ => true)
        addedAndGoneApp []) :=
  (config_responses_iff (fun _ => true) (fun _ => true) (fun _ => true) (fun _ => true)
    addedAndGoneConfig addedAndGoneApp [] [] (by decide +kernel) (by decide +kernel)
    ⟨List.Pairwise.nil, Nat.zero_le _⟩ ⟨List.Pairwise.nil, Nat.zero_le _⟩).mpr
      ⟨by decide +kernel, by decide +kernel⟩

/-- One deletion of an identity that the table does not have. -/
def goneResponse : List UInt8 := [1, 0, 207, 0, 4, 0, 0, 0, 5]

/-- A response without TLVs. -/
def emptyResponse : List UInt8 := [0]

/-- The log line of a deletion that finds nothing follows a null pointer. -/
theorem deletion_follows_null :
    ¬ ∀ (errLog infoLog errLog' infoLog' : Nat → Bool) (logContent appContent : List UInt8)
      (logTable : List SLogConfig) (appTable : List AppInfo),
      checkPkgBody logContent = true → checkPkgBody appContent = true →
      TableOk logResp logTable → TableOk appResp appTable →
      Robust logResp (fun sort =>
          dealRespCheckLogConfigTables sort errLog infoLog logContent logTable) ∧
        Robust appResp (fun sort =>
          dealRespCheckAppConfigTables sort errLog' infoLog' appContent appTable) := by
  intro hall
  have hrobust := (hall (fun _ => true) (fun _ => true) (fun _ => true) (fun _ => true)
    goneResponse emptyResponse [] [] (by decide +kernel) (by decide +kernel)
    ⟨List.Pairwise.nil, Nat.zero_le _⟩ ⟨List.Pairwise.nil, Nat.zero_le _⟩).1
  have hnone : dealRespCheckLogConfigTables (qsort cmpSLogConfig configRows.key) (fun _ => true)
      (fun _ => true) goneResponse [] = none := by decide +kernel
  obtain ⟨tables, hdeal, -⟩ := hrobust _ (sortsBy_qsort cmpSLogConfig configRows.key)
  exact Option.some_ne_none tables (hdeal.symm.trans hnone)

end Responses

end XrkMonitor.Sync
