import XrkMonitor.Library.Run
import XrkMonitor.Packet.Transport

/-!
# The first hello and the key of a session

When an agent starts it makes up a key and sends it in a first hello, sealed under
the access key. The server keeps the key of the hello it has taken last, and the
agent takes its own key when the answer to its hello comes. Hellos and answers
may be lost, come again or late, and the agent may start again at any time.

## Implementation notes

A hello that is sent again is the same packet but for `bResendTimes`. What the
database and the table of clients say is given with each hello that arrives. An
answer is its number and its content; an answer with an error ends the agent's
process. `InitHello` takes the number of a hello from `rand()`. `taken` is the
hello that the server has taken last. Of what the agent keeps of an answer only
the key and `bFirstHelloCheckOk` are here.
-/

namespace XrkMonitor.Packet

open Library Cipher

section Parties

/-- `MonitorHelloSig`. -/
structure MonitorHelloSig where
  bEnableEncryptData : UInt8
  dwPkgSeq : UInt32
  sRespEncKey : Vector UInt8 17
  dwAgentClientIp : UInt32

def MonitorHelloSig.bytes (x : MonitorHelloSig) : List UInt8 :=
  x.bEnableEncryptData ::
    (toBytes 4 x.dwPkgSeq.toNat ++ (x.sRespEncKey.toList ++ toBytes 4 x.dwAgentClientIp.toNat))

/-- What an agent is configured with. -/
structure HelloAgent where
  szUserKey : List UInt8
  iEnableEncryptData : Bool
  dwLocalIp : UInt32

/-- What is new in a first hello. -/
structure FirstHello where
  stHead : ReqPkgHead
  sRespEncKey : Vector UInt8 17
  stInfo : Vector UInt8 180

variable (a : HelloAgent) (h : FirstHello)

def FirstHello.stSigInfo : MonitorHelloSig :=
  ⟨if a.iEnableEncryptData then 1 else 0, h.stHead.dwSeq, h.sRespEncKey, a.dwLocalIp⟩

/-- `MakeFirstHelloPkg`. -/
def FirstHello.parts : Parts where
  head := h.stHead
  sig := some ⟨UInt8.ofNat MT_SIGNATURE_TYPE_HELLO_FIRST,
    aesCipherData .aes256 a.szUserKey (h.stSigInfo a).bytes⟩
  content := h.stInfo.toList
  body := none

def FirstHello.packet : List UInt8 := (h.parts a).write { h.stHead with bRetCode := 0 }

/-- Whether `GetMtClientInfo` finds the client, whether `SetKeyToMachineTable` succeeds, and the
`MonitorHelloFirstContentResp`. -/
structure HelloEnv where
  found : Bool
  stored : Bool
  stResp : Vector UInt8 56

/-- The client as `DealCmdHelloFirst` leaves it. -/
def openSession (client : MtClientInfo) (psigInfo : List UInt8) : MtClientInfo :=
  if psigInfo.getD 0 0 ≠ 0 then ⟨1, slice psigInfo 5 17⟩ else { client with bEnableEncryptData := 0 }

/-- A first hello at the server: the client, and the answer. -/
def takeHello {μ : Type} (tables : ClientTables μ) (before : UInt8)
    (checkPb : List UInt8 → Int × CBasicPacket) (sock : CUdpSock) (env : HelloEnv)
    (client : MtClientInfo) (buf : List UInt8) : MtClientInfo × Option (Nat × List UInt8) :=
  let (iRet, pkg) := checkBasicPacketServer checkPb buf
  if iRet ≠ NO_ERROR then (client, none)
  else
    match dealCmdHelloFirst aesInv before tables sock.init pkg with
    | some (.proceeds psigInfo) =>
      if env.found = false then (client, none)
      else
        let client := openSession client psigInfo
        if client.bEnableEncryptData ≠ 0 ∧ env.stored = false then (client, none)
        else
          (client, some (pkg.m_dwReqSeq,
            aesCipherData .aes128 (slice psigInfo 5 17) env.stResp.toList))
    | _ => (client, none)

/-- The server's entry of the client, and what the agent keeps. -/
structure HelloNet where
  client : MtClientInfo
  pending : Option FirstHello
  sRandKey : List UInt8
  bFirstHelloCheckOk : Bool
  hellos : List FirstHello
  answers : List (Nat × List UInt8)
  taken : Option Nat

/-- `DealResponseHelloFirst`, for the answer that has the number of the agent's hello. -/
def dealResponseHelloFirst (before : UInt8) (s : HelloNet) (x : Nat × List UInt8) : HelloNet :=
  match s.pending with
  | none => s
  | some h =>
    if x.1 ≠ h.stHead.dwSeq.toNat then s
    else
      match aesDecipherData aesInv before .aes128 (h.sRespEncKey.toList.take 16) x.2 with
      | none => s
      | some (_, n) =>
        if n ≠ 56 then s
        else
          { s with
            sRandKey := if a.iEnableEncryptData then h.sRespEncKey.toList.take 16 else s.sRandKey
            bFirstHelloCheckOk := true }

/-- The agent starts; the `i`-th hello arrives at the server; the `j`-th answer arrives. -/
inductive HelloEvent
  | start (h : FirstHello)
  | hello (i : Nat) (sock : CUdpSock) (env : HelloEnv)
  | answer (j : Nat)

def stepHello {μ : Type} (tables : ClientTables μ) (before : UInt8)
    (checkPb : List UInt8 → Int × CBasicPacket) (s : HelloNet) : HelloEvent → HelloNet
  | .start h => { s with pending := some h, bFirstHelloCheckOk := false, hellos := s.hellos ++ [h] }
  | .hello i sock env =>
    match s.hellos[i]? with
    | none => s
    | some h =>
      let x := takeHello tables before checkPb sock env s.client (h.packet a)
      { s with
        client := x.1
        answers := s.answers ++ x.2.toList
        taken := if env.found then some i else s.taken }
  | .answer j =>
    match s.answers[j]? with
    | none => s
    | some x => dealResponseHelloFirst a before s x

/-- Numbers do not repeat, and no hello arrives behind a later one that was taken. -/
def InOrder (s : HelloNet) : HelloEvent → Prop
  | .start h => ∀ g ∈ s.hellos, g.stHead.dwSeq ≠ h.stHead.dwSeq
  | .hello i _ _ => ∀ t ∈ s.taken, t ≤ i
  | .answer _ => True

end Parties

section Server

variable {μ : Type} {tables : ClientTables μ} {before : UInt8} {a : HelloAgent} {h : FirstHello}
  {checkPb : List UInt8 → Int × CBasicPacket} {sock : CUdpSock} {env : HelloEnv}
  {client : MtClientInfo}

/-- The client with the key of a hello. -/
def keyed (a : HelloAgent) (h : FirstHello) (client : MtClientInfo) : MtClientInfo :=
  if a.iEnableEncryptData then ⟨1, h.sRespEncKey.toList⟩ else { client with bEnableEncryptData := 0 }

theorem length_helloSig (x : MonitorHelloSig) : x.bytes.length = sizeofMonitorHelloSig := by
  simp only [MonitorHelloSig.bytes, List.length_cons, List.length_append, length_toBytes,
    Vector.length_toList]
  rfl

/-- The server decrypts a hello to what the agent has put in. -/
theorem dealCmdHelloFirst_packet (hkey : tables.szAgentAccessKey = a.szUserKey) :
    ∃ pkg, checkBasicPacketServer checkPb (h.packet a) = (NO_ERROR, pkg) ∧
      pkg.m_dwReqSeq = h.stHead.dwSeq.toNat ∧
      ∃ rest, dealCmdHelloFirst aesInv before tables sock.init pkg =
        some (.proceeds ((h.stSigInfo a).bytes ++ rest)) := by
  have hsize := length_helloSig (h.stSigInfo a)
  have hsig : (aesCipherData .aes256 a.szUserKey (h.stSigInfo a).bytes).length = 32 := by
    rw [length_aesCipherData, hsize]
    rfl
  have hlen : (h.parts a).pkgLen = 286 := by
    rw [Parts.pkgLen, Parts.toPkgBody, length_sigBytes]
    simp [Parts.signature, FirstHello.parts, Parts.bodyBytes, hsig]
  have hrec : Recovers (h.parts a) (h.parts a).bodyBytes
      ((h.parts a).published { h.stHead with bRetCode := 0 }) :=
    recovers_published (by omega) rfl rfl
  have haccepted : checkBasicPacketServer checkPb (h.packet a) =
      (NO_ERROR, (h.parts a).published { h.stHead with bRetCode := 0 }) :=
    checkBasicPacketServer_request checkPb (by omega) (Nat.le_trans hsig.le (by decide)) rfl
  have hcontent : ((h.parts a).published { h.stHead with bRetCode := 0 }).m_wCmdContentLen =
      sizeofMonitorHelloFirstContent := Vector.length_toList
  generalize (h.parts a).published { h.stHead with bRetCode := 0 } = pkg at hrec haccepted hcontent
  have hseq : pkg.m_dwReqSeq = h.stHead.dwSeq.toNat := hrec.seq
  have htype : pkg.bSigType = MT_SIGNATURE_TYPE_HELLO_FIRST := hrec.sigType
  have hsealed : pkg.sSigValue =
      aesCipherData .aes256 tables.szAgentAccessKey (h.stSigInfo a).bytes := by
    rw [hkey]
    exact hrec.sigValue
  obtain ⟨rest, hdec⟩ := decipherSig_sealed before sock.init hsealed (by rw [hsize]; decide)
  have hnumber : netAt ((h.stSigInfo a).bytes ++ rest) 1 4 = h.stHead.dwSeq.toNat := by
    have hsplit : (h.stSigInfo a).bytes ++ rest = [(h.stSigInfo a).bEnableEncryptData] ++
        (toBytes 4 h.stHead.dwSeq.toNat ++ (h.sRespEncKey.toList ++
          (toBytes 4 a.dwLocalIp.toNat ++ rest))) := by
      simp [MonitorHelloSig.bytes, FirstHello.stSigInfo]
    exact netAt_of_split hsplit rfl h.stHead.dwSeq.toNat_lt
  refine ⟨pkg, haccepted, hseq, rest, ?_⟩
  rw [dealCmdHelloFirst, if_neg (not_not.mpr hcontent), checkSignature, if_pos htype, hdec, hsize]
  dsimp only
  rw [if_neg (not_not.mpr rfl), Option.map_some]
  dsimp only
  rw [if_neg (show ¬ (0 : Int) ≠ NO_ERROR from not_not.mpr rfl), hnumber,
    if_neg (not_not.mpr hseq.symm)]

/-- A hello of the agent gives the client its key, and what is answered is sealed under it. -/
theorem takeHello_packet (hkey : tables.szAgentAccessKey = a.szUserKey) :
    takeHello tables before checkPb sock env client (h.packet a) =
      if env.found = false then (client, none)
      else if a.iEnableEncryptData = true ∧ env.stored = false then (keyed a h client, none)
      else (keyed a h client, some (h.stHead.dwSeq.toNat,
        aesCipherData .aes128 h.sRespEncKey.toList env.stResp.toList)) := by
  obtain ⟨pkg, haccepted, hseq, rest, hproceeds⟩ := dealCmdHelloFirst_packet hkey
  have hslice : slice ((h.stSigInfo a).bytes ++ rest) 5 17 = h.sRespEncKey.toList := by
    have hsplit : (h.stSigInfo a).bytes ++ rest =
        ((h.stSigInfo a).bEnableEncryptData :: toBytes 4 h.stHead.dwSeq.toNat) ++
          (h.sRespEncKey.toList ++ (toBytes 4 a.dwLocalIp.toNat ++ rest)) := by
      simp [MonitorHelloSig.bytes, FirstHello.stSigInfo]
    exact slice_of_split hsplit (by simp) Vector.length_toList
  have hopen : openSession client ((h.stSigInfo a).bytes ++ rest) = keyed a h client := by
    have hflag : ((h.stSigInfo a).bytes ++ rest).getD 0 0 = if a.iEnableEncryptData then 1 else 0 := rfl
    rw [openSession, keyed, hslice, hflag]
    cases a.iEnableEncryptData <;> rfl
  have hon : (keyed a h client).bEnableEncryptData ≠ 0 ↔ a.iEnableEncryptData = true := by
    rw [keyed]
    cases a.iEnableEncryptData <;> simp
  rw [takeHello, haccepted]
  dsimp only
  rw [if_neg (not_not.mpr rfl), hproceeds]
  simp only [hopen, hon, hslice, hseq]

end Server

section Runs

variable {μ : Type} {tables : ClientTables μ} {before : UInt8} {a : HelloAgent} {h : FirstHello}
  {checkPb : List UInt8 → Int × CBasicPacket} {s : HelloNet}

/-- What holds of every run: the agent waits for its last hello, every answer is one to a hello not
behind the last one taken, whose key the client has, and a checked agent has the key of its last
hello, which is the one taken. -/
structure HelloInv (a : HelloAgent) (s : HelloNet) : Prop where
  distinct : (s.hellos.map fun h => h.stHead.dwSeq).Nodup
  pending : ∀ h ∈ s.pending, s.hellos[s.hellos.length - 1]? = some h
  answered : ∀ x ∈ s.answers, ∃ t ∈ s.taken, ∃ i ≤ t, ∃ h, s.hellos[i]? = some h ∧
    x.1 = h.stHead.dwSeq.toNat
  client : ∀ t ∈ s.taken, ∃ h, s.hellos[t]? = some h ∧ s.client = keyed a h s.client
  checked : s.bFirstHelloCheckOk = true → ∃ h, s.pending = some h ∧
    s.taken = some (s.hellos.length - 1) ∧
    (a.iEnableEncryptData = true → s.sRandKey = h.sRespEncKey.toList.take 16)

theorem keyed_keyed (h : FirstHello) (client : MtClientInfo) :
    keyed a h (keyed a h client) = keyed a h client := by
  rw [keyed, keyed]
  split
  · rfl
  · rfl

theorem getElem?_append_some {α : Type*} {l : List α} {i : Nat} {x : α} (h : l[i]? = some x)
    (l' : List α) : (l ++ l')[i]? = some x := by
  rw [List.getElem?_append_left (List.getElem?_eq_some_iff.mp h).1, h]

/-- The agent starts. -/
theorem HelloInv.start (hinv : HelloInv a s)
    (hfresh : ∀ g ∈ s.hellos, g.stHead.dwSeq ≠ h.stHead.dwSeq) :
    HelloInv a
      { s with pending := some h, bFirstHelloCheckOk := false, hellos := s.hellos ++ [h] } where
  distinct := by
    rw [List.map_append, List.nodup_append]
    refine ⟨hinv.distinct, List.nodup_singleton _, ?_⟩
    intro x hx y hy
    obtain ⟨g, hg, rfl⟩ := List.mem_map.mp hx
    rw [List.mem_singleton.mp hy]
    exact hfresh g hg
  pending := by
    rintro g ⟨⟩
    dsimp only
    rw [List.length_append, List.length_singleton, Nat.add_sub_cancel, List.getElem?_concat_length]
  answered := by
    intro x hx
    obtain ⟨t, ht, i, hi, g, hg, hnum⟩ := hinv.answered x hx
    exact ⟨t, ht, i, hi, g, getElem?_append_some hg _, hnum⟩
  client := by
    intro t ht
    obtain ⟨g, hg, hclient⟩ := hinv.client t ht
    exact ⟨g, getElem?_append_some hg _, hclient⟩
  checked := fun hcheck => absurd hcheck Bool.false_ne_true

/-- A hello that is taken: the client has its key, and it may be answered. -/
theorem HelloInv.taken (hinv : HelloInv a s) {i : Nat} (hi : s.hellos[i]? = some h)
    (horder : ∀ t ∈ s.taken, t ≤ i) {answer : List (Nat × List UInt8)}
    (hanswer : ∀ x ∈ answer, x.1 = h.stHead.dwSeq.toNat) :
    HelloInv a { s with
      client := keyed a h s.client, answers := s.answers ++ answer, taken := some i } where
  distinct := hinv.distinct
  pending := hinv.pending
  answered := by
    intro x hx
    rcases List.mem_append.mp hx with hold | hnew
    · obtain ⟨t, ht, k, hk, g, hg, hnum⟩ := hinv.answered x hold
      exact ⟨i, rfl, k, Nat.le_trans hk (horder t ht), g, hg, hnum⟩
    · exact ⟨i, rfl, i, Nat.le_refl i, h, hi, hanswer x hnew⟩
  client := by
    rintro t ⟨⟩
    exact ⟨h, hi, (keyed_keyed h s.client).symm⟩
  checked := by
    intro hcheck
    obtain ⟨g, hg, hlast, hkey⟩ := hinv.checked hcheck
    have hle := horder _ hlast
    have hlt := (List.getElem?_eq_some_iff.mp hi).1
    refine ⟨g, hg, congrArg some ?_, hkey⟩
    dsimp only
    omega

/-- A hello arrives. -/
theorem HelloInv.hello (hinv : HelloInv a s) (hkey : tables.szAgentAccessKey = a.szUserKey) {i : Nat}
    {sock : CUdpSock} {env : HelloEnv} (horder : ∀ t ∈ s.taken, t ≤ i) :
    HelloInv a (stepHello a tables before checkPb s (.hello i sock env)) := by
  rw [stepHello]
  cases hi : s.hellos[i]? with
  | none => exact hinv
  | some h =>
    dsimp only
    rw [takeHello_packet hkey]
    cases hfound : env.found with
    | false => simpa using hinv
    | true =>
      rw [if_neg (by decide), if_pos rfl]
      split
      · exact hinv.taken hi horder fun x hx => by cases hx
      · refine hinv.taken hi horder fun x hx => ?_
        rw [List.mem_singleton.mp hx]

/-- An answer arrives. -/
theorem HelloInv.answer (hinv : HelloInv a s) (j : Nat) :
    HelloInv a (stepHello a tables before checkPb s (.answer j)) := by
  rw [stepHello]
  cases hj : s.answers[j]? with
  | none => exact hinv
  | some x =>
    dsimp only
    rw [dealResponseHelloFirst]
    split
    · exact hinv
    · rename_i h hpending
      split
      · exact hinv
      · rename_i hnum
        split
        · exact hinv
        · split
          · exact hinv
          · refine ⟨hinv.distinct, hinv.pending, hinv.answered, hinv.client, fun _ => ?_⟩
            obtain ⟨t, ht, i, hi, g, hg, hseq⟩ := hinv.answered x (List.mem_of_getElem? hj)
            have hlast := hinv.pending h hpending
            have heq : g.stHead.dwSeq = h.stHead.dwSeq :=
              UInt32.toNat_inj.mp (hseq.symm.trans (not_not.mp hnum))
            have hindex : i = s.hellos.length - 1 := by
              have hlt := (List.getElem?_eq_some_iff.mp hg).1
              apply (List.getElem?_inj (by rwa [List.length_map]) hinv.distinct).mp
              rw [List.getElem?_map, List.getElem?_map, hg, hlast, Option.map_some, Option.map_some, heq]
            obtain ⟨f, hf, -⟩ := hinv.client t ht
            have hlt := (List.getElem?_eq_some_iff.mp hf).1
            have htaken : t = s.hellos.length - 1 := by omega
            refine ⟨h, hpending, ht.trans (congrArg some htaken), fun henc => ?_⟩
            dsimp only
            rw [if_pos henc]

theorem helloInv_step (hkey : tables.szAgentAccessKey = a.szUserKey) (s : HelloNet) (e : HelloEvent)
    (hinv : HelloInv a s) (hok : InOrder s e) : HelloInv a (stepHello a tables before checkPb s e) := by
  cases e with
  | start h => exact hinv.start hok
  | hello i sock env => exact hinv.hello hkey hok
  | answer j => exact hinv.answer j

/-- No agent has started. -/
structure NotStarted (s : HelloNet) : Prop where
  pending : s.pending = none
  bFirstHelloCheckOk : s.bFirstHelloCheckOk = false
  hellos : s.hellos = []
  answers : s.answers = []
  taken : s.taken = none

theorem NotStarted.helloInv (hs : NotStarted s) : HelloInv a s where
  distinct := by
    rw [hs.hellos]
    exact List.nodup_nil
  pending := by
    rw [hs.pending]
    rintro h ⟨⟩
  answered := by
    rw [hs.answers]
    intro x hx
    cases hx
  client := by
    rw [hs.taken]
    rintro t ⟨⟩
  checked := by
    rw [hs.bFirstHelloCheckOk]
    intro hcheck
    cases hcheck

/-- What one side makes under its key, the other takes: the client's key is the agent's. -/
structure SameKey (a : HelloAgent) (before : UInt8) (s : HelloNet) : Prop where
  open_if_off : a.iEnableEncryptData = false → s.client.bEnableEncryptData = 0
  checked_if_on : a.iEnableEncryptData = true → s.client.bEnableEncryptData ≠ 0
  signed : a.iEnableEncryptData = true → ∀ (x : MonitorCommSig) (pkg : CBasicPacket),
    pkg.sSigValue = (initSignature s.sRandKey x).toList → pkg.m_dwReqSeq = x.dwSeq.toNat →
      SignedComm aesInv before s.client pkg
  opened : a.iEnableEncryptData = true → ∀ content : List UInt8, content.length + 16 ≤ 2 ^ 64 →
    ∃ out, out.take content.length = content ∧
      aesDecipherData aesInv before .aes128 s.sRandKey
        (aesCipherData .aes128 s.client.sRandKey content) = some (out, content.length)

/-- In a run where the invariant holds, an agent that has been answered shares the key. -/
theorem HelloInv.sameKey (hinv : HelloInv a s) (hcheck : s.bFirstHelloCheckOk = true) :
    SameKey a before s := by
  obtain ⟨h, hpending, htaken, hrand⟩ := hinv.checked hcheck
  obtain ⟨g, hg, hclient⟩ := hinv.client _ htaken
  rw [hinv.pending h hpending] at hg
  obtain rfl := Option.some.inj hg
  have hkeyed : a.iEnableEncryptData = true → s.client = ⟨1, h.sRespEncKey.toList⟩ := by
    intro henc
    rw [hclient, keyed, if_pos henc]
  have hcipher : ∀ content, aesCipherData .aes128 (h.sRespEncKey.toList.take 16) content =
      aesCipherData .aes128 h.sRespEncKey.toList content :=
    aesCipherData_take .aes128 h.sRespEncKey.toList
  refine ⟨fun hoff => ?_, fun henc => ?_, fun henc x pkg hsig hseq => ?_, fun henc content hlen => ?_⟩
  · rw [hclient, keyed, hoff, if_neg Bool.false_ne_true]
  · rw [hkeyed henc]
    exact Nat.one_ne_zero
  · refine ⟨x.bytes ++ padding x.bytes.length, ?_, ?_⟩
    · have hvalue : (initSignature s.sRandKey x).toList = aesCipherData .aes128 s.sRandKey x.bytes := rfl
      rw [hsig, hvalue, hrand henc, hcipher, hkeyed henc, ← x.length_bytes]
      exact aesDecipherData_aesCipherData before (by rw [x.length_bytes]; decide)
    · rw [hseq]
      exact x.netAt_bytes _
  · refine ⟨content ++ padding content.length, List.take_left, ?_⟩
    rw [hrand henc, hkeyed henc, ← hcipher]
    exact aesDecipherData_aesCipherData before hlen

/-- An agent starts, its hello is taken, and it has the answer. -/
theorem answered_session (hkey : tables.szAgentAccessKey = a.szUserKey) (s : HelloNet)
    (h : FirstHello) (sock : CUdpSock) {env : HelloEnv} (hfound : env.found = true)
    (hstored : env.stored = true) :
    ([.start h, .hello s.hellos.length sock env, .answer s.answers.length].foldl
      (stepHello a tables before checkPb) s).bFirstHelloCheckOk = true := by
  have hanswer : aesDecipherData aesInv before .aes128 (h.sRespEncKey.toList.take 16)
      (aesCipherData .aes128 h.sRespEncKey.toList env.stResp.toList) =
        some (env.stResp.toList ++ padding 56, 56) := by
    have hcipher : aesCipherData .aes128 (h.sRespEncKey.toList.take 16) env.stResp.toList =
        aesCipherData .aes128 h.sRespEncKey.toList env.stResp.toList :=
      aesCipherData_take .aes128 h.sRespEncKey.toList _
    have hlen : env.stResp.toList.length = 56 := Vector.length_toList
    rw [← hcipher, aesDecipherData_aesCipherData before (by omega), hlen]
  simp only [List.foldl_cons, List.foldl_nil, stepHello, List.getElem?_concat_length,
    takeHello_packet hkey, hfound, hstored, Bool.true_eq_false, and_false, if_false, if_true,
    Option.toList_some, dealResponseHelloFirst, ne_eq, not_true, hanswer]

end Runs

/-- In every run, whichever hellos and answers are lost, come again or come late, and however often
the agent starts again: once the agent has taken an answer and until it starts again, both sides have
the key of its last hello, if no hello has come behind a later one. From wherever a run has led, the
agent gets there with a new start whose hello is taken and answered. -/
theorem session_keys_agree {μ : Type} (tables : ClientTables μ) (before : UInt8) (a : HelloAgent)
    (checkPb : List UInt8 → Int × CBasicPacket) (s : HelloNet) (events : List HelloEvent) :
    tables.szAgentAccessKey = a.szUserKey → NotStarted s →
      Along (stepHello a tables before checkPb) InOrder s events →
      let s' := events.foldl (stepHello a tables before checkPb) s
      (s'.bFirstHelloCheckOk = true → SameKey a before s') ∧
      ∀ h sock env, env.found = true → env.stored = true →
        ([.start h, .hello s'.hellos.length sock env, .answer s'.answers.length].foldl
          (stepHello a tables before checkPb) s').bFirstHelloCheckOk = true := by
  intro hkey hs hok s'
  have hinv : HelloInv a s' := Along.invariant (helloInv_step hkey) hok hs.helloInv
  exact ⟨hinv.sameKey, fun h sock env hfound hstored => answered_session hkey s' h sock hfound hstored⟩

theorem session_keys_agree_first :
    SameKey ⟨[7], true, 1⟩ 0
      ([.start ⟨helloHead, Vector.replicate 17 65, Vector.replicate 180 0⟩,
        .hello 0 ⟨[], none⟩ ⟨true, true, Vector.replicate 56 0⟩, .answer 0].foldl
        (stepHello ⟨[7], true, 1⟩
          (⟨[7], fun _ => none, fun _ _ => false, fun _ _ => none, fun _ => none⟩ : ClientTables Unit)
          0 noPb) ⟨⟨0, []⟩, none, [], false, [], [], none⟩) :=
  (session_keys_agree _ 0 _ noPb _ _ rfl ⟨rfl, rfl, rfl, rfl, rfl⟩
    (show Along _ InOrder _ [.start _, .hello _ _ _, .answer _] from
      ⟨by simp [InOrder], by simp [InOrder, stepHello], trivial, trivial⟩)).1
    (answered_session rfl _ _ _ rfl rfl)

end XrkMonitor.Packet
