import XrkMonitor.Library.TableDiff
import XrkMonitor.Packet.RoundTrip

/-!
# Check requests and their answers

The agent asks the server for its configurations with the identities and sequence
numbers it has, twelve bytes for each. The server answers with a body of TLVs, one
for each addition, modification or deletion. The requests for log configurations
and for applications have the same layout, and so have their answers, apart from
the records.

## Implementation notes

The contents are those before encryption and after decryption. A record is read
from where the value of its TLV starts, whatever the length of the TLV says, as
the casts of the source do.
-/

namespace XrkMonitor.Sync

open Library Packet

variable {κ ν : Type*}

def TLV_MONI_CONFIG_ADD : Nat := 205
def TLV_MONI_CONFIG_MOD : Nat := 206
def TLV_MONI_CONFIG_DEL : Nat := 207
def respBufSize : Nat := 1200
def sizeofTPkgBody : Nat := 1

/-- Records and identities in network byte order. -/
structure ChangeCodec (κ ν : Type*) where
  enc : ν → List UInt8
  dec : List UInt8 → ν
  encKey : κ → List UInt8
  decKey : List UInt8 → κ

/-- The codec reads back what it writes. -/
structure ChangeCodec.Lawful (C : ChangeCodec κ ν) (records : Set ν) (keys : Set κ) : Prop where
  length_encKey : ∀ k, (C.encKey k).length = 4
  decKey_encKey : ∀ k ∈ keys, ∀ rest, C.decKey (C.encKey k ++ rest) = k
  length_enc : ∀ v ∈ records, (C.enc v).length < 2 ^ 16
  dec_enc : ∀ v ∈ records, ∀ rest, C.dec (C.enc v ++ rest) = v

/-- The slots that a walk along the next indices reaches, at most `n`. -/
def chainSlots (max : Nat) (next : Nat → Int) : Nat → Int → List Nat
  | 0, _ => []
  | n + 1, idx =>
    if 0 ≤ idx ∧ idx < max then idx.toNat :: chainSlots max next n (next idx.toNat) else []

/-- `SetWTlv`. -/
def setWTlv (wType : Nat) (sValue : List UInt8) : List UInt8 :=
  toBytes 2 wType ++ (toBytes 2 sValue.length ++ sValue)

section Answer

/-- The type and the value of the TLV of a change. -/
def changeTlv (C : ChangeCodec κ ν) : Change κ ν → Nat × List UInt8
  | .add v => (TLV_MONI_CONFIG_ADD, C.enc v)
  | .mod v => (TLV_MONI_CONFIG_MOD, C.enc v)
  | .del k => (TLV_MONI_CONFIG_DEL, C.encKey k)

def changeBytes (C : ChangeCodec κ ν) (ch : Change κ ν) : List UInt8 :=
  setWTlv (changeTlv C ch).1 (changeTlv C ch).2

/-- The length that the server reckons with for a change. -/
def changeSize (C : ChangeCodec κ ν) (ch : Change κ ν) : Nat := 4 + (changeTlv C ch).2.length

/-- The body that the server has built. -/
def answerBody (C : ChangeCodec κ ν) (changes : List (Change κ ν)) : List UInt8 :=
  UInt8.ofNat changes.length :: changes.flatMap (changeBytes C)

/-- `GetWTlvType2_list` over `n` TLVs: the type of each, and the bytes from its value on. -/
def getWTlvs : Nat → List UInt8 → List (Nat × List UInt8)
  | 0, _ => []
  | n + 1, rest => (netAt rest 0 2, rest.drop 4) :: getWTlvs n (rest.drop (4 + netAt rest 2 2))

/-- All TLVs of a body. -/
def getWTlvType2_list : List UInt8 → List (Nat × List UInt8)
  | [] => []
  | bTlvNum :: rest => getWTlvs bTlvNum.toNat rest

/-- How the agent reads a TLV: what is neither an addition nor a modification is a deletion. -/
def readChange (C : ChangeCodec κ ν) (tlv : Nat × List UInt8) : Change κ ν :=
  if tlv.1 = TLV_MONI_CONFIG_ADD then .add (C.dec tlv.2)
  else if tlv.1 = TLV_MONI_CONFIG_MOD then .mod (C.dec tlv.2)
  else .del (C.decKey tlv.2)

variable {C : ChangeCodec κ ν} {records : Set ν} {keys : Set κ} {cs : List (Change κ ν)}
  {ch : Change κ ν}

/-- The records and identities of a change can be written. -/
def Writable (records : Set ν) (keys : Set κ) : Change κ ν → Prop
  | .add v => v ∈ records
  | .mod v => v ∈ records
  | .del k => k ∈ keys

theorem length_changeTlv_lt (hC : C.Lawful records keys)
    (h : Writable records keys ch) : (changeTlv C ch).2.length < 2 ^ 16 := by
  cases ch with
  | add v => exact hC.length_enc v h
  | mod v => exact hC.length_enc v h
  | del k =>
    have hlen := hC.length_encKey k
    simp only [changeTlv]
    omega

theorem changeBytes_eq (hC : C.Lawful records keys)
    (h : Writable records keys ch) :
    ∃ t : TWTlv, t.bytes = changeBytes C ch ∧ t.wType.toNat = (changeTlv C ch).1 ∧
      t.sValue = (changeTlv C ch).2 := by
  have htype : (UInt16.ofNat (changeTlv C ch).1).toNat = (changeTlv C ch).1 := by
    cases ch <;> rfl
  refine ⟨⟨UInt16.ofNat (changeTlv C ch).1, (changeTlv C ch).2, length_changeTlv_lt hC h⟩, ?_, htype, rfl⟩
  rw [TWTlv.bytes, htype, changeBytes, setWTlv]

theorem readChange_changeTlv (hC : C.Lawful records keys)
    (h : Writable records keys ch) (rest : List UInt8) :
    readChange C ((changeTlv C ch).1, (changeTlv C ch).2 ++ rest) = ch := by
  cases ch with
  | add v =>
    simp only [changeTlv, readChange, if_true, hC.dec_enc v h rest]
  | mod v =>
    have hne : TLV_MONI_CONFIG_MOD ≠ TLV_MONI_CONFIG_ADD := by decide
    simp only [changeTlv, readChange, hne, if_true, if_false, hC.dec_enc v h rest]
  | del k =>
    have hadd : TLV_MONI_CONFIG_DEL ≠ TLV_MONI_CONFIG_ADD := by decide
    have hmod : TLV_MONI_CONFIG_DEL ≠ TLV_MONI_CONFIG_MOD := by decide
    simp only [changeTlv, readChange, hadd, hmod, if_false, hC.decKey_encKey k h rest]

theorem read_flatMap (hC : C.Lawful records keys)
    (h : ∀ ch ∈ cs, Writable records keys ch) :
    (getWTlvs cs.length (cs.flatMap (changeBytes C))).map (readChange C) = cs := by
  induction cs with
  | nil => rfl
  | cons ch cs ih =>
    obtain ⟨t, hbytes, htype, hvalue⟩ := changeBytes_eq hC (h ch List.mem_cons_self)
    have hdrop : (t.bytes ++ cs.flatMap (changeBytes C)).drop 4 =
        t.sValue ++ cs.flatMap (changeBytes C) := by
      have hsplit : t.bytes ++ cs.flatMap (changeBytes C) =
          (toBytes 2 t.wType.toNat ++ toBytes 2 t.sValue.length) ++
            (t.sValue ++ cs.flatMap (changeBytes C)) := by
        simp [TWTlv.bytes]
      exact drop_of_split hsplit (by simp)
    rw [List.flatMap_cons, List.length_cons, ← hbytes, getWTlvs, List.map_cons, netAt_wType,
      netAt_wLen, hdrop, Nat.add_comm 4, drop_tlv, ih fun d hd => h d (List.mem_cons_of_mem _ hd),
      htype, hvalue, readChange_changeTlv hC (h ch List.mem_cons_self)]

theorem toNat_count (h : cs.length < 256) :
    (UInt8.ofNat cs.length).toNat = cs.length := by
  rw [UInt8.toNat_ofNat']
  exact Nat.mod_eq_of_lt h

theorem read_answerBody (hC : C.Lawful records keys)
    (h : ∀ ch ∈ cs, Writable records keys ch) (hlen : cs.length < 256) :
    (getWTlvType2_list (answerBody C cs)).map (readChange C) = cs := by
  rw [answerBody, getWTlvType2_list, toNat_count hlen, read_flatMap hC h]

theorem checkPkgBody_answerBody (hC : C.Lawful records keys)
    (h : ∀ ch ∈ cs, Writable records keys ch) (hlen : cs.length < 256) :
    checkPkgBody (answerBody C cs) = true := by
  rw [answerBody, checkPkgBody, toNat_count hlen]
  clear hlen
  induction cs with
  | nil => rfl
  | cons ch cs ih =>
    obtain ⟨t, hbytes, -, -⟩ := changeBytes_eq hC (h ch List.mem_cons_self)
    have hlen := length_tlvBytes t
    rw [List.flatMap_cons, List.length_cons, ← hbytes, checkTlvs, netAt_wLen, drop_tlv,
      ih fun d hd => h d (List.mem_cons_of_mem _ hd)]
    simp only [List.length_append, hlen, Bool.and_eq_true, decide_eq_true_eq, and_true]
    omega

end Answer

section Request

/-- The content of a check request: the time of the last response, the number of entries, and for
each an identity, a sequence number and the flags, which the agent leaves `0`. -/
def requestContent (C : ChangeCodec κ ν) (dwServerResponseTime : Nat) (entries : List (Entry κ)) :
    List UInt8 :=
  toBytes 4 dwServerResponseTime ++ (toBytes 2 entries.length ++
    entries.flatMap fun e => C.encKey e.id ++ (toBytes 4 e.seq ++ toBytes 4 0))

/-- The entries as the server converts them; the mark is cleared. -/
def readEntries (C : ChangeCodec κ ν) : Nat → List UInt8 → List (Entry κ)
  | 0, _ => []
  | n + 1, rest => ⟨C.decKey rest, netAt rest 4 4, false⟩ :: readEntries C n (rest.drop 12)

/-- The checks of the content and its conversion. -/
def readRequest (C : ChangeCodec κ ν) (content : List UInt8) : Option (List (Entry κ)) :=
  if content.length < 6 then none
  else if content.length ≠ 6 + 12 * netAt content 4 2 then none
  else some (readEntries C (netAt content 4 2) (content.drop 6))

variable {C : ChangeCodec κ ν} {records : Set ν} {keys : Set κ} {entries : List (Entry κ)}

theorem length_entries (hC : C.Lawful records keys) (entries : List (Entry κ)) :
    (entries.flatMap fun e => C.encKey e.id ++ (toBytes 4 e.seq ++ toBytes 4 0)).length =
      12 * entries.length := by
  induction entries with
  | nil => rfl
  | cons e es ih =>
    simp only [List.flatMap_cons, List.length_append, hC.length_encKey, length_toBytes,
      List.length_cons] at ih ⊢
    omega

theorem readEntries_flatMap (hC : C.Lawful records keys)
    (h : ∀ e ∈ entries, e.id ∈ keys ∧ e.seq < 2 ^ 32 ∧ e.checked = false) :
    readEntries C entries.length
      (entries.flatMap fun e => C.encKey e.id ++ (toBytes 4 e.seq ++ toBytes 4 0)) = entries := by
  induction entries with
  | nil => rfl
  | cons e es ih =>
    obtain ⟨hid, hseq, hchecked⟩ := h e List.mem_cons_self
    rw [List.length_cons, List.flatMap_cons, readEntries, List.append_assoc, hC.decKey_encKey _ hid]
    have hnet : netAt (C.encKey e.id ++ (toBytes 4 e.seq ++ toBytes 4 0 ++
        es.flatMap fun e => C.encKey e.id ++ (toBytes 4 e.seq ++ toBytes 4 0))) 4 4 = e.seq := by
      rw [List.append_assoc]
      exact netAt_of_split rfl (hC.length_encKey _) hseq
    have hdrop : (C.encKey e.id ++ (toBytes 4 e.seq ++ toBytes 4 0 ++
        es.flatMap fun e => C.encKey e.id ++ (toBytes 4 e.seq ++ toBytes 4 0))).drop 12 =
        es.flatMap fun e => C.encKey e.id ++ (toBytes 4 e.seq ++ toBytes 4 0) := by
      rw [← List.append_assoc]
      exact drop_of_split rfl (by simp [hC.length_encKey])
    rw [hnet, hdrop, ih fun f hf => h f (List.mem_cons_of_mem _ hf), ← hchecked]

theorem readRequest_requestContent (hC : C.Lawful records keys) (dwServerResponseTime : Nat)
    (h : ∀ e ∈ entries, e.id ∈ keys ∧ e.seq < 2 ^ 32 ∧ e.checked = false)
    (hlen : entries.length < 2 ^ 16) :
    readRequest C (requestContent C dwServerResponseTime entries) = some entries := by
  have hcount : netAt (requestContent C dwServerResponseTime entries) 4 2 = entries.length :=
    netAt_of_split rfl (length_toBytes 4 _) hlen
  have htotal : (requestContent C dwServerResponseTime entries).length = 6 + 12 * entries.length := by
    rw [requestContent, List.length_append, List.length_append, length_toBytes, length_toBytes,
      length_entries hC]
    omega
  have hdrop : (requestContent C dwServerResponseTime entries).drop 6 =
      entries.flatMap fun e => C.encKey e.id ++ (toBytes 4 e.seq ++ toBytes 4 0) := by
    rw [requestContent, ← List.append_assoc]
    exact drop_of_split rfl (by simp)
  rw [readRequest, if_neg (by omega), htotal, hcount, if_neg (by simp), hdrop,
    readEntries_flatMap hC h]

end Request

end XrkMonitor.Sync
