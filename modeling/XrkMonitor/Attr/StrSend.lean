import XrkMonitor.Attr.StrRuns
import XrkMonitor.Packet.StrAttrs

/-!
# A drained batch of string attributes in a packet

`ReadStrAttr` takes up to fifteen entries out of the table, each with a string of
up to 64 characters. `EnvSendStrAttrToServer` puts all of them behind one another
and makes one packet of them in a buffer of 1200 bytes. Head, signature and body
take 166 bytes of it, so a batch of more than 1034 bytes, or 1023 if the content
is enciphered, makes no packet, and its entries have left the table already.

## Implementation notes

The drain is run from its start to its end; the environment of the flag is given
for every round. The enciphered content is read from a buffer that the cipher
fills, whatever it writes. What the signature and the TLV contain is a parameter;
their lengths are those of the source.
-/

namespace XrkMonitor.Attr

open Library SharedHash SharedHashTable

section Drain

/-- The rounds of `ReadStrAttr`. -/
def readStrAttrRounds (env : Nat → LockEnv) :
    Nat → SharedHashTable StrAttrNode → StrRead → List StrAttrNode
  | 0, _, r => r.stStrAttrRead
  | fuel + 1, t, r =>
    match strReadStep (env r.j) t r with
    | (none, _) => r.stStrAttrRead
    | (some r', t') => readStrAttrRounds env fuel t' r'

/-- `ReadStrAttr`: the batch. -/
def readStrAttr (env : Nat → LockEnv) (t : SharedHashTable StrAttrNode) : List StrAttrNode :=
  readStrAttrRounds env (MTATTR_HASH_NODE * STATIC_HASH_ROW_MAX + 1) (strReadBegin t).2
    (strReadBegin t).1

/-- The nodes that rounds of a drain meet, as long as they do not stop. -/
def nodesFrom (env : Nat → LockEnv) (bReverse : Bool) :
    Nat → Nat → SharedHashTable StrAttrNode → Option Nat → List StrAttrNode
  | 0, _, _, _ => []
  | _ + 1, _, _, none => []
  | fuel + 1, j, t, some c =>
    t.node c :: nodesFrom env bReverse fuel (j + 1) (drainNode (env j) t c bReverse).2
      (drainNode (env j) t c bReverse).1

/-- The content of the table in the order in which a drain meets it. -/
def tableContent (env : Nat → LockEnv) (t : SharedHashTable StrAttrNode) : List StrAttrNode :=
  nodesFrom env (strReadBegin t).1.bReverse (MTATTR_HASH_NODE * STATIC_HASH_ROW_MAX) 0
    (strReadBegin t).2 (strReadBegin t).1.pNode

/-- The batch that is made of nodes met one after the other. -/
def takeBatch : List StrAttrNode → List StrAttrNode → List StrAttrNode
  | b, [] => b
  | b, n :: ns =>
    if b.length < MAX_STR_ATTR_READ_PER_EACH then takeBatch (mergeStrAttr b n) ns else b

/-- The node gets an entry of its own. -/
def startsEntry (b : List StrAttrNode) (n : StrAttrNode) : Bool :=
  (bsearch (strAttrCmp n) b).isNone && decide (0 < n.iStrVal)

/-- The nodes that get an entry of their own, until the batch is full. -/
def entryNodes : List StrAttrNode → List StrAttrNode → List StrAttrNode
  | _, [] => []
  | b, n :: ns =>
    if b.length < MAX_STR_ATTR_READ_PER_EACH then
      if startsEntry b n then n :: entryNodes (mergeStrAttr b n) ns
      else entryNodes (mergeStrAttr b n) ns
    else []

variable {env : Nat → LockEnv}

theorem readStrAttrRounds_eq (fuel : Nat) (t : SharedHashTable StrAttrNode) (r : StrRead)
    (hj : r.j + fuel = MTATTR_HASH_NODE * STATIC_HASH_ROW_MAX) :
    readStrAttrRounds env (fuel + 1) t r =
      takeBatch r.stStrAttrRead (nodesFrom env r.bReverse fuel r.j t r.pNode) := by
  induction fuel generalizing t r with
  | zero =>
    have hend : (strReadStep (env r.j) t r).1 = none := by
      unfold strReadStep
      cases r.pNode with
      | none => rfl
      | some c =>
        simp only
        rw [if_neg (by omega)]
    rw [readStrAttrRounds]
    generalize strReadStep (env r.j) t r = x at hend
    obtain ⟨x₁, t'⟩ := x
    obtain rfl : x₁ = none := hend
    rfl
  | succ fuel ih =>
    rw [readStrAttrRounds]
    unfold strReadStep
    cases hc : r.pNode with
    | none => rfl
    | some c =>
      simp only
      rw [nodesFrom, takeBatch]
      by_cases hroom : r.stStrAttrRead.length < MAX_STR_ATTR_READ_PER_EACH
      · rw [if_pos ⟨by omega, hroom⟩, if_pos hroom]
        exact ih _ _ (by simp only; omega)
      · rw [if_neg fun h => hroom h.2, if_neg hroom]

theorem readStrAttr_eq (t : SharedHashTable StrAttrNode) :
    readStrAttr env t = takeBatch [] (tableContent env t) := by
  have hbegin : (strReadBegin t).1.stStrAttrRead = [] ∧ (strReadBegin t).1.j = 0 := ⟨rfl, rfl⟩
  rw [readStrAttr, readStrAttrRounds_eq _ _ _ (by rw [hbegin.2, Nat.zero_add]), hbegin.1, hbegin.2]
  rfl

/-- The bytes of an entry in the packet. -/
def entrySize (n : StrAttrNode) : Nat := Packet.sizeofStrAttrNodeClient + (n.szStrInfo.str.length + 1)

/-- The bytes of entries in the packet. -/
def contentSize (nodes : List StrAttrNode) : Nat := (nodes.map entrySize).sum

theorem contentSize_perm {a b : List StrAttrNode} (h : a.Perm b) : contentSize a = contentSize b :=
  (h.map entrySize).sum_eq

theorem mergeStrAttr_size (b : List StrAttrNode) (n : StrAttrNode) :
    contentSize (mergeStrAttr b n) = contentSize b + (if startsEntry b n then entrySize n else 0) ∧
      (mergeStrAttr b n).length = b.length + (if startsEntry b n then 1 else 0) := by
  unfold mergeStrAttr startsEntry
  cases hfind : bsearch (strAttrCmp n) b with
  | some i =>
    simp only [Option.isNone_some, Bool.false_and, Bool.false_eq_true, if_false, Nat.add_zero,
      List.length_modify, and_true]
    unfold contentSize
    congr 1
    apply List.ext_getElem?
    intro k
    rw [List.getElem?_map, List.getElem?_map, List.getElem?_modify]
    by_cases hik : i = k
    · subst hik
      cases b[i]? <;> simp [entrySize]
    · cases b[k]? <;> simp [hik]
  | none =>
    simp only [Option.isNone_none, Bool.true_and, decide_eq_true_eq]
    split
    · have hperm := perm_sortStrAttr (b ++ [n])
      rw [contentSize_perm hperm, hperm.length_eq]
      simp [contentSize]
    · simp

theorem contentSize_takeBatch (b ns : List StrAttrNode) :
    contentSize (takeBatch b ns) = contentSize b + contentSize (entryNodes b ns) := by
  induction ns generalizing b with
  | nil => rfl
  | cons n ns ih =>
    rw [takeBatch, entryNodes]
    split
    · rw [ih, (mergeStrAttr_size b n).1]
      split
      · rw [Nat.add_assoc]
        rfl
      · rfl
    · rfl

theorem length_takeBatch {b ns : List StrAttrNode} (hb : b.length ≤ MAX_STR_ATTR_READ_PER_EACH) :
    (takeBatch b ns).length ≤ MAX_STR_ATTR_READ_PER_EACH := by
  induction ns generalizing b with
  | nil => exact hb
  | cons n ns ih =>
    rw [takeBatch]
    split
    · apply ih
      rw [(mergeStrAttr_size b n).2]
      split <;> omega
    · exact hb

end Drain

section Send

/-- What surrounds the content of a packet, and the cipher: what stands in `sAttrBufEnc` after
`aes_cipher_data`. -/
structure AttrSender where
  iEnableEncryptData : Bool
  stHead : Packet.ReqPkgHead
  sSig : Vector UInt8 32
  stTlvInfo : Vector UInt8 52
  sAttrBufEnc : List UInt8 → Nat → UInt8

/-- The size of `sAttrBufEnc`. -/
def sizeofAttrBufEnc : Nat := Packet.MAX_ATTR_PKG_LENGTH + 256

/-- The parts that `MakeAttrPkg` sets. -/
def attrParts (s : AttrSender) (content : List UInt8) : Packet.Parts where
  head := s.stHead
  sig := some ⟨UInt8.ofNat Packet.MT_SIGNATURE_TYPE_COMMON, s.sSig.toList⟩
  content := content
  body := some ⟨[⟨UInt16.ofNat Packet.TLV_MONI_COMM_INFO, s.stTlvInfo.toList,
    Packet.length_stTlvInfo s.stTlvInfo⟩], Packet.one_tlv_lt _⟩

/-- `MakeAttrPkg`: the packet, if it can be made. -/
def makeAttrPkg (s : AttrSender) (content : List UInt8) : Option (List UInt8) :=
  Packet.makePacket (attrParts s content) Packet.MAX_ATTR_PKG_LENGTH 0

/-- An entry of the batch as it is written to the packet. -/
def toClient (n : StrAttrNode) : Packet.StrAttrNode where
  iStrAttrId := Int32.ofInt n.iStrAttrId
  iStrVal := Int32.ofInt n.iStrVal
  szStrInfo := n.szStrInfo.str
  ne_zero := n.szStrInfo.str_ne_zero

/-- `iAttrBufLenEnc`. -/
def attrBufLenEnc (iUseBufLen : Nat) : Nat := (iUseBufLen / 16 + 1) * 16

/-- `EnvSendStrAttrToServer` up to the packet. -/
def envSendStrAttr (s : AttrSender) (stStrAttrRead : List StrAttrNode) : Option (List UInt8) :=
  let strAttrSendBuf := Packet.strAttrSendBuf (stStrAttrRead.map toClient)
  if s.iEnableEncryptData then
    let iAttrBufLenEnc := attrBufLenEnc strAttrSendBuf.length
    if sizeofAttrBufEnc < iAttrBufLenEnc then none
    else makeAttrPkg s ((List.range iAttrBufLenEnc).map (s.sAttrBufEnc strAttrSendBuf))
  else makeAttrPkg s strAttrSendBuf

/-- No entry of the drained batch is lost: all of them are in the content, and the packet is
made. -/
structure BatchSent (s : AttrSender) (stStrAttrRead : List StrAttrNode) : Prop where
  whole : Packet.fittingStrAttrs 0 (stStrAttrRead.map toClient) = stStrAttrRead.map toClient
  made : (envSendStrAttr s stStrAttrRead).isSome = true

/-- The bytes that the packet leaves for entries. -/
def contentRoom (iEnableEncryptData : Bool) : Nat := if iEnableEncryptData then 1023 else 1034

variable {s : AttrSender} {content : List UInt8} {b : List StrAttrNode}

theorem makeAttrPkg_isSome : (makeAttrPkg s content).isSome = true ↔ content.length ≤ 1034 := by
  have hsig : (attrParts s content).wRespSigLen = 35 := by
    simp [attrParts, Packet.Parts.wRespSigLen, Packet.TSignature.bytes]
  have hbody : (attrParts s content).wRespBodyLen = 57 := by
    simp [attrParts, Packet.Parts.wRespBodyLen, Packet.TPkgBody.bytes, Packet.TWTlv.bytes]
  have hfits : (attrParts s content).fitsBuf Packet.MAX_ATTR_PKG_LENGTH ↔
      content.length ≤ 1034 := by
    rw [Packet.Parts.fitsBuf, hsig, hbody]
    change 2 + 68 + 3 + 1 + 35 + content.length + 57 ≤ 1200 ↔ _
    omega
  rw [← hfits, makeAttrPkg, Packet.makePacket]
  split
  · rename_i hfit
    exact iff_of_true rfl hfit
  · rename_i hfit
    exact iff_of_false Bool.false_ne_true hfit

theorem fittingStrAttrs_all (iUseBufLen : Nat)
    (h : iUseBufLen + contentSize b < Packet.MAX_ATTR_PKG_LENGTH) :
    Packet.fittingStrAttrs iUseBufLen (b.map toClient) = b.map toClient := by
  induction b generalizing iUseBufLen with
  | nil => rfl
  | cons n b ih =>
    have hcons : contentSize (n :: b) = entrySize n + contentSize b := rfl
    rw [hcons] at h
    have hlen : (toClient n).szStrInfo.length = n.szStrInfo.str.length := rfl
    have hsize : entrySize n = Packet.sizeofStrAttrNodeClient + (n.szStrInfo.str.length + 1) := rfl
    rw [List.map_cons, Packet.fittingStrAttrs, if_neg (by omega), ih _ (by omega)]

theorem length_strAttrSendBuf (h : contentSize b < Packet.MAX_ATTR_PKG_LENGTH) :
    (Packet.strAttrSendBuf (b.map toClient)).length = contentSize b := by
  rw [Packet.strAttrSendBuf, fittingStrAttrs_all 0 (by omega), List.length_flatMap, List.map_map]
  unfold contentSize
  congr 1
  apply List.map_congr_left
  intro n _
  rw [Function.comp_apply, Packet.StrAttrNode.length_bytes]
  rfl

theorem contentSize_le (b : List StrAttrNode) : contentSize b ≤ b.length * 77 := by
  induction b with
  | nil => exact Nat.zero_le _
  | cons n b ih =>
    have hlen := n.szStrInfo.length_str_le
    have hcons : contentSize (n :: b) = entrySize n + contentSize b := rfl
    have hsize : entrySize n = 12 + (n.szStrInfo.str.length + 1) := rfl
    rw [hcons, List.length_cons]
    omega

theorem batchSent_iff (hb : b.length ≤ MAX_STR_ATTR_READ_PER_EACH) :
    BatchSent s b ↔ contentSize b ≤ contentRoom s.iEnableEncryptData := by
  have hle := contentSize_le b
  have hsmall : contentSize b < Packet.MAX_ATTR_PKG_LENGTH := by
    change contentSize b < 1200
    have hb : b.length ≤ 15 := hb
    omega
  have hwhole : Packet.fittingStrAttrs 0 (b.map toClient) = b.map toClient :=
    fittingStrAttrs_all 0 (by omega)
  have hlen := length_strAttrSendBuf hsmall
  have hmade : (envSendStrAttr s b).isSome = true ↔
      contentSize b ≤ contentRoom s.iEnableEncryptData := by
    unfold envSendStrAttr contentRoom
    cases s.iEnableEncryptData with
    | false =>
      simp only [Bool.false_eq_true, if_false]
      rw [makeAttrPkg_isSome, hlen]
    | true =>
      have hroom : ¬ sizeofAttrBufEnc < attrBufLenEnc (contentSize b) := by
        have hsmall : contentSize b < 1200 := hsmall
        change ¬ 1456 < (contentSize b / 16 + 1) * 16
        omega
      simp only [if_true, hlen]
      rw [if_neg hroom, makeAttrPkg_isSome, List.length_map, List.length_range, attrBufLenEnc]
      omega
  exact ⟨fun h => hmade.mp h.made, fun h => ⟨hwhole, hmade.mpr h⟩⟩

end Send

/-- For every content of the table: what a drain takes out of it is sent exactly if the nodes that
get entries take at most 1034 bytes, or 1023 if the content is enciphered. -/
theorem drained_sent_iff (s : AttrSender) (env : Nat → LockEnv) (t : SharedHashTable StrAttrNode) :
    BatchSent s (readStrAttr env t) ↔
      contentSize (entryNodes [] (tableContent env t)) ≤ contentRoom s.iEnableEncryptData := by
  rw [readStrAttr_eq, batchSent_iff (length_takeBatch (Nat.zero_le _)), contentSize_takeBatch]
  rw [show contentSize [] = 0 from rfl, Nat.zero_add]

/-- Fifteen counters of one string of 64 characters. -/
def longStrings : List StrCall :=
  (List.range 15).map fun i => .add strFlag (i + 1) (List.replicate 64 97) 1

/-- An agent that does not encipher. -/
def plainSender : AttrSender where
  iEnableEncryptData := false
  stHead := ⟨0, 1, 0, 0, 0, 0, 1, 0, Vector.replicate 32 0, 0, Vector.replicate 8 0⟩
  sSig := Vector.replicate 32 0
  stTlvInfo := Vector.replicate 52 0
  sAttrBufEnc := fun _ _ => 0

/-- Fifteen long strings are taken out of the table, and the packet for them is not made. -/
theorem long_strings_lost :
    ∃ os r, runSteps strStep ⟨strAttrTable, [], none, [], []⟩ longStrings = some (os, r) ∧
      (readStrAttr (fun _ => strFlag) r.table).length = 15 ∧
      ¬ BatchSent plainSender (readStrAttr (fun _ => strFlag) r.table) := by
  have hviews : (runSteps strStep ⟨strAttrTable, [], none, [], []⟩ longStrings).map (fun x =>
      ((readStrAttr (fun _ => strFlag) x.2.table).length,
        contentSize (readStrAttr (fun _ => strFlag) x.2.table))) = some (15, 1155) := by
    decide +kernel
  obtain ⟨⟨os, r⟩, hrun, hview⟩ := Option.map_eq_some_iff.mp hviews
  obtain ⟨hlen, hsize⟩ := Prod.mk.inj hview
  refine ⟨os, r, hrun, hlen, ?_⟩
  rw [batchSent_iff hlen.le, hsize]
  decide

end XrkMonitor.Attr
