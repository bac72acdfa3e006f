import XrkMonitor.Library.Run
import XrkMonitor.Packet.AgentData

/-!
# String attributes in a packet

The agent puts its string attributes behind one another, each with the length of its
string, the `NUL` included. The server's loop steps by that length, which it reads as a
signed number of the packet; a sum of signed and unsigned numbers decides whether an entry
lies in the content, so that a negative length leads back. The string itself is read up to
its `NUL`, whatever the length says.

## Implementation notes

The packet is a memory from the first byte of the content on, in which what follows the
content is arbitrary. The loop turns the numbers of an entry into the order of the machine
in place, so an entry that is read again is read with its bytes reversed. `OnRawDataClientAttr`
and `DealCgiReportAttr` have the same loop.
-/

namespace XrkMonitor.Packet

open Library

def MAX_ATTR_PKG_LENGTH : Nat := 1200
def sizeofStrAttrNodeClient : Nat := 12

/-- An entry of `stStrAttrRead`. -/
structure StrAttrNode where
  iStrAttrId : Int32
  iStrVal : Int32
  szStrInfo : List UInt8
  ne_zero : ∀ b ∈ szStrInfo, b ≠ 0

section Encode

/-- The bytes of an entry: three numbers in network order, and the string with its `NUL`. -/
def StrAttrNode.bytes (x : StrAttrNode) : List UInt8 :=
  toBytes 4 x.iStrAttrId.toUInt32.toNat ++ (toBytes 4 x.iStrVal.toUInt32.toNat ++
    (toBytes 4 (x.szStrInfo.length + 1) ++ (x.szStrInfo ++ [0])))

/-- The entries that `EnvSendStrAttrToServer` puts behind `iUseBufLen` bytes. -/
def fittingStrAttrs : Nat → List StrAttrNode → List StrAttrNode
  | _, [] => []
  | iUseBufLen, x :: xs =>
    if MAX_ATTR_PKG_LENGTH ≤ x.szStrInfo.length + 1 + iUseBufLen + sizeofStrAttrNodeClient then []
    else x :: fittingStrAttrs (iUseBufLen + sizeofStrAttrNodeClient + (x.szStrInfo.length + 1)) xs

/-- The content of the packet. -/
def strAttrSendBuf (xs : List StrAttrNode) : List UInt8 :=
  (fittingStrAttrs 0 xs).flatMap StrAttrNode.bytes

end Encode

section Decode

/-- The content of a packet with the memory behind it; `size` bytes of memory are looked at. -/
structure StrAttrPkg where
  size : Nat
  m_wCmdContentLen : Nat
  len_lt : m_wCmdContentLen < 2 ^ 16
  len_le : m_wCmdContentLen ≤ size

/-- Where the loop stands, and the memory as it has changed it. -/
structure StrCursor where
  mem : Nat → UInt8
  iRead : Nat

/-- `ntohl` of the number at address `p`, in place. -/
def ntohlAt (mem : Nat → UInt8) (p : Nat) : Nat → UInt8 := writeAt mem p (bytesAt mem p 4).reverse

/-- The number at address `p` after `ntohl`. -/
def netWord (mem : Nat → UInt8) (p : Nat) : Nat := ofBytes (bytesAt mem p 4)

/-- `(int)` of 32 bits. -/
def toSigned (n : Nat) : Int := if n < 2 ^ 31 then n else (n : Int) - 2 ^ 32

/-- The memory after the numbers of the entry at address `p` were turned. -/
def turnHead (mem : Nat → UInt8) (p : Nat) : Nat → UInt8 :=
  ntohlAt (ntohlAt (ntohlAt mem p) (p + 4)) (p + 8)

/-- `iStrLen` of the entry at the cursor. -/
def StrCursor.iStrLen (c : StrCursor) : Int := toSigned (netWord c.mem (c.iRead + 8))

/-- `iRead+sizeof(StrAttrNodeClient)+iStrLen`, a sum of 64 bits without a sign. -/
def StrCursor.strEnd (c : StrCursor) : Nat :=
  (((c.iRead : Int) + sizeofStrAttrNodeClient + c.iStrLen) % 2 ^ 64).toNat

/-- The entry at the cursor. -/
def StrCursor.info (pkg : StrAttrPkg) (c : StrCursor) : AttrInfo where
  uint32_attr_id := netWord c.mem c.iRead
  uint32_attr_value := netWord c.mem (c.iRead + 4)
  str := some (cstrAt (turnHead c.mem c.iRead) (c.iRead + sizeofStrAttrNodeClient)
    (pkg.size - (c.iRead + sizeofStrAttrNodeClient)))

/-- The loop goes on with another entry. -/
def HasEntry (pkg : StrAttrPkg) (c : StrCursor) : Prop :=
  c.iRead + sizeofStrAttrNodeClient ≤ pkg.m_wCmdContentLen

/-- The entry is not refused. -/
def Accepts (pkg : StrAttrPkg) (c : StrCursor) : Prop := c.strEnd ≤ pkg.m_wCmdContentLen

instance (pkg : StrAttrPkg) (c : StrCursor) : Decidable (HasEntry pkg c) :=
  inferInstanceAs (Decidable (_ ≤ _))

instance (pkg : StrAttrPkg) (c : StrCursor) : Decidable (Accepts pkg c) :=
  inferInstanceAs (Decidable (_ ≤ _))

/-- The cursor behind an entry. -/
def StrCursor.next (c : StrCursor) : StrCursor := ⟨turnHead c.mem c.iRead, c.strEnd⟩

/-- The loop over the string attributes, and whether it comes to the end of the content. -/
def readStrAttrs (pkg : StrAttrPkg) : Nat → StrCursor → List AttrInfo → Option (Bool × List AttrInfo)
  | 0, _, _ => none
  | fuel + 1, c, infos =>
    if HasEntry pkg c then
      if Accepts pkg c then readStrAttrs pkg fuel c.next (infos ++ [c.info pkg])
      else some (false, infos)
    else some (true, infos)

/-- The loop of `OnRawDataClientAttr`. -/
def onRawDataClientStrAttr (pkg : StrAttrPkg) (fuel : Nat) (mem : Nat → UInt8) :
    Option (Bool × List AttrInfo) := readStrAttrs pkg fuel ⟨mem, 0⟩ []

/-- The loop of `DealCgiReportAttr`. -/
def dealCgiReportStrAttr (pkg : StrAttrPkg) (fuel : Nat) (mem : Nat → UInt8) :
    Option (Bool × List AttrInfo) := readStrAttrs pkg fuel ⟨mem, 0⟩ []

/-- The cursor behind an entry that is accepted. -/
def stepCursor (pkg : StrAttrPkg) (c : StrCursor) : Option StrCursor :=
  if HasEntry pkg c ∧ Accepts pkg c then some c.next else none

/-- Where the loop stands after `k` entries, if it gets there. -/
def cursorAt (pkg : StrAttrPkg) (c : StrCursor) : Nat → Option StrCursor
  | 0 => some c
  | k + 1 => (cursorAt pkg c k).bind (stepCursor pkg)

/-- A string that begins at address `p` is read at address `i`: no `NUL` stands before. -/
def StrReads (mem : Nat → UInt8) (p i : Nat) : Prop := p ≤ i ∧ ∀ j, p ≤ j → j < i → mem j ≠ 0

/-- What is read at the cursor: the numbers of the entry, and its string if it is accepted. -/
def EntryReads (pkg : StrAttrPkg) (c : StrCursor) (i : Nat) : Prop :=
  HasEntry pkg c ∧ ((c.iRead ≤ i ∧ i < c.iRead + sizeofStrAttrNodeClient) ∨
    (Accepts pkg c ∧ StrReads (turnHead c.mem c.iRead) (c.iRead + sizeofStrAttrNodeClient) i))

/-- The content is decoded to the entries that it was made of, both loops come to an end, and they
read the content only. -/
structure StrAttrsRight (pkg : StrAttrPkg) (mem : Nat → UInt8) : Prop where
  decoded : ∀ xs, bytesAt mem 0 pkg.m_wCmdContentLen = strAttrSendBuf xs →
    ∃ fuel, onRawDataClientStrAttr pkg fuel mem =
      some (true, (fittingStrAttrs 0 xs).map fun x => ⟨x.iStrAttrId.toUInt32.toNat,
        x.iStrVal.toUInt32.toNat, some x.szStrInfo⟩)
  ends : ∃ fuel, (onRawDataClientStrAttr pkg fuel mem).isSome ∧
    (dealCgiReportStrAttr pkg fuel mem).isSome
  inside : ∀ k c, cursorAt pkg ⟨mem, 0⟩ k = some c → ∀ i, EntryReads pkg c i → i < pkg.m_wCmdContentLen

/-- A `NUL` stands in the content behind the numbers of every entry that is accepted. -/
def StringsEnd (pkg : StrAttrPkg) (mem : Nat → UInt8) : Prop :=
  ∀ k c, cursorAt pkg ⟨mem, 0⟩ k = some c → HasEntry pkg c → Accepts pkg c →
    ∃ i, c.iRead + sizeofStrAttrNodeClient ≤ i ∧ i < pkg.m_wCmdContentLen ∧ c.mem i = 0

end Decode

section Turn

variable {mem : Nat → UInt8} {p r i n : Nat}

theorem bytesAt_four (mem : Nat → UInt8) (p : Nat) :
    bytesAt mem p 4 = [mem p, mem (p + 1), mem (p + 2), mem (p + 3)] := rfl

theorem ntohlAt_of_disjoint (h : i < p ∨ p + 4 ≤ i) : ntohlAt mem p i = mem i := by
  have hlen : (bytesAt mem p 4).reverse.length = 4 := by rw [List.length_reverse, length_bytesAt]
  rw [ntohlAt, writeAt, hlen, if_neg (by omega)]

theorem turnHead_of_disjoint (h : i < p ∨ p + 12 ≤ i) : turnHead mem p i = mem i := by
  rw [turnHead, ntohlAt_of_disjoint (by omega), ntohlAt_of_disjoint (by omega),
    ntohlAt_of_disjoint (by omega)]

theorem turnHead_length (hi : i < 4) : turnHead mem p (p + 8 + i) = mem (p + 8 + (3 - i)) := by
  have hrest (j : Nat) : ntohlAt (ntohlAt mem p) (p + 4) (p + 8 + j) = mem (p + 8 + j) := by
    rw [ntohlAt_of_disjoint (by omega), ntohlAt_of_disjoint (by omega)]
  have hlen : (bytesAt (ntohlAt (ntohlAt mem p) (p + 4)) (p + 8) 4).reverse.length = 4 := by
    rw [List.length_reverse, length_bytesAt]
  have hsub : p + 8 + i - (p + 8) = i := by omega
  rw [turnHead, ntohlAt, writeAt, hlen, if_pos (by omega), hsub, bytesAt_four, hrest 1, hrest 2,
    hrest 3]
  obtain rfl | rfl | rfl | rfl : i = 0 ∨ i = 1 ∨ i = 2 ∨ i = 3 := by omega
  · rfl
  · rfl
  · rfl
  · exact hrest 0

theorem stands_turnHead {bs : List UInt8} (h : Stands mem r bs) (hle : p + 12 ≤ r) :
    Stands (turnHead mem p) r bs := by
  have hsame : bytesAt (turnHead mem p) r bs.length = bytesAt mem r bs.length := by
    apply List.map_congr_left
    intro i _
    exact turnHead_of_disjoint (Or.inr (by omega))
  exact hsame.trans h

theorem netWord_eq (mem : Nat → UInt8) (p : Nat) :
    netWord mem p = (((mem p).toNat * 256 + (mem (p + 1)).toNat) * 256 + (mem (p + 2)).toNat) * 256 +
      (mem (p + 3)).toNat := by
  rw [netWord, bytesAt_four]
  simp [ofBytes]

theorem high_bytes (mem : Nat → UInt8) (p : Nat) (hneg : toSigned (netWord mem p) < 0)
    (hlow : -2 ^ 16 ≤ toSigned (netWord mem p)) : mem p = 255 ∧ mem (p + 1) = 255 := by
  rw [netWord_eq, toSigned] at hneg hlow
  have h0 := (mem p).toNat_lt
  have h1 := (mem (p + 1)).toNat_lt
  have h2 := (mem (p + 2)).toNat_lt
  have h3 := (mem (p + 3)).toNat_lt
  constructor
  · apply UInt8.toNat_inj.mp
    change _ = 255
    split at hneg <;> omega
  · apply UInt8.toNat_inj.mp
    change _ = 255
    split at hneg <;> omega

theorem toSigned_ones (h0 : mem p = 255) (h1 : mem (p + 1) = 255) (h2 : mem (p + 2) = 255)
    (h3 : mem (p + 3) = 255) : toSigned (netWord mem p) = -1 := by
  rw [netWord_eq, h0, h1, h2, h3]
  decide

end Turn

section Walk

variable {pkg : StrAttrPkg} {c c' : StrCursor} {mem : Nat → UInt8} {infos : List AttrInfo} {k : Nat}

theorem toSigned_bounds (mem : Nat → UInt8) (p : Nat) :
    -2 ^ 31 ≤ toSigned (netWord mem p) ∧ toSigned (netWord mem p) < 2 ^ 31 := by
  have hlt : netWord mem p < 2 ^ 32 := by
    have h := ofBytes_lt (bytesAt mem p 4)
    rw [length_bytesAt] at h
    exact h
  rw [toSigned]
  split
  · omega
  · omega

theorem accepts_iff (hc : c.iRead ≤ pkg.m_wCmdContentLen) :
    Accepts pkg c ↔ 0 ≤ (c.iRead : Int) + sizeofStrAttrNodeClient + c.iStrLen ∧
      (c.iRead : Int) + sizeofStrAttrNodeClient + c.iStrLen ≤ pkg.m_wCmdContentLen := by
  have hlen := pkg.len_lt
  have hbounds := toSigned_bounds c.mem (c.iRead + 8)
  have hstr : c.iStrLen = toSigned (netWord c.mem (c.iRead + 8)) := rfl
  have hsize : sizeofStrAttrNodeClient = 12 := rfl
  rw [Accepts, StrCursor.strEnd]
  omega

theorem strEnd_eq (hc : c.iRead ≤ pkg.m_wCmdContentLen) (h : Accepts pkg c) :
    (c.strEnd : Int) = (c.iRead : Int) + sizeofStrAttrNodeClient + c.iStrLen := by
  obtain ⟨hpos, hle⟩ := (accepts_iff hc).mp h
  have hlen := pkg.len_lt
  rw [StrCursor.strEnd]
  omega

theorem stepCursor_some (h : stepCursor pkg c = some c') :
    HasEntry pkg c ∧ Accepts pkg c ∧ c' = c.next := by
  rw [stepCursor] at h
  split at h
  · rename_i hgo
    exact ⟨hgo.1, hgo.2, (Option.some.inj h).symm⟩
  · cases h

theorem cursorAt_le (hc : c.iRead ≤ pkg.m_wCmdContentLen) (k : Nat)
    (h : cursorAt pkg c k = some c') : c'.iRead ≤ pkg.m_wCmdContentLen := by
  cases k with
  | zero =>
    obtain rfl : c = c' := Option.some.inj h
    exact hc
  | succ k =>
    obtain ⟨c₁, -, hstep⟩ := Option.bind_eq_some_iff.mp h
    obtain ⟨-, haccept, rfl⟩ := stepCursor_some hstep
    exact haccept

theorem cursorAt_succ (pkg : StrAttrPkg) (c : StrCursor) (k : Nat) :
    cursorAt pkg c (k + 1) = (stepCursor pkg c).bind fun c' => cursorAt pkg c' k := by
  induction k with
  | zero => cases h : stepCursor pkg c <;> simp [cursorAt, h]
  | succ k ih =>
    rw [cursorAt, ih]
    cases stepCursor pkg c with
    | none => rfl
    | some c' => rfl

theorem cursorAt_of_readStrAttrs (fuel : Nat) (h : readStrAttrs pkg fuel c infos = none) :
    (cursorAt pkg c fuel).isSome := by
  induction fuel generalizing c infos with
  | zero => rfl
  | succ fuel ih =>
    rw [readStrAttrs] at h
    split at h
    · rename_i hentry
      split at h
      · rename_i haccept
        rw [cursorAt_succ, stepCursor, if_pos ⟨hentry, haccept⟩]
        exact ih h
      · cases h
    · cases h

theorem next_spec (hc : c.iRead ≤ pkg.m_wCmdContentLen) (haccept : Accepts pkg c) :
    c.next.mem = turnHead c.mem c.iRead ∧
      (c.next.iRead : Int) = (c.iRead : Int) + 12 + toSigned (netWord c.mem (c.iRead + 8)) :=
  ⟨rfl, strEnd_eq hc haccept⟩

/-- The numbers of the entries of an endless run. -/
structure EndlessRun (pkg : StrAttrPkg) (c : Nat → StrCursor) : Prop where
  entry : ∀ k, HasEntry pkg (c k)
  mem : ∀ k, (c (k + 1)).mem = turnHead (c k).mem (c k).iRead
  iRead : ∀ k, ((c (k + 1)).iRead : Int) =
    ((c k).iRead : Int) + 12 + toSigned (netWord (c k).mem ((c k).iRead + 8))

theorem EndlessRun.ones {c : Nat → StrCursor} (h : EndlessRun pkg c) {p : Nat}
    (hback : (c (k + 1)).iRead ≤ p) (hnear : p ≤ (c k).iRead + 1) :
    toSigned (netWord (c k).mem ((c k).iRead + 8)) < -1 ∧
      (c k).mem ((c k).iRead + 8) = 255 ∧ (c k).mem ((c k).iRead + 8 + 1) = 255 := by
  have hgoes := h.iRead k
  have hplace : (c k).iRead + 12 ≤ pkg.m_wCmdContentLen := h.entry k
  have hlen := pkg.len_lt
  have hneg : toSigned (netWord (c k).mem ((c k).iRead + 8)) < -1 := by omega
  exact ⟨hneg, high_bytes _ _ (by omega) (by omega)⟩

theorem EndlessRun.false {c : Nat → StrCursor} (h : EndlessRun pkg c) : False := by
  have hle (k : Nat) : (c k).iRead ≤ pkg.m_wCmdContentLen := (Nat.le_add_right _ _).trans (h.entry k)
  obtain ⟨p, j, hmax, hrec⟩ := exists_recurring_max hle
  have hones (k : Nat) (hk : j ≤ k) (hnear : p ≤ (c k).iRead + 1) :=
    h.ones (hmax (k + 1) (Nat.le_succ_of_le hk)) hnear
  obtain ⟨k₀, hk₀, hp₀⟩ := hrec j
  have hturned (k : Nat) (hk : j ≤ k) (hp : (c k).iRead = p) :
      (c (k + 1)).mem (p + 10) = 255 ∧ (c (k + 1)).mem (p + 11) = 255 := by
    obtain ⟨-, hfirst, hsecond⟩ := hones k hk (by omega)
    rw [hp] at hfirst hsecond
    rw [h.mem, hp]
    exact ⟨(turnHead_length (i := 2) (by decide)).trans hsecond,
      (turnHead_length (i := 3) (by decide)).trans hfirst⟩
  have hlast (n : Nat) :
      (c (k₀ + 1 + n)).mem (p + 10) = 255 ∧ (c (k₀ + 1 + n)).mem (p + 11) = 255 := by
    induction n with
    | zero => exact hturned k₀ hk₀ hp₀
    | succ n ih =>
      have hk : j ≤ k₀ + 1 + n := by omega
      have hplace := hmax (k₀ + 1 + n) hk
      rw [← Nat.add_assoc]
      rcases Nat.lt_or_ge (c (k₀ + 1 + n)).iRead p with hlt | hge
      · rw [h.mem, turnHead_of_disjoint (i := p + 11) (by omega)]
        refine ⟨?_, ih.2⟩
        rcases Nat.lt_or_ge ((c (k₀ + 1 + n)).iRead + 1) p with hfar | hnear
        · rw [turnHead_of_disjoint (by omega)]
          exact ih.1
        · obtain ⟨-, hfirst, -⟩ := hones (k₀ + 1 + n) hk hnear
          have hp : p + 10 = (c (k₀ + 1 + n)).iRead + 8 + 3 := by omega
          rw [hp, turnHead_length (by decide)]
          exact hfirst
      · exact hturned (k₀ + 1 + n) hk (by omega)
  obtain ⟨k₁, hk₁, hp₁⟩ := hrec (k₀ + 1)
  obtain ⟨n, rfl⟩ := Nat.exists_eq_add_of_le hk₁
  obtain ⟨hneg, hfirst, hsecond⟩ := hones (k₀ + 1 + n) (by omega) (by omega)
  rw [hp₁] at hneg hfirst hsecond
  have hminus := toSigned_ones hfirst hsecond (hlast n).1 (hlast n).2
  omega

theorem cursorAt_ends (pkg : StrAttrPkg) (mem : Nat → UInt8) :
    ∃ k, cursorAt pkg ⟨mem, 0⟩ k = none := by
  by_contra hnever
  have hall : ∀ k, ∃ c, cursorAt pkg ⟨mem, 0⟩ k = some c := fun k =>
    Option.ne_none_iff_exists'.mp fun hnone => hnever ⟨k, hnone⟩
  choose c hc using hall
  have hstep (k : Nat) : HasEntry pkg (c k) ∧ Accepts pkg (c k) ∧ c (k + 1) = (c k).next := by
    have hnext := hc (k + 1)
    rw [cursorAt, hc k, Option.bind_some] at hnext
    exact stepCursor_some hnext
  have hspec (k : Nat) := next_spec (cursorAt_le (Nat.zero_le _) k (hc k)) (hstep k).2.1
  have hrun : EndlessRun pkg c := {
    entry := fun k => (hstep k).1
    mem := fun k => by rw [(hstep k).2.2, (hspec k).1]
    iRead := fun k => by rw [(hstep k).2.2, (hspec k).2] }
  exact hrun.false

theorem readStrAttrs_ends (pkg : StrAttrPkg) (mem : Nat → UInt8) :
    ∃ fuel, (readStrAttrs pkg fuel ⟨mem, 0⟩ []).isSome := by
  obtain ⟨k, hk⟩ := cursorAt_ends pkg mem
  refine ⟨k, Option.isSome_iff_ne_none.mpr fun hnone => ?_⟩
  have hsome := cursorAt_of_readStrAttrs k hnone
  rw [hk] at hsome
  cases hsome

end Walk

section RoundTrip

variable {pkg : StrAttrPkg} {mem : Nat → UInt8} {infos : List AttrInfo} {p : Nat}

/-- What the server makes of an entry. -/
def StrAttrNode.info (x : StrAttrNode) : AttrInfo :=
  ⟨x.iStrAttrId.toUInt32.toNat, x.iStrVal.toUInt32.toNat, some x.szStrInfo⟩

theorem StrAttrNode.length_bytes (x : StrAttrNode) :
    x.bytes.length = sizeofStrAttrNodeClient + (x.szStrInfo.length + 1) := by
  simp only [StrAttrNode.bytes, List.length_append, length_toBytes, List.length_singleton,
    sizeofStrAttrNodeClient]
  omega

/-- An entry that stands at the cursor is read as it was written, and the loop goes on behind it. -/
theorem readStrAttrs_entry (x : StrAttrNode) (hx : Stands mem p x.bytes)
    (hend : p + x.bytes.length ≤ pkg.m_wCmdContentLen) (fuel : Nat) :
    readStrAttrs pkg (fuel + 1) ⟨mem, p⟩ infos =
      readStrAttrs pkg fuel ⟨turnHead mem p, p + x.bytes.length⟩ (infos ++ [x.info]) := by
  have hlen := pkg.len_lt
  have hsize := pkg.len_le
  have hbytes := x.length_bytes
  have hnode : sizeofStrAttrNodeClient = 12 := rfl
  obtain ⟨hid, hrest⟩ := stands_append.mp hx
  obtain ⟨hval, hrest⟩ := stands_append.mp hrest
  obtain ⟨hstrlen, hstr⟩ := stands_append.mp hrest
  simp only [length_toBytes, Nat.add_assoc] at hval hstrlen hstr
  have hword {q n : Nat} (h : Stands mem q (toBytes 4 n)) (hn : n < 256 ^ 4) : netWord mem q = n := by
    rw [Stands, length_toBytes] at h
    rw [netWord, h, ofBytes_toBytes_of_lt hn]
  have hlength : toSigned (netWord mem (p + 8)) = x.szStrInfo.length + 1 := by
    rw [hword hstrlen (by omega), toSigned, if_pos (by omega)]
    omega
  have hsum : (p : Int) + sizeofStrAttrNodeClient + toSigned (netWord mem (p + 8)) =
      (p + x.bytes.length : Nat) := by omega
  have hcursor : (StrCursor.mk mem p).iRead ≤ pkg.m_wCmdContentLen := by
    change p ≤ _
    omega
  have hentry : HasEntry pkg ⟨mem, p⟩ := by
    change p + sizeofStrAttrNodeClient ≤ _
    omega
  have haccept : Accepts pkg ⟨mem, p⟩ := by
    rw [accepts_iff hcursor]
    change 0 ≤ (p : Int) + sizeofStrAttrNodeClient + toSigned (netWord mem (p + 8)) ∧
      (p : Int) + sizeofStrAttrNodeClient + toSigned (netWord mem (p + 8)) ≤ _
    omega
  have hnext : (StrCursor.mk mem p).next = ⟨turnHead mem p, p + x.bytes.length⟩ := by
    have hstrEnd := strEnd_eq hcursor haccept
    change _ = (p : Int) + sizeofStrAttrNodeClient + toSigned (netWord mem (p + 8)) at hstrEnd
    rw [hsum] at hstrEnd
    rw [StrCursor.next, Int.ofNat_inj.mp hstrEnd]
  have hinfo : (StrCursor.mk mem p).info pkg = x.info := by
    have hstands : Stands (turnHead mem p) (p + 12) (x.szStrInfo ++ [0]) := stands_turnHead hstr le_rfl
    have htext : cstrAt (turnHead mem p) (p + 12) (pkg.size - (p + 12)) = x.szStrInfo :=
      cstrAt_eq x.ne_zero (by omega) hstands
    rw [StrCursor.info, StrAttrNode.info, hword hid x.iStrAttrId.toUInt32.toNat_lt,
      hword hval x.iStrVal.toUInt32.toNat_lt]
    exact congrArg (fun text => AttrInfo.mk _ _ (some text)) htext
  rw [readStrAttrs, if_pos hentry, if_pos haccept, hnext, hinfo]

theorem readStrAttrs_entries (xs : List StrAttrNode) (hxs : Stands mem p (xs.flatMap StrAttrNode.bytes))
    (hend : p + (xs.flatMap StrAttrNode.bytes).length = pkg.m_wCmdContentLen) :
    readStrAttrs pkg (xs.length + 1) ⟨mem, p⟩ infos = some (true, infos ++ xs.map StrAttrNode.info) := by
  induction xs generalizing mem p infos with
  | nil =>
    have hdone : ¬ HasEntry pkg ⟨mem, p⟩ := by
      intro h
      have hle : p + sizeofStrAttrNodeClient ≤ pkg.m_wCmdContentLen := h
      rw [← hend, List.flatMap_nil, List.length_nil] at hle
      exact absurd hle (by simp [sizeofStrAttrNodeClient])
    rw [List.length_nil, readStrAttrs, if_neg hdone, List.map_nil, List.append_nil]
  | cons x xs ih =>
    rw [List.flatMap_cons] at hxs hend
    rw [List.length_append] at hend
    obtain ⟨hx, hrest⟩ := stands_append.mp hxs
    have hbytes := x.length_bytes
    have hnode : sizeofStrAttrNodeClient = 12 := rfl
    rw [List.length_cons, readStrAttrs_entry x hx (by omega)]
    rw [ih (stands_turnHead hrest (by omega)) (by omega), List.map_cons, List.append_assoc,
      List.singleton_append]

theorem reads_inside_iff {p n : Nat} :
    (∀ i, StrReads mem p i → i < n) ↔ ∃ i, p ≤ i ∧ i < n ∧ mem i = 0 := by
  constructor
  · intro h
    by_contra hnone
    have hreads : StrReads mem p (max p n) := by
      refine ⟨le_max_left p n, ?_⟩
      intro j hj hlt hzero
      rcases Nat.lt_or_ge j n with hjn | hnj
      · exact hnone ⟨j, hj, hjn, hzero⟩
      · omega
    have hlt := h _ hreads
    omega
  · rintro ⟨i, hpi, hin, hzero⟩ j ⟨-, hreads⟩
    by_contra hj
    exact hreads i hpi (by omega) hzero

end RoundTrip

section Main

variable (pkg : StrAttrPkg) (mem : Nat → UInt8)

theorem inside_iff :
    (∀ k c, cursorAt pkg ⟨mem, 0⟩ k = some c → ∀ i, EntryReads pkg c i → i < pkg.m_wCmdContentLen) ↔
      StringsEnd pkg mem := by
  have hturn (c : StrCursor) : (∃ i, c.iRead + sizeofStrAttrNodeClient ≤ i ∧ i < pkg.m_wCmdContentLen ∧
      turnHead c.mem c.iRead i = 0) ↔
      ∃ i, c.iRead + sizeofStrAttrNodeClient ≤ i ∧ i < pkg.m_wCmdContentLen ∧ c.mem i = 0 := by
    refine exists_congr fun i => and_congr_right fun hi => ?_
    have hsame : turnHead c.mem c.iRead i = c.mem i := turnHead_of_disjoint (Or.inr hi)
    rw [hsame]
  constructor
  · intro h k c hc hentry haccept
    rw [← hturn, ← reads_inside_iff]
    intro i hi
    exact h k c hc i ⟨hentry, Or.inr ⟨haccept, hi⟩⟩
  · rintro h k c hc i ⟨hentry, ⟨-, hhead⟩ | ⟨haccept, hreads⟩⟩
    · exact hhead.trans_le hentry
    · exact reads_inside_iff.mpr ((hturn c).mpr (h k c hc hentry haccept)) i hreads

/-- The loops do what they should exactly for the contents in which every string ends. -/
theorem strAttrs_right_iff : StrAttrsRight pkg mem ↔ StringsEnd pkg mem := by
  constructor
  · intro h
    exact (inside_iff pkg mem).mp h.inside
  · intro h
    refine ⟨?_, ?_, (inside_iff pkg mem).mpr h⟩
    · intro xs hxs
      have hlen := congrArg List.length hxs
      rw [length_bytesAt] at hlen
      have hstands : Stands mem 0 ((fittingStrAttrs 0 xs).flatMap StrAttrNode.bytes) := by
        rw [Stands, ← strAttrSendBuf, ← hlen]
        exact hxs
      refine ⟨_, readStrAttrs_entries (fittingStrAttrs 0 xs) hstands ?_⟩
      rw [Nat.zero_add]
      exact hlen.symm
    · obtain ⟨fuel, hfuel⟩ := readStrAttrs_ends pkg mem
      exact ⟨fuel, hfuel, hfuel⟩

/-- An entry without a string. -/
def bareEntry : StrAttrPkg := ⟨12, 12, Nat.le_of_ble_eq_true rfl, le_rfl⟩

/-- Of an entry of length zero at the end of the content, the byte behind the content is read. -/
theorem bareEntry_stray : ¬ StrAttrsRight bareEntry fun _ => 0 := by
  intro h
  have hlt := h.inside 0 ⟨fun _ => 0, 0⟩ rfl 12
    ⟨by decide, Or.inr ⟨by decide, le_rfl, fun j hj hlt => absurd hlt (Nat.not_lt.mpr hj)⟩⟩
  exact absurd hlt (by decide)

end Main

end XrkMonitor.Packet
