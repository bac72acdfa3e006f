import XrkMonitor.Library.Bytes

/-!
# Custom fields of a log

A log may carry six custom fields, and a flag byte tells which of them are set.
The client encodes the set fields with `MtReport_Save_LogCust`. The server reads
them in `WriteAppLogToShm` from the packet into a slot of its ring.

## Implementation notes

`sLog` is the memory from `pLog->sLog` on: the custom data, the log text behind
it, and whatever follows the log in the packet. The encoder writes to a buffer of
zeros, so what it has written is a list that grows.
-/

namespace XrkMonitor.ServerLog

open Library

def MTLOG_CUST_FLAG_C1_SET : UInt8 := 1
def MTLOG_CUST_FLAG_C2_SET : UInt8 := 2
def MTLOG_CUST_FLAG_C3_SET : UInt8 := 4
def MTLOG_CUST_FLAG_C4_SET : UInt8 := 8
def MTLOG_CUST_FLAG_C5_SET : UInt8 := 16
def MTLOG_CUST_FLAG_C6_SET : UInt8 := 32

/-- `IS_SET_BIT`. -/
def isSetBit (n b : UInt8) : Bool := n &&& b != 0

/-- The custom fields of `MTLogCust`, and those of a slot `TSLog`. -/
structure LogCust where
  bCustFlag : UInt8
  dwCust_1 : UInt32
  dwCust_2 : UInt32
  iCust_3 : Int32
  iCust_4 : Int32
  szCust_5 : CharBuf 16
  szCust_6 : CharBuf 32
deriving DecidableEq

/-- The custom fields after `memset`. -/
def LogCust.zero : LogCust := ⟨0, 0, 0, 0, 0, CharBuf.zero 16, CharBuf.zero 32⟩

section Encode

/-- A set number is written in network byte order. -/
def putWord (isSet : Bool) (x : UInt32) : List UInt8 := if isSet then toBytes 4 x.toNat else []

/-- A set string is written with its `NUL`. -/
def putStr {n : Nat} (isSet : Bool) (b : CharBuf n) : List UInt8 :=
  if isSet then b.str ++ [0] else []

/-- `MtReport_Save_LogCust`: the bytes that are saved. -/
def mtReportSaveLogCust (c : LogCust) : List UInt8 :=
  [c.bCustFlag] ++
    (putWord (isSetBit c.bCustFlag MTLOG_CUST_FLAG_C1_SET) c.dwCust_1 ++
    (putWord (isSetBit c.bCustFlag MTLOG_CUST_FLAG_C2_SET) c.dwCust_2 ++
    (putWord (isSetBit c.bCustFlag MTLOG_CUST_FLAG_C3_SET) c.iCust_3.toUInt32 ++
    (putWord (isSetBit c.bCustFlag MTLOG_CUST_FLAG_C4_SET) c.iCust_4.toUInt32 ++
    (putStr (isSetBit c.bCustFlag MTLOG_CUST_FLAG_C5_SET) c.szCust_5 ++
    putStr (isSetBit c.bCustFlag MTLOG_CUST_FLAG_C6_SET) c.szCust_6)))))

end Encode

section Decode

/-- The part of `LogInfo` that carries the custom data. -/
structure LogInfo where
  wCustDataLen : Nat
  sLog : Nat → UInt8

/-- A number field of the slot: its value, and where the next field is read. -/
def takeWord (isSet : Bool) (sLog : Nat → UInt8) (pCust : Nat) : UInt32 × Nat :=
  if isSet then (UInt32.ofNat (ofBytes (bytesAt sLog pCust 4)), pCust + 4) else (0, pCust)

/-- The custom data in `WriteAppLogToShm`. -/
def writeCust (pLog : LogInfo) (slot : LogCust) : LogCust :=
  if 0 < pLog.wCustDataLen then
    let bCustFlag := pLog.sLog 0
    let pCust := 1
    let (dwCust_1, pCust) := takeWord (isSetBit bCustFlag MTLOG_CUST_FLAG_C1_SET) pLog.sLog pCust
    let (dwCust_2, pCust) := takeWord (isSetBit bCustFlag MTLOG_CUST_FLAG_C2_SET) pLog.sLog pCust
    let (iCust_3, pCust) := takeWord (isSetBit bCustFlag MTLOG_CUST_FLAG_C3_SET) pLog.sLog pCust
    let (iCust_4, pCust) := takeWord (isSetBit bCustFlag MTLOG_CUST_FLAG_C4_SET) pLog.sLog pCust
    let (szCust_5, pCust) :=
      if !isSetBit bCustFlag MTLOG_CUST_FLAG_C5_SET then (slot.szCust_5.clear, pCust)
      else (CharBuf.strncpy 16 (cstrAt pLog.sLog pCust 15), pCust + 16 + 1)
    let szCust_6 :=
      if !isSetBit bCustFlag MTLOG_CUST_FLAG_C6_SET then slot.szCust_6.clear
      else CharBuf.strncpy 32 (cstrAt pLog.sLog pCust 31)
    ⟨bCustFlag, dwCust_1, dwCust_2, iCust_3.toInt32, iCust_4.toInt32, szCust_5, szCust_6⟩
  else slot

end Decode

section Property

/-- The flag byte and the six values, a field that is not set being zero or empty. -/
structure CustValues where
  bCustFlag : UInt8
  dwCust_1 : UInt32
  dwCust_2 : UInt32
  iCust_3 : Int32
  iCust_4 : Int32
  szCust_5 : List UInt8
  szCust_6 : List UInt8
deriving DecidableEq

/-- The values the client has set. -/
def LogCust.setValues (c : LogCust) : CustValues where
  bCustFlag := c.bCustFlag
  dwCust_1 := if isSetBit c.bCustFlag MTLOG_CUST_FLAG_C1_SET then c.dwCust_1 else 0
  dwCust_2 := if isSetBit c.bCustFlag MTLOG_CUST_FLAG_C2_SET then c.dwCust_2 else 0
  iCust_3 := if isSetBit c.bCustFlag MTLOG_CUST_FLAG_C3_SET then c.iCust_3 else 0
  iCust_4 := if isSetBit c.bCustFlag MTLOG_CUST_FLAG_C4_SET then c.iCust_4 else 0
  szCust_5 := if isSetBit c.bCustFlag MTLOG_CUST_FLAG_C5_SET then c.szCust_5.str else []
  szCust_6 := if isSetBit c.bCustFlag MTLOG_CUST_FLAG_C6_SET then c.szCust_6.str else []

/-- The values in a slot. -/
def LogCust.values (c : LogCust) : CustValues :=
  ⟨c.bCustFlag, c.dwCust_1, c.dwCust_2, c.iCust_3, c.iCust_4, c.szCust_5.str, c.szCust_6.str⟩

/-- The log carries what the client encoded, or no custom data. -/
def Carries (pLog : LogInfo) : Option LogCust → Prop
  | none => pLog.wCustDataLen = 0
  | some c => pLog.wCustDataLen = (mtReportSaveLogCust c).length ∧
      Stands pLog.sLog 0 (mtReportSaveLogCust c)

/-- The slot has the values of the client, or no flag. -/
def CustDelivered (slot : LogCust) : Option LogCust → Prop
  | none => slot.bCustFlag = 0
  | some c => slot.values = c.setValues

/-- Where the string of field 6 stands in the encoded data. -/
def cust6Pos (c : LogCust) : Nat :=
  (mtReportSaveLogCust c).length -
    (putStr (isSetBit c.bCustFlag MTLOG_CUST_FLAG_C6_SET) c.szCust_6).length

/-- Without custom data, the slot had no flag before. With custom data, not both strings are
set, or what stands behind field 6 as far as field 5 is shorter than its array reads as
field 6 once more. -/
def CustFits (pLog : LogInfo) (slot : LogCust) : Option LogCust → Prop
  | none => slot.bCustFlag = 0
  | some c =>
    isSetBit c.bCustFlag MTLOG_CUST_FLAG_C5_SET = true →
    isSetBit c.bCustFlag MTLOG_CUST_FLAG_C6_SET = true →
    cstrAt pLog.sLog (cust6Pos c + (16 - c.szCust_5.str.length)) 31 = c.szCust_6.str

end Property

section Pipeline

variable {sLog : Nat → UInt8} {pCust : Nat} {rest : List UInt8} {isSet : Bool}

theorem takeWord_putWord {x : UInt32} (h : Stands sLog pCust (putWord isSet x ++ rest)) :
    takeWord isSet sLog pCust = (if isSet then x else 0, pCust + (putWord isSet x).length) ∧
      Stands sLog (pCust + (putWord isSet x).length) rest := by
  obtain ⟨hword, hrest⟩ := stands_append.mp h
  refine ⟨?_, hrest⟩
  cases isSet with
  | false => simp [takeWord, putWord]
  | true =>
    have hbytes : bytesAt sLog pCust 4 = toBytes 4 x.toNat := by
      simpa [putWord, Stands] using hword
    have hlt : x.toNat < 256 ^ 4 := x.toNat_lt
    simp [takeWord, putWord, hbytes, ofBytes_toBytes_of_lt hlt]

theorem strncpy_putStr {n : Nat} {b : CharBuf n}
    (h : Stands sLog pCust (putStr true b ++ rest)) :
    (CharBuf.strncpy n (cstrAt sLog pCust (n - 1))).str = b.str := by
  obtain ⟨hstr, -⟩ := stands_append.mp h
  rw [cstrAt_eq b.str_ne_zero b.length_str_le hstr]
  exact CharBuf.str_strncpy b.str_ne_zero b.length_str_le

theorem str_strncpy_cstrAt (n p : Nat) :
    (CharBuf.strncpy n (cstrAt sLog p (n - 1))).str = cstrAt sLog p (n - 1) := by
  apply CharBuf.str_strncpy
  · exact ne_zero_of_mem_cstr
  · have := length_cstr_le (bytesAt sLog p (n - 1))
    rw [length_bytesAt] at this
    exact this

theorem takeStrs {b₅ : CharBuf 16} {b₆ : CharBuf 32} {isSet₅ isSet₆ : Bool} (slot : LogCust)
    (h : Stands sLog pCust (putStr isSet₅ b₅ ++ putStr isSet₆ b₆)) :
    let x := if !isSet₅ then (slot.szCust_5.clear, pCust)
      else (CharBuf.strncpy 16 (cstrAt sLog pCust 15), pCust + 16 + 1)
    x.1.str = (if isSet₅ then b₅.str else []) ∧
      (if !isSet₆ then slot.szCust_6.clear
        else CharBuf.strncpy 32 (cstrAt sLog x.2 31)).str =
        if isSet₆ then
          if isSet₅ then
            cstrAt sLog (pCust + (putStr isSet₅ b₅).length + (16 - b₅.str.length)) 31
          else b₆.str
        else [] := by
  have hlen := b₅.length_str_le
  cases isSet₅ with
  | false =>
    cases isSet₆ with
    | false => simp
    | true =>
      have hstand : Stands sLog pCust (putStr true b₆ ++ []) := by simpa [putStr] using h
      have hstr := strncpy_putStr hstand
      simpa using hstr
  | true =>
    have hstr := strncpy_putStr h
    have hshift : pCust + (putStr true b₅).length + (16 - b₅.str.length) = pCust + 16 + 1 := by
      simp only [putStr, if_true, List.length_append, List.length_singleton]
      omega
    rw [hshift]
    cases isSet₆ with
    | false => simpa using hstr
    | true =>
      constructor
      · simpa using hstr
      · simpa using str_strncpy_cstrAt 32 (pCust + 16 + 1)

theorem values_writeCust {pLog : LogInfo} {c : LogCust} (h : Carries pLog (some c))
    (slot : LogCust) :
    (writeCust pLog slot).values =
      { c.setValues with
        szCust_6 :=
          if isSetBit c.bCustFlag MTLOG_CUST_FLAG_C6_SET then
            if isSetBit c.bCustFlag MTLOG_CUST_FLAG_C5_SET then
              cstrAt pLog.sLog (cust6Pos c + (16 - c.szCust_5.str.length)) 31
            else c.szCust_6.str
          else [] } := by
  obtain ⟨hlen, hstands⟩ := h
  have hpos : 0 < pLog.wCustDataLen := by
    rw [hlen]
    simp [mtReportSaveLogCust]
  unfold mtReportSaveLogCust at hstands
  obtain ⟨hflag, h₁⟩ := stands_cons.mp hstands
  obtain ⟨hr₁, h₂⟩ := takeWord_putWord h₁
  obtain ⟨hr₂, h₃⟩ := takeWord_putWord h₂
  obtain ⟨hr₃, h₄⟩ := takeWord_putWord h₃
  obtain ⟨hr₄, h₅⟩ := takeWord_putWord h₄
  obtain ⟨hstr₅, hstr₆⟩ := takeStrs slot h₅
  have hpos₆ : ∀ n, cust6Pos c + n = 0 + 1 +
      (putWord (isSetBit c.bCustFlag MTLOG_CUST_FLAG_C1_SET) c.dwCust_1).length +
      (putWord (isSetBit c.bCustFlag MTLOG_CUST_FLAG_C2_SET) c.dwCust_2).length +
      (putWord (isSetBit c.bCustFlag MTLOG_CUST_FLAG_C3_SET) c.iCust_3.toUInt32).length +
      (putWord (isSetBit c.bCustFlag MTLOG_CUST_FLAG_C4_SET) c.iCust_4.toUInt32).length +
      (putStr (isSetBit c.bCustFlag MTLOG_CUST_FLAG_C5_SET) c.szCust_5).length + n := by
    intro n
    simp only [cust6Pos, mtReportSaveLogCust, List.length_append, List.length_singleton]
    omega
  rw [← hpos₆] at hstr₆
  simp only [writeCust, if_pos hpos, hflag, hr₁, hr₂, hr₃, hr₄, LogCust.values, LogCust.setValues,
    hstr₅, hstr₆, apply_ite UInt32.toInt32, Int32.toInt32_toUInt32]
  rfl

/-- A log delivers its custom data exactly when the slot had no flag and there is none, or the
data does not have both strings, or field 6 stands once more where the server looks for it. -/
theorem cust_delivered_iff (cust : Option LogCust) (pLog : LogInfo) (slot : LogCust)
    (h : Carries pLog cust) :
    CustDelivered (writeCust pLog slot) cust ↔ CustFits pLog slot cust := by
  cases cust with
  | none =>
    have hnone : ¬ 0 < pLog.wCustDataLen := by
      have : pLog.wCustDataLen = 0 := h
      omega
    simp only [writeCust, if_neg hnone]
    exact Iff.rfl
  | some c =>
    simp only [CustDelivered, values_writeCust h, CustFits, LogCust.setValues,
      CustValues.mk.injEq, true_and]
    cases isSetBit c.bCustFlag MTLOG_CUST_FLAG_C6_SET with
    | false => simp
    | true =>
      cases isSetBit c.bCustFlag MTLOG_CUST_FLAG_C5_SET with
      | false => simp
      | true => simp

instance (pLog : LogInfo) : ∀ cust, Decidable (Carries pLog cust)
  | none => inferInstanceAs (Decidable (_ = _))
  | some _ => inferInstanceAs (Decidable (_ ∧ _))

instance (slot : LogCust) : ∀ cust, Decidable (CustDelivered slot cust)
  | none => inferInstanceAs (Decidable (_ = _))
  | some _ => inferInstanceAs (Decidable (_ = _))

/-- A log with its custom data and the text `hi`. -/
def logWith (cust : List UInt8) : LogInfo := ⟨cust.length, fun i => (cust ++ [104, 105]).getD i 0⟩

/-- Field 1 and the string `ab` as field 5. -/
def numberAndString : LogCust :=
  { LogCust.zero with bCustFlag := 17, dwCust_1 := 305419896, szCust_5 := CharBuf.strncpy 16 [97, 98] }

/-- The strings `ab` and `cd` as fields 5 and 6. -/
def twoStrings : LogCust :=
  { LogCust.zero with
    bCustFlag := 48
    szCust_5 := CharBuf.strncpy 16 [97, 98]
    szCust_6 := CharBuf.strncpy 32 [99, 100] }

theorem cust_delivered_numberAndString :
    Carries (logWith (mtReportSaveLogCust numberAndString)) (some numberAndString) ∧
      CustDelivered (writeCust (logWith (mtReportSaveLogCust numberAndString)) twoStrings)
        (some numberAndString) := by
  have hlog : Carries (logWith (mtReportSaveLogCust numberAndString)) (some numberAndString) := by
    decide +kernel
  refine ⟨hlog, (cust_delivered_iff _ _ twoStrings hlog).mpr ?_⟩
  intro _ h₆
  exact absurd h₆ (by decide)

/-- Two strings in one log lose the second, and a log without custom data keeps the flag of
the log that was in the slot before. -/
theorem cust_lost :
    (Carries (logWith (mtReportSaveLogCust twoStrings)) (some twoStrings) ∧
      ¬ CustDelivered (writeCust (logWith (mtReportSaveLogCust twoStrings)) LogCust.zero)
        (some twoStrings)) ∧
      Carries (logWith []) none ∧
      ¬ CustDelivered (writeCust (logWith []) numberAndString) none := by
  decide +kernel

end Pipeline

end XrkMonitor.ServerLog
