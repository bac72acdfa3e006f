import XrkMonitor.Library.Bytes
import XrkMonitor.WarnAttr.Window

/-!
# Day records of attributes

At the end of a day the values of an attribute and a machine are put into one record:
an array with one number for each period if more than half of the periods have a
report, otherwise the indices and the values of those that have. The compact form is
made in the array itself, from front to back. The display reads a record of either
form, or one of the oldest form without a head.

## Implementation notes

Arrays are functions from indices, `wrote` is the list of indices at which the reader
has written its array, and `top` where its furthest read in the record has ended.
Memory goes on behind the record. The sums that the reader compares with the columns
of the table only go to the log and are left out.
-/

namespace XrkMonitor.AttrDay

open Library WarnAttr

def ATTR_DAY_BIN_TYPE_NONE : UInt8 := 0
def ATTR_DAY_BIN_TYPE_ARRAY_V2 : UInt8 := 1
def ATTR_DAY_BIN_TYPE_PRESS_V2 : UInt8 := 2

/-- `GetStaticTimeMaxIdxOfDay`. -/
def getStaticTimeMaxIdxOfDay (iStaticTime : Nat) : Nat :=
  1440 / iStaticTime + if 1440 % iStaticTime ≠ 0 then 1 else 0

section Save

/-- `htonl`: the number that the machine stores as the bytes of `x` in network order. -/
def htonl (x : UInt32) : UInt32 := UInt32.ofNat (ofBytes (nativeBytes 4 x.toNat))

/-- The bytes of the first entries of an array in memory. -/
def arrayBytes (arr : Nat → UInt32) (n : Nat) : List UInt8 :=
  (List.range n).flatMap fun k => nativeBytes 4 (arr k).toNat

/-- What `GetMonitorAttrMemcache` collects: the largest value, the last index and the values. -/
structure DayValues where
  dwMax : UInt32
  iMaxReportIdx : Int
  arrydwValue : Nat → UInt32

/-- A row of the attribute table: the time of the report and the value. -/
structure ReportRow where
  report_time : TimeInfo
  value : UInt32

/-- The loop of `GetMonitorAttrMemcache` after its first row has reset the array. -/
def addRow (iStaticTime : Nat) (d : DayValues) (row : ReportRow) : DayValues :=
  let i := getDayOfMin row.report_time iStaticTime
  let v := d.arrydwValue i + row.value
  { dwMax := if d.dwMax < v then v else d.dwMax
    iMaxReportIdx := if d.iMaxReportIdx < i then i else d.iMaxReportIdx
    arrydwValue := Function.update d.arrydwValue i v }

/-- `GetMonitorAttrMemcache`; without rows the array is as it was. -/
def getMonitorAttrMemcache (iStaticTime : Nat) (old : Nat → UInt32) (rows : List ReportRow) : DayValues :=
  match rows with
  | [] => ⟨0, -1, old⟩
  | row :: rows => (row :: rows).foldl (addRow iStaticTime) ⟨row.value, -1, fun _ => 0⟩

/-- The array form: all periods in network order. -/
def toNet (n : Nat) (arr : Nat → UInt32) : Nat → UInt32 :=
  (List.range n).foldl (fun arr k => if 0 < arr k then Function.update arr k (htonl (arr k)) else arr) arr

/-- One round of the compaction: the indices so far and the array. -/
def pressStep (s : List Nat × (Nat → UInt32)) (k : Nat) : List Nat × (Nat → UInt32) :=
  if s.2 k ≠ 0 then (s.1 ++ [k], Function.update s.2 s.1.length (htonl (s.2 k))) else s

/-- The compaction of the first `n` entries. -/
def press (n : Nat) (arr : Nat → UInt32) : List Nat × (Nat → UInt32) :=
  (List.range n).foldl pressStep ([], arr)

/-- The number of entries that are not zero among the first `n`. -/
def countIdx (n : Nat) (arr : Nat → UInt32) : Nat :=
  (List.range n).foldl (fun c k => if arr k ≠ 0 then c + 1 else c) 0

/-- The record that `ChangeAttrSaveType` makes of the values of a day, if it makes one. -/
def changeAttrSaveType (iStaticTime : Nat) (d : DayValues) : Option (List UInt8) :=
  let iMaxAttrCountIdx := getStaticTimeMaxIdxOfDay iStaticTime
  if d.dwMax = 0 ∨ d.iMaxReportIdx < 0 ∨ (COUNT_STATIC_TIMES_PER_DAY : Int) ≤ d.iMaxReportIdx ∨
      (iMaxAttrCountIdx : Int) ≤ d.iMaxReportIdx then none
  else
    let n := d.iMaxReportIdx.toNat + 1
    if iMaxAttrCountIdx < countIdx n d.arrydwValue * 2 then
      some (ATTR_DAY_BIN_TYPE_ARRAY_V2 :: (toBytes 2 iStaticTime ++
        arrayBytes (toNet iMaxAttrCountIdx d.arrydwValue) iMaxAttrCountIdx))
    else
      let p := press n d.arrydwValue
      if 0 < p.1.length then
        some (ATTR_DAY_BIN_TYPE_PRESS_V2 :: (toBytes 2 iStaticTime ++ (toBytes 2 p.1.length ++
          (p.1.flatMap (toBytes 2) ++ arrayBytes p.2 p.1.length))))
      else
        some (ATTR_DAY_BIN_TYPE_ARRAY_V2 :: (toBytes 2 iStaticTime ++
          arrayBytes p.2 iMaxAttrCountIdx))

end Save

section Read

/-- `GetAttrIdxData`; a data type without a name of its own is `none`. -/
def getAttrIdxData (dwCur dwNew : UInt32) (iAttrDataType : Option AttrDataType) : UInt32 :=
  if dwCur = 0 then dwNew
  else
    match iAttrDataType with
    | some .SUM_REPORT_MIN => if dwCur < dwNew then dwCur else dwNew
    | some .SUM_REPORT_TOTAL => if dwNew < dwCur then dwCur else dwNew
    | some .SUM_REPORT_MAX => if dwNew < dwCur then dwCur else dwNew
    | some .DATA_USE_LAST => dwNew
    | _ => dwCur + dwNew

/-- The reader of a record: where its reads have ended, its array and the indices it has written. -/
structure DayRead where
  top : Nat
  iReport : Nat → UInt32
  wrote : List Nat

/-- The reader has read up to an address. -/
def DayRead.read (r : DayRead) (p : Nat) : DayRead := { r with top := max r.top p }

/-- How the head of the record is understood: the place and the number of the values, the place of
the indices if there are any, the largest index, and whether it is the oldest form. -/
structure Layout where
  pattrIdx : Option Nat
  pattrVal : Nat
  iCoundIdx : Nat
  iMaxAttrCountIdx : Nat
  oldest : Bool

/-- The number of two bytes at an address, in network byte order. -/
def ntohsAt (mem : Nat → UInt8) (p : Nat) : Nat := ofBytes (bytesAt mem p 2)

/-- The head of the record, and up to where it is read. -/
def readHead (mem : Nat → UInt8) (ulValLen : Nat) : Nat × Option Layout :=
  let oldest := if ulValLen = 4 * 1440 then some ⟨none, 0, 1440, 1440, true⟩ else none
  if mem 0 = ATTR_DAY_BIN_TYPE_ARRAY_V2 then
    let n := getStaticTimeMaxIdxOfDay (ntohsAt mem 1)
    if isValidStaticTime (ntohsAt mem 1) ∧ ulValLen = 3 + n * 4 then (3, some ⟨none, 3, n, n, false⟩)
    else (3, oldest)
  else if mem 0 = ATTR_DAY_BIN_TYPE_PRESS_V2 then
    if isValidStaticTime (ntohsAt mem 1) then
      let n := ntohsAt mem 3
      if ulValLen = 5 + n * (2 + 4) then
        (5, some ⟨some 5, 5 + 2 * n, n, getStaticTimeMaxIdxOfDay (ntohsAt mem 1), false⟩)
      else (5, oldest)
    else (3, oldest)
  else (1, oldest)

/-- The index of a value: from the record, or its own. -/
def Layout.attrDbIdx (l : Layout) (mem : Nat → UInt8) (i : Nat) : Nat :=
  match l.pattrIdx with
  | some p => ntohsAt mem (p + 2 * i)
  | none => i

/-- Up to where the index of a value is read. -/
def Layout.idxEnd (l : Layout) (i : Nat) : Nat :=
  match l.pattrIdx with
  | some p => p + 2 * i + 2
  | none => 0

/-- The new value at the index of a value. -/
def Layout.newVal (l : Layout) (mem : Nat → UInt8) (iAttrDataType : Option AttrDataType) (dwCur : UInt32)
    (i : Nat) : UInt32 :=
  if l.oldest then dwCur + UInt32.ofNat (wordAt mem (l.pattrVal + 4 * i) 4)
  else getAttrIdxData dwCur (UInt32.ofNat (ofBytes (bytesAt mem (l.pattrVal + 4 * i) 4))) iAttrDataType

/-- One round of the loop over the values. -/
def readValue (mem : Nat → UInt8) (iAttrDataType : Option AttrDataType) (l : Layout) (r : DayRead)
    (i : Nat) : DayRead :=
  let attr_db_idx := l.attrDbIdx mem i
  if l.pattrIdx.isSome ∧ l.iMaxAttrCountIdx < attr_db_idx then r.read (l.idxEnd i)
  else
    { (r.read (l.idxEnd i)).read (l.pattrVal + 4 * i + 4) with
      iReport := Function.update r.iReport attr_db_idx
        (l.newVal mem iAttrDataType (r.iReport attr_db_idx) i)
      wrote := r.wrote ++ [attr_db_idx] }

/-- The history branch of `GetAttrDayVal` for the record of one machine. -/
def getAttrDayVal (mem : Nat → UInt8) (ulValLen : Nat) (iAttrDataType : Option AttrDataType) : DayRead :=
  let r : DayRead := ⟨(readHead mem ulValLen).1, fun _ => 0, []⟩
  match (readHead mem ulValLen).2 with
  | none => r
  | some l => (List.range l.iCoundIdx).foldl (readValue mem iAttrDataType l) r

end Read

section Spec

/-- The reader stays in the record and in its array. -/
def ReadSafe (mem : Nat → UInt8) (ulValLen : Nat) (iAttrDataType : Option AttrDataType) : Prop :=
  (getAttrDayVal mem ulValLen iAttrDataType).top ≤ ulValLen ∧
    ∀ i ∈ (getAttrDayVal mem ulValLen iAttrDataType).wrote, i < COUNT_STATIC_TIMES_PER_DAY

/-- The record has the head that its type byte announces, and no index behind the last period of a
day with periods of one minute. -/
structure RecordOk (mem : Nat → UInt8) (ulValLen : Nat) : Prop where
  typed : 1 ≤ ulValLen
  array : mem 0 = ATTR_DAY_BIN_TYPE_ARRAY_V2 → 3 ≤ ulValLen
  press : mem 0 = ATTR_DAY_BIN_TYPE_PRESS_V2 → 3 ≤ ulValLen
  count : mem 0 = ATTR_DAY_BIN_TYPE_PRESS_V2 → isValidStaticTime (ntohsAt mem 1) = true → 5 ≤ ulValLen
  index : mem 0 = ATTR_DAY_BIN_TYPE_PRESS_V2 → ntohsAt mem 1 = 1 →
    ulValLen = 5 + ntohsAt mem 3 * 6 → ∀ i < ntohsAt mem 3, ntohsAt mem (5 + 2 * i) ≠ 1440

end Spec

end XrkMonitor.AttrDay
