import XrkMonitor.Library.Bytes

/-!
# A log record in a packet

The agent sends the logs of an app one behind the other. Each starts with the
packed struct `LogInfo` in network byte order, and its custom data and its text
follow.

## Implementation notes

The fields of the struct are read in their order, so a reader hands on the
bytes behind the field it has taken.
-/

namespace XrkMonitor.LogBatch

open Library

/-- `sizeof(LogInfo)`. -/
def logInfoSize : Nat := 30

/-- The fields of `LogInfo` in front of the two lengths. -/
structure LogHead where
  dwLogSeq : UInt32
  iAppId : Int32
  iModuleId : Int32
  dwLogConfigId : UInt32
  wLogType : UInt16
  qwLogTime : UInt64
deriving DecidableEq

/-- One record: the fields, the custom data and what stands for the text. -/
structure LogRecord where
  head : LogHead
  cust : List UInt8
  content : List UInt8
deriving DecidableEq

/-- A log as it was written: its text is a string without `NUL`. -/
structure AppLog where
  head : LogHead
  cust : List UInt8
  text : List UInt8
deriving DecidableEq

/-- The log that a record stands for. -/
def LogRecord.appLog (r : LogRecord) : AppLog := ⟨r.head, r.cust, cstr r.content⟩

/-- The first six fields of `LogInfo`. -/
def headBytes (h : LogHead) : List UInt8 :=
  toBytes 4 h.dwLogSeq.toNat ++ (toBytes 4 h.iAppId.toUInt32.toNat ++
    (toBytes 4 h.iModuleId.toUInt32.toNat ++ (toBytes 4 h.dwLogConfigId.toNat ++
      (toBytes 2 h.wLogType.toNat ++ toBytes 8 h.qwLogTime.toNat))))

/-- The bytes of a record. -/
def LogRecord.bytes (r : LogRecord) : List UInt8 :=
  headBytes r.head ++ (toBytes 2 r.cust.length ++ (toBytes 2 r.content.length ++
    (r.cust ++ r.content)))

/-- A field of `k` bytes and the bytes behind it. -/
def takeField (k : Nat) (bs : List UInt8) : Nat × List UInt8 := (ofBytes (bs.take k), bs.drop k)

/-- `LogInfoNtoH`: the fields, `wCustDataLen` and `wLogDataLen`. -/
def logInfoNtoH (bs : List UInt8) : LogHead × Nat × Nat :=
  let (dwLogSeq, bs) := takeField 4 bs
  let (iAppId, bs) := takeField 4 bs
  let (iModuleId, bs) := takeField 4 bs
  let (dwLogConfigId, bs) := takeField 4 bs
  let (wLogType, bs) := takeField 2 bs
  let (qwLogTime, bs) := takeField 8 bs
  let (wCustDataLen, bs) := takeField 2 bs
  let (wLogDataLen, _) := takeField 2 bs
  (⟨UInt32.ofNat dwLogSeq, (UInt32.ofNat iAppId).toInt32, (UInt32.ofNat iModuleId).toInt32,
    UInt32.ofNat dwLogConfigId, UInt16.ofNat wLogType, UInt64.ofNat qwLogTime⟩,
    wCustDataLen, wLogDataLen)

theorem takeField_toBytes {k n : Nat} (h : n < 256 ^ k) (rest : List UInt8) :
    takeField k (toBytes k n ++ rest) = (n, rest) := by
  have htake : (toBytes k n ++ rest).take k = toBytes k n := List.take_left' (length_toBytes k n)
  have hdrop : (toBytes k n ++ rest).drop k = rest := List.drop_left' (length_toBytes k n)
  rw [takeField, htake, hdrop, ofBytes_toBytes_of_lt h]

@[simp] theorem length_headBytes (h : LogHead) : (headBytes h).length = 26 := by
  simp [headBytes]

theorem LogRecord.length_bytes (r : LogRecord) :
    r.bytes.length = logInfoSize + r.cust.length + r.content.length := by
  simp only [bytes, List.length_append, length_headBytes, length_toBytes, logInfoSize]
  omega

theorem logInfoNtoH_bytes {r : LogRecord} (hcust : r.cust.length < 256 ^ 2)
    (hcontent : r.content.length < 256 ^ 2) :
    logInfoNtoH (r.bytes.take logInfoSize) = (r.head, r.cust.length, r.content.length) := by
  have hlast : ∀ {n : Nat}, n < 256 ^ 2 → takeField 2 (toBytes 2 n) = (n, []) := by
    intro n hn
    simpa using takeField_toBytes hn []
  have htake : r.bytes.take logInfoSize =
      headBytes r.head ++ (toBytes 2 r.cust.length ++ toBytes 2 r.content.length) := by
    have hsplit : r.bytes = (headBytes r.head ++ (toBytes 2 r.cust.length ++
        toBytes 2 r.content.length)) ++ (r.cust ++ r.content) := by
      simp [LogRecord.bytes]
    rw [hsplit]
    apply List.take_left'
    simp [logInfoSize]
  have h32 : ∀ x : UInt32, x.toNat < 256 ^ 4 := fun x => x.toNat_lt
  have h16 : ∀ x : UInt16, x.toNat < 256 ^ 2 := fun x => x.toNat_lt
  have h64 : ∀ x : UInt64, x.toNat < 256 ^ 8 := fun x => x.toNat_lt
  rw [htake, logInfoNtoH, headBytes]
  simp only [List.append_assoc, takeField_toBytes (h32 _), takeField_toBytes (h16 _),
    takeField_toBytes (h64 _), takeField_toBytes hcust, hlast hcontent, UInt32.ofNat_toNat,
    UInt16.ofNat_toNat, UInt64.ofNat_toNat, Int32.toInt32_toUInt32]

end XrkMonitor.LogBatch
