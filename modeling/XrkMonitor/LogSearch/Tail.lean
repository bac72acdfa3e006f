import Mathlib.Data.List.GetD
import XrkMonitor.Library.ResumedScan
import XrkMonitor.LogSearch.Search
import XrkMonitor.ServerRing.Steps

/-!
# The tail of the log ring

`RealTimeLog` walks the ring backwards from the newest log, or from where the last call
stopped, and gives the next log that matches. The walk ends at a log that is too old, at
an empty cell, or at a log that `IS_SEQ_BIGER` takes for one older than the last poll.

## Implementation notes

The ring is what writes one after another make of an empty one; a log comes with the text
that `GetShmLog` gives of its cell. Times are numbers of 64 bits and sequence numbers of 32
bits, as in the code. The calls of one poll are followed until one gives nothing.
-/

namespace XrkMonitor.LogSearch

open Library ServerLog

/-- `BWORLD_MAX_SHM_SLOG_COUNT`. -/
def BWORLD_MAX_SHM_SLOG_COUNT : Nat := 10000

/-- `m_qwRealTimeUsec`: five minutes. -/
def m_qwRealTimeUsec : UInt64 := 300000000

/-- The fields of a log in the ring, with its text. -/
structure RingLog where
  cust : LogCust
  dwLogConfigId : UInt32
  dwLogHost : UInt32
  iAppId : Int32
  iModuleId : Int32
  wLogType : UInt16
  qwLogTime : UInt64
  pszLog : List UInt8

/-- The ring of an app. -/
abbrev AppRing := ServerRing.TSLogShm RingLog

section Ring

/-- A log is written to the next cell. -/
def writeLog (shm : AppRing) (log : RingLog) : AppRing :=
  let (dwSeq, dwLogSeq) := ServerRing.takeSeq shm.dwLogSeq
  { shm with
    iWriteIndex := ringNext shm.iLogMaxCount shm.iWriteIndex
    dwLogSeq := dwLogSeq
    sLogList := Function.update shm.sLogList shm.iWriteIndex ⟨dwSeq, log⟩ }

/-- A log with nothing in it. -/
def RingLog.zero : RingLog := ⟨LogCust.zero, 0, 0, 0, 0, 0, 0, []⟩

/-- The empty ring. -/
def newRing (iLogMaxCount dwLogSeq : Nat) : AppRing :=
  ⟨iLogMaxCount, -1, 0, dwLogSeq, fun _ => ⟨0, RingLog.zero⟩⟩

/-- The ring after some logs were written. -/
def ringOf (iLogMaxCount dwLogSeq : Nat) (logs : List RingLog) : AppRing :=
  logs.foldl writeLog (newRing iLogMaxCount dwLogSeq)

end Ring

section Walk

/-- `IS_SEQ_BIGER`. -/
def isSeqBiger (seq1 seq2 : Nat) : Bool :=
  decide (seq2 < seq1) || decide ((seq1 + BWORLD_MAX_SHM_SLOG_COUNT) % 2 ^ 32 < seq2)

/-- The walk ends at this cell. -/
def tailEnds (seq : Nat) (qwTimeNow : UInt64) (cell : ServerRing.TSLog RingLog) : Bool :=
  decide (cell.fields.qwLogTime + m_qwRealTimeUsec < qwTimeNow) || cell.dwLogSeq == 0 ||
    (isSeqBiger seq cell.dwLogSeq && seq != 0)

/-- The custom fields that go to the output record: those that are set. -/
def flaggedCust (c : LogCust) : LogCust :=
  { LogCust.zero with
    dwCust_1 := if isSetBit c.bCustFlag MTLOG_CUST_FLAG_C1_SET then c.dwCust_1 else 0
    dwCust_2 := if isSetBit c.bCustFlag MTLOG_CUST_FLAG_C2_SET then c.dwCust_2 else 0
    iCust_3 := if isSetBit c.bCustFlag MTLOG_CUST_FLAG_C3_SET then c.iCust_3 else 0
    iCust_4 := if isSetBit c.bCustFlag MTLOG_CUST_FLAG_C4_SET then c.iCust_4 else 0
    szCust_5 :=
      if isSetBit c.bCustFlag MTLOG_CUST_FLAG_C5_SET then CharBuf.strncpy 16 c.szCust_5.str
      else CharBuf.zero 16
    szCust_6 :=
      if isSetBit c.bCustFlag MTLOG_CUST_FLAG_C6_SET then CharBuf.strncpy 32 c.szCust_6.str
      else CharBuf.zero 32 }

/-- The output record of a cell. -/
def tailOut (cell : ServerRing.TSLog RingLog) : TSLogOut where
  cust := flaggedCust cell.fields.cust
  dwLogConfigId := cell.fields.dwLogConfigId
  dwLogHost := cell.fields.dwLogHost
  dwLogSeq := UInt32.ofNat cell.dwLogSeq
  iAppId := cell.fields.iAppId
  iModuleId := cell.fields.iModuleId
  wLogType := cell.fields.wLogType
  qwLogTime := cell.fields.qwLogTime
  pszLog := cell.fields.pszLog

/-- The log of a cell matches the search. -/
def tailMatch (s : CSLogSearch) (cell : ServerRing.TSLog RingLog) : Bool :=
  isIdMatch s (tailOut cell) && isTextMatch s (tailOut cell) cell.fields.pszLog

/-- The loop of `RealTimeLog` from cell `j` back, with `n` rounds to go: the cell of the next log
that matches, and its output. -/
def tailLoop (s : CSLogSearch) (shm : AppRing) (seq : Nat) (qwTimeNow : UInt64) :
    Nat → Nat → Option (Nat × TSLogOut)
  | 0, _ => none
  | n + 1, j =>
    let j := ringPrev shm.iLogMaxCount j
    if tailEnds seq qwTimeNow (shm.sLogList j) then none
    else if tailMatch s (shm.sLogList j) then some (j, tailOut (shm.sLogList j))
    else tailLoop s shm seq qwTimeNow n j

/-- `RealTimeLog`: the new `iLastLogIndex`, and the log. -/
def realTimeLog (s : CSLogSearch) (shm : AppRing) (iLastLogIndex : Int) (seq : Nat)
    (qwTimeNow : UInt64) : Option (Nat × TSLogOut) :=
  tailLoop s shm seq qwTimeNow shm.iLogMaxCount
    (if iLastLogIndex < 0 then shm.iWriteIndex else iLastLogIndex.toNat)

/-- The results of successive calls until one gives none, as far as `n` calls go. -/
def realTimeLogs (s : CSLogSearch) (shm : AppRing) (seq : Nat) (qwTimeNow : UInt64) :
    Nat → Int → Option (List TSLogOut)
  | 0, _ => none
  | n + 1, iLastLogIndex =>
    match realTimeLog s shm iLastLogIndex seq qwTimeNow with
    | none => some []
    | some (j, o) => (realTimeLogs s shm seq qwTimeNow n j).map (o :: ·)

end Walk

section Wanted

/-- The sequence number of log `k`, when the counter starts at `dwLogSeq`. -/
def seqAt (dwLogSeq k : Nat) : Nat := (max dwLogSeq 1 - 1 + k) % (2 ^ 32 - 1) + 1

/-- The cell of the log that was written `i` logs before the newest one. -/
def agedCell (dwLogSeq : Nat) (logs : List RingLog) (i : Nat) : ServerRing.TSLog RingLog :=
  ⟨seqAt dwLogSeq (logs.length - 1 - i), logs.getD (logs.length - 1 - i) RingLog.zero⟩

/-- The number of logs in the ring. -/
def ringCount (iLogMaxCount : Nat) (logs : List RingLog) : Nat := min logs.length iLogMaxCount

/-- Log `i` is not older than the log with number `seq`: no newer one has that number. -/
def NotOlder (dwLogSeq : Nat) (logs : List RingLog) (seq i : Nat) : Prop :=
  seq = 0 ∨ ∀ i' < i, (agedCell dwLogSeq logs i').dwLogSeq ≠ seq

instance (dwLogSeq : Nat) (logs : List RingLog) (seq i : Nat) :
    Decidable (NotOlder dwLogSeq logs seq i) :=
  inferInstanceAs (Decidable (_ ∨ ∀ i' < i, _))

/-- A log is not too old for the tail. -/
def Fresh (qwTimeNow : UInt64) (cell : ServerRing.TSLog RingLog) : Prop :=
  qwTimeNow.toNat ≤ cell.fields.qwLogTime.toNat + m_qwRealTimeUsec.toNat

/-- A log is not too far ahead of the clock. -/
def NotAhead (qwTimeNow : UInt64) (cell : ServerRing.TSLog RingLog) : Prop :=
  cell.fields.qwLogTime.toNat ≤ qwTimeNow.toNat + m_qwRealTimeUsec.toNat

instance (qwTimeNow : UInt64) (cell : ServerRing.TSLog RingLog) :
    Decidable (Fresh qwTimeNow cell) :=
  inferInstanceAs (Decidable (_ ≤ _))

instance (qwTimeNow : UInt64) (cell : ServerRing.TSLog RingLog) :
    Decidable (NotAhead qwTimeNow cell) :=
  inferInstanceAs (Decidable (_ ≤ _))

/-- Log `i` matches, is not too old and not older than `seq`. -/
def Shown (s : CSLogSearch) (dwLogSeq : Nat) (logs : List RingLog) (seq : Nat)
    (qwTimeNow : UInt64) (i : Nat) : Prop :=
  tailMatch s (agedCell dwLogSeq logs i) = true ∧ Fresh qwTimeNow (agedCell dwLogSeq logs i) ∧
    NotOlder dwLogSeq logs seq i

/-- Log `i` matches, is not older than `seq`, and its time is near the clock. -/
def Wanted (s : CSLogSearch) (dwLogSeq : Nat) (logs : List RingLog) (seq : Nat)
    (qwTimeNow : UInt64) (i : Nat) : Prop :=
  Shown s dwLogSeq logs seq qwTimeNow i ∧ NotAhead qwTimeNow (agedCell dwLogSeq logs i)

instance (s : CSLogSearch) (dwLogSeq : Nat) (logs : List RingLog) (seq : Nat)
    (qwTimeNow : UInt64) (i : Nat) : Decidable (Shown s dwLogSeq logs seq qwTimeNow i) :=
  inferInstanceAs (Decidable (_ ∧ _ ∧ _))

instance (s : CSLogSearch) (dwLogSeq : Nat) (logs : List RingLog) (seq : Nat)
    (qwTimeNow : UInt64) (i : Nat) : Decidable (Wanted s dwLogSeq logs seq qwTimeNow i) :=
  inferInstanceAs (Decidable (_ ∧ _))

/-- The wanted logs of the ring, the newest first. -/
def wantedLogs (s : CSLogSearch) (iLogMaxCount dwLogSeq : Nat) (logs : List RingLog) (seq : Nat)
    (qwTimeNow : UInt64) : List TSLogOut :=
  ((List.range (ringCount iLogMaxCount logs)).filter
    (Wanted s dwLogSeq logs seq qwTimeNow ·)).map fun i => tailOut (agedCell dwLogSeq logs i)

/-- The calls of a poll give the wanted logs and then nothing. -/
def TailRight (s : CSLogSearch) (iLogMaxCount dwLogSeq : Nat) (logs : List RingLog) (seq : Nat)
    (qwTimeNow : UInt64) : Prop :=
  ∃ n, realTimeLogs s (ringOf iLogMaxCount dwLogSeq logs) seq qwTimeNow n (-1) =
    some (wantedLogs s iLogMaxCount dwLogSeq logs seq qwTimeNow)

/-- The number of the newest log is one of the `BWORLD_MAX_SHM_SLOG_COUNT` from `seq` on, and none of
these leaves 32 bits. -/
def SeqNear (dwLogSeq : Nat) (logs : List RingLog) (seq : Nat) : Prop :=
  seq = 0 ∨ logs = [] ∨
    (seq ≤ (agedCell dwLogSeq logs 0).dwLogSeq ∧
      (agedCell dwLogSeq logs 0).dwLogSeq ≤ seq + BWORLD_MAX_SHM_SLOG_COUNT ∧
      seq + BWORLD_MAX_SHM_SLOG_COUNT < 2 ^ 32)

/-- The ring was never full, or its oldest log is too old or older than `seq`. -/
def TailStops (iLogMaxCount dwLogSeq : Nat) (logs : List RingLog) (seq : Nat)
    (qwTimeNow : UInt64) : Prop :=
  logs.length < iLogMaxCount ∨
    ¬ (Fresh qwTimeNow (agedCell dwLogSeq logs (iLogMaxCount - 1)) ∧
      NotOlder dwLogSeq logs seq (iLogMaxCount - 1))

instance (dwLogSeq : Nat) (logs : List RingLog) (seq : Nat) :
    Decidable (SeqNear dwLogSeq logs seq) :=
  haveI : Decidable (logs = []) := decidable_of_iff (logs.isEmpty = true) List.isEmpty_iff
  inferInstanceAs (Decidable (_ ∨ _ ∨ (_ ∧ _ ∧ _)))

instance (iLogMaxCount dwLogSeq : Nat) (logs : List RingLog) (seq : Nat) (qwTimeNow : UInt64) :
    Decidable (TailStops iLogMaxCount dwLogSeq logs seq qwTimeNow) :=
  inferInstanceAs (Decidable (_ ∨ ¬ (_ ∧ _)))

/-- The condition on a poll: with a near `seq` no log that is shown is ahead of the clock, and where
one is shown the walk stops; else no log is wanted. -/
def TailOk (s : CSLogSearch) (iLogMaxCount dwLogSeq : Nat) (logs : List RingLog) (seq : Nat)
    (qwTimeNow : UInt64) : Prop :=
  if SeqNear dwLogSeq logs seq then
    (∀ i < ringCount iLogMaxCount logs, Shown s dwLogSeq logs seq qwTimeNow i →
      NotAhead qwTimeNow (agedCell dwLogSeq logs i)) ∧
    ((∀ i < ringCount iLogMaxCount logs, ¬ Shown s dwLogSeq logs seq qwTimeNow i) ∨
      TailStops iLogMaxCount dwLogSeq logs seq qwTimeNow)
  else ∀ i < ringCount iLogMaxCount logs, ¬ Wanted s dwLogSeq logs seq qwTimeNow i

instance (s : CSLogSearch) (iLogMaxCount dwLogSeq : Nat) (logs : List RingLog) (seq : Nat)
    (qwTimeNow : UInt64) : Decidable (TailOk s iLogMaxCount dwLogSeq logs seq qwTimeNow) :=
  inferInstanceAs (Decidable (if SeqNear dwLogSeq logs seq then
    (∀ i < ringCount iLogMaxCount logs, Shown s dwLogSeq logs seq qwTimeNow i →
      NotAhead qwTimeNow (agedCell dwLogSeq logs i)) ∧
    ((∀ i < ringCount iLogMaxCount logs, ¬ Shown s dwLogSeq logs seq qwTimeNow i) ∨
      TailStops iLogMaxCount dwLogSeq logs seq qwTimeNow)
    else ∀ i < ringCount iLogMaxCount logs, ¬ Wanted s dwLogSeq logs seq qwTimeNow i))

end Wanted

section Ring

variable {N d : Nat}

theorem seqAt_pos (dwLogSeq k : Nat) : 0 < seqAt dwLogSeq k := Nat.succ_pos _

theorem seqAt_lt (dwLogSeq k : Nat) : seqAt dwLogSeq k < 2 ^ 32 := by
  have hlt : (max dwLogSeq 1 - 1 + k) % (2 ^ 32 - 1) < 2 ^ 32 - 1 := Nat.mod_lt _ (by decide)
  rw [seqAt]
  omega

theorem takeSeq_spec (hd : d < 2 ^ 32) :
    (ServerRing.takeSeq d).1 = seqAt d 0 ∧ (ServerRing.takeSeq d).2 < 2 ^ 32 ∧
      ∀ k, seqAt (ServerRing.takeSeq d).2 k = seqAt d (k + 1) := by
  rw [ServerRing.takeSeq]
  by_cases hzero : d = 0
  · subst hzero
    refine ⟨rfl, by decide, ?_⟩
    intro k
    change (2 - 1 + k) % (2 ^ 32 - 1) + 1 = (0 + (k + 1)) % (2 ^ 32 - 1) + 1
    rw [Nat.zero_add, Nat.add_comm k 1]
  · rw [if_neg hzero]
    have hinc : wordInc 32 d = (d + 1) % 2 ^ 32 := rfl
    refine ⟨?_, ?_, ?_⟩
    · rw [seqAt, Nat.max_eq_left (by omega), Nat.add_zero, Nat.mod_eq_of_lt (by omega)]
      omega
    · rw [hinc]
      exact Nat.mod_lt _ (by decide)
    · intro k
      change seqAt (wordInc 32 d) k = seqAt d (k + 1)
      rw [hinc, seqAt, seqAt, Nat.max_eq_left (a := d) (b := 1) (by omega)]
      by_cases hlast : d + 1 = 2 ^ 32
      · have hmod : (d + 1) % 2 ^ 32 = 0 := by rw [hlast, Nat.mod_self]
        have hsum : d - 1 + (k + 1) = k + (2 ^ 32 - 1) := by omega
        rw [hmod, hsum, Nat.add_mod_right]
        congr 1
        rw [Nat.max_eq_right (Nat.zero_le 1), Nat.sub_self, Nat.zero_add]
      · have hsmall : (d + 1) % 2 ^ 32 = d + 1 := Nat.mod_eq_of_lt (by omega)
        have hsum : d + 1 - 1 + k = d - 1 + (k + 1) := by omega
        rw [hsmall, Nat.max_eq_left (Nat.le_add_left 1 d), hsum]

/-- What stands in a ring after some logs. -/
structure RingHolds (N d : Nat) (logs : List RingLog) (shm : AppRing) : Prop where
  count : shm.iLogMaxCount = N
  write : shm.iWriteIndex = logs.length % N
  seqLt : shm.dwLogSeq < 2 ^ 32
  next : ∀ k, seqAt shm.dwLogSeq k = seqAt d (logs.length + k)
  cells : ∀ k < logs.length, logs.length ≤ k + N →
    shm.sLogList (k % N) = ⟨seqAt d k, logs.getD k RingLog.zero⟩
  empty : ∀ c, logs.length ≤ c → c < N → (shm.sLogList c).dwLogSeq = 0

theorem RingHolds.write_log {logs : List RingLog} {shm : AppRing} (hN : 0 < N)
    (h : RingHolds N d logs shm) (log : RingLog) :
    RingHolds N d (logs ++ [log]) (writeLog shm log) := by
  obtain ⟨hseq, hlt, hnext⟩ := takeSeq_spec h.seqLt
  have hnumber : (ServerRing.takeSeq shm.dwLogSeq).1 = seqAt d logs.length := by
    rw [hseq, h.next, Nat.add_zero]
  refine ⟨h.count, ?_, hlt, ?_, ?_, ?_⟩
  · rw [List.length_append, List.length_singleton]
    change ringNext shm.iLogMaxCount shm.iWriteIndex = _
    rw [h.count, h.write, ringNext_mod hN]
  · intro k
    change seqAt (ServerRing.takeSeq shm.dwLogSeq).2 k = _
    rw [hnext, h.next, List.length_append, List.length_singleton, Nat.add_assoc, Nat.add_comm 1]
  · intro k hk hroom
    rw [List.length_append, List.length_singleton] at hk hroom
    change Function.update shm.sLogList shm.iWriteIndex
      ⟨(ServerRing.takeSeq shm.dwLogSeq).1, log⟩ (k % N) = _
    by_cases hlast : k = logs.length
    · subst hlast
      rw [h.write, Function.update_self, hnumber, List.getD_append_right _ _ _ _ (Nat.le_refl _),
        Nat.sub_self]
      rfl
    · have hne : k % N ≠ shm.iWriteIndex := by
        rw [h.write]
        intro heq
        exact hlast (ring_mod_inj (by omega) (by omega) heq)
      rw [Function.update_of_ne hne, h.cells k (by omega) (by omega),
        List.getD_append _ _ _ _ (by omega)]
  · intro c hc hcN
    rw [List.length_append, List.length_singleton] at hc
    change (Function.update shm.sLogList shm.iWriteIndex _ c).dwLogSeq = 0
    have hne : c ≠ shm.iWriteIndex := by
      rw [h.write, Nat.mod_eq_of_lt (by omega)]
      omega
    rw [Function.update_of_ne hne, h.empty c (by omega) hcN]

theorem ringOf_holds (hN : 0 < N) (hd : d < 2 ^ 32) (logs : List RingLog) :
    RingHolds N d logs (ringOf N d logs) := by
  have hrun : ∀ (rest done : List RingLog) (shm : AppRing), RingHolds N d done shm →
      RingHolds N d (done ++ rest) (rest.foldl writeLog shm) := by
    intro rest
    induction rest with
    | nil =>
      intro done shm h
      rw [List.append_nil]
      exact h
    | cons log rest ih =>
      intro done shm h
      have hnext := ih (done ++ [log]) (writeLog shm log) (h.write_log hN log)
      rw [List.append_assoc] at hnext
      exact hnext
  apply hrun logs [] (newRing N d)
  refine ⟨rfl, (Nat.zero_mod N).symm, hd, ?_, ?_, ?_⟩
  · intro k
    rw [List.length_nil, Nat.zero_add]
    rfl
  · intro k hk
    exact absurd hk (Nat.not_lt_zero k)
  · intro c _ _
    rfl

end Ring

section Visit

variable {s : CSLogSearch} {N d seq : Nat} {logs : List RingLog} {qwTimeNow : UInt64}
  {shm : AppRing}

/-- The cell where the walk stands after `i` steps back from the write index. -/
def stepsBack (N T i : Nat) : Nat := (T + i * (N - 1)) % N

theorem ringPrev_stepsBack (hN : 0 < N) (T i : Nat) :
    ringPrev N (stepsBack N T i) = stepsBack N T (i + 1) := by
  rw [stepsBack, ringPrev_mod hN, stepsBack, Nat.succ_mul, Nat.add_assoc]

theorem stepsBack_period (T i : Nat) : stepsBack N T (i + N) = stepsBack N T i := by
  rw [stepsBack, Nat.add_mul, ← Nat.add_assoc, Nat.add_mul_mod_self_left, stepsBack]

/-- The cell that is looked at in step `i`. -/
def visited (shm : AppRing) (T i : Nat) : ServerRing.TSLog RingLog :=
  shm.sLogList (stepsBack shm.iLogMaxCount T (i + 1))

theorem visited_aged (hN : 0 < N) (h : RingHolds N d logs shm) {i : Nat}
    (hi : i < ringCount N logs) : visited shm logs.length i = agedCell d logs i := by
  obtain ⟨hlen, hroom⟩ := Nat.lt_min.mp hi
  have hback : logs.length + (i + 1) * (N - 1) = logs.length - 1 - i + (i + 1) * N := by
    obtain ⟨m, rfl⟩ : ∃ m, N = m + 1 := ⟨N - 1, by omega⟩
    rw [Nat.add_sub_cancel, Nat.mul_succ]
    omega
  rw [visited, h.count, stepsBack, hback, Nat.add_mul_mod_self_right,
    h.cells (logs.length - 1 - i) (by omega) (by omega)]
  rfl

theorem visited_empty (h : RingHolds N d logs shm) (hroom : logs.length < N) :
    (visited shm logs.length logs.length).dwLogSeq = 0 := by
  have hback : logs.length + (logs.length + 1) * (N - 1) = N - 1 + logs.length * N := by
    obtain ⟨m, rfl⟩ : ∃ m, N = m + 1 := ⟨N - 1, by omega⟩
    rw [Nat.add_sub_cancel, Nat.mul_succ, Nat.succ_mul]
    omega
  rw [visited, h.count, stepsBack, hback, Nat.add_mul_mod_self_right,
    Nat.mod_eq_of_lt (by omega)]
  exact h.empty (N - 1) (by omega) (by omega)

theorem tailLoop_eq (hN : 0 < shm.iLogMaxCount) (T n i : Nat) :
    tailLoop s shm seq qwTimeNow n (stepsBack shm.iLogMaxCount T i) =
      (scanNext (fun k => tailEnds seq qwTimeNow (visited shm T k))
        (fun k => tailMatch s (visited shm T k)) n i).map fun k =>
          (stepsBack shm.iLogMaxCount T (k + 1), tailOut (visited shm T k)) := by
  induction n generalizing i with
  | zero => rfl
  | succ n ih =>
    rw [tailLoop, scanNext, ringPrev_stepsBack hN]
    change (if tailEnds seq qwTimeNow (visited shm T i) then none
      else if tailMatch s (visited shm T i) then
        some (stepsBack shm.iLogMaxCount T (i + 1), tailOut (visited shm T i))
      else tailLoop s shm seq qwTimeNow n (stepsBack shm.iLogMaxCount T (i + 1))) = _
    rw [ih]
    by_cases hends : tailEnds seq qwTimeNow (visited shm T i) = true
    · rw [if_pos hends, if_pos hends]
      rfl
    · rw [if_neg hends, if_neg hends]
      by_cases hmatch : tailMatch s (visited shm T i) = true
      · rw [if_pos hmatch, if_pos hmatch]
        rfl
      · rw [if_neg hmatch, if_neg hmatch]

theorem realTimeLogs_eq (hN : 0 < shm.iLogMaxCount) (T n i : Nat) :
    realTimeLogs s shm seq qwTimeNow n (stepsBack shm.iLogMaxCount T i : Nat) =
      (scanCalls (fun k => tailEnds seq qwTimeNow (visited shm T k))
        (fun k => tailMatch s (visited shm T k)) shm.iLogMaxCount n i).map
          (List.map fun k => tailOut (visited shm T k)) := by
  induction n generalizing i with
  | zero => rfl
  | succ n ih =>
    have hcall : realTimeLog s shm (stepsBack shm.iLogMaxCount T i : Nat) seq qwTimeNow =
        tailLoop s shm seq qwTimeNow shm.iLogMaxCount (stepsBack shm.iLogMaxCount T i) := by
      rw [realTimeLog, if_neg (Int.not_lt.mpr (Int.natCast_nonneg _)), Int.toNat_natCast]
    rw [realTimeLogs, scanCalls, hcall, tailLoop_eq hN]
    cases scanNext (fun k => tailEnds seq qwTimeNow (visited shm T k))
        (fun k => tailMatch s (visited shm T k)) shm.iLogMaxCount i with
    | none => rfl
    | some k =>
      simp only [Option.map_some, ih (k + 1), Option.map_map]
      rfl

theorem realTimeLogs_first (h : RingHolds N d logs shm) (n : Nat) :
    realTimeLogs s shm seq qwTimeNow n (-1) =
      realTimeLogs s shm seq qwTimeNow n (stepsBack shm.iLogMaxCount logs.length 0 : Nat) := by
  cases n with
  | zero => rfl
  | succ n =>
    have hstart : realTimeLog s shm (-1) seq qwTimeNow =
        realTimeLog s shm (stepsBack shm.iLogMaxCount logs.length 0 : Nat) seq qwTimeNow := by
      rw [realTimeLog, realTimeLog, if_pos (by decide),
        if_neg (Int.not_lt.mpr (Int.natCast_nonneg _)), Int.toNat_natCast, h.write, h.count,
        stepsBack, Nat.zero_mul, Nat.add_zero]
    rw [realTimeLogs, realTimeLogs, hstart]

end Visit

section Numbers

variable {d : Nat} {logs : List RingLog} {i : Nat}

theorem agedCell_seq (hi : i < logs.length)
    (hseq : i < (agedCell d logs 0).dwLogSeq) :
    (agedCell d logs i).dwLogSeq = (agedCell d logs 0).dwLogSeq - i := by
  simp only [agedCell, seqAt, Nat.sub_zero] at hseq ⊢
  obtain ⟨x, hx⟩ : ∃ x, x = max d 1 - 1 + (logs.length - 1) := ⟨_, rfl⟩
  have hback : max d 1 - 1 + (logs.length - 1 - i) = x - i := by omega
  rw [hback]
  rw [← hx] at hseq ⊢
  have hdiv := Nat.div_add_mod x (2 ^ 32 - 1)
  have hlt : x % (2 ^ 32 - 1) < 2 ^ 32 - 1 := Nat.mod_lt _ (by decide)
  have hsplit : x - i = x % (2 ^ 32 - 1) - i + (2 ^ 32 - 1) * (x / (2 ^ 32 - 1)) := by omega
  rw [hsplit, Nat.add_mul_mod_self_left, Nat.mod_eq_of_lt (by omega)]
  omega

theorem agedCell_seq_wrap (hlen : (agedCell d logs 0).dwLogSeq < logs.length) :
    (agedCell d logs (agedCell d logs 0).dwLogSeq).dwLogSeq = 2 ^ 32 - 1 := by
  simp only [agedCell, seqAt, Nat.sub_zero] at hlen ⊢
  obtain ⟨x, hx⟩ : ∃ x, x = max d 1 - 1 + (logs.length - 1) := ⟨_, rfl⟩
  rw [← hx] at hlen ⊢
  have hback : max d 1 - 1 + (logs.length - 1 - (x % (2 ^ 32 - 1) + 1)) =
      x - (x % (2 ^ 32 - 1) + 1) := by omega
  rw [hback]
  have hdiv := Nat.div_add_mod x (2 ^ 32 - 1)
  obtain ⟨q, hq⟩ : ∃ q, x / (2 ^ 32 - 1) = q + 1 := by
    refine ⟨x / (2 ^ 32 - 1) - 1, ?_⟩
    have hpos : 0 < x / (2 ^ 32 - 1) := by
      by_contra hzero
      rw [Nat.eq_zero_of_not_pos hzero, Nat.mul_zero] at hdiv
      omega
    omega
  rw [hq] at hdiv
  have hsplit : x - (x % (2 ^ 32 - 1) + 1) = 2 ^ 32 - 2 + (2 ^ 32 - 1) * q := by omega
  rw [hsplit, Nat.add_mul_mod_self_left]
  rfl

variable {seq : Nat}

theorem notOlder_iff_of_near (hseq : seq ≠ 0) (hle : seq ≤ (agedCell d logs 0).dwLogSeq)
    (hi : i < logs.length) :
    NotOlder d logs seq i ↔ i ≤ (agedCell d logs 0).dwLogSeq - seq := by
  constructor
  · rintro (hzero | hnone)
    · exact absurd hzero hseq
    · by_contra hgt
      have hg : (agedCell d logs 0).dwLogSeq - seq < i := Nat.lt_of_not_le hgt
      refine hnone _ hg ?_
      rw [agedCell_seq (by omega) (by omega)]
      omega
  · intro hig
    right
    intro i' hi'
    rw [agedCell_seq (by omega) (by omega)]
    omega

theorem isSeqBiger_of_near (hseq : seq ≠ 0) (hle : seq ≤ (agedCell d logs 0).dwLogSeq)
    (hnear : (agedCell d logs 0).dwLogSeq ≤ seq + BWORLD_MAX_SHM_SLOG_COUNT)
    (hword : seq + BWORLD_MAX_SHM_SLOG_COUNT < 2 ^ 32) (hi : i < logs.length) :
    (i ≤ (agedCell d logs 0).dwLogSeq - seq →
        isSeqBiger seq (agedCell d logs i).dwLogSeq = false) ∧
      (i = (agedCell d logs 0).dwLogSeq - seq + 1 →
        isSeqBiger seq (agedCell d logs i).dwLogSeq = true) := by
  have hmod : (seq + BWORLD_MAX_SHM_SLOG_COUNT) % 2 ^ 32 = seq + BWORLD_MAX_SHM_SLOG_COUNT :=
    Nat.mod_eq_of_lt hword
  constructor
  · intro hig
    rw [agedCell_seq hi (by omega), isSeqBiger, hmod, Bool.or_eq_false_iff,
      decide_eq_false_iff_not, decide_eq_false_iff_not]
    omega
  · intro hnext
    by_cases hone : seq = 1
    · have hlast : i = (agedCell d logs 0).dwLogSeq := by omega
      rw [hlast, agedCell_seq_wrap (by omega), isSeqBiger, hmod, hone]
      decide
    · rw [agedCell_seq hi (by omega), isSeqBiger, hmod, Bool.or_eq_true, decide_eq_true_eq]
      left
      omega

theorem isSeqBiger_of_not_near (h : ¬ SeqNear d logs seq) :
    isSeqBiger seq (agedCell d logs 0).dwLogSeq = true ∧ seq ≠ 0 ∧ logs ≠ [] := by
  simp only [SeqNear, not_or] at h
  obtain ⟨hseq, hlogs, hfar⟩ := h
  refine ⟨?_, hseq, hlogs⟩
  have hlt : (agedCell d logs 0).dwLogSeq < 2 ^ 32 := seqAt_lt d _
  simp only [isSeqBiger, Bool.or_eq_true, decide_eq_true_eq]
  by_cases hle : seq ≤ (agedCell d logs 0).dwLogSeq
  · right
    by_cases hword : seq + BWORLD_MAX_SHM_SLOG_COUNT < 2 ^ 32
    · rw [Nat.mod_eq_of_lt hword]
      omega
    · have hcount : BWORLD_MAX_SHM_SLOG_COUNT = 10000 := rfl
      rw [Nat.mod_eq_sub_mod (by omega), Nat.mod_eq_of_lt (by omega)]
      omega
  · exact Or.inl (Nat.lt_of_not_le hle)

end Numbers

section Poll

variable {s : CSLogSearch} {N d seq : Nat} {logs : List RingLog} {qwTimeNow : UInt64} {i : Nat}
  {shm : AppRing}

/-- A log is not too old and not older than `seq`. -/
def InTail (d : Nat) (logs : List RingLog) (seq : Nat) (qwTimeNow : UInt64) (i : Nat) : Prop :=
  Fresh qwTimeNow (agedCell d logs i) ∧ NotOlder d logs seq i

/-- No time of a log leaves 64 bits when the length of the tail is added. -/
def ClockFits (logs : List RingLog) : Prop :=
  ∀ log ∈ logs, log.qwLogTime.toNat + m_qwRealTimeUsec.toNat < 2 ^ 64

instance (logs : List RingLog) : Decidable (ClockFits logs) :=
  inferInstanceAs (Decidable (∀ log ∈ logs, _))

/-- The times do not decrease. -/
def TimesGrow (logs : List RingLog) : Prop :=
  logs.Pairwise fun a b => a.qwLogTime.toNat ≤ b.qwLogTime.toNat

instance (logs : List RingLog) : Decidable (TimesGrow logs) :=
  inferInstanceAs (Decidable (logs.Pairwise _))

theorem agedCell_fields (hi : i < logs.length) :
    ∃ h : logs.length - 1 - i < logs.length,
      (agedCell d logs i).fields = logs[logs.length - 1 - i] := by
  refine ⟨by omega, ?_⟩
  exact List.getD_eq_getElem _ _ (by omega)

theorem tailEnds_aged (hclock : ClockFits logs) (hi : i < logs.length) :
    tailEnds seq qwTimeNow (agedCell d logs i) = true ↔
      ¬ Fresh qwTimeNow (agedCell d logs i) ∨
        seq ≠ 0 ∧ isSeqBiger seq (agedCell d logs i).dwLogSeq = true := by
  obtain ⟨hlt, hfields⟩ := agedCell_fields (d := d) hi
  have hfit := hclock _ (List.getElem_mem hlt)
  have hsum : ((agedCell d logs i).fields.qwLogTime + m_qwRealTimeUsec).toNat =
      (agedCell d logs i).fields.qwLogTime.toNat + m_qwRealTimeUsec.toNat := by
    rw [hfields, UInt64.toNat_add, Nat.mod_eq_of_lt hfit]
  have hseq : ((agedCell d logs i).dwLogSeq == 0) = false :=
    beq_false_of_ne (Nat.ne_of_gt (seqAt_pos d _))
  simp only [tailEnds, hseq, Bool.or_false, Bool.or_eq_true, Bool.and_eq_true, decide_eq_true_eq,
    bne_iff_ne, Fresh, Nat.not_le, UInt64.lt_iff_toNat_lt, hsum]
  constructor
  · rintro (hlate | ⟨hbig, hne⟩)
    · exact Or.inl hlate
    · exact Or.inr ⟨hne, hbig⟩
  · rintro (hlate | ⟨hne, hbig⟩)
    · exact Or.inl hlate
    · exact Or.inr ⟨hbig, hne⟩

theorem InTail.newer (hgrow : TimesGrow logs) {i i' : Nat} (hi : i < logs.length) (hle : i' ≤ i)
    (h : InTail d logs seq qwTimeNow i) : InTail d logs seq qwTimeNow i' := by
  obtain ⟨hfresh, hold⟩ := h
  constructor
  · obtain rfl | hlt := Nat.eq_or_lt_of_le hle
    · exact hfresh
    · obtain ⟨hk, hfields⟩ := agedCell_fields (d := d) hi
      obtain ⟨hk', hfields'⟩ := agedCell_fields (d := d) (Nat.lt_trans hlt hi)
      have htime := List.pairwise_iff_getElem.mp hgrow _ _ hk hk' (by omega)
      rw [Fresh, hfields] at hfresh
      rw [Fresh, hfields']
      omega
  · obtain hzero | hnone := hold
    · exact Or.inl hzero
    · exact Or.inr fun j hj => hnone j (by omega)

/-- With a near `seq` the walk passes the logs of the tail and ends at the first other one. -/
theorem tailEnds_of_near (hclock : ClockFits logs) (hnear : SeqNear d logs seq)
    (hi : i < logs.length) :
    (InTail d logs seq qwTimeNow i → tailEnds seq qwTimeNow (agedCell d logs i) = false) ∧
      (¬ InTail d logs seq qwTimeNow i → (∀ i' < i, InTail d logs seq qwTimeNow i') →
        tailEnds seq qwTimeNow (agedCell d logs i) = true) := by
  have hends : tailEnds seq qwTimeNow (agedCell d logs i) = true ↔ _ := tailEnds_aged hclock hi
  by_cases hseq : seq = 0
  · constructor
    · rintro ⟨hfresh, -⟩
      rw [← Bool.not_eq_true, hends]
      rintro (hlate | ⟨hne, -⟩)
      · exact hlate hfresh
      · exact hne hseq
    · intro hout _
      rw [hends]
      left
      intro hfresh
      exact hout ⟨hfresh, Or.inl hseq⟩
  · obtain hzero | hnil | ⟨hle, hnewest, hword⟩ := hnear
    · exact absurd hzero hseq
    · rw [hnil] at hi
      exact absurd hi (Nat.not_lt_zero i)
    · have hold : ∀ {j}, j < logs.length →
          (NotOlder d logs seq j ↔ j ≤ (agedCell d logs 0).dwLogSeq - seq) :=
        fun hj => notOlder_iff_of_near hseq hle hj
      obtain ⟨hpass, hstop⟩ := isSeqBiger_of_near hseq hle hnewest hword hi
      constructor
      · rintro ⟨hfresh, hnot⟩
        rw [← Bool.not_eq_true, hends]
        rintro (hlate | ⟨-, hbig⟩)
        · exact hlate hfresh
        · rw [hpass ((hold hi).mp hnot)] at hbig
          cases hbig
      · intro hout hbefore
        rw [hends]
        by_cases hfresh : Fresh qwTimeNow (agedCell d logs i)
        · right
          refine ⟨hseq, hstop ?_⟩
          have hgt : ¬ i ≤ (agedCell d logs 0).dwLogSeq - seq := fun h =>
            hout ⟨hfresh, (hold hi).mpr h⟩
          have hprev := (hold (by omega)).mp (hbefore (i - 1) (by omega)).2
          omega
        · exact Or.inl hfresh

/-- The outputs of the logs that match, up to where the walk ends. -/
def matchesBefore (s : CSLogSearch) (d : Nat) (logs : List RingLog) (e : Nat) : List TSLogOut :=
  ((List.range e).filter fun i => tailMatch s (agedCell d logs i)).map fun i =>
    tailOut (agedCell d logs i)

theorem poll_of_end (h : RingHolds N d logs shm) (hN : 0 < N) {e : Nat}
    (he : e ≤ ringCount N logs) (heN : e < N)
    (hend : tailEnds seq qwTimeNow (visited shm logs.length e) = true)
    (hno : ∀ i < e, tailEnds seq qwTimeNow (agedCell d logs i) = false) (result : List TSLogOut) :
    (∃ n, realTimeLogs s shm seq qwTimeNow n (-1) = some result) ↔
      result = matchesBefore s d logs e := by
  have hvisit : ∀ i < e, visited shm logs.length i = agedCell d logs i :=
    fun i hi => visited_aged hN h (Nat.lt_of_lt_of_le hi he)
  have hlist : (foundBefore (fun k => tailMatch s (visited shm logs.length k)) e 0).map
      (fun k => tailOut (visited shm logs.length k)) = matchesBefore s d logs e := by
    rw [foundBefore, Nat.sub_zero, ← List.range_eq_range', matchesBefore]
    have hfilter : (List.range e).filter (fun k => tailMatch s (visited shm logs.length k)) =
        (List.range e).filter fun i => tailMatch s (agedCell d logs i) := by
      apply List.filter_congr
      intro i hi
      rw [hvisit i (List.mem_range.mp hi)]
    rw [hfilter]
    apply List.map_congr_left
    intro i hi
    rw [hvisit i (List.mem_range.mp (List.mem_of_mem_filter hi))]
  have hcalls : ∀ n, realTimeLogs s shm seq qwTimeNow n (-1) =
      if (foundBefore (fun k => tailMatch s (visited shm logs.length k)) e 0).length < n then
        some (matchesBefore s d logs e)
      else none := by
    intro n
    have hpos : 0 < shm.iLogMaxCount := h.count.symm ▸ hN
    rw [realTimeLogs_first h, realTimeLogs_eq hpos, h.count,
      scanCalls_before hend heN (fun i hi => by rw [hvisit i hi]; exact hno i hi) n 0
        (Nat.zero_le e), ← hlist]
    split
    · rfl
    · rfl
  constructor
  · rintro ⟨n, hn⟩
    rw [hcalls n] at hn
    split at hn
    · exact (Option.some.inj hn).symm
    · cases hn
  · rintro rfl
    refine ⟨_, (hcalls _).trans (if_pos (Nat.lt_succ_self _))⟩

/-- A walk that does not end in a whole round gives nothing, or goes on forever. -/
theorem poll_of_round (h : RingHolds N d logs shm) (hN : 0 < N)
    (hfull : N ≤ logs.length)
    (hno : ∀ i < N, tailEnds seq qwTimeNow (agedCell d logs i) = false) (result : List TSLogOut) :
    (∃ n, realTimeLogs s shm seq qwTimeNow n (-1) = some result) ↔
      result = [] ∧ ∀ i < N, tailMatch s (agedCell d logs i) = false := by
  have hcount : ringCount N logs = N := Nat.min_eq_right hfull
  have hpos : 0 < shm.iLogMaxCount := h.count.symm ▸ hN
  have hvisit : ∀ i, visited shm logs.length i = agedCell d logs (i % N) := by
    intro i
    have hperiod : ∀ m j, stepsBack N logs.length (j + m * N) = stepsBack N logs.length j := by
      intro m
      induction m with
      | zero => simp
      | succ m ih =>
        intro j
        rw [Nat.succ_mul, ← Nat.add_assoc, stepsBack_period, ih]
    have hback := hperiod (i / N) (i % N + 1)
    have hsplit : i % N + 1 + i / N * N = i + 1 := by
      have := Nat.mod_add_div' i N
      omega
    rw [hsplit] at hback
    rw [← visited_aged hN h (by rw [hcount]; exact Nat.mod_lt i hN), visited, visited, h.count, hback]
  have hfree : ∀ k, tailEnds seq qwTimeNow (visited shm logs.length k) = false := by
    intro k
    rw [hvisit]
    exact hno _ (Nat.mod_lt k hN)
  by_cases hmatch : ∀ i < N, tailMatch s (agedCell d logs i) = false
  · have hnone : ∀ n, realTimeLogs s shm seq qwTimeNow (n + 1) (-1) = some [] := by
      intro n
      have hnext : scanNext (fun k => tailEnds seq qwTimeNow (visited shm logs.length k))
          (fun k => tailMatch s (visited shm logs.length k)) N 0 = none := by
        rw [scanNext_free hfree]
        intro k _ _
        rw [hvisit]
        exact hmatch _ (Nat.mod_lt k hN)
      rw [realTimeLogs_first h, realTimeLogs_eq hpos, h.count, scanCalls, hnext]
      rfl
    constructor
    · rintro ⟨n, hn⟩
      refine ⟨?_, hmatch⟩
      cases n with
      | zero => cases hn
      | succ n =>
        rw [hnone n] at hn
        exact (Option.some.inj hn).symm
    · rintro ⟨rfl, -⟩
      exact ⟨1, hnone 0⟩
  · refine iff_of_false ?_ fun hres => hmatch hres.2
    rintro ⟨n, hn⟩
    simp only [not_forall, Bool.not_eq_false] at hmatch
    obtain ⟨i, hi, hyes⟩ := hmatch
    have hwindow : ∀ j, ∃ k, j ≤ k ∧ k < j + N ∧
        tailMatch s (visited shm logs.length k) = true := by
      intro j
      refine ⟨j + (i + N - j % N) % N, Nat.le_add_right _ _, ?_, ?_⟩
      · exact Nat.add_lt_add_left (Nat.mod_lt _ hN) j
      · have hmod : (j + (i + N - j % N) % N) % N = i := by
          have hlt := Nat.mod_lt j hN
          rw [Nat.add_mod_mod, ← Nat.mod_add_mod]
          have hsum : j % N + (i + N - j % N) = i + N := by omega
          rw [hsum, Nat.add_mod_right, Nat.mod_eq_of_lt hi]
        rw [hvisit, hmod]
        exact hyes
    rw [realTimeLogs_first h, realTimeLogs_eq hpos, h.count, scanCalls_free hfree hwindow] at hn
    cases hn

/-- The shown logs of the ring, the newest first. -/
def shownLogs (s : CSLogSearch) (N d : Nat) (logs : List RingLog) (seq : Nat)
    (qwTimeNow : UInt64) : List TSLogOut :=
  ((List.range (ringCount N logs)).filter (Shown s d logs seq qwTimeNow ·)).map fun i =>
    tailOut (agedCell d logs i)

theorem matchesBefore_eq_shownLogs (hgrow : TimesGrow logs) {e : Nat} (he : e ≤ ringCount N logs)
    (hin : ∀ i < e, InTail d logs seq qwTimeNow i)
    (hout : e < ringCount N logs → ¬ InTail d logs seq qwTimeNow e) :
    matchesBefore s d logs e = shownLogs s N d logs seq qwTimeNow := by
  obtain ⟨m, hm⟩ := Nat.exists_eq_add_of_le he
  have hfirst : (List.range e).filter (Shown s d logs seq qwTimeNow ·) =
      (List.range e).filter fun i => tailMatch s (agedCell d logs i) := by
    apply List.filter_congr
    intro i hi
    have hi := hin i (List.mem_range.mp hi)
    rw [Bool.eq_iff_iff, decide_eq_true_eq]
    exact ⟨fun h => h.1, fun h => ⟨h, hi.1, hi.2⟩⟩
  have hlater : ((List.range m).map (e + ·)).filter (Shown s d logs seq qwTimeNow ·) = [] := by
    rw [List.filter_eq_nil_iff]
    intro i hi
    obtain ⟨j, hj, rfl⟩ := List.mem_map.mp hi
    have hj := List.mem_range.mp hj
    rw [decide_eq_true_eq]
    rintro ⟨-, hfresh, hold⟩
    have hcount : e + j < ringCount N logs := by omega
    have hlen : e + j < logs.length := Nat.lt_of_lt_of_le hcount (Nat.min_le_left _ _)
    exact hout (by omega) (InTail.newer hgrow hlen (Nat.le_add_right e j) ⟨hfresh, hold⟩)
  rw [matchesBefore, shownLogs, hm, List.range_add, List.filter_append, hfirst, hlater,
    List.append_nil]

theorem wantedLogs_eq_shownLogs_iff :
    wantedLogs s N d logs seq qwTimeNow = shownLogs s N d logs seq qwTimeNow ↔
      ∀ i < ringCount N logs, Shown s d logs seq qwTimeNow i →
        NotAhead qwTimeNow (agedCell d logs i) := by
  have hfilter : (List.range (ringCount N logs)).filter (Wanted s d logs seq qwTimeNow ·) =
      ((List.range (ringCount N logs)).filter (Shown s d logs seq qwTimeNow ·)).filter
        fun i => NotAhead qwTimeNow (agedCell d logs i) := by
    rw [List.filter_filter]
    apply List.filter_congr
    intro i _
    rw [Bool.eq_iff_iff, Bool.and_eq_true, decide_eq_true_eq, decide_eq_true_eq, decide_eq_true_eq]
    exact And.comm
  constructor
  · intro heq i hi hshown
    have hlen := congrArg List.length heq
    rw [wantedLogs, shownLogs, List.length_map, List.length_map, hfilter] at hlen
    have hall := List.filter_sublist.eq_of_length hlen
    have hmem : i ∈ (List.range (ringCount N logs)).filter (Shown s d logs seq qwTimeNow ·) :=
      List.mem_filter.mpr ⟨List.mem_range.mpr hi, decide_eq_true hshown⟩
    rw [← hall] at hmem
    exact of_decide_eq_true (List.mem_filter.mp hmem).2
  · intro hall
    rw [wantedLogs, shownLogs, hfilter, List.filter_eq_self.mpr]
    intro i hi
    obtain ⟨hi, hshown⟩ := List.mem_filter.mp hi
    exact decide_eq_true (hall i (List.mem_range.mp hi) (of_decide_eq_true hshown))

theorem wantedLogs_eq_nil_iff :
    wantedLogs s N d logs seq qwTimeNow = [] ↔
      ∀ i < ringCount N logs, ¬ Wanted s d logs seq qwTimeNow i := by
  simp [wantedLogs, List.filter_eq_nil_iff]

end Poll

section Right

/-- With times that do not decrease and fit into 64 bits, the calls of a poll give exactly the
wanted logs if and only if the poll meets its condition. -/
theorem tailRight_iff (s : CSLogSearch) {iLogMaxCount dwLogSeq : Nat} (hcount : 0 < iLogMaxCount)
    (hword : dwLogSeq < 2 ^ 32) (logs : List RingLog) (hgrow : TimesGrow logs)
    (hclock : ClockFits logs) (seq : Nat) (qwTimeNow : UInt64) :
    TailRight s iLogMaxCount dwLogSeq logs seq qwTimeNow ↔
      TailOk s iLogMaxCount dwLogSeq logs seq qwTimeNow := by
  have hring := ringOf_holds hcount hword logs
  have hle : ringCount iLogMaxCount logs ≤ logs.length := Nat.min_le_left _ _
  rw [TailRight, TailOk]
  by_cases hnear : SeqNear dwLogSeq logs seq
  · rw [if_pos hnear]
    obtain ⟨e, he, hin, hout⟩ := exists_first_failure
      (InTail dwLogSeq logs seq qwTimeNow) (ringCount iLogMaxCount logs)
    have hpass : ∀ i < e, tailEnds seq qwTimeNow (agedCell dwLogSeq logs i) = false := fun i hi =>
      (tailEnds_of_near hclock hnear (by omega)).1 (hin i hi)
    by_cases hround : iLogMaxCount ≤ e
    · have hfull : iLogMaxCount ≤ logs.length := by omega
      have hcountEq : ringCount iLogMaxCount logs = iLogMaxCount := Nat.min_eq_right hfull
      have hstops : ¬ TailStops iLogMaxCount dwLogSeq logs seq qwTimeNow := by
        rintro (hroom | hold)
        · omega
        · exact hold (hin _ (by omega))
      have hshown : (∀ i < iLogMaxCount, ¬ Shown s dwLogSeq logs seq qwTimeNow i) ↔
          ∀ i < iLogMaxCount, tailMatch s (agedCell dwLogSeq logs i) = false := by
        refine forall₂_congr fun i hi => ?_
        have htail := hin i (by omega)
        rw [← Bool.not_eq_true]
        exact not_congr ⟨fun h => h.1, fun h => ⟨h, htail.1, htail.2⟩⟩
      rw [poll_of_round hring hcount hfull (fun i hi => hpass i (by omega)), wantedLogs_eq_nil_iff,
        hcountEq, or_iff_left hstops, ← hshown]
      constructor
      · rintro ⟨-, hnone⟩
        exact ⟨fun i hi h => absurd h (hnone i hi), hnone⟩
      · rintro ⟨-, hnone⟩
        exact ⟨fun i hi h => hnone i hi h.1, hnone⟩
    · have hlt : e < iLogMaxCount := Nat.lt_of_not_le hround
      have hend : tailEnds seq qwTimeNow
          (visited (ringOf iLogMaxCount dwLogSeq logs) logs.length e) = true := by
        by_cases hlast : e < ringCount iLogMaxCount logs
        · rw [visited_aged hcount hring hlast]
          exact (tailEnds_of_near hclock hnear (by omega)).2 (hout hlast) hin
        · have hroom : logs.length < iLogMaxCount := by
            by_contra hfull
            rw [ringCount, Nat.min_eq_right (by omega)] at hlast
            exact hlast hlt
          have hall : e = logs.length := by
            rw [ringCount, Nat.min_eq_left (by omega)] at hlast he
            omega
          simp [tailEnds, hall, visited_empty hring hroom]
      have hstops : TailStops iLogMaxCount dwLogSeq logs seq qwTimeNow := by
        by_cases hroom : logs.length < iLogMaxCount
        · exact Or.inl hroom
        · right
          intro hlast
          have hcountEq : ringCount iLogMaxCount logs = iLogMaxCount :=
            Nat.min_eq_right (by omega)
          exact hout (by omega) (InTail.newer hgrow (by omega) (by omega) hlast)
      rw [poll_of_end hring hcount he hlt hend hpass,
        matchesBefore_eq_shownLogs hgrow he hin hout, wantedLogs_eq_shownLogs_iff,
        and_iff_left (Or.inr hstops)]
  · obtain ⟨hbig, hseq, hlogs⟩ := isSeqBiger_of_not_near hnear
    have hlen : 0 < logs.length := List.length_pos_iff.mpr hlogs
    have hfirst : tailEnds seq qwTimeNow
        (visited (ringOf iLogMaxCount dwLogSeq logs) logs.length 0) = true := by
      rw [visited_aged hcount hring (Nat.lt_min.mpr ⟨hlen, hcount⟩), tailEnds_aged hclock hlen]
      exact Or.inr ⟨hseq, hbig⟩
    rw [if_neg hnear, poll_of_end hring hcount (Nat.zero_le _) hcount hfirst
      (fun i hi => absurd hi (Nat.not_lt_zero i)), ← wantedLogs_eq_nil_iff]
    rfl

/-- A log of app 1 with one character of text. -/
def charLog (b : UInt8) (qwLogTime : UInt64) : RingLog :=
  ⟨LogCust.zero, 1, 1, 1, 1, 2, qwLogTime, [b]⟩

/-- A search for the logs of app 1 without keywords. -/
def appSearch : CSLogSearch where
  m_strLogFile := []
  m_iLogTypeFlag := 255
  m_iLogAppId := 1
  m_arrLogModuleId := []
  m_stIncKey := []
  m_stExcpKey := []
  m_iReportMachine := 0
  m_qwTimeStart := 0
  m_qwTimeEnd := 0
  ipv4AddrStr := fun _ => [48]

/-- Three logs with the numbers 5 to 7 in a ring of four cells, polled with the number 6. -/
theorem tailRight_iff_threeLogs :
    let logs := [charLog 97 100, charLog 98 200, charLog 99 300]
    TimesGrow logs ∧ ClockFits logs ∧ TailRight appSearch 4 5 logs 6 400 ∧
      (wantedLogs appSearch 4 5 logs 6 400).map TSLogOut.pszLog = [[99], [98]] :=
  ⟨by decide, by decide +kernel,
    (tailRight_iff appSearch (by decide) (by decide) _ (by decide) (by decide +kernel) 6 400).mpr
      (by decide +kernel),
    by decide +kernel⟩

/-- Two logs with the numbers 4294967295 and 1, polled with the first of these: the walk ends at the
newest log. Two logs that fill a ring, polled with no number: the walk goes round forever. -/
theorem tail_wrong :
    ¬ TailRight appSearch 4 4294967295 [charLog 97 100, charLog 98 200] 4294967295 400 ∧
      ¬ TailRight appSearch 2 5 [charLog 97 100, charLog 98 200] 0 400 := by
  constructor
  · have hring := ringOf_holds (N := 4) (d := 4294967295) (by decide) (by decide)
      [charLog 97 100, charLog 98 200]
    rw [TailRight, poll_of_end hring (by decide) (Nat.zero_le _) (by decide) (by decide +kernel)
      (fun i hi => absurd hi (Nat.not_lt_zero i))]
    decide +kernel
  · have hring := ringOf_holds (N := 2) (d := 5) (by decide) (by decide)
      [charLog 97 100, charLog 98 200]
    rw [TailRight, poll_of_round hring (by decide) (by decide) (by decide +kernel)]
    decide +kernel

end Right

end XrkMonitor.LogSearch
