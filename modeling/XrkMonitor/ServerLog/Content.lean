import XrkMonitor.Library.Bytes
import XrkMonitor.ServerLog.FileStat
import XrkMonitor.ServerVmem.Calls

/-!
# The text of a log in the ring

`RemoteShmLog` puts the text of a log into the array `sLogContent` of its cell. Of a long
text the array has the first 256 bytes, and what follows byte 252 goes to the
variable-length memory, so that the last four bytes of the array can be compared with what
is read back. The bytes that are saved are taken from the cell, from byte 252 of the array
on, also where the text is longer than the array.

## Implementation notes

The ring is a memory of bytes, in which `sLogContent` begins at address `p`; it is the last
field of a cell. `sLogBuf` is the static buffer of `GetShmLog`. The texts of its `bug`
messages are left out: what they report is kept.
-/

namespace XrkMonitor.ServerLog

open Library Vmem ServerVmem

def BWORLD_MEMLOG_BUF_LENGTH : Nat := 256
def TOO_LONG_TRUNC_STR_LEN : Nat := 64
def SLOG_TYPE_ERROR : UInt16 := 4

/-- The size of `sLogBuf`. -/
def sizeofLogBuf : Nat := BWORLD_SLOG_MAX_LINE_LEN + TOO_LONG_TRUNC_STR_LEN

/-- The ring with the fields of the cell that belong to its text, and the variable-length memory. -/
structure ShmText where
  mem : Nat → UInt8
  iContentIndex : Int
  wLogType : UInt16
  vmem : VmemBuf

/-- What the messages of `GetShmLog` report. -/
inductive ShmLogBug
  | getFailed (iRet : Int)
  | checkFailed (dwCheck dwFound : Nat)
deriving Repr, DecidableEq

section Code

/-- The addresses of the bytes that are saved for a text of length `iWrite`. -/
def savedFrom (p iWrite : Nat) : List Nat :=
  List.range' (p + (BWORLD_MEMLOG_BUF_LENGTH - 4)) (iWrite - BWORLD_MEMLOG_BUF_LENGTH + 4)

/-- The part of `RemoteShmLog` that stores the text. -/
def remoteShmLogContent (m_iVmemShmKey : Int) (env : Nat → VmemEnv) (p : Nat)
    (bytes_log : List UInt8) (s : ShmText) : ShmText :=
  let iWrite := bytes_log.length
  if iWrite < BWORLD_MEMLOG_BUF_LENGTH then
    { s with
      iContentIndex := -1
      mem := writeAt s.mem p (cstr bytes_log ++ [0]) }
  else
    let mem := writeAt s.mem p (bytes_log.take BWORLD_MEMLOG_BUF_LENGTH)
    if m_iVmemShmKey ≤ 0 then
      { s with
        mem := writeAt mem (p + (BWORLD_MEMLOG_BUF_LENGTH - 1)) [0]
        iContentIndex := -1 }
    else
      let (iWrite, vmem) := saveToVmem env s.vmem ((savedFrom p iWrite).map mem)
      if iWrite < 0 then
        { mem := writeAt mem (p + (BWORLD_MEMLOG_BUF_LENGTH - 1)) [0]
          iContentIndex := -1
          wLogType := SLOG_TYPE_ERROR
          vmem := vmem }
      else
        { s with
          mem := mem
          iContentIndex := iWrite
          vmem := vmem }

/-- `strncpy`: at most `n` bytes of a string, filled up with `NUL`. -/
def strncpyBytes (n : Nat) (src : List UInt8) : List UInt8 :=
  src.take n ++ List.replicate (n - src.length) 0

/-- `GetShmLog`: the text, or what its message reports. -/
def getShmLog (p : Nat) (s : ShmText) (sLogBuf : Nat → UInt8) :
    Option (Except ShmLogBug (List UInt8)) :=
  if s.iContentIndex < 0 then
    let sLogBuf := writeAt sLogBuf 0
      (strncpyBytes (sizeofLogBuf - 1) (cstrAt s.mem p (sizeofLogBuf - 1)))
    some (.ok (cstrAt sLogBuf 0 sizeofLogBuf))
  else
    let sLogBuf := writeAt sLogBuf 0 (bytesAt s.mem p (BWORLD_MEMLOG_BUF_LENGTH - 4))
    match getFromVmem s.vmem s.iContentIndex (sizeofLogBuf - BWORLD_MEMLOG_BUF_LENGTH + 4) with
    | none => none
    | some (.error iRet) => some (.error (.getFailed iRet))
    | some (.ok data) =>
      let sLogBuf := writeAt sLogBuf (BWORLD_MEMLOG_BUF_LENGTH - 4) data
      let sLogBuf := writeAt sLogBuf (BWORLD_MEMLOG_BUF_LENGTH - 4 + data.length) [0]
      let dwCheck := wordAt s.mem (p + (BWORLD_MEMLOG_BUF_LENGTH - 4)) 4
      let dwFound := wordAt sLogBuf (BWORLD_MEMLOG_BUF_LENGTH - 4) 4
      if dwCheck ≠ dwFound then some (.error (.checkFailed dwCheck dwFound))
      else some (.ok (cstrAt sLogBuf 0 sizeofLogBuf))

/-- The text fits into the array of the cell, or was saved. -/
def StoreOk (m_iVmemShmKey : Int) (env : Nat → VmemEnv) (p : Nat) (bytes_log : List UInt8)
    (s : ShmText) : Prop :=
  BWORLD_MEMLOG_BUF_LENGTH ≤ bytes_log.length →
    0 ≤ (remoteShmLogContent m_iVmemShmKey env p bytes_log s).iContentIndex

/-- `GetShmLog` gives the text that was stored, whatever its buffer held. -/
def TextReturned (m_iVmemShmKey : Int) (env : Nat → VmemEnv) (p : Nat) (bytes_log : List UInt8)
    (s : ShmText) : Prop :=
  ∀ sLogBuf, getShmLog p (remoteShmLogContent m_iVmemShmKey env p bytes_log s) sLogBuf =
    some (.ok bytes_log)

/-- Every byte that is saved is in the array of the cell, to which the log was copied. -/
def ReadsLogOnly (p : Nat) (bytes_log : List UInt8) : Prop :=
  BWORLD_MEMLOG_BUF_LENGTH ≤ bytes_log.length → ∀ a ∈ savedFrom p bytes_log.length,
    p ≤ a ∧ a < p + BWORLD_MEMLOG_BUF_LENGTH

/-- The text comes back, and only bytes of the log are read. -/
structure ContentRight (m_iVmemShmKey : Int) (env : Nat → VmemEnv) (p : Nat)
    (bytes_log : List UInt8) (s : ShmText) : Prop where
  returned : TextReturned m_iVmemShmKey env p bytes_log s
  reads : ReadsLogOnly p bytes_log

end Code

section Text

variable {m_iVmemShmKey : Int} {env : Nat → VmemEnv} {p : Nat} {bytes_log : List UInt8}
  {s : ShmText} {live : SegId → List Chain}

theorem map_savedFrom (mem : Nat → UInt8) (hlen : BWORLD_MEMLOG_BUF_LENGTH ≤ bytes_log.length) :
    (savedFrom p bytes_log.length).map mem =
      bytesAt mem (p + (BWORLD_MEMLOG_BUF_LENGTH - 4)) (bytes_log.length - 252) := by
  have hcount : bytes_log.length - BWORLD_MEMLOG_BUF_LENGTH + 4 = bytes_log.length - 252 := by
    change 256 ≤ bytes_log.length at hlen
    change bytes_log.length - 256 + 4 = bytes_log.length - 252
    omega
  rw [savedFrom, hcount, List.range'_eq_map_range, List.map_map]
  rfl

theorem readsLogOnly_iff :
    ReadsLogOnly p bytes_log ↔ bytes_log.length ≤ BWORLD_MEMLOG_BUF_LENGTH := by
  change (256 ≤ bytes_log.length → ∀ a ∈ List.range' (p + 252) (bytes_log.length - 256 + 4),
    p ≤ a ∧ a < p + 256) ↔ bytes_log.length ≤ 256
  simp only [List.mem_range'_1]
  constructor
  · intro h
    by_contra hlong
    have hlast := h (by omega) (p + 256) (by omega)
    omega
  · intro hle hmin a ha
    omega

theorem cstr_append_nul_eq (xs rest : List UInt8) : cstr (xs ++ 0 :: rest) = cstr xs := by
  rw [cstr, cstr, List.takeWhile_append]
  split
  · rename_i hall
    have hxs : xs.takeWhile (· != 0) = xs := (List.takeWhile_prefix _).eq_of_length hall
    rw [hxs, List.takeWhile_cons_of_neg (by decide), List.append_nil]
  · rfl

theorem getShmLog_array (hidx : s.iContentIndex < 0)
    (hlen : (cstrAt s.mem p (sizeofLogBuf - 1)).length < BWORLD_MEMLOG_BUF_LENGTH)
    (sLogBuf : Nat → UInt8) :
    getShmLog p s sLogBuf = some (.ok (cstrAt s.mem p (sizeofLogBuf - 1))) := by
  obtain ⟨text, htext⟩ : ∃ text, text = cstrAt s.mem p (sizeofLogBuf - 1) := ⟨_, rfl⟩
  have hne : ∀ b ∈ text, b ≠ 0 := by
    rw [htext]
    exact ne_zero_of_mem_cstr
  rw [← htext] at hlen ⊢
  have hbound : text.length < 256 := hlen
  obtain ⟨m, hm⟩ : ∃ m, sizeofLogBuf - 1 - text.length = m + 1 := by
    refine ⟨1086 - text.length, ?_⟩
    change 1087 - text.length = _
    omega
  have hcopy : strncpyBytes (sizeofLogBuf - 1) text = text ++ [0] ++ List.replicate m 0 := by
    rw [strncpyBytes, hm, List.replicate_succ, List.take_of_length_le, List.append_assoc]
    · rfl
    · change text.length ≤ 1087
      omega
  have hstands := (stands_append.mp (stands_writeAt sLogBuf 0
    (text ++ [0] ++ List.replicate m 0))).1
  rw [getShmLog, if_pos hidx]
  simp only [← htext, hcopy]
  rw [cstrAt_eq hne _ hstands]
  change text.length ≤ 1088
  omega

theorem textReturned_short (hne : ∀ b ∈ bytes_log, b ≠ 0)
    (hshort : bytes_log.length < BWORLD_MEMLOG_BUF_LENGTH) :
    TextReturned m_iVmemShmKey env p bytes_log s := by
  intro sLogBuf
  have hbound : bytes_log.length < 256 := hshort
  have hstore : remoteShmLogContent m_iVmemShmKey env p bytes_log s =
      { s with
        iContentIndex := -1
        mem := writeAt s.mem p (bytes_log ++ [0]) } := by
    rw [remoteShmLogContent, if_pos hshort, cstr_eq_self hne]
  have hsrc : cstrAt (writeAt s.mem p (bytes_log ++ [0])) p (sizeofLogBuf - 1) = bytes_log := by
    apply cstrAt_eq hne _ (stands_writeAt s.mem p (bytes_log ++ [0]))
    change bytes_log.length ≤ 1087
    omega
  have hget := getShmLog_array (p := p)
    (s := { s with iContentIndex := -1, mem := writeAt s.mem p (bytes_log ++ [0]) })
    (by decide : (-1 : Int) < 0) (by rw [hsrc]; exact hshort) sLogBuf
  rw [hstore, hget, hsrc]

theorem remoteShmLogContent_long (hkey : 0 < m_iVmemShmKey)
    (hlong : BWORLD_MEMLOG_BUF_LENGTH ≤ bytes_log.length) {mem : Nat → UInt8} {idx : Int}
    {vmem : VmemBuf} (hmem : mem = writeAt s.mem p (bytes_log.take BWORLD_MEMLOG_BUF_LENGTH))
    (hsave : saveToVmem env s.vmem ((savedFrom p bytes_log.length).map mem) = (idx, vmem)) :
    remoteShmLogContent m_iVmemShmKey env p bytes_log s =
      if idx < 0 then
        { mem := writeAt mem (p + (BWORLD_MEMLOG_BUF_LENGTH - 1)) [0]
          iContentIndex := -1
          wLogType := SLOG_TYPE_ERROR
          vmem := vmem }
      else
        { s with
          mem := mem
          iContentIndex := idx
          vmem := vmem } := by
  simp only [remoteShmLogContent]
  rw [if_neg (Nat.not_lt.mpr hlong), if_neg (Int.not_le.mpr hkey), ← hmem, hsave]

theorem store_long (hinv : BufInv s.vmem live) (hkey : 0 < m_iVmemShmKey)
    (hlong : BWORLD_MEMLOG_BUF_LENGTH ≤ bytes_log.length)
    (hok : StoreOk m_iVmemShmKey env p bytes_log s) :
    ∃ g c live', g.2 < ServerVmem.VMEM_SHM_COUNT ∧
      (remoteShmLogContent m_iVmemShmKey env p bytes_log s).iContentIndex = chainIndex g c ∧
      (remoteShmLogContent m_iVmemShmKey env p bytes_log s).mem =
        writeAt s.mem p (bytes_log.take BWORLD_MEMLOG_BUF_LENGTH) ∧
      BufInv (remoteShmLogContent m_iVmemShmKey env p bytes_log s).vmem live' ∧ c ∈ live' g ∧
      c.data = bytesAt (writeAt s.mem p (bytes_log.take BWORLD_MEMLOG_BUF_LENGTH))
        (p + (BWORLD_MEMLOG_BUF_LENGTH - 4)) (bytes_log.length - 252) := by
  obtain ⟨mem, hmem⟩ : ∃ mem, mem = writeAt s.mem p (bytes_log.take BWORLD_MEMLOG_BUF_LENGTH) :=
    ⟨_, rfl⟩
  obtain ⟨idx, vmem, hsave⟩ : ∃ idx vmem,
      saveToVmem env s.vmem ((savedFrom p bytes_log.length).map mem) = (idx, vmem) := ⟨_, _, rfl⟩
  have hstore := remoteShmLogContent_long hkey hlong hmem hsave
  have hsaved : ¬ idx < 0 := by
    intro hneg
    have hidx := hok hlong
    rw [hstore, if_pos hneg] at hidx
    exact absurd hidx (by decide : ¬ (0 : Int) ≤ -1)
  rw [if_neg hsaved] at hstore
  have houtcome := saveToVmem_outcome env ((savedFrom p bytes_log.length).map mem) hinv
  rw [hsave] at houtcome
  obtain ⟨hneg, -⟩ | ⟨g, c, hg, hdata, hidx, hinv'⟩ := houtcome
  · exact absurd hneg hsaved
  · refine ⟨g, c, Function.update live g (c :: live g), hg, ?_, ?_, ?_, ?_, ?_⟩
    · rw [hstore]
      exact hidx
    · rw [hstore]
      exact hmem
    · rw [hstore]
      exact hinv'
    · rw [Function.update_self]
      exact List.mem_cons_self
    · rw [hdata, map_savedFrom mem hlong, hmem]

/-- A long text comes back as its first 256 bytes and what stands in the ring behind the array. -/
theorem getShmLog_long (hinv : BufInv s.vmem live) (hkey : 0 < m_iVmemShmKey)
    (hlong : BWORLD_MEMLOG_BUF_LENGTH ≤ bytes_log.length)
    (hmax : bytes_log.length ≤ BWORLD_SLOG_MAX_LINE_LEN)
    (hok : StoreOk m_iVmemShmKey env p bytes_log s) (sLogBuf : Nat → UInt8) :
    getShmLog p (remoteShmLogContent m_iVmemShmKey env p bytes_log s) sLogBuf =
      some (.ok (cstr (bytes_log.take BWORLD_MEMLOG_BUF_LENGTH ++
        bytesAt s.mem (p + BWORLD_MEMLOG_BUF_LENGTH)
          (bytes_log.length - BWORLD_MEMLOG_BUF_LENGTH)))) := by
  obtain ⟨g, c, live', hg, hidx, hmem, hinv', hc, hdata⟩ := store_long hinv hkey hlong hok
  change 256 ≤ bytes_log.length at hlong
  change bytes_log.length ≤ 1024 at hmax
  simp only [show BWORLD_MEMLOG_BUF_LENGTH = 256 from rfl] at hmem hdata ⊢
  obtain ⟨mem, hmemDef⟩ : ∃ mem, mem = writeAt s.mem p (bytes_log.take 256) := ⟨_, rfl⟩
  rw [← hmemDef] at hmem hdata
  have htake : (bytes_log.take 256).length = 256 := List.length_take_of_le hlong
  have hfirst : bytesAt mem p 256 = bytes_log.take 256 := by
    have hstands := stands_writeAt s.mem p (bytes_log.take 256)
    rw [Stands, htake, ← hmemDef] at hstands
    exact hstands
  have hbehind : bytesAt mem (p + 256) (bytes_log.length - 256) =
      bytesAt s.mem (p + 256) (bytes_log.length - 256) := by
    rw [hmemDef]
    apply bytesAt_writeAt_of_disjoint
    right
    rw [htake]
  have hlen : c.data.length = bytes_log.length - 252 := by rw [hdata, length_bytesAt]
  have hall : bytesAt mem p 252 ++ c.data = bytes_log.take 256 ++
      bytesAt s.mem (p + 256) (bytes_log.length - 256) := by
    have hcount : bytes_log.length = 252 + (bytes_log.length - 252) := by omega
    have hcount' : bytes_log.length = 256 + (bytes_log.length - 256) := by omega
    have hjoin : bytesAt mem p bytes_log.length = bytesAt mem p 252 ++ c.data := by
      rw [hdata]
      conv_lhs => rw [hcount]
      exact bytesAt_add mem p 252 _
    rw [← hjoin, hcount', bytesAt_add, hfirst, hbehind, Nat.add_sub_cancel_left]
  have hget : getFromVmem (remoteShmLogContent m_iVmemShmKey env p bytes_log s).vmem
      (remoteShmLogContent m_iVmemShmKey env p bytes_log s).iContentIndex
      (sizeofLogBuf - 256 + 4) = some (.ok c.data) := by
    rw [hidx]
    apply getFromVmem_stored hinv' hg hc
    change c.data.length ≤ 836
    omega
  have hpos := chainIndex_pos g c
  rw [getShmLog, hidx, if_neg (by omega), ← hidx]
  simp only [show BWORLD_MEMLOG_BUF_LENGTH = 256 from rfl, hget, hmem]
  obtain ⟨buf, hbuf⟩ : ∃ buf, buf = writeAt (writeAt (writeAt sLogBuf 0 (bytesAt mem p 252)) 252
      c.data) (252 + c.data.length) [0] := ⟨_, rfl⟩
  have hstands : Stands buf 0 (bytesAt mem p 252 ++ c.data ++ [0]) := by
    have h₁ : Stands (writeAt sLogBuf 0 (bytesAt mem p 252)) 0 (bytesAt mem p 252) :=
      stands_writeAt sLogBuf 0 _
    have h₂ : Stands (writeAt (writeAt sLogBuf 0 (bytesAt mem p 252)) 252 c.data) 0
        (bytesAt mem p 252 ++ c.data) := by
      rw [stands_append, length_bytesAt, Nat.zero_add]
      refine ⟨h₁.writeAt ?_, stands_writeAt _ 252 c.data⟩
      left
      rw [length_bytesAt]
    rw [stands_append, hbuf, List.length_append, length_bytesAt, Nat.zero_add]
    refine ⟨h₂.writeAt ?_, stands_writeAt _ _ [0]⟩
    left
    rw [List.length_append, length_bytesAt, Nat.zero_add]
  have hcheck : wordAt mem (p + 252) 4 = wordAt buf 252 4 := by
    obtain ⟨hstands, -⟩ := stands_append.mp hstands
    obtain ⟨-, hstands⟩ := stands_append.mp hstands
    rw [length_bytesAt, Nat.zero_add] at hstands
    have hsplit : bytes_log.length - 252 = 4 + (bytes_log.length - 256) := by omega
    rw [Stands, hlen, hdata, hsplit, bytesAt_add, bytesAt_add] at hstands
    rw [wordAt, wordAt, (List.append_inj hstands (by simp)).1]
  have htext : cstrAt buf 0 sizeofLogBuf = cstr (bytesAt mem p 252 ++ c.data) := by
    obtain ⟨m, hm⟩ : ∃ m, sizeofLogBuf = (bytesAt mem p 252 ++ c.data ++ [0]).length + m := by
      refine ⟨1087 - bytes_log.length, ?_⟩
      simp only [List.length_append, length_bytesAt, hlen, List.length_singleton]
      change 1088 = _
      omega
    rw [cstrAt, hm, bytesAt_add, hstands, List.append_assoc, List.singleton_append,
      cstr_append_nul_eq]
  simp only [show 256 - 4 = 252 from rfl, ← hbuf, hcheck, ne_eq, not_true, reduceIte, htext, hall]

/-- A long text comes back exactly when its rest stands in the ring behind the array. -/
theorem textReturned_long_iff (hne : ∀ b ∈ bytes_log, b ≠ 0) (hinv : BufInv s.vmem live)
    (hkey : 0 < m_iVmemShmKey) (hlong : BWORLD_MEMLOG_BUF_LENGTH ≤ bytes_log.length)
    (hmax : bytes_log.length ≤ BWORLD_SLOG_MAX_LINE_LEN)
    (hok : StoreOk m_iVmemShmKey env p bytes_log s) :
    TextReturned m_iVmemShmKey env p bytes_log s ↔
      bytesAt s.mem (p + BWORLD_MEMLOG_BUF_LENGTH)
        (bytes_log.length - BWORLD_MEMLOG_BUF_LENGTH) =
          bytes_log.drop BWORLD_MEMLOG_BUF_LENGTH := by
  have hget := getShmLog_long hinv hkey hlong hmax hok
  constructor
  · intro h
    have heq := (h fun _ => 0).symm.trans (hget fun _ => 0)
    have heq : bytes_log = cstr (bytes_log.take BWORLD_MEMLOG_BUF_LENGTH ++
        bytesAt s.mem (p + BWORLD_MEMLOG_BUF_LENGTH)
          (bytes_log.length - BWORLD_MEMLOG_BUF_LENGTH)) :=
      Except.ok.inj (Option.some.inj heq)
    have hbegins := List.takeWhile_prefix (l := bytes_log.take BWORLD_MEMLOG_BUF_LENGTH ++
      bytesAt s.mem (p + BWORLD_MEMLOG_BUF_LENGTH)
        (bytes_log.length - BWORLD_MEMLOG_BUF_LENGTH)) (· != 0)
    change cstr _ <+: _ at hbegins
    rw [← heq] at hbegins
    have hsame := hbegins.eq_of_length (by
      rw [List.length_append, List.length_take_of_le hlong, length_bytesAt]
      omega)
    have hdrop := congrArg (List.drop BWORLD_MEMLOG_BUF_LENGTH) hsame
    rw [List.drop_left' (List.length_take_of_le hlong)] at hdrop
    exact hdrop.symm
  · intro hrest sLogBuf
    rw [hget sLogBuf, hrest, List.take_append_drop, cstr_eq_self hne]

/-- With the variable-length memory in use and a save that succeeds, a text without `NUL` comes back
and only bytes of the log are read, if and only if the text has at most 256 bytes. -/
theorem contentRight_iff (hinv : BufInv s.vmem live) (hkey : 0 < m_iVmemShmKey)
    (hne : ∀ b ∈ bytes_log, b ≠ 0) (hmax : bytes_log.length ≤ BWORLD_SLOG_MAX_LINE_LEN)
    (hok : StoreOk m_iVmemShmKey env p bytes_log s) :
    ContentRight m_iVmemShmKey env p bytes_log s ↔
      bytes_log.length ≤ BWORLD_MEMLOG_BUF_LENGTH := by
  constructor
  · intro h
    exact readsLogOnly_iff.mp h.reads
  · intro hle
    refine ⟨?_, readsLogOnly_iff.mpr hle⟩
    by_cases hshort : bytes_log.length < BWORLD_MEMLOG_BUF_LENGTH
    · exact textReturned_short hne hshort
    · have hlong := Nat.le_of_not_lt hshort
      rw [textReturned_long_iff hne hinv hkey hlong hmax hok, Nat.sub_eq_zero_of_le hle,
        List.drop_eq_nil_of_le hle]
      rfl

end Text

section Examples

/-- The flags are free and the clock stands. -/
def idleEnv : Nat → VmemEnv := fun _ => ⟨fun _ _ _ => true, fun _ _ _ => 0⟩

/-- A ring without a log, and no string in the variable-length memory. -/
def emptyText : ShmText := ⟨fun _ => 0, -1, 0, initVmem⟩

theorem storeOk_empty {bytes_log : List UInt8} (hmin : 252 < bytes_log.length)
    (hmax : bytes_log.length ≤ 268) : StoreOk 1 idleEnv 100 bytes_log emptyText := by
  intro hlong
  obtain ⟨mem, hmem⟩ : ∃ mem, mem = writeAt emptyText.mem 100
      (bytes_log.take BWORLD_MEMLOG_BUF_LENGTH) := ⟨_, rfl⟩
  have hlen : ((savedFrom 100 bytes_log.length).map mem).length = bytes_log.length - 252 := by
    rw [map_savedFrom mem hlong, length_bytesAt]
  have hshort : 0 ≤ (saveToVmem idleEnv emptyText.vmem
      ((savedFrom 100 bytes_log.length).map mem)).1 := by
    apply saveToVmem_short initVmem_bufInv
    · omega
    · omega
    · rfl
    · change 1 + 1 ≤ 30000
      decide
  obtain ⟨idx, vmem, hsave⟩ : ∃ idx vmem, saveToVmem idleEnv emptyText.vmem
      ((savedFrom 100 bytes_log.length).map mem) = (idx, vmem) := ⟨_, _, Prod.mk.eta.symm⟩
  rw [hsave] at hshort
  rw [remoteShmLogContent_long (by decide) hlong hmem hsave, if_neg (Int.not_lt.mpr hshort)]
  exact hshort

/-- A text of 256 characters. -/
theorem contentRight_iff_256 :
    StoreOk 1 idleEnv 100 (List.replicate 256 97) emptyText ∧
      ContentRight 1 idleEnv 100 (List.replicate 256 97) emptyText :=
  ⟨storeOk_empty (by decide +kernel) (by decide +kernel),
    (contentRight_iff initVmem_bufInv (by decide +kernel)
      (fun _ hb => (List.eq_of_mem_replicate hb).symm ▸ by decide +kernel) (by decide +kernel)
      (storeOk_empty (by decide +kernel) (by decide +kernel))).mpr (by decide +kernel)⟩

/-- Of a text of 257 characters the last one is lost, and the byte behind the cell is read. -/
theorem content_cut :
    ¬ ContentRight 1 idleEnv 100 (List.replicate 257 97) emptyText ∧
      ¬ TextReturned 1 idleEnv 100 (List.replicate 257 97) emptyText := by
  have hnot : ¬ TextReturned 1 idleEnv 100 (List.replicate 257 97) emptyText := by
    rw [textReturned_long_iff (fun _ hb => (List.eq_of_mem_replicate hb).symm ▸ by decide +kernel)
      initVmem_bufInv (by decide +kernel) (by decide +kernel) (by decide +kernel)
      (storeOk_empty (by decide +kernel) (by decide +kernel))]
    decide +kernel
  exact ⟨fun h => hnot h.returned, hnot⟩

end Examples

end XrkMonitor.ServerLog
