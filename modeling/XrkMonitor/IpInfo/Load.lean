import XrkMonitor.IpInfo.Table
import XrkMonitor.Library.Bytes
import XrkMonitor.Library.Decimal
import XrkMonitor.ServerVmem.Reads

/-!
# The address ranges from their file

`ReadIpInfo` reads the file of address ranges into the table. An empty table takes all records
and is sorted in the end; in a table that is in use every record is looked up by its start, and a
new one is sorted in at once. A short text stands in the entry, and an empty or long one in the
memory for variable lengths. The comparison that is to find changed texts compares the text of the
file with itself.

## Implementation notes

A record is given by the strings of its fields, which end in them; the country is not read. The
table is attached. A save has its own outcomes of the compare-and-swaps, by its number. A read of
the memory ends in any case, because every cell takes bytes of the buffer. The number of addresses,
which only a log line reads, is left out.
-/

namespace XrkMonitor.IpInfo

open Library ServerVmem Vmem

def IPINFO_HASH_NODE_COUNT : Nat := 200000

/-- The bytes of `IPINFO_FILE_MAGIC_STR`. -/
def IPINFO_FILE_MAGIC_STR : List UInt8 :=
  [95, 64, 35, 64, 37, 83, 75, 68, 70, 83, 75, 74, 115, 107, 99, 104, 101, 99, 107, 95, 109, 97,
    103, 105, 50, 48, 50, 48, 48, 52, 49, 49]

/-- `sizeof` of `TIpInfo::sprov`, `TIpInfo::scity` and `TIpInfo::sowner`. -/
def sizeofProv : Nat := 12
def sizeofCity : Nat := 16
def sizeofOwner : Nat := 16

section File

/-- `TIpInfoInFile`. -/
structure TIpInfoInFile where
  sStart : CharBuf 16
  sEnd : CharBuf 16
  sprov : CharBuf 64
  scity : CharBuf 64
  sowner : CharBuf 32

/-- `start` and `end` of a record. -/
def TIpInfoInFile.dwStart (rec : TIpInfoInFile) : UInt32 := UInt32.ofNat (strtoul rec.sStart.str)

def TIpInfoInFile.dwEnd (rec : TIpInfoInFile) : UInt32 := UInt32.ofNat (strtoul rec.sEnd.str)

/-- A file: the bytes that the first `fread` delivers, and the whole records behind them. -/
structure IpInfoFile where
  sMagicStr : List UInt8
  records : List TIpInfoInFile

end File

section Texts

/-- The memory with the number of the saves so far. -/
structure IpVmem where
  run : BufRun
  saves : Nat

/-- The state that `ReadIpInfo` works on. -/
structure IpState where
  ips : TIpInfoShm
  vmem : IpVmem

/-- What surrounds the calls of the memory: the outcomes for each attempt of each save, and for the
frees. -/
structure IpEnv where
  save : Nat → Nat → VmemEnv
  free : VmemEnv

variable (env : IpEnv)

/-- `MtReport_SaveToVmem`. -/
def IpVmem.save (v : IpVmem) (pdata : List UInt8) : Int × IpVmem :=
  let x := saveToVmem (env.save v.saves) v.run.buf pdata
  (x.1, ⟨⟨x.2, if 0 < x.1 then (x.1, pdata) :: v.run.handed else v.run.handed⟩, v.saves + 1⟩)

/-- `MtReport_FreeVmem`. -/
def IpVmem.free (v : IpVmem) (index : Int) : Option IpVmem :=
  (bufStep v.run (.free env.free index)).map fun x => { v with run := x.2 }

/-- The text that a saved one stands for, `none` for `NULL`. -/
def storedText (b : VmemBuf) : SavedText → Option (List UInt8)
  | .inline text => some text
  | .vmem idx =>
    match getFromVmemZeroCp b idx (VMEM_MAX_DATA_LEN + 1) with
    | some (.ok bytes) => some (cstr bytes)
    | _ => none

/-- A text of this length stands in the entry itself. -/
def FitsInline (size : Nat) (ptmp : List UInt8) : Prop := ptmp ≠ [] ∧ ptmp.length < size

instance (size : Nat) (ptmp : List UInt8) : Decidable (FitsInline size ptmp) :=
  inferInstanceAs (Decidable (_ ∧ _))

/-- `SAVE_IP_INFO`. -/
def saveIpInfo (size : Nat) (ptmp : List UInt8) (v : IpVmem) : SavedText × IpVmem :=
  if FitsInline size ptmp then (.inline ptmp, v)
  else
    let (vidx, v) := v.save env (ptmp ++ [0])
    (.vmem vidx, v)

/-- `CHECK_IP_UPDATE_INFO`. -/
def checkIpUpdateInfo (size : Nat) (saved : SavedText) (ptmp : List UInt8) (v : IpVmem) :
    Option (SavedText × IpVmem) :=
  let ptmp2 := storedText v.run.buf saved
  if ptmp2.isNone = true ∨ ptmp ≠ ptmp then
    (match saved with
      | .inline _ => some v
      | .vmem idx => v.free env idx).map (saveIpInfo env size ptmp)
  else some (saved, v)

end Texts

section Read

variable (env : IpEnv)

/-- A new entry. -/
def newInfo (rec : TIpInfoInFile) (v : IpVmem) : TIpInfo × IpVmem :=
  let (sprov, v) := saveIpInfo env sizeofProv rec.sprov.str v
  let (scity, v) := saveIpInfo env sizeofCity rec.scity.str v
  let (sowner, v) := saveIpInfo env sizeofOwner rec.sowner.str v
  (⟨rec.dwStart, rec.dwEnd, sprov, scity, sowner⟩, v)

/-- An entry that is there already. -/
def updateInfo (info : TIpInfo) (rec : TIpInfoInFile) (v : IpVmem) : Option (TIpInfo × IpVmem) := do
  let (sprov, v) ← checkIpUpdateInfo env sizeofProv info.sprov rec.sprov.str v
  let (scity, v) ← checkIpUpdateInfo env sizeofCity info.scity rec.scity.str v
  let (sowner, v) ← checkIpUpdateInfo env sizeofOwner info.sowner rec.sowner.str v
  some (⟨info.dwStart, rec.dwEnd, sprov, scity, sowner⟩, v)

/-- `qsort` of the entries by `IpInfoInitCmp`. -/
def sortIps (ips : TIpInfoShm) : TIpInfoShm :=
  ips.mergeSort fun a b => decide (ipInfoInitCmp a.dwStart b ≤ 0)

/-- The loop of `ReadIpInfo` over the records while `iCount` is 0. -/
def readFirst : List TIpInfoInFile → IpState → IpState
  | [], s => s
  | rec :: records, s =>
    let (info, v) := newInfo env rec s.vmem
    let s : IpState := ⟨s.ips ++ [info], v⟩
    if IPINFO_HASH_NODE_COUNT ≤ s.ips.length then s else readFirst records s

/-- The loop of `ReadIpInfo` over the records of a table that is in use. -/
def readNext : List TIpInfoInFile → IpState → Option IpState
  | [], s => some s
  | rec :: records, s =>
    match getIpInfo ipInfoInitCmp s.ips rec.dwStart with
    | none =>
      if IPINFO_HASH_NODE_COUNT ≤ s.ips.length then some s
      else
        let (info, v) := newInfo env rec s.vmem
        readNext records ⟨sortIps (s.ips ++ [info]), v⟩
    | some i =>
      (s.ips[i]?).bind fun info =>
        (updateInfo env info rec s.vmem).bind fun x =>
          readNext records ⟨s.ips.set i x.1, x.2⟩

/-- `ReadIpInfo`, with the line of an error as its code. There is no file where `fopen` fails. -/
def readIpInfo (file : Option IpInfoFile) (bReset : Bool) (s : IpState) : Option (Int × IpState) :=
  let s : IpState := if bReset then { s with ips := [] } else s
  match file with
  | none => some (-187, s)
  | some file =>
    if file.sMagicStr.length ≠ 128 ∨ cstr file.sMagicStr ≠ IPINFO_FILE_MAGIC_STR then
      some (-197, s)
    else if s.ips.length = 0 then
      let s := readFirst env file.records s
      some (0, { s with ips := sortIps s.ips })
    else (readNext env file.records s).map fun s => (0, s)

end Read

section Stored

variable {r r' : BufRun} {saved : SavedText} {ptmp : List UInt8}

/-- A saved text that the memory has, or that a failed save left. -/
def Stored (r : BufRun) : SavedText → Prop
  | .inline _ => True
  | .vmem idx =>
    idx ≤ 0 ∨ ∃ text, (∀ b ∈ text, b ≠ 0) ∧ text.length ≤ 64 ∧ (idx, text ++ [0]) ∈ r.handed

/-- The index of a saved text in the memory. -/
def ownedText : SavedText → List Int
  | .inline _ => []
  | .vmem idx => if 0 < idx then [idx] else []

theorem handed_pos (hr : ServerVmem.Reached r) {x : Int × List UInt8} (hx : x ∈ r.handed) :
    0 < x.1 := by
  obtain ⟨live, hinv⟩ := hr.inv
  obtain ⟨g, c, -, -, rfl⟩ := hinv.stored hx
  exact chainIndex_pos g c

theorem storedText_nonpos {b : VmemBuf} {idx : Int} (h : idx ≤ 0) :
    storedText b (.vmem idx) = none := by
  rw [storedText, getFromVmemZeroCp, if_pos (Or.inr h)]

theorem storedText_handed (hr : ServerVmem.Reached r) {idx : Int} {text : List UInt8}
    (hne : ∀ b ∈ text, b ≠ 0) (hlen : text.length ≤ 64) (hx : (idx, text ++ [0]) ∈ r.handed) :
    storedText r.buf (.vmem idx) = some text := by
  obtain ⟨live, hinv⟩ := hr.inv
  obtain ⟨g, c, hg, hc, heq⟩ := hinv.stored hx
  obtain ⟨rfl, hdata⟩ := Prod.mk.inj heq
  have hroom : c.data.length ≤ VMEM_MAX_DATA_LEN + 1 := by
    rw [← hdata, List.length_append, List.length_singleton]
    exact Nat.le_trans (Nat.succ_le_succ hlen) (by decide)
  rw [storedText, getFromVmemZeroCp_stored hinv.buf hg hc hroom, ← hdata]
  exact congrArg some (cstr_append_nul hne [])

theorem Stored.cases (hr : ServerVmem.Reached r) (h : Stored r saved) :
    (ownedText saved = [] ∧ storedText r.buf saved = none) ∨
      ∃ text, storedText r.buf saved = some text := by
  cases saved with
  | inline text => exact Or.inr ⟨text, rfl⟩
  | vmem idx =>
    rcases h with hidx | ⟨text, hne, hlen, hx⟩
    · exact Or.inl ⟨if_neg (by omega), storedText_nonpos hidx⟩
    · exact Or.inr ⟨text, storedText_handed hr hne hlen hx⟩

theorem Stored.mono (h : Stored r saved) (hsub : r.handed ⊆ r'.handed) : Stored r' saved := by
  cases saved with
  | inline text => trivial
  | vmem idx =>
    rcases h with hidx | ⟨text, hne, hlen, hx⟩
    · exact Or.inl hidx
    · exact Or.inr ⟨text, hne, hlen, hsub hx⟩

theorem Stored.text_eq (h : Stored r saved) (hr : ServerVmem.Reached r)
    (hr' : ServerVmem.Reached r') (hsub : r.handed ⊆ r'.handed) :
    storedText r'.buf saved = storedText r.buf saved := by
  cases saved with
  | inline text => rfl
  | vmem idx =>
    rcases h with hidx | ⟨text, hne, hlen, hx⟩
    · rw [storedText_nonpos hidx, storedText_nonpos hidx]
    · rw [storedText_handed hr hne hlen hx, storedText_handed hr' hne hlen (hsub hx)]

end Stored

section Saves

variable (env : IpEnv)

/-- The memory after saves of texts. -/
def afterSaves : List (List UInt8) → IpVmem → IpVmem
  | [], v => v
  | text :: texts, v => afterSaves texts (v.save env (text ++ [0])).2

/-- The memory takes all of the texts. -/
def Served : List (List UInt8) → IpVmem → Prop
  | [], _ => True
  | text :: texts, v => 0 < (v.save env (text ++ [0])).1 ∧ Served texts (v.save env (text ++ [0])).2

/-- The texts that `SAVE_IP_INFO` puts into the memory. -/
def vmemText (size : Nat) (ptmp : List UInt8) : List (List UInt8) :=
  if FitsInline size ptmp then [] else [ptmp]

/-- The texts that `CHECK_IP_UPDATE_INFO` puts into the memory: it replaces what it cannot read. -/
def unreadText (b : VmemBuf) (size : Nat) (saved : SavedText) (ptmp : List UInt8) :
    List (List UInt8) :=
  if (storedText b saved).isNone then vmemText size ptmp else []

variable {v : IpVmem} {saved : SavedText} {ptmp : List UInt8}

theorem afterSaves_append (as bs : List (List UInt8)) (v : IpVmem) :
    afterSaves env (as ++ bs) v = afterSaves env bs (afterSaves env as v) := by
  induction as generalizing v with
  | nil => rfl
  | cons a as ih => exact ih _

theorem served_append (as bs : List (List UInt8)) (v : IpVmem) :
    Served env (as ++ bs) v ↔ Served env as v ∧ Served env bs (afterSaves env as v) := by
  induction as generalizing v with
  | nil => exact ⟨fun h => ⟨trivial, h⟩, fun h => h.2⟩
  | cons a as ih =>
    rw [List.cons_append, Served, Served, ih, and_assoc]
    exact Iff.rfl

theorem reached_save (hr : ServerVmem.Reached v.run) (pdata : List UInt8) :
    ServerVmem.Reached (v.save env pdata).2.run := by
  have hstep : bufStep v.run (.save (env.save v.saves) pdata) =
      some ((v.save env pdata).1, (v.save env pdata).2.run) := rfl
  have hok : CallOk v.run (.save (env.save v.saves) pdata) := trivial
  exact hr.step hok hstep

theorem handed_save (v : IpVmem) (pdata : List UInt8) :
    (v.save env pdata).2.run.handed =
      if 0 < (v.save env pdata).1 then ((v.save env pdata).1, pdata) :: v.run.handed
      else v.run.handed := rfl

theorem afterSaves_keeps (hr : ServerVmem.Reached v.run) (texts : List (List UInt8)) :
    ServerVmem.Reached (afterSaves env texts v).run ∧
      v.run.handed ⊆ (afterSaves env texts v).run.handed := by
  induction texts generalizing v with
  | nil => exact ⟨hr, List.Subset.refl _⟩
  | cons text texts ih =>
    obtain ⟨hreach, hsub⟩ := ih (reached_save env hr (text ++ [0]))
    refine ⟨hreach, List.Subset.trans ?_ hsub⟩
    rw [handed_save]
    split
    · exact List.subset_cons_self _ _
    · exact List.Subset.refl _

/-- A text is in its place: `texts` have been put into the memory for it, and it reads as the text
of the file if what was there was `current` and they were taken. The indices of `before` have
gone. -/
structure TextPlaced (env : IpEnv) (v : IpVmem) (texts : List (List UInt8)) (current : Prop)
    (ptmp : List UInt8) (before : List Int) (x : SavedText × IpVmem) : Prop where
  vmem : x.2 = afterSaves env texts v
  stored : Stored x.2.run x.1
  reads : storedText x.2.run.buf x.1 = some ptmp ↔ current ∧ Served env texts v
  owned : (x.2.run.handed.map Prod.fst ++ before).Perm
    (ownedText x.1 ++ v.run.handed.map Prod.fst)

theorem saveIpInfo_placed (hr : ServerVmem.Reached v.run) (size : Nat)
    (hne : ∀ b ∈ ptmp, b ≠ 0) (hlen : ptmp.length ≤ 64) :
    TextPlaced env v (vmemText size ptmp) True ptmp [] (saveIpInfo env size ptmp v) := by
  unfold saveIpInfo
  by_cases hfits : FitsInline size ptmp
  · have hnone : vmemText size ptmp = [] := if_pos hfits
    rw [if_pos hfits, hnone]
    refine ⟨rfl, trivial, iff_of_true rfl ⟨trivial, trivial⟩, ?_⟩
    rw [List.append_nil]
    exact List.Perm.refl _
  · have hone : vmemText size ptmp = [ptmp] := if_neg hfits
    have hreach := reached_save env hr (ptmp ++ [0])
    have hhanded := handed_save env v (ptmp ++ [0])
    rw [if_neg hfits, hone]
    by_cases hok : 0 < (v.save env (ptmp ++ [0])).1
    · rw [if_pos hok] at hhanded
      have hmem : ((v.save env (ptmp ++ [0])).1, ptmp ++ [0]) ∈
          (v.save env (ptmp ++ [0])).2.run.handed := by
        rw [hhanded]
        exact List.mem_cons_self
      refine ⟨rfl, Or.inr ⟨ptmp, hne, hlen, hmem⟩, ?_, ?_⟩
      · exact iff_of_true (storedText_handed hreach hne hlen hmem) ⟨trivial, hok, trivial⟩
      · change (List.map Prod.fst (v.save env (ptmp ++ [0])).2.run.handed ++ []).Perm _
        rw [hhanded, List.map_cons, ownedText, if_pos hok, List.append_nil]
        exact List.Perm.refl _
    · rw [if_neg hok] at hhanded
      have hidx := Int.not_lt.mp hok
      refine ⟨rfl, Or.inl hidx, ?_, ?_⟩
      · refine iff_of_false (fun h => ?_) fun h => hok h.2.1
        rw [storedText_nonpos hidx] at h
        cases h
      · change (List.map Prod.fst (v.save env (ptmp ++ [0])).2.run.handed ++ []).Perm _
        rw [hhanded, ownedText, if_neg hok, List.append_nil]
        exact List.Perm.refl _

theorem free_unread (hr : ServerVmem.Reached v.run) {idx : Int} (h : idx ≤ 0) :
    v.free env idx = some v := by
  have herase : (v.run.handed.eraseP fun x => x.1 == idx) = v.run.handed := by
    apply List.eraseP_of_forall_not
    intro x hx heq
    have hpos := handed_pos hr hx
    rw [beq_iff_eq] at heq
    omega
  have hfree : ServerVmem.freeVmem env.free v.run.buf idx = some (-101, v.run.buf) := by
    rw [ServerVmem.freeVmem, if_pos (Or.inr h)]
  rw [IpVmem.free, bufStep, hfree, Option.map_some, Option.map_some, herase]

theorem checkIpUpdateInfo_placed (hr : ServerVmem.Reached v.run) (hst : Stored v.run saved)
    (size : Nat) (hne : ∀ b ∈ ptmp, b ≠ 0) (hlen : ptmp.length ≤ 64) :
    ∃ x, checkIpUpdateInfo env size saved ptmp v = some x ∧
      TextPlaced env v (unreadText v.run.buf size saved ptmp)
        (storedText v.run.buf saved = none ∨ storedText v.run.buf saved = some ptmp) ptmp
        (ownedText saved) x := by
  rcases hst.cases hr with ⟨hnothing, hnone⟩ | ⟨text, htext⟩
  · have hidx : ∃ idx, saved = .vmem idx ∧ idx ≤ 0 := by
      cases saved with
      | inline text => cases hnone
      | vmem idx =>
        refine ⟨idx, rfl, Int.not_lt.mp fun hpos => ?_⟩
        rw [ownedText, if_pos hpos] at hnothing
        cases hnothing
    obtain ⟨idx, rfl, hidx⟩ := hidx
    have hunread : unreadText v.run.buf size (.vmem idx) ptmp = vmemText size ptmp := by
      rw [unreadText, hnone]
      rfl
    have hplaced := saveIpInfo_placed env hr size hne hlen
    refine ⟨saveIpInfo env size ptmp v, ?_, ?_⟩
    · unfold checkIpUpdateInfo
      dsimp only
      rw [hnone, if_pos (Or.inl Option.isNone_none), free_unread env hr hidx, Option.map_some]
    · rw [hunread, hnothing]
      refine ⟨hplaced.vmem, hplaced.stored, ?_, hplaced.owned⟩
      rw [hplaced.reads, true_and]
      exact (and_iff_right (Or.inl hnone)).symm
  · have hunread : unreadText v.run.buf size saved ptmp = [] := by
      rw [unreadText, htext]
      rfl
    refine ⟨(saved, v), ?_, ?_⟩
    · have hkeep : ¬ ((some text).isNone = true ∨ ptmp ≠ ptmp) := by simp
      unfold checkIpUpdateInfo
      dsimp only
      rw [htext, if_neg hkeep]
    · rw [hunread]
      refine ⟨rfl, hst, ?_, List.perm_append_comm⟩
      rw [htext]
      exact ⟨fun h => ⟨Or.inr h, trivial⟩, fun h => h.1.resolve_left (Option.some_ne_none _)⟩

end Saves

section Entries

/-- The texts of an entry are there, or their saves have failed. -/
structure InfoStored (r : BufRun) (info : TIpInfo) : Prop where
  sprov : Stored r info.sprov
  scity : Stored r info.scity
  sowner : Stored r info.sowner

/-- The indices that an entry has in the memory. -/
def ownedInfo (info : TIpInfo) : List Int :=
  ownedText info.sprov ++ (ownedText info.scity ++ ownedText info.sowner)

/-- An entry says what a record says. -/
structure Says (b : VmemBuf) (info : TIpInfo) (rec : TIpInfoInFile) : Prop where
  dwEnd : info.dwEnd = rec.dwEnd
  sprov : storedText b info.sprov = some rec.sprov.str
  scity : storedText b info.scity = some rec.scity.str
  sowner : storedText b info.sowner = some rec.sowner.str

/-- The texts of an entry that can be read are those of the record. -/
structure TextsCurrent (b : VmemBuf) (info : TIpInfo) (rec : TIpInfoInFile) : Prop where
  sprov : storedText b info.sprov = none ∨ storedText b info.sprov = some rec.sprov.str
  scity : storedText b info.scity = none ∨ storedText b info.scity = some rec.scity.str
  sowner : storedText b info.sowner = none ∨ storedText b info.sowner = some rec.sowner.str

/-- The texts that a new record puts into the memory. -/
def newTexts (rec : TIpInfoInFile) : List (List UInt8) :=
  vmemText sizeofProv rec.sprov.str ++
    (vmemText sizeofCity rec.scity.str ++ vmemText sizeofOwner rec.sowner.str)

/-- The texts that a record puts into the memory if there is an entry already. -/
def updatedTexts (b : VmemBuf) (info : TIpInfo) (rec : TIpInfoInFile) : List (List UInt8) :=
  unreadText b sizeofProv info.sprov rec.sprov.str ++
    (unreadText b sizeofCity info.scity rec.scity.str ++
      unreadText b sizeofOwner info.sowner rec.sowner.str)

variable (env : IpEnv) {v : IpVmem} {r r' : BufRun} {info : TIpInfo} {rec : TIpInfoInFile}

theorem InfoStored.mono (h : InfoStored r info) (hsub : r.handed ⊆ r'.handed) :
    InfoStored r' info := ⟨h.sprov.mono hsub, h.scity.mono hsub, h.sowner.mono hsub⟩

theorem str_length_le {n : Nat} (b : CharBuf n) (hn : n ≤ 64) : b.str.length ≤ 64 := by
  have hle := b.length_str_le
  omega

/-- An entry is in its place, as its three texts are. -/
structure InfoPlaced (env : IpEnv) (v : IpVmem) (texts : List (List UInt8)) (current : Prop)
    (rec : TIpInfoInFile) (before : List Int) (x : TIpInfo × IpVmem) : Prop where
  vmem : x.2 = afterSaves env texts v
  stored : InfoStored x.2.run x.1
  agrees : Says x.2.run.buf x.1 rec ↔ current ∧ Served env texts v
  owned : (x.2.run.handed.map Prod.fst ++ before).Perm
    (ownedInfo x.1 ++ v.run.handed.map Prod.fst)

theorem infoPlaced_of_texts (hr : ServerVmem.Reached v.run) (dwStart : UInt32)
    {t₁ t₂ t₃ : List (List UInt8)} {c₁ c₂ c₃ : Prop} {o₁ o₂ o₃ : List Int}
    {sprov scity sowner : SavedText} {v₁ v₂ v₃ : IpVmem}
    (hprov : TextPlaced env v t₁ c₁ rec.sprov.str o₁ (sprov, v₁))
    (hcity : TextPlaced env v₁ t₂ c₂ rec.scity.str o₂ (scity, v₂))
    (howner : TextPlaced env v₂ t₃ c₃ rec.sowner.str o₃ (sowner, v₃)) :
    InfoPlaced env v (t₁ ++ (t₂ ++ t₃)) (c₁ ∧ c₂ ∧ c₃) rec (o₁ ++ (o₂ ++ o₃))
      (⟨dwStart, rec.dwEnd, sprov, scity, sowner⟩, v₃) := by
  obtain ⟨rfl, hst₁, hread₁, howned₁⟩ := hprov
  obtain ⟨rfl, hst₂, hread₂, howned₂⟩ := hcity
  obtain ⟨rfl, hst₃, hread₃, howned₃⟩ := howner
  have hkeep₁ := afterSaves_keeps env hr t₁
  have hkeep₂ := afterSaves_keeps env hkeep₁.1 t₂
  have hkeep₃ := afterSaves_keeps env hkeep₂.1 t₃
  have hsub₁ := List.Subset.trans hkeep₂.2 hkeep₃.2
  refine ⟨?_, ⟨hst₁.mono hsub₁, hst₂.mono hkeep₃.2, hst₃⟩, ?_, ?_⟩
  · rw [afterSaves_append, afterSaves_append]
  · have htext₁ := hst₁.text_eq hkeep₁.1 hkeep₃.1 hsub₁
    have htext₂ := hst₂.text_eq hkeep₂.1 hkeep₃.1 hkeep₃.2
    rw [served_append, served_append]
    constructor
    · intro h
      obtain ⟨hc₁, hs₁⟩ := hread₁.mp (htext₁.symm.trans h.sprov)
      obtain ⟨hc₂, hs₂⟩ := hread₂.mp (htext₂.symm.trans h.scity)
      obtain ⟨hc₃, hs₃⟩ := hread₃.mp h.sowner
      exact ⟨⟨hc₁, hc₂, hc₃⟩, hs₁, hs₂, hs₃⟩
    · rintro ⟨⟨hc₁, hc₂, hc₃⟩, hs₁, hs₂, hs₃⟩
      exact ⟨rfl, htext₁.trans (hread₁.mpr ⟨hc₁, hs₁⟩), htext₂.trans (hread₂.mpr ⟨hc₂, hs₂⟩),
        hread₃.mpr ⟨hc₃, hs₃⟩⟩
  · rw [List.perm_iff_count] at howned₁ howned₂ howned₃ ⊢
    intro idx
    have h₁ := howned₁ idx
    have h₂ := howned₂ idx
    have h₃ := howned₃ idx
    simp only [ownedInfo, List.count_append] at h₁ h₂ h₃ ⊢
    omega

theorem newInfo_placed (hr : ServerVmem.Reached v.run) (rec : TIpInfoInFile) :
    InfoPlaced env v (newTexts rec) True rec [] (newInfo env rec v) := by
  unfold newInfo newTexts
  have hprov := saveIpInfo_placed env hr sizeofProv rec.sprov.str_ne_zero
    (str_length_le _ (by decide))
  generalize saveIpInfo env sizeofProv rec.sprov.str v = x₁ at hprov ⊢
  obtain ⟨sprov, v₁⟩ := x₁
  have hv₁ : v₁ = afterSaves env (vmemText sizeofProv rec.sprov.str) v := hprov.vmem
  have hr₁ : ServerVmem.Reached v₁.run := by
    rw [hv₁]
    exact (afterSaves_keeps env hr _).1
  have hcity := saveIpInfo_placed env hr₁ sizeofCity rec.scity.str_ne_zero
    (str_length_le _ (by decide))
  dsimp only
  generalize saveIpInfo env sizeofCity rec.scity.str v₁ = x₂ at hcity ⊢
  obtain ⟨scity, v₂⟩ := x₂
  have hv₂ : v₂ = afterSaves env (vmemText sizeofCity rec.scity.str) v₁ := hcity.vmem
  have hr₂ : ServerVmem.Reached v₂.run := by
    rw [hv₂]
    exact (afterSaves_keeps env hr₁ _).1
  have howner := saveIpInfo_placed env hr₂ sizeofOwner rec.sowner.str_ne_zero
    (str_length_le _ (by decide))
  dsimp only
  generalize saveIpInfo env sizeofOwner rec.sowner.str v₂ = x₃ at howner ⊢
  obtain ⟨sowner, v₃⟩ := x₃
  have hplaced := infoPlaced_of_texts env hr rec.dwStart hprov hcity howner
  refine ⟨hplaced.vmem, hplaced.stored, ?_, hplaced.owned⟩
  rw [hplaced.agrees, and_self, and_self]

/-- What an entry that is there already becomes. -/
theorem updateInfo_placed (hr : ServerVmem.Reached v.run) (hst : InfoStored v.run info)
    (rec : TIpInfoInFile) :
    ∃ x, updateInfo env info rec v = some x ∧ x.1.dwStart = info.dwStart ∧
      InfoPlaced env v (updatedTexts v.run.buf info rec) (TextsCurrent v.run.buf info rec) rec
        (ownedInfo info) x := by
  obtain ⟨⟨sprov, v₁⟩, heq₁, hprov⟩ := checkIpUpdateInfo_placed env hr hst.sprov
    sizeofProv rec.sprov.str_ne_zero (str_length_le _ (by decide))
  have hv₁ : v₁ = afterSaves env (unreadText v.run.buf sizeofProv info.sprov rec.sprov.str) v :=
    hprov.vmem
  have hkeep₁ := afterSaves_keeps env hr
    (unreadText v.run.buf sizeofProv info.sprov rec.sprov.str)
  rw [← hv₁] at hkeep₁
  obtain ⟨⟨scity, v₂⟩, heq₂, hcity⟩ := checkIpUpdateInfo_placed env hkeep₁.1
    (hst.scity.mono hkeep₁.2) sizeofCity rec.scity.str_ne_zero (str_length_le _ (by decide))
  have hv₂ : v₂ =
      afterSaves env (unreadText v₁.run.buf sizeofCity info.scity rec.scity.str) v₁ := hcity.vmem
  have hkeep₂ := afterSaves_keeps env hkeep₁.1
    (unreadText v₁.run.buf sizeofCity info.scity rec.scity.str)
  rw [← hv₂] at hkeep₂
  have hsub₂ := List.Subset.trans hkeep₁.2 hkeep₂.2
  obtain ⟨⟨sowner, v₃⟩, heq₃, howner⟩ := checkIpUpdateInfo_placed env hkeep₂.1
    (hst.sowner.mono hsub₂) sizeofOwner rec.sowner.str_ne_zero (str_length_le _ (by decide))
  refine ⟨(⟨info.dwStart, rec.dwEnd, sprov, scity, sowner⟩, v₃), ?_, rfl, ?_⟩
  · unfold updateInfo
    rw [heq₁]
    change (checkIpUpdateInfo env sizeofCity info.scity rec.scity.str v₁).bind _ = _
    rw [heq₂]
    change (checkIpUpdateInfo env sizeofOwner info.sowner rec.sowner.str v₂).bind _ = _
    rw [heq₃]
    rfl
  · have htext₂ := hst.scity.text_eq hr hkeep₁.1 hkeep₁.2
    have htext₃ := hst.sowner.text_eq hr hkeep₂.1 hsub₂
    have hplaced := infoPlaced_of_texts env hr info.dwStart hprov hcity howner
    have htexts : updatedTexts v.run.buf info rec =
        unreadText v.run.buf sizeofProv info.sprov rec.sprov.str ++
          (unreadText v₁.run.buf sizeofCity info.scity rec.scity.str ++
            unreadText v₂.run.buf sizeofOwner info.sowner rec.sowner.str) := by
      unfold updatedTexts unreadText
      rw [htext₂, htext₃]
    rw [htexts]
    refine ⟨hplaced.vmem, hplaced.stored, ?_, hplaced.owned⟩
    rw [hplaced.agrees, htext₂, htext₃]
    exact and_congr_left' ⟨fun h => ⟨h.1, h.2.1, h.2.2⟩, fun h => ⟨h.sprov, h.scity, h.sowner⟩⟩

end Entries

end XrkMonitor.IpInfo
