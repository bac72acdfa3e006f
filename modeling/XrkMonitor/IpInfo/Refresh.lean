import XrkMonitor.IpInfo.Load

/-!
# Reading the address ranges again

After `ReadIpInfo` the table should say what the file says. It does on a first read if the memory
takes the texts. On a later one it does if, besides, the entries that are there have the texts of
the file already: a changed end is taken over, and a changed text is not. A reset forgets the texts
that the table has in the memory.

## Implementation notes

One record adds an entry or changes the one that has its start. `RecordRead` says what it does, and
both loops are lists of such steps until the table is full.
-/

namespace XrkMonitor.IpInfo

open Library ServerVmem Vmem

section Steps

/-- The entry with the start of a record. -/
def entryOf (ips : TIpInfoShm) (rec : TIpInfoInFile) : Option TIpInfo :=
  rowOf TIpInfo.first ips rec.dwStart.toNat

/-- The indices that the table has in the memory. -/
def ownedIps (ips : TIpInfoShm) : List Int := ips.flatMap ownedInfo

/-- The texts that a record puts into the memory. -/
def neededFor (b : VmemBuf) (rec : TIpInfoInFile) : Option TIpInfo → List (List UInt8)
  | none => newTexts rec
  | some info => updatedTexts b info rec

/-- An entry that is there has the texts of the record. -/
def CurrentFor (b : VmemBuf) (rec : TIpInfoInFile) (entry : Option TIpInfo) : Prop :=
  ∀ info ∈ entry, TextsCurrent b info rec

/-- The number of the records without an entry. -/
def newCount (ips : TIpInfoShm) (records : List TIpInfoInFile) : Nat :=
  records.countP fun rec => (entryOf ips rec).isNone

/-- A table whose starts are distinct and whose texts are in the memory. -/
structure TableOk (s : IpState) : Prop where
  vmem : ServerVmem.Reached s.vmem.run
  starts : (s.ips.map TIpInfo.first).Nodup
  texts : ∀ info ∈ s.ips, InfoStored s.vmem.run info
  room : s.ips.length ≤ IPINFO_HASH_NODE_COUNT

/-- What the reading of one record does. -/
structure RecordRead (env : IpEnv) (rec : TIpInfoInFile) (s s' : IpState) : Prop where
  vmem : s'.vmem = afterSaves env (neededFor s.vmem.run.buf rec (entryOf s.ips rec)) s.vmem
  starts : (s'.ips.map TIpInfo.first).Nodup
  texts : ∀ info ∈ s'.ips, InfoStored s'.vmem.run info
  others : ∀ k, k ≠ rec.dwStart.toNat →
    rowOf TIpInfo.first s'.ips k = rowOf TIpInfo.first s.ips k
  entry : ∃ info, entryOf s'.ips rec = some info ∧
    (Says s'.vmem.run.buf info rec ↔ CurrentFor s.vmem.run.buf rec (entryOf s.ips rec) ∧
      Served env (neededFor s.vmem.run.buf rec (entryOf s.ips rec)) s.vmem)
  length : s'.ips.length = s.ips.length + newCount s.ips [rec]
  room : s'.ips.length ≤ IPINFO_HASH_NODE_COUNT
  owned : (s'.vmem.run.handed.map Prod.fst ++ ownedIps s.ips).Perm
    (ownedIps s'.ips ++ s.vmem.run.handed.map Prod.fst)

variable {env : IpEnv} {s s' : IpState} {rec : TIpInfoInFile} {records : List TIpInfoInFile}
  {info : TIpInfo} {texts : List (List UInt8)}

theorem newCount_cons (ips : TIpInfoShm) (rec : TIpInfoInFile) (records : List TIpInfoInFile) :
    newCount ips (rec :: records) = newCount ips [rec] + newCount ips records := by
  unfold newCount
  rw [← List.singleton_append, List.countP_append]

theorem newCount_none (h : entryOf s.ips rec = none) : newCount s.ips [rec] = 1 := by
  unfold newCount
  rw [List.countP_singleton, h]
  rfl

theorem newCount_some (h : entryOf s.ips rec = some info) :
    newCount s.ips [rec] = 0 := by
  unfold newCount
  rw [List.countP_singleton, h]
  rfl

theorem ownedIps_perm {ips ips' : TIpInfoShm} (h : ips.Perm ips') :
    (ownedIps ips).Perm (ownedIps ips') := h.flatMap_right _

theorem handed_subset_of_afterSaves {v v' : IpVmem} (hr : ServerVmem.Reached v.run)
    (h : v' = afterSaves env texts v) :
    ServerVmem.Reached v'.run ∧ v.run.handed ⊆ v'.run.handed := by
  subst h
  exact afterSaves_keeps env hr texts

theorem InfoStored.after (h : ∀ info ∈ s.ips, InfoStored s.vmem.run info)
    (hr : ServerVmem.Reached s.vmem.run) {v : IpVmem}
    (hv : v = afterSaves env texts s.vmem) (hinfo : info ∈ s.ips) :
    InfoStored v.run info :=
  (h info hinfo).mono (handed_subset_of_afterSaves hr hv).2

theorem newInfo_first (env : IpEnv) (rec : TIpInfoInFile) (v : IpVmem) :
    (newInfo env rec v).1.first = rec.dwStart.toNat := rfl

/-- A record whose start is new becomes an entry, wherever it is put. -/
theorem recordRead_new (env : IpEnv) (h : TableOk s) (hnone : entryOf s.ips rec = none)
    (hroom : s.ips.length < IPINFO_HASH_NODE_COUNT) {ips : TIpInfoShm}
    (hperm : ips.Perm (s.ips ++ [(newInfo env rec s.vmem).1])) :
    RecordRead env rec s ⟨ips, (newInfo env rec s.vmem).2⟩ := by
  have hplaced := newInfo_placed env h.vmem rec
  have hfirst := newInfo_first env rec s.vmem
  generalize newInfo env rec s.vmem = x at hperm hplaced hfirst ⊢
  obtain ⟨info, v⟩ := x
  have hnodup : ((s.ips ++ [info]).map TIpInfo.first).Nodup := by
    rw [List.map_append, List.map_singleton, ← List.concat_eq_append, List.nodup_concat, hfirst]
    exact ⟨rowOf_eq_none_iff.mp hnone, h.starts⟩
  have hips : (ips.map TIpInfo.first).Nodup := (hperm.map TIpInfo.first).nodup_iff.mpr hnodup
  have hlength : ips.length = s.ips.length + 1 := by
    rw [hperm.length_eq, List.length_append, List.length_singleton]
  have hrow : ∀ k, rowOf TIpInfo.first ips k =
      (rowOf TIpInfo.first s.ips k).or (if rec.dwStart.toNat = k then some info else none) := by
    intro k
    rw [rowOf_perm hperm hips, rowOf_append, rowOf_cons, hfirst]
    rfl
  constructor
  · rw [hnone]
    exact hplaced.vmem
  · exact hips
  · intro x hx
    rcases List.mem_append.mp (hperm.mem_iff.mp hx) with hx | hx
    · exact InfoStored.after h.texts h.vmem hplaced.vmem hx
    · rw [List.mem_singleton.mp hx]
      exact hplaced.stored
  · intro k hk
    rw [hrow, if_neg (Ne.symm hk), Option.or_none]
  · refine ⟨info, ?_, ?_⟩
    · have hentry := hrow rec.dwStart.toNat
      rw [show rowOf TIpInfo.first s.ips rec.dwStart.toNat = none from hnone, if_pos rfl] at hentry
      exact hentry
    · rw [hnone]
      refine hplaced.agrees.trans (and_congr_left' (iff_of_true trivial ?_))
      intro x hx
      cases hx
  · rw [newCount_none hnone]
    exact hlength
  · exact hlength.trans_le hroom
  · have howned := ownedIps_perm hperm
    have hplus : ownedIps (s.ips ++ [info]) = ownedIps s.ips ++ ownedInfo info := by
      rw [ownedIps, List.flatMap_append, List.flatMap_singleton, ownedIps]
    have hsave := hplaced.owned
    rw [hplus] at howned
    rw [List.perm_iff_count] at howned hsave ⊢
    intro idx
    have h₁ := howned idx
    have h₂ := hsave idx
    simp only [List.count_append, List.count_nil] at h₁ h₂ ⊢
    omega

/-- A record whose start is there changes its entry. -/
theorem recordRead_update (env : IpEnv) (h : TableOk s) {l₁ l₂ : List TIpInfo}
    (hips : s.ips = l₁ ++ info :: l₂) (hstart : info.first = rec.dwStart.toNat) :
    ∃ x, updateInfo env info rec s.vmem = some x ∧ x.1.first = info.first ∧
      RecordRead env rec s ⟨l₁ ++ x.1 :: l₂, x.2⟩ := by
  have hmem : info ∈ s.ips := by
    rw [hips]
    exact List.mem_append_right _ List.mem_cons_self
  have hentry : entryOf s.ips rec = some info := by
    rw [entryOf, ← hstart]
    exact rowOf_eq_some_of_mem h.starts hmem
  obtain ⟨⟨info', v⟩, heq, hkeep, hplaced⟩ := updateInfo_placed env h.vmem (h.texts info hmem) rec
  have hfirst : info'.first = info.first := congrArg UInt32.toNat hkeep
  have hmap : (l₁ ++ info' :: l₂).map TIpInfo.first = s.ips.map TIpInfo.first := by
    rw [hips, List.map_append, List.map_cons, List.map_append, List.map_cons, hfirst]
  have hnodup : ((l₁ ++ info' :: l₂).map TIpInfo.first).Nodup := by
    rw [hmap]
    exact h.starts
  have hlength : (l₁ ++ info' :: l₂).length = s.ips.length := by
    rw [hips, List.length_append, List.length_append, List.length_cons, List.length_cons]
  refine ⟨(info', v), heq, hfirst, ?_⟩
  constructor
  · rw [hentry]
    exact hplaced.vmem
  · exact hnodup
  · intro x hx
    have hold : x ∈ l₁ ++ l₂ → InfoStored v.run x := fun hx => by
      refine InfoStored.after h.texts h.vmem hplaced.vmem ?_
      rw [hips, List.mem_append, List.mem_cons]
      exact (List.mem_append.mp hx).imp id Or.inr
    rcases List.mem_append.mp hx with hx | hx
    · exact hold (List.mem_append_left _ hx)
    · rcases List.mem_cons.mp hx with rfl | hx
      · exact hplaced.stored
      · exact hold (List.mem_append_right _ hx)
  · intro k hk
    have hne : info.first ≠ k := fun heq => hk (heq.symm.trans hstart)
    rw [hips, rowOf_append, rowOf_cons, rowOf_append, rowOf_cons, hfirst, if_neg hne, if_neg hne]
  · refine ⟨info', ?_, ?_⟩
    · rw [entryOf, ← hstart, ← hfirst]
      exact rowOf_eq_some_of_mem hnodup (List.mem_append_right _ List.mem_cons_self)
    · rw [hentry]
      refine hplaced.agrees.trans (and_congr_left' ⟨fun hcur x hx => ?_, fun hcur => hcur info rfl⟩)
      rw [← Option.some.inj hx]
      exact hcur
  · rw [newCount_some hentry, Nat.add_zero]
    exact hlength
  · exact hlength.trans_le h.room
  · have hsave := hplaced.owned
    rw [List.perm_iff_count] at hsave ⊢
    intro idx
    have h₁ := hsave idx
    rw [hips]
    simp only [ownedIps, List.flatMap_append, List.flatMap_cons, List.count_append] at h₁ ⊢
    omega

theorem RecordRead.tableOk (h : RecordRead env rec s s') (hs : TableOk s) : TableOk s' :=
  ⟨(handed_subset_of_afterSaves hs.vmem h.vmem).1, h.starts, h.texts, h.room⟩

end Steps

section Records

/-- The records have been read one after the other, until the table was full. -/
inductive RecordsRead (env : IpEnv) : List TIpInfoInFile → IpState → IpState → Prop
  | nil (s) : RecordsRead env [] s s
  | cons {rec records s s₁ s'} (hread : RecordRead env rec s s₁)
      (htail : RecordsRead env records s₁ s') : RecordsRead env (rec :: records) s s'
  | full {rec records s} (hnone : entryOf s.ips rec = none)
      (hfull : IPINFO_HASH_NODE_COUNT ≤ s.ips.length) : RecordsRead env (rec :: records) s s

/-- The texts that the records put into the memory. -/
def neededTexts (b : VmemBuf) (ips : TIpInfoShm) (records : List TIpInfoInFile) :
    List (List UInt8) :=
  records.flatMap fun rec => neededFor b rec (entryOf ips rec)

/-- What a table has to be for the records: the texts of their entries are those of the records,
there is room for the others, and the memory takes the texts. -/
structure Readable (env : IpEnv) (records : List TIpInfoInFile) (s : IpState) : Prop where
  current : ∀ rec ∈ records, CurrentFor s.vmem.run.buf rec (entryOf s.ips rec)
  room : s.ips.length + newCount s.ips records ≤ IPINFO_HASH_NODE_COUNT
  served : Served env (neededTexts s.vmem.run.buf s.ips records) s.vmem

/-- The table says what a record says. -/
def SaysRecord (s : IpState) (rec : TIpInfoInFile) : Prop :=
  ∃ info, entryOf s.ips rec = some info ∧ Says s.vmem.run.buf info rec

variable {env : IpEnv} {s s₁ s' : IpState} {rec : TIpInfoInFile} {records : List TIpInfoInFile}

/-- The starts of the records. -/
def starts (records : List TIpInfoInFile) : List UInt32 := records.map TIpInfoInFile.dwStart

theorem RecordsRead.keeps (h : RecordsRead env records s s') (hs : TableOk s) :
    TableOk s' ∧ s.vmem.run.handed ⊆ s'.vmem.run.handed ∧
      (∀ k, (∀ rec ∈ records, k ≠ rec.dwStart.toNat) →
        rowOf TIpInfo.first s'.ips k = rowOf TIpInfo.first s.ips k) ∧
      (s'.vmem.run.handed.map Prod.fst ++ ownedIps s.ips).Perm
        (ownedIps s'.ips ++ s.vmem.run.handed.map Prod.fst) := by
  induction h with
  | nil s => exact ⟨hs, List.Subset.refl _, fun _ _ => rfl, List.perm_append_comm⟩
  | full hnone hfull => exact ⟨hs, List.Subset.refl _, fun _ _ => rfl, List.perm_append_comm⟩
  | @cons rec records s s₁ s' hread htail ih =>
    obtain ⟨hok, hsub, hrows, howned⟩ := ih (hread.tableOk hs)
    have hstep := handed_subset_of_afterSaves hs.vmem hread.vmem
    refine ⟨hok, List.Subset.trans hstep.2 hsub, ?_, ?_⟩
    · intro k hk
      rw [hrows k fun r hr => hk r (List.mem_cons_of_mem _ hr),
        hread.others k (hk rec List.mem_cons_self)]
    · have hone := hread.owned
      rw [List.perm_iff_count] at hone howned ⊢
      intro idx
      have h₁ := hone idx
      have h₂ := howned idx
      simp only [List.count_append] at h₁ h₂ ⊢
      omega

theorem textsCurrent_after (rec : TIpInfoInFile) {r r' : BufRun} {info : TIpInfo}
    (h : InfoStored r info) (hr : ServerVmem.Reached r) (hr' : ServerVmem.Reached r')
    (hsub : r.handed ⊆ r'.handed) :
    (TextsCurrent r'.buf info rec ↔ TextsCurrent r.buf info rec) ∧
      (Says r'.buf info rec ↔ Says r.buf info rec) ∧
      updatedTexts r'.buf info rec = updatedTexts r.buf info rec := by
  have hprov := h.sprov.text_eq hr hr' hsub
  have hcity := h.scity.text_eq hr hr' hsub
  have howner := h.sowner.text_eq hr hr' hsub
  refine ⟨⟨?_, ?_⟩, ⟨?_, ?_⟩, ?_⟩
  · rintro ⟨h₁, h₂, h₃⟩
    rw [hprov] at h₁
    rw [hcity] at h₂
    rw [howner] at h₃
    exact ⟨h₁, h₂, h₃⟩
  · rintro ⟨h₁, h₂, h₃⟩
    rw [← hprov] at h₁
    rw [← hcity] at h₂
    rw [← howner] at h₃
    exact ⟨h₁, h₂, h₃⟩
  · rintro ⟨h₁, h₂, h₃, h₄⟩
    exact ⟨h₁, hprov.symm.trans h₂, hcity.symm.trans h₃, howner.symm.trans h₄⟩
  · rintro ⟨h₁, h₂, h₃, h₄⟩
    exact ⟨h₁, hprov.trans h₂, hcity.trans h₃, howner.trans h₄⟩
  · unfold updatedTexts unreadText
    rw [hprov, hcity, howner]

theorem RecordRead.needs_other (h : RecordRead env rec s s₁) (hs : TableOk s)
    {other : TIpInfoInFile} (hne : other.dwStart ≠ rec.dwStart) :
    entryOf s₁.ips other = entryOf s.ips other ∧
      (CurrentFor s₁.vmem.run.buf other (entryOf s.ips other) ↔
        CurrentFor s.vmem.run.buf other (entryOf s.ips other)) ∧
      neededFor s₁.vmem.run.buf other (entryOf s.ips other) =
        neededFor s.vmem.run.buf other (entryOf s.ips other) := by
  have hentry : entryOf s₁.ips other = entryOf s.ips other :=
    h.others _ fun heq => hne (UInt32.toNat_inj.mp heq)
  refine ⟨hentry, ?_⟩
  cases hrow : entryOf s.ips other with
  | none =>
    refine ⟨⟨fun _ x hx => ?_, fun _ x hx => ?_⟩, rfl⟩
    · cases hx
    · cases hx
  | some info =>
    have hstored := hs.texts info (rowOf_some hrow).1
    have hstep := handed_subset_of_afterSaves hs.vmem h.vmem
    have hafter := textsCurrent_after other hstored hs.vmem hstep.1 hstep.2
    refine ⟨⟨?_, ?_⟩, hafter.2.2⟩
    · intro hcur x hx
      rw [← Option.some.inj hx]
      exact hafter.1.mp (hcur info rfl)
    · intro hcur x hx
      rw [← Option.some.inj hx]
      exact hafter.1.mpr (hcur info rfl)

theorem RecordRead.readable_tail (h : RecordRead env rec s s₁) (hs : TableOk s)
    (hne : ∀ other ∈ records, other.dwStart ≠ rec.dwStart) :
    Readable env (rec :: records) s ↔
      (CurrentFor s.vmem.run.buf rec (entryOf s.ips rec) ∧
        Served env (neededFor s.vmem.run.buf rec (entryOf s.ips rec)) s.vmem) ∧
      Readable env records s₁ := by
  have hothers := fun other hother => h.needs_other hs (hne other hother)
  have hcount : newCount s₁.ips records = newCount s.ips records := by
    refine List.countP_congr fun other hother => ?_
    rw [(hothers other hother).1]
  have htexts : neededTexts s₁.vmem.run.buf s₁.ips records =
      neededTexts s.vmem.run.buf s.ips records := by
    refine List.flatMap_congr fun other hother => ?_
    rw [(hothers other hother).1, (hothers other hother).2.2]
  have hserved : Served env (neededTexts s.vmem.run.buf s.ips (rec :: records)) s.vmem ↔
      Served env (neededFor s.vmem.run.buf rec (entryOf s.ips rec)) s.vmem ∧
        Served env (neededTexts s₁.vmem.run.buf s₁.ips records) s₁.vmem := by
    rw [htexts, h.vmem, neededTexts, List.flatMap_cons, served_append]
    rfl
  have hroom : s₁.ips.length + newCount s₁.ips records =
      s.ips.length + newCount s.ips (rec :: records) := by
    rw [h.length, hcount, newCount_cons s.ips rec records, Nat.add_assoc]
  constructor
  · rintro ⟨hcur, hle, hserv⟩
    obtain ⟨hone, hrest⟩ := hserved.mp hserv
    refine ⟨⟨hcur rec List.mem_cons_self, hone⟩, ?_, hroom ▸ hle, hrest⟩
    intro other hother
    rw [(hothers other hother).1, (hothers other hother).2.1]
    exact hcur other (List.mem_cons_of_mem _ hother)
  · rintro ⟨⟨hcur, hone⟩, hrest⟩
    refine ⟨?_, hroom ▸ hrest.room, hserved.mpr ⟨hone, hrest.served⟩⟩
    intro other hother
    rcases List.mem_cons.mp hother with rfl | hother
    · exact hcur
    · have htail := hrest.current other hother
      rwa [(hothers other hother).1, (hothers other hother).2.1] at htail

/-- Exactly then the table says what all records say. -/
theorem RecordsRead.saysRecord_iff (h : RecordsRead env records s s') (hs : TableOk s)
    (hstarts : (starts records).Nodup) :
    (∀ rec ∈ records, SaysRecord s' rec) ↔ Readable env records s := by
  induction h with
  | nil s =>
    refine iff_of_true (List.forall_mem_nil _) ⟨List.forall_mem_nil _, ?_, trivial⟩
    exact hs.room
  | @full rec records s hnone hfull =>
    refine iff_of_false (fun hsays => ?_) fun hread => ?_
    · obtain ⟨info, hentry, -⟩ := hsays rec List.mem_cons_self
      rw [hnone] at hentry
      cases hentry
    · have hroom := hread.room
      rw [newCount_cons, newCount_none hnone] at hroom
      omega
  | @cons rec records s s₁ s' hread htail ih =>
    unfold starts at hstarts ih
    rw [List.map_cons, List.nodup_cons] at hstarts
    have hne : ∀ other ∈ records, other.dwStart ≠ rec.dwStart := by
      intro other hother heq
      exact hstarts.1 (heq ▸ List.mem_map_of_mem hother)
    have hok := hread.tableOk hs
    obtain ⟨hok', hsub, hrows, -⟩ := htail.keeps hok
    rw [List.forall_mem_cons, ih hok hstarts.2, hread.readable_tail hs hne]
    refine and_congr_left' ?_
    obtain ⟨info, hentry, hsays⟩ := hread.entry
    have hkeep : entryOf s'.ips rec = some info := by
      rw [← hentry]
      exact hrows _ fun other hother heq => hne other hother (UInt32.toNat_inj.mp heq.symm)
    have hafter := textsCurrent_after rec (hok.texts info (rowOf_some hentry).1) hok.vmem
      hok'.vmem hsub
    rw [← hsays, ← hafter.2.1]
    constructor
    · rintro ⟨x, hx, hagree⟩
      rw [hkeep] at hx
      rwa [Option.some.inj hx]
    · intro hagree
      exact ⟨info, hkeep, hagree⟩

end Records

section Loops

/-- The comparison of two starts. -/
def cmpStart (a b : Nat) : Int := if a < b then -1 else if a > b then 1 else 0

/-- The entry that a look-up by its start gives. -/
def foundInfo (ips : TIpInfoShm) (dwStart : UInt32) : Option TIpInfo :=
  (getIpInfo ipInfoInitCmp ips dwStart).bind fun i => ips[i]?

variable (env : IpEnv) {s s' : IpState} {rec : TIpInfoInFile} {records : List TIpInfoInFile}
  {ips : TIpInfoShm}

theorem comparesOn_cmpStart : ComparesOn cmpStart Set.univ := by
  constructor
  · intro a _ b _
    unfold cmpStart
    split_ifs <;> simp <;> omega
  · intro a _ b _
    unfold cmpStart
    split_ifs <;> simp <;> omega

theorem ipInfoInitCmp_eq (dwStart : UInt32) (info : TIpInfo) :
    ipInfoInitCmp dwStart info = cmpStart dwStart.toNat info.first := by
  simp only [ipInfoInitCmp, cmpStart, TIpInfo.first, UInt32.lt_iff_toNat_lt, gt_iff_lt]

theorem sortIps_eq (ips : TIpInfoShm) : sortIps ips = qsort cmpStart TIpInfo.first ips := by
  unfold sortIps qsort
  simp only [ipInfoInitCmp_eq]
  rfl

theorem getIpInfo_init (ips : TIpInfoShm) (dwStart : UInt32) :
    getIpInfo ipInfoInitCmp ips dwStart =
      searchKey cmpStart TIpInfo.first dwStart.toNat ips := by
  rw [getIpInfo_eq, searchKey]
  exact congrArg (fun f => bsearch f ips) (funext (ipInfoInitCmp_eq dwStart))

theorem foundInfo_eq (hsort : SortedBy TIpInfo.first ips) (dwStart : UInt32) :
    foundInfo ips dwStart = rowOf TIpInfo.first ips dwStart.toNat := by
  rw [foundInfo, getIpInfo_init]
  cases hsearch : searchKey cmpStart TIpInfo.first dwStart.toNat ips with
  | none =>
    have hmiss := searchKey_none comparesOn_cmpStart (fun _ _ => trivial) trivial hsort hsearch
    rw [rowOf_eq_none_iff.mpr hmiss]
    rfl
  | some i =>
    obtain ⟨l₁, info, l₂, rfl, rfl, hkey⟩ :=
      searchKey_some comparesOn_cmpStart (fun _ _ => trivial) trivial hsearch
    rw [← hkey, rowOf_eq_some_of_mem hsort.nodup
      (List.mem_append_right _ List.mem_cons_self), Option.bind_some, List.getElem?_append_right
      (Nat.le_refl _), Nat.sub_self, List.getElem?_cons_zero]

theorem recordsRead_full (hfull : IPINFO_HASH_NODE_COUNT ≤ s.ips.length)
    (hnew : ∀ rec ∈ records, entryOf s.ips rec = none) : RecordsRead env records s s := by
  cases records with
  | nil => exact .nil s
  | cons rec records => exact .full (hnew rec List.mem_cons_self) hfull

theorem readFirst_reads (hs : TableOk s) (hroom : s.ips.length < IPINFO_HASH_NODE_COUNT)
    (hstarts : (starts records).Nodup) (hnew : ∀ rec ∈ records, entryOf s.ips rec = none) :
    RecordsRead env records s (readFirst env records s) := by
  induction records generalizing s with
  | nil => exact .nil s
  | cons rec records ih =>
    have hread := recordRead_new env hs (hnew rec List.mem_cons_self) hroom
      (List.Perm.refl _)
    have hok := hread.tableOk hs
    unfold starts at hstarts
    rw [List.map_cons, List.nodup_cons] at hstarts
    have hnew' : ∀ other ∈ records,
        entryOf (s.ips ++ [(newInfo env rec s.vmem).1]) other = none := by
      intro other hother
      have hne : other.dwStart ≠ rec.dwStart := fun heq =>
        hstarts.1 (heq ▸ List.mem_map_of_mem hother)
      rw [(hread.needs_other hs hne).1]
      exact hnew other (List.mem_cons_of_mem _ hother)
    refine .cons hread ?_
    rw [readFirst]
    dsimp only
    split_ifs with hfull
    · exact recordsRead_full env hfull hnew'
    · exact ih hok (Nat.lt_of_not_le hfull) hstarts.2 hnew'

/-- The loop of a later read keeps the table in order. -/
theorem readNext_reads (hs : TableOk s) (hsort : SortedBy TIpInfo.first s.ips)
    (records : List TIpInfoInFile) :
    ∃ s', readNext env records s = some s' ∧ RecordsRead env records s s' ∧
      SortedBy TIpInfo.first s'.ips := by
  induction records generalizing s with
  | nil => exact ⟨s, rfl, .nil s, hsort⟩
  | cons rec records ih =>
    have hentry : entryOf s.ips rec = foundInfo s.ips rec.dwStart := (foundInfo_eq hsort _).symm
    rw [readNext]
    cases hget : getIpInfo ipInfoInitCmp s.ips rec.dwStart with
    | none =>
      rw [foundInfo, hget, Option.bind_none] at hentry
      dsimp only
      split_ifs with hfull
      · exact ⟨s, rfl, .full hentry hfull, hsort⟩
      · have hsorted := hsort.insert comparesOn_cmpStart (fun _ _ => trivial) trivial
          (r := (newInfo env rec s.vmem).1) (rowOf_eq_none_iff.mp hentry)
        have hperm : (sortIps (s.ips ++ [(newInfo env rec s.vmem).1])).Perm
            (s.ips ++ [(newInfo env rec s.vmem).1]) := List.mergeSort_perm _ _
        have hread := recordRead_new env hs hentry (Nat.lt_of_not_le hfull) hperm
        rw [← sortIps_eq] at hsorted
        obtain ⟨s', heq, hreads, hsort'⟩ := ih (hread.tableOk hs) hsorted.1
        exact ⟨s', heq, .cons hread hreads, hsort'⟩
    | some i =>
      rw [getIpInfo_init] at hget
      obtain ⟨l₁, info, l₂, hips, rfl, hkey⟩ :=
        searchKey_some comparesOn_cmpStart (fun _ _ => trivial) trivial hget
      obtain ⟨x, hupdate, hfirst, hread⟩ := recordRead_update env hs hips hkey
      have hset : s.ips.set l₁.length x.1 = l₁ ++ x.1 :: l₂ := by
        rw [hips, List.set_append_right _ _ (Nat.le_refl _), Nat.sub_self, List.set_cons_zero]
      have hat : s.ips[l₁.length]? = some info := by
        rw [hips, List.getElem?_append_right (Nat.le_refl _), Nat.sub_self,
          List.getElem?_cons_zero]
      have hsorted : SortedBy TIpInfo.first (l₁ ++ x.1 :: l₂) := by
        have hmodify := (hips ▸ hsort).modify (f := fun _ => x.1) hfirst
        rw [List.modify_eq_take_cons_drop (by simp)] at hmodify
        simpa using hmodify.1
      obtain ⟨s', heq, hreads, hsort'⟩ := ih (hread.tableOk hs) hsorted
      refine ⟨s', ?_, .cons hread hreads, hsort'⟩
      dsimp only
      rw [hat, Option.bind_some, hupdate, Option.bind_some, hset]
      exact heq

end Loops

section Refresh

/-- The file is one that `ReadIpInfo` takes. -/
def IpInfoFile.MagicOk (file : IpInfoFile) : Prop :=
  file.sMagicStr.length = 128 ∧ cstr file.sMagicStr = IPINFO_FILE_MAGIC_STR

/-- A table as it is between two reads: in order, with exactly its own texts and the strings of
`others` in the memory. -/
structure IpOk (others : List Int) (s : IpState) : Prop where
  table : TableOk s
  sorted : SortedBy TIpInfo.first s.ips
  owned : (s.vmem.run.handed.map Prod.fst).Perm (others ++ ownedIps s.ips)

/-- The table says what the file says, is in order, and no text is left behind. -/
structure IpRefreshed (others : List Int) (file : IpInfoFile) (s : IpState) : Prop where
  found : ∀ rec ∈ file.records, ∃ info, foundInfo s.ips rec.dwStart = some info ∧
    Says s.vmem.run.buf info rec
  sorted : SortedBy TIpInfo.first s.ips
  owned : (s.vmem.run.handed.map Prod.fst).Perm (others ++ ownedIps s.ips)

/-- The state that the records are read into. -/
def resetIps (bReset : Bool) (s : IpState) : IpState := if bReset then { s with ips := [] } else s

/-- The indices that a reset forgets. -/
def forgotten (bReset : Bool) (s : IpState) : List Int := if bReset then ownedIps s.ips else []

variable (env : IpEnv) {s s' : IpState} {others : List Int} {file : IpInfoFile}

theorem IpOk.resetIps (h : IpOk others s) (bReset : Bool) :
    IpOk (others ++ forgotten bReset s) (resetIps bReset s) := by
  cases bReset with
  | false =>
    refine ⟨h.table, h.sorted, ?_⟩
    rw [forgotten, if_neg Bool.false_ne_true, List.append_nil]
    exact h.owned
  | true =>
    refine ⟨⟨h.table.vmem, List.nodup_nil, List.forall_mem_nil _, Nat.zero_le _⟩,
      List.Pairwise.nil, ?_⟩
    rw [forgotten, if_pos rfl]
    exact (List.append_nil _).symm ▸ h.owned

theorem readIpInfo_reads (hs : IpOk others s) (hmagic : file.MagicOk)
    (hstarts : (starts file.records).Nodup) (bReset : Bool) :
    ∃ s₁ s', readIpInfo env (some file) bReset s = some (0, s') ∧
      RecordsRead env file.records (resetIps bReset s) s₁ ∧ s'.vmem = s₁.vmem ∧
      s'.ips.Perm s₁.ips ∧ SortedBy TIpInfo.first s'.ips := by
  have hok := hs.resetIps bReset
  have hgood : ¬ (file.sMagicStr.length ≠ 128 ∨ cstr file.sMagicStr ≠ IPINFO_FILE_MAGIC_STR) := by
    rw [not_or, not_not, not_not]
    exact hmagic
  rw [readIpInfo]
  change ∃ s₁ s', (if file.sMagicStr.length ≠ 128 ∨ cstr file.sMagicStr ≠ IPINFO_FILE_MAGIC_STR then
      some (-197, resetIps bReset s)
    else if (resetIps bReset s).ips.length = 0 then
      some (0, { readFirst env file.records (resetIps bReset s) with
        ips := sortIps (readFirst env file.records (resetIps bReset s)).ips })
    else (readNext env file.records (resetIps bReset s)).map fun s => (0, s)) = some (0, s') ∧ _
  generalize IpInfo.resetIps bReset s = s₀ at hok ⊢
  rw [if_neg hgood]
  split_ifs with hempty
  · have hnil := List.length_eq_zero_iff.mp hempty
    have hnew : ∀ rec ∈ file.records, entryOf s₀.ips rec = none := by
      intro rec hrec
      rw [hnil]
      rfl
    have hreads := readFirst_reads env hok.table (by rw [hempty]; decide) hstarts hnew
    have hperm : (sortIps (readFirst env file.records s₀).ips).Perm
        (readFirst env file.records s₀).ips := List.mergeSort_perm _ _
    refine ⟨_, _, rfl, hreads, rfl, hperm, ?_⟩
    have hnodup := (hreads.keeps hok.table).1.starts
    change SortedBy TIpInfo.first (sortIps (readFirst env file.records s₀).ips)
    rw [sortIps_eq]
    exact sortedBy_qsort comparesOn_cmpStart (fun _ _ => trivial) hnodup
  · obtain ⟨s₁, heq, hreads, hsort⟩ := readNext_reads env hok.table hok.sorted file.records
    rw [heq]
    exact ⟨s₁, s₁, rfl, hreads, rfl, List.Perm.refl _, hsort⟩

theorem readIpInfo_keeps (hs : IpOk others s) (hmagic : file.MagicOk)
    (hstarts : (starts file.records).Nodup) (bReset : Bool) :
    ∃ s', readIpInfo env (some file) bReset s = some (0, s') ∧
      IpOk (others ++ forgotten bReset s) s' ∧
      ((∀ rec ∈ file.records, ∃ info, foundInfo s'.ips rec.dwStart = some info ∧
          Says s'.vmem.run.buf info rec) ↔ Readable env file.records (resetIps bReset s)) := by
  obtain ⟨s₁, s', heq, hreads, hvmem, hperm, hsort⟩ :=
    readIpInfo_reads env hs hmagic hstarts bReset
  have hok := hs.resetIps bReset
  obtain ⟨htable, -, -, howned⟩ := hreads.keeps hok.table
  have hstarts' : (s'.ips.map TIpInfo.first).Nodup := hsort.nodup
  refine ⟨s', heq, ⟨⟨?_, hstarts', ?_, ?_⟩, hsort, ?_⟩, ?_⟩
  · rw [hvmem]
    exact htable.vmem
  · intro info hinfo
    rw [hvmem]
    exact htable.texts info (hperm.mem_iff.mp hinfo)
  · rw [hperm.length_eq]
    exact htable.room
  · have hbefore := hok.owned
    have hafter := ownedIps_perm hperm
    rw [hvmem]
    rw [List.perm_iff_count] at hbefore hafter howned ⊢
    intro idx
    have h₁ := hbefore idx
    have h₂ := hafter idx
    have h₃ := howned idx
    simp only [List.count_append] at h₁ h₂ h₃ ⊢
    omega
  · rw [← hreads.saysRecord_iff hok.table hstarts]
    refine forall₂_congr fun rec _ => ?_
    rw [foundInfo_eq hsort, rowOf_perm hperm hstarts', hvmem]
    rfl

/-- After a read the table says what the file says, with no text left behind, exactly if a reset
forgets no text, the entries that are there have the texts of the file, and the new ones find room
in the table and in the memory. -/
theorem readIpInfo_refreshes_iff (hs : IpOk others s) (hmagic : file.MagicOk)
    (hstarts : (starts file.records).Nodup) (bReset : Bool) :
    (∃ s', readIpInfo env (some file) bReset s = some (0, s') ∧ IpRefreshed others file s') ↔
      forgotten bReset s = [] ∧ Readable env file.records (resetIps bReset s) := by
  obtain ⟨s', heq, hok, hfound⟩ := readIpInfo_keeps env hs hmagic hstarts bReset
  have hlost : (s'.vmem.run.handed.map Prod.fst).Perm (others ++ ownedIps s'.ips) ↔
      forgotten bReset s = [] := by
    constructor
    · intro h
      have hlength := (h.symm.trans hok.owned).length_eq
      simp only [List.length_append] at hlength
      exact List.length_eq_zero_iff.mp (by omega)
    · intro h
      have howned := hok.owned
      rwa [h, List.append_nil] at howned
  constructor
  · rintro ⟨x, hx, href⟩
    rw [heq] at hx
    obtain rfl := (Prod.mk.inj (Option.some.inj hx)).2
    exact ⟨hlost.mp href.owned, hfound.mp href.found⟩
  · rintro ⟨hforget, hread⟩
    exact ⟨s', heq, hfound.mpr hread, hok.sorted, hlost.mpr hforget⟩

/-- A record of short texts. -/
def shortRecord (sStart sEnd sprov scity sowner : List UInt8) : TIpInfoInFile where
  sStart := .strncpy 16 sStart
  sEnd := .strncpy 16 sEnd
  sprov := .strncpy 64 sprov
  scity := .strncpy 64 scity
  sowner := .strncpy 32 sowner

/-- A file with the range from 10 to 20. -/
def oneRangeFile (scity : List UInt8) : IpInfoFile where
  sMagicStr := IPINFO_FILE_MAGIC_STR ++ List.replicate 96 0
  records := [shortRecord [49, 48] [50, 48] [97] scity [99]]

/-- Calls of the memory that meet no other process. -/
def quietIpEnv : IpEnv where
  save := fun _ _ => ⟨fun _ _ _ => true, fun _ _ _ => 0⟩
  free := ⟨fun _ _ _ => true, fun _ _ _ => 0⟩

/-- A state whose entries have their texts inline. -/
def inlineState (ips : TIpInfoShm) : IpState := ⟨ips, bufStart, 0⟩

theorem readIpInfo_refreshes_first :
    ∃ s', readIpInfo quietIpEnv (some (oneRangeFile [98])) false (inlineState []) = some (0, s') ∧
      IpRefreshed [] (oneRangeFile [98]) s' := by
  have hok : IpOk [] (inlineState []) :=
    ⟨⟨⟨[], [], trivial, rfl⟩, List.nodup_nil, List.forall_mem_nil _, Nat.zero_le _⟩,
      List.Pairwise.nil, List.Perm.refl _⟩
  have hmagic : (oneRangeFile [98]).MagicOk := ⟨by decide +kernel, by decide +kernel⟩
  refine (readIpInfo_refreshes_iff quietIpEnv hok hmagic (by decide +kernel) false).mpr
    ⟨rfl, ?_, by decide +kernel, trivial⟩
  intro rec hrec info hinfo
  cases hinfo

/-- The city of a range is not taken over from a new file. -/
theorem readIpInfo_keeps_old_city :
    ¬ ∀ (env : IpEnv) (others : List Int) (s : IpState) (file : IpInfoFile) (bReset : Bool),
      IpOk others s → file.MagicOk → (starts file.records).Nodup →
      file.records.length ≤ IPINFO_HASH_NODE_COUNT →
      ∃ s', readIpInfo env (some file) bReset s = some (0, s') ∧ IpRefreshed others file s' := by
  intro hall
  have hok : IpOk [] (inlineState [⟨10, 20, .inline [97], .inline [98], .inline [99]⟩]) := by
    refine ⟨⟨⟨[], [], trivial, rfl⟩, by decide +kernel, ?_, by decide +kernel⟩, by decide,
      List.Perm.refl _⟩
    intro info hinfo
    rw [List.mem_singleton.mp hinfo]
    exact ⟨trivial, trivial, trivial⟩
  have hmagic : (oneRangeFile [100]).MagicOk := ⟨by decide +kernel, by decide +kernel⟩
  have hstarts : (starts (oneRangeFile [100]).records).Nodup := by decide +kernel
  obtain ⟨s', heq, href⟩ := hall quietIpEnv [] _ (oneRangeFile [100]) false hok hmagic hstarts
    (by decide +kernel)
  obtain ⟨x, hx, -, hfound⟩ := readIpInfo_keeps quietIpEnv hok hmagic hstarts false
  rw [heq] at hx
  obtain rfl := (Prod.mk.inj (Option.some.inj hx)).2
  have hentry : entryOf [⟨10, 20, .inline [97], .inline [98], .inline [99]⟩]
      (shortRecord [49, 48] [50, 48] [97] [100] [99]) =
      some ⟨10, 20, .inline [97], .inline [98], .inline [99]⟩ := by decide +kernel
  rcases ((hfound.mp href.found).current _ List.mem_cons_self _ hentry).scity with hnone | hsome
  · cases hnone
  · exact absurd hsome (by decide +kernel)

end Refresh

end XrkMonitor.IpInfo
