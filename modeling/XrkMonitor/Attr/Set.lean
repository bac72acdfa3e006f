import XrkMonitor.Attr.Runs

/-!
# Setting an attribute counter

`MtReport_Attr_Set` writes its value to the first counter of the attribute that
its search through the tables meets, or to a free cell that it meets before. A
counter of the attribute in a later table stays, and in the special list the
value is added. So what is drained afterwards is the value that was set exactly
when the attribute had no counter besides the one that was overwritten.

## Implementation notes

Runs here also have calls that fail, and other processes that hold a free cell:
`contend` gives an unused cell any `bSyncProcess`.
-/

namespace XrkMonitor.Attr

open Library SharedHash SharedHashTable

/-- The loop of `MtReport_Attr_Set` over the tables that are left. -/
def attrSetLoop (env : LockEnv) (attr iValue : Int) :
    Nat → List (SharedHashTable AttrNode) → AddEnd × List (SharedHashTable AttrNode)
  | _, [] => (.noTable, [])
  | bCheckCount, t :: ts =>
    match hashTableSearchEx t ⟨0, attr, 0⟩ attr.toNat with
    | (true, some c) =>
      let node := t.node c
      (.stored, t.setNode c { node with iCurValue := iValue } :: ts)
    | (false, some c) =>
      let node := t.node c
      if node.bSyncProcess = 0 ∨ 10 ≤ node.bSyncProcess then
        let bSyncProcess := if node.bSyncProcess = 0 then 1 else node.bSyncProcess
        (.stored, (insertHashNode env (t.setNode c ⟨bSyncProcess, attr, iValue⟩) c).2 :: ts)
      else
        let t := t.setNode c { node with bSyncProcess := node.bSyncProcess + 1 }
        if 10 < bCheckCount + 1 then (.gaveUp, t :: ts)
        else passTable t (attrSetLoop env attr iValue (bCheckCount + 1) ts)
    | (_, none) => passTable t (attrSetLoop env attr iValue bCheckCount ts)

/-- `MtReport_Attr_Set`. -/
def mtReportAttrSet (env : LockEnv) (s : AttrShm) (attr iValue : Int) : Int × AttrShm :=
  if attr ≤ 0 ∨ iValue ≤ 0 then (-1, s)
  else
    match attrSetLoop env attr iValue 0 s.stAttrHash with
    | (.stored, ts) => (0, flushSpec { s with stAttrHash := ts })
    | (.gaveUp, ts) => (-2, (mtReportAttrSpec (flushSpec { s with stAttrHash := ts }) 238 1).2)
    | (.noTable, ts) => mtReportAttrSpec (flushSpec { s with stAttrHash := ts }) attr iValue

/-- The value of the counter of the attribute that the search through the tables meets before a cell
that it can take. -/
def firstCounter (attr : Int) : List (SharedHashTable AttrNode) → Int
  | [] => 0
  | t :: ts =>
    match hashTableSearchEx t ⟨0, attr, 0⟩ attr.toNat with
    | (true, some c) => (t.node c).iCurValue
    | (false, some c) =>
      if (t.node c).bSyncProcess = 0 ∨ 10 ≤ (t.node c).bSyncProcess then 0
      else firstCounter attr ts
    | (_, none) => firstCounter attr ts

/-- The counter that the search meets first is all that there is of the attribute. -/
def SoleCounter (s : AttrShm) (attr : Int) : Prop :=
  pendingOf s attr = firstCounter attr s.stAttrHash

section Call

variable {s : AttrShm} {t : SharedHashTable AttrNode} {ts : List (SharedHashTable AttrNode)}
  {l : List Nat} {env : LockEnv} {attr iValue : Int}

theorem TableOk.overwrite (h : TableOk t l) {c : Nat} (hlt : c < t.dwRealNodeCount)
    (hused : t.used c = true) (hid : (t.node c).iAttrID = attr) (hv : 0 < iValue) :
    TableOk (t.setNode c { t.node c with iCurValue := iValue }) l ∧
      ∀ a, sumOf a (usedNodes (t.setNode c { t.node c with iCurValue := iValue })) =
        sumOf a (usedNodes t) + if attr = a then iValue - (t.node c).iCurValue else 0 := by
  have hc : c ∈ l := (h.ready.linked.mem c).mpr ⟨hlt, hused⟩
  obtain ⟨hok, hsum⟩ := h.setUsedNode hc (n := { t.node c with iCurValue := iValue }) hv
  refine ⟨hok, ?_⟩
  intro a
  rw [sumOf_usedNodes hok, hsum, sumOf_usedNodes h]
  simp only [worth, hid]
  split
  · omega
  · omega

theorem attrSetLoop_ok (hv : 0 < iValue) (henv : lockLoop env false = true)
    (hts : ∀ t ∈ ts, ∃ l, TableOk t l) (bCheckCount : Nat) :
    AddOk attr (iValue - firstCounter attr ts) ts (attrSetLoop env attr iValue bCheckCount ts) := by
  induction ts generalizing bCheckCount with
  | nil => exact ⟨by simp [attrSetLoop], List.Forall₂.nil, by simp [attrSetLoop]⟩
  | cons t ts ih =>
    obtain ⟨⟨l, hl⟩, hrest⟩ := List.forall_mem_cons.mp hts
    have ih := ih hrest
    have hends := hl.searchEnds attr
    unfold attrSetLoop firstCounter
    generalize hashTableSearchEx t ⟨0, attr, 0⟩ attr.toNat = result at hends ⊢
    cases hends with
    | nowhere => exact (ih bCheckCount).cons ⟨l, hl⟩ (KeepsCursor.refl t) fun _ => rfl
    | found c hlt hused hid =>
      obtain ⟨hok, hsum⟩ := hl.overwrite hlt hused hid hv
      apply AddOk.ends .stored hrest ⟨l, hok⟩ (keepsCursor_setNode t c _)
      simpa using hsum
    | free c hlt hused =>
      simp only
      split
      · generalize (if (t.node c).bSyncProcess = 0 then 1 else (t.node c).bSyncProcess) = b
        obtain ⟨t', ht', hok, hkeep, hsum⟩ := hl.addFree hlt hused henv hv b attr
        rw [ht', Int.sub_zero]
        apply AddOk.ends .stored hrest hok hkeep
        simpa using hsum
      · obtain ⟨hok, hsum⟩ := hl.writeFree hused
          { t.node c with bSyncProcess := (t.node c).bSyncProcess + 1 }
        split
        · apply AddOk.ends .gaveUp hrest ⟨l, hok⟩ (keepsCursor_setNode t c _)
          simpa using hsum
        · exact (ih _).cons ⟨l, hok⟩ (keepsCursor_setNode t c _) hsum

theorem firstCounter_of_noTable {bCheckCount : Nat}
    (h : (attrSetLoop env attr iValue bCheckCount ts).1 = .noTable) : firstCounter attr ts = 0 := by
  induction ts generalizing bCheckCount with
  | nil => rfl
  | cons t ts ih =>
    unfold attrSetLoop at h
    unfold firstCounter
    split at h
    · cases h
    · dsimp only at h ⊢
      split at h
      · cases h
      · rename_i hbusy
        rw [if_neg hbusy]
        split at h
        · cases h
        · exact ih h
    · exact ih h

/-- The end of `MtReport_Attr_Add` and of `MtReport_Attr_Set`. -/
def endCall (s : AttrShm) (attr iValue : Int) :
    AddEnd × List (SharedHashTable AttrNode) → Int × AttrShm
  | (.stored, ts) => (0, flushSpec { s with stAttrHash := ts })
  | (.gaveUp, ts) => (-2, (mtReportAttrSpec (flushSpec { s with stAttrHash := ts }) 238 1).2)
  | (.noTable, ts) => mtReportAttrSpec (flushSpec { s with stAttrHash := ts }) attr iValue

theorem mtReportAttrAdd_eq (hargs : ¬ (attr ≤ 0 ∨ iValue ≤ 0)) :
    mtReportAttrAdd env s attr iValue =
      endCall s attr iValue (attrAddLoop env attr iValue 0 s.stAttrHash) := by
  rw [mtReportAttrAdd, if_neg hargs]
  rfl

theorem mtReportAttrSet_eq (hargs : ¬ (attr ≤ 0 ∨ iValue ≤ 0)) :
    mtReportAttrSet env s attr iValue =
      endCall s attr iValue (attrSetLoop env attr iValue 0 s.stAttrHash) := by
  rw [mtReportAttrSet, if_neg hargs]
  rfl

/-- A call changes what is pending of its attribute by `change` if it returns 0, and counts itself
under attribute 238 if it gave up. -/
structure CallOk (s : AttrShm) (attr change : Int) (x : Int × AttrShm) : Prop where
  shm : ShmOk x.2
  keeps : List.Forall₂ KeepsCursor s.stAttrHash x.2.stAttrHash
  sum : ∀ a, pendingOf x.2 a = pendingOf s a + (if x.1 = 0 ∧ attr = a then change else 0) +
    if x.1 = -2 ∧ a = 238 then 1 else 0

theorem CallOk.refused (h : ShmOk s) (change : Int) : CallOk s attr change (-1, s) where
  shm := h
  keeps := List.forall₂_same.mpr fun t _ => KeepsCursor.refl t
  sum := by simp

theorem spec_returns_zero (ha : 0 < attr) (hv : 0 < iValue)
    (hroom : (mtReportAttrSpec s attr iValue).2.iAttrSpecialCount ≤ MTATTR_SPECIAL_COUNT) :
    (mtReportAttrSpec s attr iValue).1 = 0 := by
  unfold mtReportAttrSpec at hroom ⊢
  rw [if_neg (by omega)] at hroom ⊢
  cases hidx : specIndex s attr with
  | some i => rfl
  | none =>
    rw [hidx] at hroom
    dsimp only at hroom ⊢
    split
    · rename_i hfull
      rw [if_pos hfull] at hroom
      dsimp only at hroom
      omega
    · rfl

theorem ShmOk.endCall (h : ShmOk s) {change : Int} {r : AddEnd × List (SharedHashTable AttrNode)}
    (hr : AddOk attr change s.stAttrHash r) (hchange : r.1 = .noTable → change = iValue)
    (ha : 0 < attr) (hv : 0 < iValue) (hmax : pendingOf s attr + iValue < 2 ^ 31)
    (hgave : (endCall s attr iValue r).1 = -2 → pendingOf s 238 + 1 < 2 ^ 31)
    (hroom : (endCall s attr iValue r).2.iAttrSpecialCount ≤ MTATTR_SPECIAL_COUNT) :
    CallOk s attr change (endCall s attr iValue r) := by
  obtain ⟨e, ts⟩ := r
  have hok : ShmOk { s with stAttrHash := ts } := ⟨hr.tables, h.count, h.pos, h.ids⟩
  have hflush := flushSpec_of_ok hok.tables
  have hspecs : specNodes { s with stAttrHash := ts } = specNodes s := rfl
  have htables : ∀ a, sumOf a (specNodes s) ≤ pendingOf s a := by
    intro a
    have := tablesSum_nonneg h.tables a
    rw [pendingOf_eq]
    omega
  cases e with
  | stored =>
    simp only [Attr.endCall, hflush]
    refine ⟨hok, hr.keeps, ?_⟩
    intro a
    have hsum := hr.sum a
    simp only [true_and] at hsum
    simp only [pendingOf_eq, hspecs, hsum, true_and]
    split
    · simp
      omega
    · simp
  | gaveUp =>
    simp only [Attr.endCall, hflush] at hgave hroom ⊢
    have hret := spec_returns_zero (by decide : (0 : Int) < 238) (by decide : (0 : Int) < 1) hroom
    have hle := htables 238
    obtain ⟨s', hs', hok', hts', hsum'⟩ := hok.spec (by decide : (0 : Int) < 1)
      (by rw [hspecs]; have := hgave trivial; omega) hret
    rw [hs']
    refine ⟨hok', by rw [hts']; exact hr.keeps, ?_⟩
    intro a
    have hsum := hr.sum a
    simp only [reduceCtorEq, false_and, if_false, Int.add_zero] at hsum
    rw [pendingOf_eq, pendingOf_eq, hts', hsum', hspecs, hsum]
    by_cases ha : a = 238
    · subst ha
      simp
      omega
    · simp [ha, Ne.symm ha]
  | noTable =>
    simp only [Attr.endCall, hflush] at hroom ⊢
    have hret := spec_returns_zero ha hv hroom
    have hle := htables attr
    obtain ⟨s', hs', hok', hts', hsum'⟩ := hok.spec hv (by rw [hspecs]; omega) hret
    rw [hs', hchange rfl]
    refine ⟨hok', by rw [hts']; exact hr.keeps, ?_⟩
    intro a
    have hsum := hr.sum a
    simp only [reduceCtorEq, false_and, if_false, Int.add_zero] at hsum
    rw [pendingOf_eq, pendingOf_eq, hts', hsum', hspecs, hsum]
    simp
    omega

end Call

/-- A step of a run with sets: a call or a round of a drain as before, a set, or another process that
holds a free cell. -/
inductive SetCall
  | call (c : AttrCall)
  | set (env : LockEnv) (attr iValue : Int)
  | contend (i c bSyncProcess : Nat)

/-- Another process leaves a mark in a cell. -/
def contendCell (s : AttrShm) (i c bSyncProcess : Nat) : AttrShm :=
  match s.stAttrHash[i]? with
  | none => s
  | some t => s.setTable i (t.setNode c { t.node c with bSyncProcess := bSyncProcess })

/-- The state after a step of a run with sets. -/
def setStep (r : AttrRun) : SetCall → Option (Option Int × AttrRun)
  | .call c => attrStep r c
  | .set env attr iValue =>
    let x := mtReportAttrSet env r.shm attr iValue
    some (some x.1, { r with shm := x.2 })
  | .contend i c bSyncProcess => some (none, { r with shm := contendCell r.shm i c bSyncProcess })

/-- What is in the batch of the running drain and in the shared memory of an attribute. -/
def AttrRun.totalOf (r : AttrRun) (attr : Int) : Int := sumOf attr r.inFlight + pendingOf r.shm attr

/-- A call keeps the sums within `int32_t`, and does not find the special list full. -/
def CallFits (r : AttrRun) (attr iValue : Int) (x : Int × AttrShm) : Prop :=
  r.totalOf attr + iValue < 2 ^ 31 ∧ (x.1 = -2 → r.totalOf 238 + 1 < 2 ^ 31) ∧
    x.2.iAttrSpecialCount ≤ MTATTR_SPECIAL_COUNT

instance (r : AttrRun) (attr iValue : Int) (x : Int × AttrShm) :
    Decidable (CallFits r attr iValue x) := inferInstanceAs (Decidable (_ ∧ _))

/-- The steps get the flags of the tables, fit, and follow each other; a cell that is held is not in
use. -/
def Kept (r : AttrRun) : SetCall → Prop
  | .call (.add env attr iValue) =>
    lockLoop env false = true ∧ CallFits r attr iValue (mtReportAttrAdd env r.shm attr iValue)
  | .call .readBegin => r.reading = none
  | .call (.readStep env) => r.reading.isSome = true ∧ lockLoop env false = true
  | .set env attr iValue =>
    lockLoop env false = true ∧ CallFits r attr iValue (mtReportAttrSet env r.shm attr iValue)
  | .contend i c _ => ∀ t ∈ r.shm.stAttrHash[i]?, t.used c = false

instance (r : AttrRun) : ∀ call, Decidable (Kept r call)
  | .call (.add _ _ _) => inferInstanceAs (Decidable (_ ∧ _))
  | .call .readBegin => inferInstanceAs (Decidable (r.reading = none))
  | .call (.readStep _) => inferInstanceAs (Decidable (_ ∧ _))
  | .set _ _ _ => inferInstanceAs (Decidable (_ ∧ _))
  | .contend i _ _ => inferInstanceAs (Decidable (∀ t ∈ r.shm.stAttrHash[i]?, _))

/-- The step is a call for another attribute, or no call. A call that gives up touches attribute
238. -/
def LeavesAlone (attr : Int) (r : AttrRun) : SetCall → Prop
  | .call (.add env b iValue) =>
    b ≠ attr ∧ (attr = 238 → (mtReportAttrAdd env r.shm b iValue).1 ≠ -2)
  | .set env b iValue => b ≠ attr ∧ (attr = 238 → (mtReportAttrSet env r.shm b iValue).1 ≠ -2)
  | _ => True

instance (attr : Int) (r : AttrRun) : ∀ call, Decidable (LeavesAlone attr r call)
  | .call (.add _ _ _) => inferInstanceAs (Decidable (_ ∧ _))
  | .call .readBegin => instDecidableTrue
  | .call (.readStep _) => instDecidableTrue
  | .set _ _ _ => inferInstanceAs (Decidable (_ ∧ _))
  | .contend _ _ _ => instDecidableTrue

/-- A run with sets between two steps. -/
structure SetInv (r : AttrRun) : Prop where
  shm : ShmOk r.shm
  reading : ∀ rd, r.reading = some rd → ReadOk r.shm rd
  fits : ∀ a, r.totalOf a < 2 ^ 31

section Run

variable {r r' : AttrRun} {env : LockEnv} {attr iValue : Int}

theorem SetInv.inFlight_nonneg (h : SetInv r) (a : Int) : 0 ≤ sumOf a r.inFlight := by
  unfold AttrRun.inFlight
  cases hrd : r.reading with
  | none => simp
  | some rd => exact sumOf_nonneg (h.reading rd hrd).batch.pos a

theorem inFlight_congr (hreading : r'.reading = r.reading) : r'.inFlight = r.inFlight := by
  rw [AttrRun.inFlight, AttrRun.inFlight, hreading]

theorem SetInv.call (h : SetInv r) {change : Int} {x : Int × AttrShm}
    (hx : CallOk r.shm attr change x) (hle : change ≤ iValue) (hfits : CallFits r attr iValue x)
    (hshm : r'.shm = x.2) (hreading : r'.reading = r.reading) : SetInv r' where
  shm := by
    rw [hshm]
    exact hx.shm
  reading := by
    intro rd hrd
    rw [hreading] at hrd
    rw [hshm]
    exact (h.reading rd hrd).keeps hx.keeps
  fits := by
    intro a
    have hsum := hx.sum a
    have hold := h.fits a
    obtain ⟨hown, hgave, -⟩ := hfits
    unfold AttrRun.totalOf at hold hown hgave ⊢
    rw [inFlight_congr hreading, hshm, hsum]
    by_cases hret : x.1 = -2
    · have hne : ¬ (x.1 = 0 ∧ attr = a) := by omega
      have hgave := hgave hret
      by_cases ha : a = 238
      · subst ha
        simp only [hret]
        simp
        omega
      · simp only [if_neg hne, ha, and_false, if_false]
        omega
    · simp only [hret, false_and, if_false]
      split
      · rename_i hzero
        rw [← hzero.2]
        omega
      · omega

theorem SetInv.callOk_add (h : SetInv r) (henv : lockLoop env false = true)
    (hfits : CallFits r attr iValue (mtReportAttrAdd env r.shm attr iValue)) :
    CallOk r.shm attr iValue (mtReportAttrAdd env r.shm attr iValue) := by
  by_cases hargs : attr ≤ 0 ∨ iValue ≤ 0
  · rw [mtReportAttrAdd, if_pos hargs]
    exact CallOk.refused h.shm iValue
  · rw [mtReportAttrAdd_eq hargs] at hfits ⊢
    obtain ⟨hown, hgave, hroom⟩ := hfits
    have hin := h.inFlight_nonneg
    have hin238 := hin 238
    have hina := hin attr
    have hspec := sumOf_nonneg h.shm.pos attr
    unfold AttrRun.totalOf at hown hgave
    have hmax : tablesSum attr r.shm.stAttrHash + iValue < 2 ^ 31 := by
      rw [pendingOf_eq] at hown
      omega
    refine h.shm.endCall (attrAddLoop_ok (by omega) henv h.shm.tables hmax 0) (fun _ => rfl)
      (by omega) (by omega) (by omega) ?_ hroom
    intro hret
    have := hgave hret
    omega

theorem SetInv.callOk_set (h : SetInv r) (henv : lockLoop env false = true)
    (hfits : CallFits r attr iValue (mtReportAttrSet env r.shm attr iValue)) :
    CallOk r.shm attr (iValue - firstCounter attr r.shm.stAttrHash)
      (mtReportAttrSet env r.shm attr iValue) := by
  by_cases hargs : attr ≤ 0 ∨ iValue ≤ 0
  · rw [mtReportAttrSet, if_pos hargs]
    exact CallOk.refused h.shm _
  · rw [mtReportAttrSet_eq hargs] at hfits ⊢
    obtain ⟨hown, hgave, hroom⟩ := hfits
    have hin := h.inFlight_nonneg
    have hin238 := hin 238
    have hina := hin attr
    unfold AttrRun.totalOf at hown hgave
    refine h.shm.endCall (attrSetLoop_ok (by omega) henv h.shm.tables 0) ?_ (by omega) (by omega)
      (by omega) ?_ hroom
    · intro hnone
      rw [firstCounter_of_noTable hnone, Int.sub_zero]
    · intro hret
      have := hgave hret
      omega

theorem firstCounter_nonneg {ts : List (SharedHashTable AttrNode)}
    (hts : ∀ t ∈ ts, ∃ l, TableOk t l) (attr : Int) : 0 ≤ firstCounter attr ts := by
  induction ts with
  | nil => exact le_refl _
  | cons t ts ih =>
    obtain ⟨⟨l, hl⟩, hrest⟩ := List.forall_mem_cons.mp hts
    have ih := ih hrest
    have hends := hl.searchEnds attr
    unfold firstCounter
    generalize hashTableSearchEx t ⟨0, attr, 0⟩ attr.toNat = result at hends ⊢
    cases hends with
    | nowhere => exact ih
    | found c hlt hused _ => exact le_of_lt (hl.pos c ((hl.ready.linked.mem c).mpr ⟨hlt, hused⟩))
    | free c =>
      dsimp only
      split
      · exact le_refl _
      · exact ih

/-- What is drained and what is left of an attribute is what there was. -/
def Conserves (attr : Int) (r r' : AttrRun) : Prop :=
  ∃ bs, r'.drained = r.drained ++ bs ∧ drainedOf attr bs + r'.totalOf attr = r.totalOf attr

theorem Conserves.of_shm (hdrained : r'.drained = r.drained) (hreading : r'.reading = r.reading)
    (hpending : pendingOf r'.shm attr = pendingOf r.shm attr) : Conserves attr r r' := by
  refine ⟨[], by simp [hdrained], ?_⟩
  unfold AttrRun.totalOf
  rw [inFlight_congr hreading, hpending]
  simp [drainedOf]

theorem Conserves.trans {r'' : AttrRun} (h : Conserves attr r r') (h' : Conserves attr r' r'') :
    Conserves attr r r'' := by
  obtain ⟨bs, hbs, hsum⟩ := h
  obtain ⟨bs', hbs', hsum'⟩ := h'
  refine ⟨bs ++ bs', by rw [hbs', hbs, List.append_assoc], ?_⟩
  have happend : drainedOf attr (bs ++ bs') = drainedOf attr bs + drainedOf attr bs' := by
    simp [drainedOf]
  omega

theorem SetInv.drain (h : SetInv r) {x : List AttrNode × Option ReadState × AttrShm}
    (hx : DrainOk r.totalOf x) : SetInv (r.drain x) ∧ ∀ a, Conserves a r (r.drain x) := by
  obtain ⟨b, rd, s'⟩ := x
  cases rd with
  | some rd =>
    obtain ⟨hrd, hb⟩ := hx.reading rd rfl
    have htotal : ∀ a, (r.drain (b, some rd, s')).totalOf a = r.totalOf a := by
      intro a
      rw [← hx.sum a]
      change sumOf a rd.stAttrRead + pendingOf s' a = _
      rw [hb]
    refine ⟨⟨hx.shm, ?_, ?_⟩, ?_⟩
    · intro rd' hrd'
      obtain rfl : rd = rd' := Option.some.inj hrd'
      exact hrd
    · intro a
      rw [htotal]
      exact h.fits a
    · intro a
      refine ⟨[], by simp [AttrRun.drain], ?_⟩
      rw [htotal]
      simp [drainedOf]
  | none =>
    have htotal : ∀ a, (r.drain (b, none, s')).totalOf a = pendingOf s' a := by
      intro a
      change sumOf a [] + pendingOf s' a = _
      rw [sumOf_nil, Int.zero_add]
    refine ⟨⟨hx.shm, by simp [AttrRun.drain], ?_⟩, ?_⟩
    · intro a
      have hfit := h.fits a
      have hsum := hx.sum a
      have hpos := sumOf_nonneg hx.pos a
      rw [htotal]
      simp only at hsum hpos
      omega
    · intro a
      refine ⟨[b], by simp [AttrRun.drain], ?_⟩
      rw [htotal, ← hx.sum a]
      simp [drainedOf]

theorem ShmOk.contendCell {s : AttrShm} (h : ShmOk s) (i c bSyncProcess : Nat)
    (hfree : ∀ t ∈ s.stAttrHash[i]?, t.used c = false) :
    ShmOk (contendCell s i c bSyncProcess) ∧
      List.Forall₂ KeepsCursor s.stAttrHash (contendCell s i c bSyncProcess).stAttrHash ∧
      ∀ a, pendingOf (contendCell s i c bSyncProcess) a = pendingOf s a := by
  unfold Attr.contendCell
  cases ht : s.stAttrHash[i]? with
  | none => exact ⟨h, List.forall₂_same.mpr fun t _ => KeepsCursor.refl t, fun _ => rfl⟩
  | some t =>
    obtain ⟨l, hl⟩ := h.tables t (List.mem_of_getElem? ht)
    obtain ⟨hok, hkeep⟩ := hl.setFreeNode (hl.ready.not_mem (hfree t ht))
      { t.node c with bSyncProcess := bSyncProcess }
    obtain ⟨hshm, hpend⟩ := h.setTable ht hok
    refine ⟨hshm, ?_, ?_⟩
    · apply List.forall₂_iff_get.mpr
      refine ⟨by simp [AttrShm.setTable], ?_⟩
      intro j hj hj'
      obtain ⟨hi, rfl⟩ := List.getElem?_eq_some_iff.mp ht
      by_cases hij : i = j
      · subst hij
        simpa [AttrShm.setTable] using keepsCursor_setNode s.stAttrHash[i] c _
      · simpa [AttrShm.setTable, List.getElem_set_ne hij] using KeepsCursor.refl _
    · intro a
      rw [hpend, sumOf_usedNodes hok, hkeep, sumOf_usedNodes hl]
      omega

/-- Every step that is kept keeps the invariant, and conserves an attribute that it leaves alone. -/
theorem SetInv.step (attr : Int) (h : SetInv r) (c : SetCall) (hok : Kept r c) :
    ∃ o r', setStep r c = some (o, r') ∧ SetInv r' ∧
      (LeavesAlone attr r c → Conserves attr r r') := by
  have hcall : ∀ {b change : Int} {x : Int × AttrShm}, CallOk r.shm b change x →
      b ≠ attr ∧ (attr = 238 → x.1 ≠ -2) → pendingOf x.2 attr = pendingOf r.shm attr := by
    rintro b change x hx ⟨hb, hgave⟩
    rw [hx.sum attr, if_neg (by rintro ⟨-, hba⟩; exact hb hba), if_neg]
    · omega
    · rintro ⟨hret, hattr⟩
      exact hgave hattr hret
  cases c with
  | call c =>
    cases c with
    | add env b v =>
      have hx := h.callOk_add hok.1 hok.2
      refine ⟨_, _, rfl, h.call hx (le_refl _) hok.2 rfl rfl, ?_⟩
      intro halone
      exact Conserves.of_shm rfl rfl (hcall hx halone)
    | readBegin =>
      have hidle : r.reading = none := hok
      have hdrain : DrainOk r.totalOf (readBegin r.shm) := by
        apply h.shm.readBegin.congr
        intro a
        simp [AttrRun.totalOf, AttrRun.inFlight, hidle]
      obtain ⟨hinv, hcons⟩ := h.drain hdrain
      exact ⟨none, r.drain (readBegin r.shm), by simp [setStep, attrStep, hidle], hinv,
        fun _ => hcons attr⟩
    | readStep env =>
      obtain ⟨rd, hrd⟩ := Option.isSome_iff_exists.mp hok.1
      have hin : r.inFlight = rd.stAttrRead := by simp [AttrRun.inFlight, hrd]
      have hdrain : DrainOk r.totalOf (readStep env r.shm rd) := by
        have hround := h.shm.readStep (h.reading rd hrd) hok.2 (by
          intro a
          rw [← hin]
          exact h.fits a)
        apply hround.congr
        intro a
        rw [AttrRun.totalOf, hin]
      obtain ⟨hinv, hcons⟩ := h.drain hdrain
      exact ⟨none, r.drain (readStep env r.shm rd), by simp [setStep, attrStep, hrd], hinv,
        fun _ => hcons attr⟩
  | set env b v =>
    have hx := h.callOk_set hok.1 hok.2
    have hle : v - firstCounter b r.shm.stAttrHash ≤ v := by
      have := firstCounter_nonneg h.shm.tables b
      omega
    refine ⟨_, _, rfl, h.call hx hle hok.2 rfl rfl, ?_⟩
    intro halone
    exact Conserves.of_shm rfl rfl (hcall hx halone)
  | contend i c b =>
    obtain ⟨hshm, hkeep, hpend⟩ := h.shm.contendCell i c b hok
    refine ⟨_, _, rfl, ⟨hshm, fun rd hrd => (h.reading rd hrd).keeps hkeep, ?_⟩, ?_⟩
    · intro a
      have hfit := h.fits a
      unfold AttrRun.totalOf at hfit ⊢
      rw [inFlight_congr rfl, hpend]
      exact hfit
    · intro _
      exact Conserves.of_shm rfl rfl (hpend attr)

theorem SetInv.run (calls : List SetCall) (h : SetInv r)
    (hok : Admissible setStep (fun r c => Kept r c ∧ LeavesAlone attr r c) r calls) :
    ∃ os r', runSteps setStep r calls = some (os, r') ∧ SetInv r' ∧ Conserves attr r r' := by
  induction calls generalizing r with
  | nil => exact ⟨[], r, rfl, h, Conserves.of_shm rfl rfl rfl⟩
  | cons c calls ih =>
    obtain ⟨o, r₁, hstep, hinv, hcons⟩ := h.step attr c hok.1.1
    obtain ⟨os, r', hrun, hinv', hcons'⟩ := ih hinv (hok.2 _ _ hstep)
    refine ⟨o :: os, r', by simp [runSteps, hstep, hrun], hinv', ?_⟩
    exact (hcons hok.1.2).trans hcons'

end Run

/-- After any run, a set that returns 0, and any run that leaves the attribute alone and ends with
nothing of it in the shared memory: what was drained of the attribute is the value that was set
exactly when the counter that the set met first was the only one. -/
theorem attr_set_drained (s : AttrShm) (hs : EmptyShm s) (calls : List SetCall)
    (hcalls : Admissible setStep Kept ⟨s, none, [], []⟩ calls) :
    ∃ os r, runSteps setStep ⟨s, none, [], []⟩ calls = some (os, r) ∧
      ∀ env attr iValue, r.reading = none → Kept r (.set env attr iValue) →
        (mtReportAttrSet env r.shm attr iValue).1 = 0 →
        ∀ rest, Admissible setStep (fun r c => Kept r c ∧ LeavesAlone attr r c)
            { r with shm := (mtReportAttrSet env r.shm attr iValue).2 } rest →
          ∃ os' r', runSteps setStep
              { r with shm := (mtReportAttrSet env r.shm attr iValue).2 } rest = some (os', r') ∧
            ∃ bs, r'.drained = r.drained ++ bs ∧
              (r'.reading = none → pendingOf r'.shm attr = 0 →
                (drainedOf attr bs = iValue ↔ SoleCounter r.shm attr)) := by
  obtain ⟨hok, hzero⟩ := hs.ok
  have hinit : SetInv ⟨s, none, [], []⟩ :=
    ⟨hok, by simp, by simp [AttrRun.totalOf, AttrRun.inFlight, hzero]⟩
  have hstep : ∀ (r : AttrRun) c, SetInv r → Kept r c →
      ∃ o r', setStep r c = some (o, r') ∧ True ∧ SetInv r' := by
    intro r c h hc
    obtain ⟨o, r', hr, hinv, -⟩ := h.step 0 c hc
    exact ⟨o, r', hr, trivial, hinv⟩
  obtain ⟨os, r, hrun, -, h⟩ := run_invariant (O := fun _ _ => True) hstep calls _ hinit hcalls
  refine ⟨os, r, hrun, ?_⟩
  intro env attr iValue hidle hkept hret rest hrest
  have hx := h.callOk_set hkept.1 hkept.2
  obtain ⟨o, r₁, hset, h₁, -⟩ := h.step attr (.set env attr iValue) hkept
  obtain rfl : { r with shm := (mtReportAttrSet env r.shm attr iValue).2 } = r₁ :=
    (Prod.mk.inj (Option.some.inj hset)).2
  obtain ⟨os', r', hrun', -, bs, hbs, hsum⟩ := h₁.run rest hrest
  refine ⟨os', r', hrun', bs, hbs, ?_⟩
  intro hend hempty
  have hbefore : pendingOf (mtReportAttrSet env r.shm attr iValue).2 attr =
      pendingOf r.shm attr + (iValue - firstCounter attr r.shm.stAttrHash) := by
    rw [hx.sum attr, hret]
    simp
  have hafter : r'.totalOf attr = 0 := by
    rw [AttrRun.totalOf, hempty]
    simp [AttrRun.inFlight, hend]
  have htotal : drainedOf attr bs =
      pendingOf r.shm attr + (iValue - firstCounter attr r.shm.stAttrHash) := by
    rw [hafter, AttrRun.totalOf, hbefore] at hsum
    simp only [AttrRun.inFlight, hidle, sumOf_nil] at hsum
    omega
  unfold SoleCounter
  omega

/-- A table of twelve cells. -/
def smallTable : SharedHashTable AttrNode :=
  { attrTable with
    dwRealNodeCount := 12
    dwNodeNums := [7, 5]
    dwCurIndex := 12
    dwCurIndexRevers := 12
    head := ⟨12, 12, 0, 0, 0, false⟩ }

def smallShm : AttrShm := ⟨[smallTable, smallTable], 0, fun _ => ⟨0, 0, 0⟩⟩

theorem emptyShm_smallShm : EmptyShm smallShm := by
  have hall : ∀ t ∈ smallShm.stAttrHash, t = smallTable := by
    intro t ht
    simpa [smallShm] using ht
  refine ⟨?_, ?_, ?_, ?_, rfl⟩
  · intro t ht
    rw [hall t ht]
    exact ⟨rfl, rfl, rfl, rfl, rfl, rfl, fun _ _ => rfl, by decide⟩
  · intro t ht
    rw [hall t ht]
    exact ⟨by decide, by decide⟩
  · intro t ht
    rw [hall t ht]
    rfl
  · intro t ht
    rw [hall t ht]
    rfl

/-- A call that adds 5 to counter 3. -/
def addFive : List SetCall := [.call (.add freeFlag 3 5)]

/-- The run after `addFive`, and the set of counter 3 to 7. -/
def afterFive : AttrRun := ⟨(mtReportAttrAdd freeFlag smallShm 3 5).2, none, [(3, 5)], []⟩

def afterSeven : AttrRun :=
  { afterFive with shm := (mtReportAttrSet freeFlag afterFive.shm 3 7).2 }

/-- A drain of `n` rounds. -/
def drainRounds (n : Nat) : List SetCall :=
  .call .readBegin :: List.replicate n (.call (.readStep freeFlag))

theorem attr_set_drained_seven :
    ∃ os r, runSteps setStep ⟨smallShm, none, [], []⟩ addFive = some (os, r) ∧ r = afterFive ∧
      ∃ os' r' bs, runSteps setStep afterSeven (drainRounds 3) = some (os', r') ∧
        r'.drained = r.drained ++ bs ∧ drainedOf 3 bs = 7 := by
  obtain ⟨os, r, hrun, hset⟩ := attr_set_drained smallShm emptyShm_smallShm addFive
    (by decide +kernel)
  obtain rfl : afterFive = r := (Prod.mk.inj (Option.some.inj hrun)).2
  refine ⟨os, afterFive, hrun, rfl, ?_⟩
  obtain ⟨os', r', hrest, bs, hbs, hiff⟩ := hset freeFlag 3 7 rfl (by decide +kernel)
    (by decide +kernel) (drainRounds 3) (by decide +kernel)
  refine ⟨os', r', bs, hrest, hbs, ?_⟩
  have hviews : (runSteps setStep afterSeven (drainRounds 3)).map
      (fun x => (x.2.reading, pendingOf x.2.shm 3)) = some (none, 0) := by decide +kernel
  have hend := congrArg (Option.map fun x : List (Option Int) × AttrRun =>
    (x.2.reading, pendingOf x.2.shm 3)) hrest
  rw [show ({ afterFive with shm := (mtReportAttrSet freeFlag afterFive.shm 3 7).2 } : AttrRun) =
    afterSeven from rfl, hviews] at hend
  obtain ⟨hidle, hempty⟩ := Prod.mk.inj (Option.some.inj hend)
  exact (hiff hidle.symm hempty.symm).mpr (by decide +kernel : _ = _)

/-- The cell of attribute 100 in the first table is held by another process, which eight calls have
found before. -/
def setBesideCounter : List SetCall :=
  [.contend 0 100 9, .call (.add freeFlag 100 5), .set freeFlag 100 7] ++ drainRounds 7

/-- The counter in the second table stays: 12 is drained after the set to 7. -/
theorem set_drains_more :
    ∃ os r, runSteps setStep ⟨attrShm, none, [], []⟩ setBesideCounter = some (os, r) ∧
      os[2]? = some (some 0) ∧ r.reading = none ∧ r.shm.iAttrSpecialCount = 0 ∧
      (∀ t ∈ r.shm.stAttrHash, t.head.dwNodeUseCount = 0) ∧ drainedOf 100 r.drained = 12 := by
  have hviews : (runSteps setStep ⟨attrShm, none, [], []⟩ setBesideCounter).map
      (fun x => (x.1[2]?, x.2.reading, x.2.shm.iAttrSpecialCount,
        x.2.shm.stAttrHash.map fun t => t.head.dwNodeUseCount, drainedOf 100 x.2.drained)) =
        some (some (some 0), none, 0, [0, 0, 0, 0, 0], 12) := by decide +kernel
  obtain ⟨⟨os, r⟩, hrun, hview⟩ := Option.map_eq_some_iff.mp hviews
  simp only [Prod.mk.injEq] at hview
  obtain ⟨hret, hidle, hspec, hcounts, hdrained⟩ := hview
  refine ⟨os, r, hrun, hret, hidle, hspec, ?_, hdrained⟩
  intro t ht
  have hmem := List.mem_map_of_mem (f := fun t : SharedHashTable AttrNode => t.head.dwNodeUseCount) ht
  rw [hcounts] at hmem
  simpa using hmem

end XrkMonitor.Attr
