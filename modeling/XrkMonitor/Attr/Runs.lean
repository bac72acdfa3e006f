import XrkMonitor.Attr.Conservation

/-!
# Runs of attribute reports and drains

A run is any sequence of completed `MtReport_Attr_Add` calls and of the rounds
of `ReadAttr`. `added` and `drained` record its history.
-/

namespace XrkMonitor.Attr

open Library SharedHash SharedHashTable

/-- The shared memory, the running drain, and the history of calls and batches. -/
structure AttrRun where
  shm : AttrShm
  reading : Option ReadState
  added : List (Int × Int)
  drained : List (List AttrNode)

/-- A call of the client library, or a round of a drain of the agent. -/
inductive AttrCall
  | add (env : LockEnv) (attr iValue : Int)
  | readBegin
  | readStep (env : LockEnv)

/-- The drain goes on with what a round leaves; its last round gives the batch. -/
def AttrRun.drain (r : AttrRun) (x : List AttrNode × Option ReadState × AttrShm) : AttrRun :=
  { r with
    shm := x.2.2
    reading := x.2.1
    drained := if x.2.1.isNone then r.drained ++ [x.1] else r.drained }

/-- The state after a step; a call also gives its return value. -/
def attrStep (r : AttrRun) : AttrCall → Option (Option Int × AttrRun)
  | .add env attr iValue =>
    let x := mtReportAttrAdd env r.shm attr iValue
    some (some x.1,
      { r with
        shm := x.2
        added := if x.1 = 0 then r.added ++ [(attr, iValue)] else r.added })
  | .readBegin =>
    if r.reading.isSome then none else some (none, r.drain (readBegin r.shm))
  | .readStep env => r.reading.map fun rd => (none, r.drain (readStep env r.shm rd))

/-- What was added of an attribute. -/
def addedOf (attr : Int) (added : List (Int × Int)) : Int :=
  (added.map fun x => if x.1 = attr then x.2 else 0).sum

/-- What was drained of an attribute. -/
def drainedOf (attr : Int) (drained : List (List AttrNode)) : Int :=
  (drained.map (sumOf attr)).sum

/-- The batch of the running drain. -/
def AttrRun.inFlight (r : AttrRun) : List AttrNode :=
  match r.reading with
  | none => []
  | some rd => rd.stAttrRead

/-- Calls return `0` and keep the sums within `int32_t`; drains follow each other. -/
def Promised (r : AttrRun) : AttrCall → Prop
  | .add env attr iValue =>
    (mtReportAttrAdd env r.shm attr iValue).1 = 0 ∧ addedOf attr r.added + iValue < 2 ^ 31
  | .readBegin => r.reading = none
  | .readStep _ => r.reading.isSome = true

/-- `InsertHashNode` and `RemoveHashNode` get the flag of the table in ten tries. -/
def GetsFlag : AttrCall → Prop
  | .add env _ _ => lockLoop env false = true
  | .readBegin => True
  | .readStep env => lockLoop env false = true

instance (r : AttrRun) : ∀ call, Decidable (Promised r call)
  | .add _ _ _ => inferInstanceAs (Decidable (_ ∧ _))
  | .readBegin =>
    decidable_of_iff (r.reading.isNone = true) Option.isNone_iff_eq_none
  | .readStep _ => inferInstanceAs (Decidable (_ = _))

instance : ∀ call, Decidable (GetsFlag call)
  | .add _ _ _ => inferInstanceAs (Decidable (_ = _))
  | .readBegin => isTrue trivial
  | .readStep _ => inferInstanceAs (Decidable (_ = _))

/-- The attribute memory as `MtReport_InitAttr` finds it after `InitHashTable`. -/
structure EmptyShm (s : AttrShm) : Prop where
  empty : ∀ t ∈ s.stAttrHash, EmptyTable t
  rows : ∀ t ∈ s.stAttrHash, RowsOk t
  cmp : ∀ t ∈ s.stAttrHash, t.funCmp = mtreportAttrCmp
  spec : ∀ t ∈ s.stAttrHash, t.attrSpec = []
  count : s.iAttrSpecialCount = 0

/-- Nothing is lost or doubled so far. -/
structure AttrInv (r : AttrRun) : Prop where
  shm : ShmOk r.shm
  reading : ∀ rd, r.reading = some rd → ReadOk r.shm rd
  sum : ∀ a, addedOf a r.added = drainedOf a r.drained + sumOf a r.inFlight + pendingOf r.shm a
  fits : ∀ a, addedOf a r.added < 2 ^ 31
  drained_nonneg : ∀ a, 0 ≤ drainedOf a r.drained
  batches : ∀ b ∈ r.drained, b.length ≤ MAX_ATTR_READ_PER_EACH ∧ (b.map AttrNode.iAttrID).Nodup

variable {r : AttrRun} {env : LockEnv} {attr iValue : Int}

theorem addedOf_append (added : List (Int × Int)) (a : Int) :
    addedOf a (added ++ [(attr, iValue)]) = addedOf a added + if attr = a then iValue else 0 := by
  simp [addedOf]

theorem drainedOf_append (drained : List (List AttrNode)) (b : List AttrNode) (a : Int) :
    drainedOf a (drained ++ [b]) = drainedOf a drained + sumOf a b := by
  simp [drainedOf]

theorem EmptyShm.ok {s : AttrShm} (h : EmptyShm s) :
    ShmOk s ∧ ∀ a, pendingOf s a = 0 := by
  have htables : ∀ t ∈ s.stAttrHash, TableOk t [] := by
    intro t ht
    exact ⟨(h.empty t ht).ready, h.rows t ht, h.cmp t ht, h.spec t ht, by simp⟩
  have hspec : specNodes s = [] := by simp [specNodes, h.count]
  refine ⟨⟨fun t ht => ⟨[], htables t ht⟩, by simp [h.count], by simp [hspec], by simp [hspec]⟩, ?_⟩
  intro a
  rw [pendingOf_eq, hspec, sumOf_nil, Int.add_zero]
  apply List.sum_eq_zero
  intro x hx
  obtain ⟨t, ht, rfl⟩ := List.mem_map.mp hx
  exact sumOf_usedNodes (htables t ht) a

theorem ReadOk.keeps {s s' : AttrShm} {rd : ReadState} (h : ReadOk s rd)
    (hkeep : List.Forall₂ KeepsCursor s.stAttrHash s'.stAttrHash) : ReadOk s' rd := by
  refine ⟨h.forward, h.batch, h.length, ?_⟩
  intro c t' hc ht'
  obtain ⟨hi', rfl⟩ := List.getElem?_eq_some_iff.mp ht'
  have hi : rd.i < s.stAttrHash.length := by
    rw [hkeep.length_eq]
    exact hi'
  have hk : KeepsCursor s.stAttrHash[rd.i] s'.stAttrHash[rd.i] := hkeep.get hi hi'
  obtain ⟨hcur, hlt, hused⟩ := h.cursor c _ hc (List.getElem?_eq_getElem hi)
  refine ⟨hk.cur.trans hcur, ?_, hk.used c hlt hused⟩
  rw [hk.real]
  exact hlt

theorem AttrInv.inFlight_nonneg (h : AttrInv r) (a : Int) : 0 ≤ sumOf a r.inFlight := by
  unfold AttrRun.inFlight
  cases hrd : r.reading with
  | none => simp
  | some rd => exact sumOf_nonneg (h.reading rd hrd).batch.pos a

theorem AttrInv.add (h : AttrInv r) (hp : Promised r (.add env attr iValue))
    (hf : GetsFlag (.add env attr iValue)) :
    ∃ r', attrStep r (.add env attr iValue) = some (some 0, r') ∧ AttrInv r' := by
  have hpend : pendingOf r.shm attr ≤ addedOf attr r.added := by
    have hin := h.inFlight_nonneg attr
    have hout := h.drained_nonneg attr
    rw [h.sum]
    omega
  obtain ⟨hret, hfit⟩ := hp
  obtain ⟨s', hadd, hok, -, hkeep, hsum⟩ := h.shm.add hf (by omega) hret
  refine ⟨⟨s', r.reading, r.added ++ [(attr, iValue)], r.drained⟩, ?_, ?_⟩
  · simp [attrStep, hadd]
  · refine ⟨hok, fun rd hrd => (h.reading rd hrd).keeps hkeep, ?_, ?_, h.drained_nonneg, h.batches⟩
    · intro a
      have := h.sum a
      simp only [addedOf_append, hsum]
      change _ = drainedOf a r.drained + sumOf a r.inFlight + _
      omega
    · intro a
      have := h.fits a
      simp only [addedOf_append]
      split
      · rename_i ha
        subst ha
        exact hfit
      · omega

theorem AttrInv.drain (h : AttrInv r) {x : List AttrNode × Option ReadState × AttrShm}
    (hx : DrainOk (fun a => sumOf a r.inFlight + pendingOf r.shm a) x) : AttrInv (r.drain x) := by
  obtain ⟨b, rd, s'⟩ := x
  cases rd with
  | some rd =>
    obtain ⟨hrd, hb⟩ := hx.reading rd rfl
    refine ⟨hx.shm, ?_, ?_, h.fits, h.drained_nonneg, h.batches⟩
    · intro rd' hrd'
      obtain rfl : rd = rd' := Option.some.inj hrd'
      exact hrd
    · intro a
      have hsum := h.sum a
      have hround := hx.sum a
      change addedOf a r.added = drainedOf a r.drained + sumOf a rd.stAttrRead + pendingOf s' a
      rw [hb]
      simp only at hround ⊢
      omega
  | none =>
    refine ⟨hx.shm, by simp [AttrRun.drain], ?_, h.fits, ?_, ?_⟩
    · intro a
      have hsum := h.sum a
      have hround := hx.sum a
      change addedOf a r.added = drainedOf a (r.drained ++ [b]) + sumOf a [] + pendingOf s' a
      rw [drainedOf_append, sumOf_nil]
      simp only at hround
      omega
    · intro a
      have := h.drained_nonneg a
      have := sumOf_nonneg hx.pos a
      change 0 ≤ drainedOf a (r.drained ++ [b])
      rw [drainedOf_append]
      simp only at *
      omega
    · intro b' hb'
      rcases List.mem_append.mp (show b' ∈ r.drained ++ [b] from hb') with hb' | hb'
      · exact h.batches b' hb'
      · obtain rfl : b' = b := by simpa using hb'
        exact ⟨hx.length, hx.ids⟩

theorem AttrInv.step (r : AttrRun) (call : AttrCall) (h : AttrInv r)
    (hok : Promised r call ∧ GetsFlag call) :
    ∃ o r', attrStep r call = some (o, r') ∧ True ∧ AttrInv r' := by
  obtain ⟨hp, hf⟩ := hok
  cases call with
  | add env attr iValue =>
    obtain ⟨r', hr', hinv⟩ := h.add hp hf
    exact ⟨some 0, r', hr', trivial, hinv⟩
  | readBegin =>
    have hidle : r.reading = none := hp
    refine ⟨none, r.drain (readBegin r.shm), by simp [attrStep, hidle], trivial, h.drain ?_⟩
    apply h.shm.readBegin.congr
    intro a
    simp [AttrRun.inFlight, hidle]
  | readStep env =>
    obtain ⟨rd, hrd⟩ := Option.isSome_iff_exists.mp hp
    refine ⟨none, r.drain (readStep env r.shm rd), by simp [attrStep, hrd], trivial, h.drain ?_⟩
    have hin : r.inFlight = rd.stAttrRead := by simp [AttrRun.inFlight, hrd]
    rw [hin]
    apply h.shm.readStep (h.reading rd hrd) hf
    intro a
    have hsum := h.sum a
    have hfits := h.fits a
    have hout := h.drained_nonneg a
    rw [hin] at hsum
    omega

/-- The primes below `MTATTR_HASH_NODE` that `MtReport_CreateHashTable` takes as row lengths. -/
def attrRows : List Nat := [1999, 1997, 1993, 1987, 1979, 1973, 1951, 1949, 1933, 1931]

/-- An attribute table in fresh shared memory. -/
def attrTable : SharedHashTable AttrNode where
  dwNodeSize := 9
  dwRealNodeCount := 19692
  dwShareMemBytes := 29 + 2000 * 18
  dwNodeNums := attrRows
  bInitSuccess := true
  bAccessCheck := false
  dwCurIndex := 19692
  dwCurIndexRevers := 19692
  funCmp := mtreportAttrCmp
  head := ⟨19692, 19692, 0, 0, 0, false⟩
  nodeHead := fun _ => ⟨false, 0, 0⟩
  node := fun _ => ⟨0, 0, 0⟩
  attrSpec := []

/-- The attribute memory with its five tables. -/
def attrShm : AttrShm := ⟨List.replicate 5 attrTable, 0, fun _ => ⟨0, 0, 0⟩⟩

def freeFlag : LockEnv := ⟨fun _ => false, 7, 1⟩

/-- Another process holds the flag during all ten tries. -/
def heldFlag : LockEnv := ⟨fun _ => true, 7, 1⟩

theorem emptyShm_attrShm : EmptyShm attrShm := by
  have hall : ∀ t ∈ attrShm.stAttrHash, t = attrTable := fun t ht => List.eq_of_mem_replicate ht
  refine ⟨?_, ?_, ?_, ?_, rfl⟩
  · intro t ht
    rw [hall t ht]
    exact ⟨rfl, rfl, rfl, rfl, rfl, rfl, fun _ _ => rfl, by decide⟩
  · intro t ht
    rw [hall t ht]
    exact ⟨by decide, by decide⟩
  · intro t ht
    rw [hall t ht]
    rfl
  · intro t ht
    rw [hall t ht]
    rfl

/-- A drain with a call between its rounds. -/
def addReadAdd : List AttrCall :=
  [.add freeFlag 100 5, .readBegin, .add freeFlag 100 3, .readStep freeFlag]

end XrkMonitor.Attr
