import XrkMonitor.Attr.Runs
import XrkMonitor.Packet.Transport

/-!
# Counts from the library to the server

What applications add to attributes goes through the shared tables, the batches of
the agent's drains and signed packets into the record of the attribute server. In a
run of calls and drains that get the flags of the tables every attribute keeps its
sum on the whole way.

## Implementation notes

An attribute is an `Int` within the bounds of `int32_t`. The `k`-th batch goes out
with the head and the keys of `reports k`.
-/

namespace XrkMonitor.Packet

open Library Attr

section Batches

/-- An attribute of its type. -/
def IsAttr (attr : Int) : Prop := -2 ^ 31 ≤ attr ∧ attr < 2 ^ 31

/-- What is recorded of an attribute. -/
def recordedOf (attr : Int) (infos : List AttrInfo) : Int :=
  (infos.map fun x =>
    if x.uint32_attr_id = (attr % 2 ^ 32).toNat then (x.uint32_attr_value : Int) else 0).sum

/-- A batch whose numbers have the same meaning as unsigned ones. -/
def Faithful (b : List AttrNode) : Prop :=
  ∀ n ∈ b, IsAttr n.iAttrID ∧ 0 < n.iCurValue ∧ n.iCurValue < 2 ^ 31

/-- The record of such a batch has its sums. -/
theorem recordedOf_attrInfo {b : List AttrNode} (hb : Faithful b) {attr : Int} (hattr : IsAttr attr) :
    recordedOf attr (b.map attrInfo) = sumOf attr b := by
  rw [recordedOf, sumOf, List.map_map]
  congr 1
  apply List.map_congr_left
  intro n hn
  obtain ⟨⟨hge, hlt⟩, hpos, hfits⟩ := hb n hn
  obtain ⟨hge', hlt'⟩ := hattr
  have hid : (n.iAttrID % 2 ^ 32).toNat = (attr % 2 ^ 32).toNat ↔ n.iAttrID = attr := by omega
  have hvalue : (((n.iCurValue % 2 ^ 32).toNat : Nat) : Int) = n.iCurValue := by omega
  simp only [Function.comp_apply, attrInfo, hid, hvalue]

end Batches

section Runs

variable {r : AttrRun} {env : SharedHash.LockEnv}

/-- A call with an attribute of its type. -/
def TypedCall : AttrCall → Prop
  | .add _ attr _ => IsAttr attr
  | _ => True

/-- Nothing is lost or doubled, all drained values are positive, and all attributes typed. -/
structure CountInv (r : AttrRun) : Prop where
  sums : AttrInv r
  pos : ∀ b ∈ r.drained, ∀ n ∈ b, 0 < n.iCurValue
  typed : ∀ x ∈ r.added, IsAttr x.1

theorem drainOk_readBegin (h : AttrInv r) (hidle : r.reading = none) :
    DrainOk (fun a => sumOf a r.inFlight + pendingOf r.shm a) (readBegin r.shm) := by
  apply h.shm.readBegin.congr
  intro a
  simp [AttrRun.inFlight, hidle]

theorem drainOk_readStep (h : AttrInv r) {rd : ReadState} (hrd : r.reading = some rd)
    (hflag : SharedHash.lockLoop env false = true) :
    DrainOk (fun a => sumOf a r.inFlight + pendingOf r.shm a) (readStep env r.shm rd) := by
  have hin : r.inFlight = rd.stAttrRead := by simp [AttrRun.inFlight, hrd]
  rw [hin]
  apply h.shm.readStep (h.reading rd hrd) hflag
  intro a
  have hsum := h.sum a
  have hfits := h.fits a
  have hout := h.drained_nonneg a
  rw [hin] at hsum
  omega

theorem CountInv.drain (h : CountInv r) {x : List AttrNode × Option ReadState × AttrShm}
    (hx : DrainOk (fun a => sumOf a r.inFlight + pendingOf r.shm a) x) : CountInv (r.drain x) where
  sums := h.sums.drain hx
  pos := by
    intro b hb
    rw [AttrRun.drain] at hb
    dsimp only at hb
    split at hb
    · rcases List.mem_append.mp hb with hold | hnew
      · exact h.pos b hold
      · rw [List.mem_singleton.mp hnew]
        exact hx.pos
    · exact h.pos b hb
  typed := h.typed

theorem CountInv.step (r : AttrRun) (call : AttrCall) (h : CountInv r)
    (hok : (Promised r call ∧ GetsFlag call) ∧ TypedCall call) :
    ∃ o r', attrStep r call = some (o, r') ∧ True ∧ CountInv r' := by
  obtain ⟨⟨hp, hf⟩, htyped⟩ := hok
  cases call with
  | add env attr iValue =>
    obtain ⟨r', hr', hsums⟩ := h.sums.add hp hf
    obtain ⟨-, rfl⟩ := Prod.mk.inj (Option.some.inj hr')
    refine ⟨some 0, _, hr', trivial, hsums, h.pos, ?_⟩
    intro x hx
    dsimp only at hx
    split at hx
    · rcases List.mem_append.mp hx with hold | hnew
      · exact h.typed x hold
      · rw [List.mem_singleton.mp hnew]
        exact htyped
    · exact h.typed x hx
  | readBegin =>
    have hidle : r.reading = none := hp
    exact ⟨none, r.drain (readBegin r.shm), by simp [attrStep, hidle], trivial,
      h.drain (drainOk_readBegin h.sums hidle)⟩
  | readStep env =>
    obtain ⟨rd, hrd⟩ := Option.isSome_iff_exists.mp hp
    exact ⟨none, r.drain (readStep env r.shm rd), by simp [attrStep, hrd], trivial,
      h.drain (drainOk_readStep h.sums hrd hf)⟩

/-- A drained value comes from calls. -/
theorem CountInv.faithful (h : CountInv r) {b : List AttrNode} (hb : b ∈ r.drained) : Faithful b := by
  intro n hn
  have hvalue := value_le_sumOf (h.pos b hb) hn
  have hbatch : sumOf n.iAttrID b ≤ drainedOf n.iAttrID r.drained := by
    apply List.single_le_sum
    · intro y hy
      obtain ⟨c, hc, rfl⟩ := List.mem_map.mp hy
      exact sumOf_nonneg (h.pos c hc) _
    · exact List.mem_map_of_mem hb
  have hsum := h.sums.sum n.iAttrID
  have hin := h.sums.inFlight_nonneg n.iAttrID
  have hpend := h.sums.shm.pending_nonneg n.iAttrID
  have hfits := h.sums.fits n.iAttrID
  have hpos := h.pos b hb n hn
  refine ⟨?_, hpos, by omega⟩
  by_contra hnot
  have hzero : addedOf n.iAttrID r.added = 0 := by
    apply List.sum_eq_zero
    intro y hy
    obtain ⟨x, hx, rfl⟩ := List.mem_map.mp hy
    rw [if_neg]
    rintro heq
    exact hnot (heq ▸ h.typed x hx)
  omega

end Runs

end XrkMonitor.Packet
