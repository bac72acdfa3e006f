import Mathlib.Order.Basic
import XrkMonitor.ServerRing.Steps

/-!
# What a run of the log ring keeps

The writes are numbered from the start of the ring, and write `k` has the cell
`k % iLogMaxCount`. `RingInv` says where the start index and the reader stand
relative to the number of delivered logs, and what the cells hold. `StepOk` is
the condition on a step under which it is kept.
-/

namespace XrkMonitor.ServerRing

open Library

variable {F : Type}

/-- The writes and the cells, when the first `d` logs are delivered. -/
structure CellsOk (N d : Nat) (writes : List (LogWrite F)) (sLogList : Nat → TSLog F) : Prop where
  index : ∀ k w, writes[k]? = some w → w.iIndex = k % N ∧ w.dwSeq ≠ 0
  published : ∀ k w, writes[k]? = some w → d ≤ k → w.phase ≠ .reserved →
    sLogList (k % N) = ⟨w.dwSeq, w.log⟩
  reserved : ∀ k w, writes[k]? = some w → w.phase = .reserved →
    d ≤ k ∧ (sLogList (k % N)).dwLogSeq = 0

/-- The reader has delivered the log in a cell and not moved on. -/
def ReadPhase.Behind (reader : ReadPhase) (i : Nat) : Prop :=
  reader = .written i ∨ reader = .advancing i

/-- Where the start index and the reader stand: nothing is completed, the start
index is at the first log that is not delivered, or it is at the last delivered
one. -/
inductive StartOk (s : RingState F) : Prop
  | empty : s.shm.iLogStarIndex = -1 → s.reader = .idle →
      s.writes.length ≤ s.delivered.length + s.shm.iLogMaxCount →
      (∀ k w, s.writes[k]? = some w → s.delivered.length ≤ k → w.phase ≠ .done) → StartOk s
  | next : s.shm.iLogStarIndex = (s.delivered.length % s.shm.iLogMaxCount : Nat) →
      s.delivered.length < s.writes.length →
      s.writes.length ≤ s.delivered.length + s.shm.iLogMaxCount →
      (s.reader = .idle ∨ s.reader = .reading (s.delivered.length % s.shm.iLogMaxCount) ∨
        ∃ e, e + 1 = s.delivered.length ∧ s.reader.Behind (e % s.shm.iLogMaxCount)) → StartOk s
  | behind (e : Nat) : e + 1 = s.delivered.length →
      s.shm.iLogStarIndex = (e % s.shm.iLogMaxCount : Nat) →
      s.writes.length ≤ e + s.shm.iLogMaxCount →
      s.reader.Behind (e % s.shm.iLogMaxCount) → StartOk s

/-- The invariant of the ring. -/
structure RingInv (s : RingState F) : Prop where
  pos : 0 < s.shm.iLogMaxCount
  write : s.shm.iWriteIndex = s.writes.length % s.shm.iLogMaxCount
  le : s.delivered.length ≤ s.writes.length
  order : s.delivered = (s.writes.map LogWrite.log).take s.delivered.length
  cells : CellsOk s.shm.iLogMaxCount s.delivered.length s.writes s.shm.sLogList
  start : StartOk s

/-- The cell that the reader is about to read. -/
def RingState.readingCell (s : RingState F) : Option Nat :=
  match s.reader with
  | .reading iLast => some iLast
  | _ => none

/-- The cell that the reader is about to leave. -/
def RingState.advancingCell (s : RingState F) : Option Nat :=
  match s.reader with
  | .advancing iLast => some iLast
  | _ => none

/-- A step that keeps every log in reach of the reader: a write does not take a cell whose log is
not delivered, it sets the start index only for the oldest log that is not delivered, and the reader
neither skips a cell nor takes a full ring for an empty one. -/
def StepOk (s : RingState F) : RingStep F → Prop
  | .reserve _ => s.shm.iLogStarIndex = -1 →
      s.writes.length < s.delivered.length + s.shm.iLogMaxCount
  | .start k => ∀ w ∈ s.writes[k]?, w.phase = .starting →
      k = s.delivered.length ∧ (s.shm.iLogStarIndex < 0 ∨ w.iIndex ≠ s.shm.iWriteIndex)
  | .readLog stale => stale = true → ∀ i ∈ s.readingCell, (s.shm.sLogList i).dwLogSeq ≠ 0
  | .advance _ => ∀ i ∈ s.advancingCell, ringNext s.shm.iLogMaxCount i = s.shm.iWriteIndex →
      s.delivered.length = s.writes.length
  | _ => True

instance (s : RingState F) : ∀ a, Decidable (StepOk s a)
  | .reserve _ => inferInstanceAs (Decidable (_ → _))
  | .publish _ => instDecidableTrue
  | .check _ => instDecidableTrue
  | .start k => inferInstanceAs (Decidable (∀ w ∈ s.writes[k]?, _))
  | .readStart => instDecidableTrue
  | .readLog _ => inferInstanceAs (Decidable (_ → _))
  | .compare => instDecidableTrue
  | .advance _ => inferInstanceAs (Decidable (∀ i ∈ s.advancingCell, _))

section Cells

variable {N d k : Nat} {writes : List (LogWrite F)} {sLogList : Nat → TSLog F} {w : LogWrite F}
  {α : Type}

theorem lt_length_of_getElem? {l : List α} {x : α} (h : l[k]? = some x) :
    k < l.length := (List.getElem?_eq_some_iff.mp h).1

theorem getElem?_concat_cases {l : List α} {x y : α} (h : (l ++ [y])[k]? = some x) :
    (k = l.length ∧ x = y) ∨ l[k]? = some x := by
  rcases Nat.lt_trichotomy k l.length with hk | hk | hk
  · right
    rwa [List.getElem?_append_left hk] at h
  · left
    subst hk
    simp only [List.getElem?_concat_length, Option.some.injEq] at h
    exact ⟨rfl, h.symm⟩
  · have hlt := lt_length_of_getElem? h
    rw [List.length_append, List.length_singleton] at hlt
    omega

theorem getElem?_modify_cases {l : List α} {f : α → α} {i : Nat} {x y : α}
    (hy : l[i]? = some y) (h : (l.modify i f)[k]? = some x) :
    (k = i ∧ x = f y) ∨ (k ≠ i ∧ l[k]? = some x) := by
  rw [List.getElem?_modify] at h
  by_cases hk : i = k
  · subst hk
    left
    simp only [hy, if_true, Option.map_eq_map, Option.map_some, Option.some.injEq] at h
    exact ⟨rfl, h.symm⟩
  · right
    simp only [hk, if_false, Option.map_eq_map, Option.map_id'] at h
    exact ⟨fun heq => hk heq.symm, h⟩

theorem CellsOk.reserve (h : CellsOk N d writes sLogList) (hd : d ≤ writes.length)
    (hroom : writes.length < d + N) {q : Nat} (hq : q ≠ 0) (log : F) :
    CellsOk N d (writes ++ [⟨writes.length % N, q, log, .reserved⟩])
      (Function.update sLogList (writes.length % N)
        { sLogList (writes.length % N) with
          dwLogSeq := 0 }) where
  index := by
    intro k w hw
    rcases getElem?_concat_cases hw with ⟨rfl, rfl⟩ | hw
    · exact ⟨rfl, hq⟩
    · exact h.index k w hw
  published := by
    intro k w hw hk hphase
    rcases getElem?_concat_cases hw with ⟨-, rfl⟩ | hw
    · exact absurd rfl hphase
    · have hlt := lt_length_of_getElem? hw
      have hne : k % N ≠ writes.length % N := by
        intro heq
        have := ring_mod_inj (Nat.le_of_lt hlt) (by omega) heq
        omega
      rw [Function.update_of_ne hne]
      exact h.published k w hw hk hphase
  reserved := by
    intro k w hw hphase
    rcases getElem?_concat_cases hw with ⟨rfl, -⟩ | hw
    · exact ⟨hd, by rw [Function.update_self]⟩
    · obtain ⟨hk, hseq⟩ := h.reserved k w hw hphase
      refine ⟨hk, ?_⟩
      by_cases heq : k % N = writes.length % N
      · rw [heq, Function.update_self]
      · rw [Function.update_of_ne heq]
        exact hseq

theorem CellsOk.publish (h : CellsOk N d writes sLogList) (hroom : writes.length ≤ d + N)
    (hw : writes[k]? = some w) (hphase : w.phase = .reserved) :
    CellsOk N d
      (writes.modify k fun w =>
        { w with
          phase := .published })
      (Function.update sLogList w.iIndex ⟨w.dwSeq, w.log⟩) := by
  have hk := (h.reserved k w hw hphase).1
  have hindex := (h.index k w hw).1
  have hklt := lt_length_of_getElem? hw
  have hother : ∀ j v, writes[j]? = some v → d ≤ j → j ≠ k → j % N ≠ w.iIndex := by
    intro j v hv hj hjk heq
    have hjlt := lt_length_of_getElem? hv
    rw [hindex] at heq
    rcases Nat.le_total j k with hle | hle
    · exact hjk (ring_mod_inj hle (by omega) heq)
    · exact hjk (ring_mod_inj hle (by omega) heq.symm).symm
  constructor
  · intro j v hv
    rcases getElem?_modify_cases hw hv with ⟨rfl, rfl⟩ | ⟨-, hv⟩
    · exact h.index j w hw
    · exact h.index j v hv
  · intro j v hv hj hvphase
    rcases getElem?_modify_cases hw hv with ⟨rfl, rfl⟩ | ⟨hjk, hv⟩
    · rw [← hindex, Function.update_self]
    · rw [Function.update_of_ne (hother j v hv hj hjk)]
      exact h.published j v hv hj hvphase
  · intro j v hv hvphase
    rcases getElem?_modify_cases hw hv with ⟨-, rfl⟩ | ⟨hjk, hv⟩
    · cases hvphase
    · obtain ⟨hj, hseq⟩ := h.reserved j v hv hvphase
      refine ⟨hj, ?_⟩
      rw [Function.update_of_ne (hother j v hv hj hjk)]
      exact hseq

theorem CellsOk.setPhase (h : CellsOk N d writes sLogList) (hw : writes[k]? = some w)
    (hold : w.phase ≠ .reserved) {phase : WritePhase} (hnew : phase ≠ .reserved) :
    CellsOk N d
      (writes.modify k fun w =>
        { w with
          phase := phase }) sLogList where
  index := by
    intro j v hv
    rcases getElem?_modify_cases hw hv with ⟨rfl, rfl⟩ | ⟨-, hv⟩
    · exact h.index j w hw
    · exact h.index j v hv
  published := by
    intro j v hv hj hvphase
    rcases getElem?_modify_cases hw hv with ⟨rfl, rfl⟩ | ⟨-, hv⟩
    · exact h.published j w hw hj hold
    · exact h.published j v hv hj hvphase
  reserved := by
    intro j v hv hvphase
    rcases getElem?_modify_cases hw hv with ⟨-, rfl⟩ | ⟨-, hv⟩
    · exact absurd hvphase hnew
    · exact h.reserved j v hv hvphase

theorem CellsOk.deliver (h : CellsOk N d writes sLogList) (hw : writes[d]? = some w)
    (hphase : w.phase ≠ .reserved) : CellsOk N (d + 1) writes sLogList where
  index := h.index
  published := fun j v hv hj => h.published j v hv (by omega)
  reserved := by
    intro j v hv hvphase
    obtain ⟨hj, hseq⟩ := h.reserved j v hv hvphase
    refine ⟨?_, hseq⟩
    by_contra hle
    obtain rfl : j = d := by omega
    rw [hw] at hv
    exact hphase (Option.some.inj hv ▸ hvphase)

end Cells

section Steps

variable {s : RingState F} {k : Nat} {w : LogWrite F} {phase : WritePhase}

theorem takeSeq_ne_zero (dwLogSeq : Nat) : (takeSeq dwLogSeq).1 ≠ 0 := by
  unfold takeSeq
  split
  · exact Nat.one_ne_zero
  · assumption

theorem StartOk.room (h : StartOk s) :
    s.writes.length ≤ s.delivered.length + s.shm.iLogMaxCount := by
  cases h with
  | empty _ _ hroom _ => exact hroom
  | next _ _ hroom _ => exact hroom
  | behind e he _ hroom _ => omega

/-- The state after a reservation. -/
def RingState.reserved (s : RingState F) (log : F) : RingState F :=
  { s with
    shm :=
      { s.shm with
        iWriteIndex := ringNext s.shm.iLogMaxCount s.shm.iWriteIndex
        dwLogSeq := (takeSeq s.shm.dwLogSeq).2
        sLogList := Function.update s.shm.sLogList s.shm.iWriteIndex
          { s.shm.sLogList s.shm.iWriteIndex with
            dwLogSeq := 0 } }
    writes := s.writes ++ [⟨s.shm.iWriteIndex, (takeSeq s.shm.dwLogSeq).1, log, .reserved⟩] }

theorem reserve_eq (s : RingState F) (log : F) :
    reserve s log = if (s.shm.iWriteIndex : Int) = s.shm.iLogStarIndex then (true, s)
      else (false, s.reserved log) := rfl

/-- A write is accepted when there is a cell for it. -/
theorem RingInv.reserved (h : RingInv s) (log : F)
    (hfree : (s.shm.iWriteIndex : Int) ≠ s.shm.iLogStarIndex) (hok : StepOk s (.reserve log)) :
    RingInv (s.reserved log) := by
  have hN := h.pos
  have hW := h.write
  have hroom : s.writes.length < s.delivered.length + s.shm.iLogMaxCount := by
    cases h.start with
    | empty hS _ _ _ => exact hok hS
    | next hS _ hroom _ =>
      refine lt_of_le_of_ne hroom ?_
      intro heq
      apply hfree
      rw [hS, hW, heq, Nat.add_mod_right]
    | behind e he _ hroom _ => omega
  refine ⟨hN, ?_, ?_, ?_, ?_, ?_⟩
  · change ringNext _ s.shm.iWriteIndex = (s.writes ++ [_]).length % _
    rw [hW, ringNext_mod hN, List.length_append, List.length_singleton]
    rfl
  · exact h.le.trans (by simp [RingState.reserved])
  · change s.delivered = ((s.writes ++ [_]).map LogWrite.log).take s.delivered.length
    rw [List.map_append, List.take_append_of_le_length (by rw [List.length_map]; exact h.le)]
    exact h.order
  · have hcells := h.cells.reserve h.le hroom (takeSeq_ne_zero s.shm.dwLogSeq) log
    rw [← hW] at hcells
    exact hcells
  · have hlen : (s.reserved log).writes.length = s.writes.length + 1 := by
      simp [RingState.reserved]
    cases h.start with
    | empty hS hreader _ hdone =>
      refine StartOk.empty hS hreader (by rw [hlen]; exact hroom) ?_
      intro j v hv hj
      rcases getElem?_concat_cases hv with ⟨-, rfl⟩ | hv
      · simp
      · exact hdone j v hv hj
    | next hS hlt _ hreader =>
      exact StartOk.next hS (by rw [hlen]; exact Nat.lt_succ_of_lt hlt) (by rw [hlen]; exact hroom)
        hreader
    | behind e he hS hbound hreader =>
      refine StartOk.behind e he hS ?_ hreader
      rw [hlen]
      refine lt_of_le_of_ne hbound ?_
      intro heq
      apply hfree
      rw [hS, hW, heq, Nat.add_mod_right]

theorem writeStep_cases {P : RingState F → Prop}
    {act : LogWrite F → RingState F} (hs : P s)
    (hact : ∀ w, s.writes[k]? = some w → w.phase = phase → P (act w)) :
    P (writeStep s k phase act) := by
  unfold writeStep
  split
  · rename_i w hw
    split
    · rename_i hphase
      exact hact w hw hphase
    · exact hs
  · exact hs

theorem map_log_modify (writes : List (LogWrite F)) (k : Nat) (phase : WritePhase) :
    (writes.modify k fun w =>
      { w with
        phase := phase }).map LogWrite.log = writes.map LogWrite.log := by
  apply List.ext_getElem?
  intro j
  rw [List.getElem?_map, List.getElem?_map, List.getElem?_modify]
  by_cases hj : k = j
  · cases hw : writes[j]? with
    | none => simp
    | some w => simp [hj]
  · simp [hj]

theorem StartOk.setPhase (h : StartOk s) (hw : s.writes[k]? = some w)
    (hphase : s.shm.iLogStarIndex = -1 → phase ≠ .done) : StartOk (s.setPhase k phase) := by
  have hlen : (s.setPhase k phase).writes.length = s.writes.length := by
    simp [RingState.setPhase]
  cases h with
  | empty hS hreader hroom hdone =>
    refine StartOk.empty hS hreader (by rw [hlen]; exact hroom) ?_
    intro j v hv hj
    rcases getElem?_modify_cases hw hv with ⟨-, rfl⟩ | ⟨-, hv⟩
    · exact hphase hS
    · exact hdone j v hv hj
  | next hS hlt hroom hreader =>
    exact StartOk.next hS (by rw [hlen]; exact hlt) (by rw [hlen]; exact hroom) hreader
  | behind e he hS hroom hreader =>
    exact StartOk.behind e he hS (by rw [hlen]; exact hroom) hreader

theorem RingInv.setPhase (h : RingInv s) (hw : s.writes[k]? = some w) (hold : w.phase ≠ .reserved)
    (hnew : phase ≠ .reserved)
    (hphase : s.shm.iLogStarIndex = -1 → phase ≠ .done) : RingInv (s.setPhase k phase) where
  pos := h.pos
  write := h.write.trans (by simp [RingState.setPhase])
  le := h.le.trans (by simp [RingState.setPhase])
  order := by
    change s.delivered = ((s.writes.modify k _).map LogWrite.log).take s.delivered.length
    rw [map_log_modify]
    exact h.order
  cells := h.cells.setPhase hw hold hnew
  start := h.start.setPhase hw hphase

theorem RingInv.publish (h : RingInv s) (hw : s.writes[k]? = some w)
    (hphase : w.phase = .reserved) :
    RingInv (RingState.setPhase
      { s with
        shm :=
          { s.shm with
            sLogList := Function.update s.shm.sLogList w.iIndex ⟨w.dwSeq, w.log⟩ } }
      k .published) where
  pos := h.pos
  write := h.write.trans (by simp [RingState.setPhase])
  le := h.le.trans (by simp [RingState.setPhase])
  order := by
    change s.delivered = ((s.writes.modify k _).map LogWrite.log).take s.delivered.length
    rw [map_log_modify]
    exact h.order
  cells := h.cells.publish h.start.room hw hphase
  start := by
    have hstart : StartOk
        { s with
          shm :=
            { s.shm with
              sLogList := Function.update s.shm.sLogList w.iIndex ⟨w.dwSeq, w.log⟩ } } := by
      cases h.start with
      | empty hS hreader hroom hdone => exact StartOk.empty hS hreader hroom hdone
      | next hS hlt hroom hreader => exact StartOk.next hS hlt hroom hreader
      | behind e he hS hroom hreader => exact StartOk.behind e he hS hroom hreader
    exact hstart.setPhase hw fun _ => by simp

theorem RingInv.startIndex (h : RingInv s) (hw : s.writes[k]? = some w)
    (hphase : w.phase = .starting) (hok : StepOk s (.start k)) :
    RingInv (RingState.setPhase
      { s with
        shm :=
          { s.shm with
            iLogStarIndex := swapStart s.shm w.iIndex } }
      k .done) := by
  obtain ⟨rfl, hcase⟩ := hok w hw hphase
  have hlt := lt_length_of_getElem? hw
  have hindex := (h.cells.index _ w hw).1
  have hswap : swapStart s.shm w.iIndex = (s.delivered.length % s.shm.iLogMaxCount : Nat) := by
    unfold swapStart
    rw [← hindex]
    rcases hcase with hneg | hne
    · rw [if_pos hneg]
    · rw [if_neg hne, ite_self]
  have hstart : StartOk
      { s with
        shm :=
          { s.shm with
            iLogStarIndex := swapStart s.shm w.iIndex } } := by
    refine StartOk.next hswap hlt h.start.room ?_
    cases h.start with
    | empty _ hreader _ _ => exact Or.inl hreader
    | next _ _ _ hreader => exact hreader
    | behind e he _ _ hreader => exact Or.inr (Or.inr ⟨e, he, hreader⟩)
  have hinv : RingInv
      { s with
        shm :=
          { s.shm with
            iLogStarIndex := swapStart s.shm w.iIndex } } :=
    ⟨h.pos, h.write, h.le, h.order, h.cells, hstart⟩
  refine hinv.setPhase hw (by simp [hphase]) (by simp) ?_
  intro hS
  have hS' : swapStart s.shm w.iIndex = -1 := hS
  rw [hswap] at hS'
  omega

theorem RingInv.cell_delivered (h : RingInv s) (hlt : s.delivered.length < s.writes.length)
    (hseq : (s.shm.sLogList (s.delivered.length % s.shm.iLogMaxCount)).dwLogSeq ≠ 0) :
    ∃ w, s.writes[s.delivered.length]? = some w ∧ w.phase ≠ .reserved ∧
      s.shm.sLogList (s.delivered.length % s.shm.iLogMaxCount) = ⟨w.dwSeq, w.log⟩ := by
  obtain ⟨w, hw⟩ : ∃ w, s.writes[s.delivered.length]? = some w :=
    ⟨_, List.getElem?_eq_getElem hlt⟩
  have hphase : w.phase ≠ .reserved := fun hres => hseq (h.cells.reserved _ w hw hres).2
  exact ⟨w, hw, hphase, h.cells.published _ w hw (le_refl _) hphase⟩

theorem RingInv.deliver (h : RingInv s) (hlt : s.delivered.length < s.writes.length)
    (hS : s.shm.iLogStarIndex = (s.delivered.length % s.shm.iLogMaxCount : Nat))
    (hseq : (s.shm.sLogList (s.delivered.length % s.shm.iLogMaxCount)).dwLogSeq ≠ 0) :
    RingInv
      { s with
        reader := .written (s.delivered.length % s.shm.iLogMaxCount)
        delivered := s.delivered ++
          [(s.shm.sLogList (s.delivered.length % s.shm.iLogMaxCount)).fields] } := by
  obtain ⟨w, hw, hphase, hcell⟩ := h.cell_delivered hlt hseq
  have hlen : (s.delivered ++
      [(s.shm.sLogList (s.delivered.length % s.shm.iLogMaxCount)).fields]).length =
        s.delivered.length + 1 := by simp
  refine ⟨h.pos, h.write, ?_, ?_, ?_, ?_⟩
  · dsimp only
    rw [hlen]
    exact hlt
  · dsimp only
    rw [hlen, hcell, List.take_add_one, ← h.order, List.getElem?_map, hw]
    rfl
  · dsimp only
    rw [hlen]
    exact h.cells.deliver hw hphase
  · exact StartOk.behind s.delivered.length hlen.symm hS h.start.room (Or.inl rfl)

theorem RingInv.reading (h : RingInv s) {iLast : Nat} (hreader : s.reader = .reading iLast) :
    iLast = s.delivered.length % s.shm.iLogMaxCount ∧
      s.shm.iLogStarIndex = (s.delivered.length % s.shm.iLogMaxCount : Nat) ∧
      s.delivered.length < s.writes.length := by
  cases h.start with
  | empty _ hidle _ _ =>
    rw [hreader] at hidle
    cases hidle
  | next hS hlt _ hcase =>
    rw [hreader] at hcase
    rcases hcase with hcase | hcase | ⟨e, -, hcase | hcase⟩
    · cases hcase
    · exact ⟨ReadPhase.reading.inj hcase, hS, hlt⟩
    · cases hcase
    · cases hcase
  | behind e _ _ _ hcase =>
    rw [hreader] at hcase
    rcases hcase with hcase | hcase <;> cases hcase

theorem RingInv.behind (h : RingInv s) {iLast : Nat} (hreader : s.reader.Behind iLast) :
    ∃ e, e + 1 = s.delivered.length ∧ iLast = e % s.shm.iLogMaxCount ∧
      ((s.shm.iLogStarIndex = (e % s.shm.iLogMaxCount : Nat) ∧
          s.writes.length ≤ e + s.shm.iLogMaxCount) ∨
        (s.shm.iLogStarIndex = (s.delivered.length % s.shm.iLogMaxCount : Nat) ∧
          s.delivered.length < s.writes.length)) := by
  have hinj : ∀ {i j : Nat}, s.reader.Behind i → s.reader.Behind j → i = j := by
    rintro i j (hi | hi) (hj | hj)
    · exact ReadPhase.written.inj (hi.symm.trans hj)
    · cases hi.symm.trans hj
    · cases hi.symm.trans hj
    · exact ReadPhase.advancing.inj (hi.symm.trans hj)
  cases h.start with
  | empty _ hidle _ _ => rcases hreader with hr | hr <;> cases hidle.symm.trans hr
  | next hS hlt _ hcase =>
    rcases hcase with hcase | hcase | ⟨e, he, hcase⟩
    · rcases hreader with hr | hr <;> cases hcase.symm.trans hr
    · rcases hreader with hr | hr <;> cases hcase.symm.trans hr
    · exact ⟨e, he, hinj hreader hcase, Or.inr ⟨hS, hlt⟩⟩
  | behind e he hS hroom hcase => exact ⟨e, he, hinj hreader hcase, Or.inl ⟨hS, hroom⟩⟩

theorem RingInv.setReader (h : RingInv s) {reader : ReadPhase}
    (hstart : StartOk
      { s with
        reader := reader }) :
    RingInv
      { s with
        reader := reader } := ⟨h.pos, h.write, h.le, h.order, h.cells, hstart⟩

theorem RingInv.readStart (h : RingInv s) : RingInv (readStart s) := by
  unfold ServerRing.readStart
  split
  · rename_i hidle
    split
    · exact h
    · rename_i hS
      apply h.setReader
      cases h.start with
      | empty hneg _ _ _ => omega
      | next hS hlt hroom _ =>
        refine StartOk.next hS hlt hroom (Or.inr (Or.inl ?_))
        rw [hS, Int.toNat_natCast]
      | behind e _ _ _ hcase => rcases hcase with hr | hr <;> cases hidle.symm.trans hr
  · exact h

theorem RingInv.readLog (h : RingInv s) {stale : Bool} (hok : StepOk s (.readLog stale)) :
    RingInv (readLog s stale) := by
  unfold ServerRing.readLog
  split
  · rename_i iLast hreader
    obtain ⟨rfl, hS, hlt⟩ := h.reading hreader
    split
    · rename_i hseq
      have hfresh : stale = false := by
        by_contra hstale
        refine hok (by simpa using hstale) _ ?_ hseq
        simp [RingState.readingCell, hreader]
      rw [hfresh]
      apply h.setReader
      exact StartOk.next hS hlt h.start.room (Or.inl rfl)
    · rename_i hseq
      exact h.deliver hlt hS hseq
  · exact h

theorem RingInv.compareStart (h : RingInv s) : RingInv (compareStart s) := by
  unfold ServerRing.compareStart
  split
  · rename_i iLast hreader
    apply h.setReader
    obtain ⟨e, he, rfl, ⟨hS, hroom⟩ | ⟨hS, hlt⟩⟩ := h.behind (Or.inl hreader)
    · refine StartOk.behind e he hS hroom (Or.inr ?_)
      exact if_pos hS.symm
    · refine StartOk.next hS hlt h.start.room ?_
      dsimp only
      split
      · exact Or.inr (Or.inr ⟨e, he, Or.inr rfl⟩)
      · exact Or.inl rfl
  · exact h

theorem advanceStart_of_nonneg (kind : Reader) {shm : TSLogShm F} (hS : 0 ≤ shm.iLogStarIndex)
    (iNext : Nat) :
    advanceStart kind shm iNext = if iNext = shm.iWriteIndex then -1 else (iNext : Int) := by
  cases kind with
  | writeFile => rfl
  | getLog => rw [advanceStart, swapStart, if_neg (by omega)]

theorem RingInv.advance (h : RingInv s) (kind : Reader) {more : Bool}
    (hok : StepOk s (.advance more)) : RingInv (advance kind s more) := by
  unfold ServerRing.advance
  split
  · rename_i iLast hreader
    obtain ⟨e, he, rfl, hcase⟩ := h.behind (Or.inr hreader)
    have hnext : ringNext s.shm.iLogMaxCount (e % s.shm.iLogMaxCount) =
        s.delivered.length % s.shm.iLogMaxCount := by rw [ringNext_mod h.pos, he]
    have hpos : 0 ≤ s.shm.iLogStarIndex := by
      rcases hcase with ⟨hS, -⟩ | ⟨hS, -⟩ <;> omega
    have hall : ringNext s.shm.iLogMaxCount (e % s.shm.iLogMaxCount) = s.shm.iWriteIndex →
        s.delivered.length = s.writes.length :=
      hok _ (by simp [RingState.advancingCell, hreader])
    refine ⟨h.pos, h.write, h.le, h.order, h.cells, ?_⟩
    dsimp only
    rw [advanceStart_of_nonneg kind hpos, hnext] at *
    split
    · rename_i hend
      refine StartOk.empty rfl (by simp) h.start.room ?_
      intro j v hv hj
      have hlt := lt_length_of_getElem? hv
      have hlen := hall hend
      dsimp only at hlt hj
      omega
    · rename_i hmore
      have hlt : s.delivered.length < s.writes.length := by
        refine lt_of_le_of_ne h.le ?_
        intro heq
        exact hmore (by rw [heq, h.write])
      refine StartOk.next rfl hlt h.start.room ?_
      dsimp only
      split
      · exact Or.inr (Or.inl rfl)
      · exact Or.inl rfl
  · exact h

theorem RingInv.step (h : RingInv s) (kind : Reader) (a : RingStep F) (hok : StepOk s a) :
    RingInv (ringStep kind s a).2 := by
  cases a with
  | reserve log =>
    change RingInv (reserve s log).2
    rw [reserve_eq]
    split
    · exact h
    · rename_i hfree
      exact h.reserved log hfree hok
  | publish k => exact writeStep_cases h fun w hw hphase => h.publish hw hphase
  | check k =>
    refine writeStep_cases h fun w hw hphase => ?_
    apply h.setPhase hw (by simp [hphase])
    · split <;> simp
    · intro hS
      simp [hS]
  | start k => exact writeStep_cases h fun w hw hphase => h.startIndex hw hphase hok
  | readStart => exact h.readStart
  | readLog stale => exact h.readLog hok
  | compare => exact h.compareStart
  | advance more => exact h.advance kind hok

end Steps

end XrkMonitor.ServerRing
