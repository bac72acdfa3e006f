import XrkMonitor.Library.BoundedFifo
import XrkMonitor.ServerRing.Writers

/-!
# One writer and one reader

With a single writer the ring is a queue of `iLogMaxCount` logs: a log is in the
queue from its reservation until the reader moves the start index over it. The
start index may be -1 while a write that has published its log has yet to set it,
and a cell is free again only after the reader has moved on.

## Implementation notes

The writer sets the start index without a look at what happened since it found
it at -1. Steps that set it back to a log that was delivered meanwhile are not
covered.
-/

namespace XrkMonitor.ServerRing

open Library

variable {F : Type}

/-- The steps of one writer: it reserves a cell after its last call is over, and sets the start
index only to a log that is not delivered. The reader does not skip a cell. -/
def OneWriterOk (s : RingState F) : RingStep F → Prop
  | .reserve _ => ∀ w ∈ s.writes, w.phase = .done
  | .start k => ∀ w ∈ s.writes[k]?, w.phase = .starting → s.delivered.length ≤ k
  | .readLog stale => stale = true → ∀ i ∈ s.readingCell, (s.shm.sLogList i).dwLogSeq ≠ 0
  | _ => True

instance (s : RingState F) : ∀ a, Decidable (OneWriterOk s a)
  | .reserve _ => inferInstanceAs (Decidable (∀ w ∈ s.writes, _))
  | .publish _ => instDecidableTrue
  | .check _ => instDecidableTrue
  | .start k => inferInstanceAs (Decidable (∀ w ∈ s.writes[k]?, _))
  | .readStart => instDecidableTrue
  | .readLog _ => inferInstanceAs (Decidable (_ → _))
  | .compare => instDecidableTrue
  | .advance _ => instDecidableTrue

/-- The invariant with one writer: only the last write may be on its way, and it sets the start
index only while that is -1. -/
structure OneInv (s : RingState F) : Prop extends RingInv s where
  early : ∀ k w, s.writes[k]? = some w → k + 1 < s.writes.length → w.phase = .done
  starting : ∀ k w, s.writes[k]? = some w → w.phase = .starting → s.delivered.length ≤ k →
    s.shm.iLogStarIndex = -1
  moving : ∀ i, s.reader.Behind i → s.shm.iLogStarIndex = i ∧
    s.writes.length < s.delivered.length + s.shm.iLogMaxCount

section Steps

variable {s : RingState F} {k : Nat} {w : LogWrite F}

theorem OneInv.length_le (h : OneInv s) (hS : s.shm.iLogStarIndex = -1) :
    s.writes.length ≤ s.delivered.length + 1 := by
  cases h.start with
  | empty _ _ _ hdone =>
    by_contra hlt
    have hk : s.delivered.length < s.writes.length := by omega
    have hw := List.getElem?_eq_getElem hk
    exact hdone _ _ hw (le_refl _) (h.early _ _ hw (by omega))
  | next hS' _ _ _ => omega
  | behind e _ hS' _ _ => omega

theorem OneInv.stepOk (h : OneInv s) {a : RingStep F} (hok : OneWriterOk s a) : StepOk s a := by
  have hN := h.pos
  cases a with
  | reserve log =>
    intro hS
    cases h.start with
    | empty _ _ _ hdone =>
      have hle : s.writes.length ≤ s.delivered.length := by
        by_contra hlt
        have hk : s.delivered.length < s.writes.length := by omega
        exact hdone _ _ (List.getElem?_eq_getElem hk) (le_refl _) (hok _ (List.getElem_mem hk))
      omega
    | next hS' _ _ _ => omega
    | behind e _ hS' _ _ => omega
  | start k =>
    intro w hw hphase
    have hk := hok w hw hphase
    have hS := h.starting k w hw hphase hk
    have hlt := lt_length_of_getElem? hw
    have hle := h.length_le hS
    exact ⟨by omega, Or.inl (by omega)⟩
  | readLog stale => exact hok
  | advance more =>
    intro i hi hend
    have hbehind : s.reader.Behind i := by
      unfold RingState.advancingCell at hi
      split at hi
      · rename_i iLast hreader
        obtain rfl : iLast = i := by simpa using hi
        exact Or.inr hreader
      · cases hi
    obtain ⟨e, he, rfl, -⟩ := h.behind hbehind
    have hroom := (h.moving _ hbehind).2
    rw [ringNext_mod h.pos, he, h.write] at hend
    exact ring_mod_inj h.le hroom hend
  | publish k => trivial
  | check k => trivial
  | readStart => trivial
  | compare => trivial

theorem OneInv.last (h : OneInv s) (hw : s.writes[k]? = some w) (hphase : w.phase ≠ .done) :
    k + 1 = s.writes.length := by
  have hlt := lt_length_of_getElem? hw
  by_contra hne
  exact hphase (h.early k w hw (by omega))

theorem OneInv.early_modify (h : OneInv s) (hw : s.writes[k]? = some w) (hphase : w.phase ≠ .done)
    (f : LogWrite F → LogWrite F) (j : Nat) (v : LogWrite F) (hv : (s.writes.modify k f)[j]? = some v)
    (hj : j + 1 < (s.writes.modify k f).length) : v.phase = .done := by
  have hlast := h.last hw hphase
  rw [List.length_modify] at hj
  rcases getElem?_modify_cases hw hv with ⟨rfl, -⟩ | ⟨-, hv⟩
  · omega
  · exact h.early j v hv hj

theorem OneInv.reserve (h : OneInv s) (log : F) (hok : OneWriterOk s (.reserve log)) :
    OneInv (reserve s log).2 := by
  have hinv := h.toRingInv.step .writeFile (.reserve log) (h.stepOk hok)
  change RingInv (ServerRing.reserve s log).2 at hinv
  rw [reserve_eq] at hinv ⊢
  split
  · exact h
  · rename_i hfree
    rw [if_neg hfree] at hinv
    refine { hinv with early := ?_, starting := ?_, moving := ?_ }
    · intro j v hv hj
      rcases getElem?_concat_cases hv with ⟨rfl, -⟩ | hv
      · simp [RingState.reserved] at hj
      · exact hok v (List.mem_of_getElem? hv)
    · intro j v hv hphase _
      rcases getElem?_concat_cases hv with ⟨-, rfl⟩ | hv
      · cases hphase
      · rw [hok v (List.mem_of_getElem? hv)] at hphase
        cases hphase
    · intro i hi
      obtain ⟨e, he, hie, -⟩ := h.behind hi
      obtain ⟨hS, hroom⟩ := h.moving i hi
      refine ⟨hS, ?_⟩
      change (s.writes ++ [_]).length < s.delivered.length + s.shm.iLogMaxCount
      rw [List.length_append, List.length_singleton, ← he]
      have hne : s.writes.length ≠ e + s.shm.iLogMaxCount := by
        intro heq
        apply hfree
        rw [hS, hie, h.write, heq, Nat.add_mod_right]
      omega

theorem OneInv.setPhase (h : OneInv s) (hw : s.writes[k]? = some w) (hphase : w.phase ≠ .done)
    {phase : WritePhase} (hinv : RingInv (s.setPhase k phase))
    (hstart : phase = .starting → s.shm.iLogStarIndex = -1) : OneInv (s.setPhase k phase) := by
  refine { hinv with early := h.early_modify hw hphase _, starting := ?_, moving := ?_ }
  · intro j v hv hvphase hj
    rcases getElem?_modify_cases hw hv with ⟨-, rfl⟩ | ⟨-, hv⟩
    · exact hstart hvphase
    · exact h.starting j v hv hvphase hj
  · intro i hi
    obtain ⟨hS, hroom⟩ := h.moving i hi
    refine ⟨hS, ?_⟩
    change (s.writes.modify k _).length < _
    rw [List.length_modify]
    exact hroom

theorem OneInv.publish (h : OneInv s) (hw : s.writes[k]? = some w) (hphase : w.phase = .reserved) :
    OneInv (RingState.setPhase
      { s with
        shm :=
          { s.shm with
            sLogList := Function.update s.shm.sLogList w.iIndex ⟨w.dwSeq, w.log⟩ } }
      k .published) := by
  have hinv := h.toRingInv.publish hw hphase
  refine { hinv with early := h.early_modify hw (by simp [hphase]) _, starting := ?_, moving := ?_ }
  · intro j v hv hvphase hj
    rcases getElem?_modify_cases hw hv with ⟨-, rfl⟩ | ⟨-, hv⟩
    · cases hvphase
    · exact h.starting j v hv hvphase hj
  · intro i hi
    obtain ⟨hS, hroom⟩ := h.moving i hi
    refine ⟨hS, ?_⟩
    change (s.writes.modify k _).length < _
    rw [List.length_modify]
    exact hroom

theorem OneInv.startIndex (h : OneInv s) (hw : s.writes[k]? = some w)
    (hphase : w.phase = .starting) (hok : OneWriterOk s (.start k)) :
    OneInv (RingState.setPhase
      { s with
        shm :=
          { s.shm with
            iLogStarIndex := swapStart s.shm w.iIndex } }
      k .done) := by
  have hinv := h.toRingInv.startIndex hw hphase (h.stepOk hok)
  have hundone : w.phase ≠ .done := by simp [hphase]
  have hS := h.starting k w hw hphase (hok w hw hphase)
  refine { hinv with early := h.early_modify hw hundone _, starting := ?_, moving := ?_ }
  · intro j v hv hvphase _
    rcases getElem?_modify_cases hw hv with ⟨-, rfl⟩ | ⟨hjk, hv⟩
    · cases hvphase
    · have hj := h.last hv (by simp [hvphase])
      have hk := h.last hw hundone
      omega
  · intro i hi
    have hpos := (h.moving i hi).1
    omega

theorem OneInv.readStart (h : OneInv s) : OneInv (readStart s) := by
  have hinv := h.toRingInv.readStart
  unfold ServerRing.readStart at hinv ⊢
  split
  · split
    · exact h
    · rename_i hidle hS
      rw [hidle] at hinv
      simp only [if_neg hS] at hinv
      refine { hinv with early := h.early, starting := h.starting, moving := ?_ }
      rintro i (hi | hi) <;> cases hi
  · exact h

theorem OneInv.readLog (h : OneInv s) {stale : Bool} (hok : OneWriterOk s (.readLog stale)) :
    OneInv (readLog s stale) := by
  have hinv := h.toRingInv.readLog (h.stepOk hok)
  unfold ServerRing.readLog at hinv ⊢
  split
  · rename_i iLast hreader
    obtain ⟨rfl, hS, hlt⟩ := h.reading hreader
    simp only [hreader] at hinv
    split
    · rename_i hseq
      have hfresh : stale = false := by
        by_contra hstale
        refine hok (by simpa using hstale) _ ?_ hseq
        simp [RingState.readingCell, hreader]
      subst hfresh
      simp only [if_pos hseq] at hinv
      refine { hinv with early := h.early, starting := h.starting, moving := ?_ }
      rintro i (hi | hi) <;> cases hi
    · rename_i hseq
      simp only [if_neg hseq] at hinv
      refine { hinv with early := h.early, starting := ?_, moving := ?_ }
      · intro k w hw hphase hk
        simp only [List.length_append] at hk
        exact h.starting k w hw hphase (by omega)
      · have hroom := h.start.room
        rintro i (hi | hi)
        · obtain rfl := ReadPhase.written.inj hi
          refine ⟨hS, ?_⟩
          simp only [List.length_append, List.length_singleton]
          omega
        · cases hi
  · exact h

theorem OneInv.compareStart_eq (h : OneInv s) {iLast : Nat} (hreader : s.reader = .written iLast) :
    compareStart s =
      { s with
        reader := .advancing iLast } := by
  unfold ServerRing.compareStart
  rw [hreader]
  simp only
  rw [if_pos (h.moving iLast (Or.inl hreader)).1.symm]

theorem OneInv.compareStart (h : OneInv s) : OneInv (compareStart s) := by
  have hinv := h.toRingInv.compareStart
  cases hreader : s.reader with
  | written iLast =>
    rw [h.compareStart_eq hreader] at hinv ⊢
    refine { hinv with early := h.early, starting := h.starting, moving := ?_ }
    rintro i (hi | hi)
    · cases hi
    · obtain rfl := ReadPhase.advancing.inj hi
      exact h.moving iLast (Or.inl hreader)
  | idle => simpa only [ServerRing.compareStart, hreader] using h
  | reading i => simpa only [ServerRing.compareStart, hreader] using h
  | advancing i => simpa only [ServerRing.compareStart, hreader] using h

theorem OneInv.advance (h : OneInv s) (kind : Reader) (more : Bool) :
    OneInv (advance kind s more) := by
  have hinv := h.toRingInv.advance kind (h.stepOk (a := .advance more) trivial)
  unfold ServerRing.advance at hinv ⊢
  split
  · rename_i iLast hreader
    have hS := (h.moving iLast (Or.inr hreader)).1
    simp only [hreader] at hinv
    refine { hinv with early := h.early, starting := ?_, moving := ?_ }
    · intro k w hw hphase hk
      have hneg := h.starting k w hw hphase hk
      omega
    · intro i hi
      dsimp only at hi
      split at hi
      · rcases hi with hi | hi <;> cases hi
      · rcases hi with hi | hi <;> cases hi
  · exact h

theorem OneInv.step (h : OneInv s) (kind : Reader) (a : RingStep F) (hok : OneWriterOk s a) :
    OneInv (ringStep kind s a).2 := by
  cases a with
  | reserve log => exact h.reserve log hok
  | publish k => exact writeStep_cases h fun w hw hphase => h.publish hw hphase
  | check k =>
    refine writeStep_cases h fun w hw hphase => ?_
    apply h.setPhase hw (by simp [hphase])
    · apply h.toRingInv.setPhase hw (by simp [hphase])
      · split <;> simp
      · intro hS
        simp [hS]
    · intro hstarting
      by_contra hS
      simp [hS] at hstarting
  | start k => exact writeStep_cases h fun w hw hphase => h.startIndex hw hphase hok
  | readStart => exact h.readStart
  | readLog stale => exact h.readLog hok
  | compare => exact h.compareStart
  | advance more => exact h.advance kind more

end Steps

/-- The logs that the reader has left behind. -/
def RingState.taken (s : RingState F) : List F := (s.writes.map LogWrite.log).take s.left

/-- The logs that hold a cell. -/
def RingState.queue (s : RingState F) : List F := (s.writes.map LogWrite.log).drop s.left

/-- The put that a step is to the queue. -/
def attempt : RingStep F → Bool → List (F × Bool)
  | .reserve log, refused => [(log, refused)]
  | _, _ => []

/-- The puts of a run. -/
def attempts (steps : List (RingStep F)) (os : List Bool) : List (F × Bool) :=
  (steps.zip os).flatMap fun x => attempt x.1 x.2

section Queue

variable {s : RingState F}

theorem left_of_behind {i : Nat} (hreader : s.reader.Behind i) : s.left = s.delivered.length - 1 := by
  unfold RingState.left
  rcases hreader with hr | hr <;> rw [hr]

theorem left_of_idle (hreader : s.reader = .idle) : s.left = s.delivered.length := by
  unfold RingState.left
  rw [hreader]

theorem left_of_reading {i : Nat} (hreader : s.reader = .reading i) :
    s.left = s.delivered.length := by
  unfold RingState.left
  rw [hreader]

theorem length_queue (s : RingState F) : s.queue.length = s.held := by
  rw [RingState.queue, List.length_drop, List.length_map, RingState.held]

theorem OneInv.position (h : OneInv s) :
    (s.shm.iLogStarIndex = -1 ∧ s.reader = .idle) ∨
      (s.shm.iLogStarIndex = (s.left % s.shm.iLogMaxCount : Nat) ∧ s.left < s.writes.length ∧
        s.writes.length ≤ s.left + s.shm.iLogMaxCount) := by
  by_cases hbehind : ∃ i, s.reader.Behind i
  · obtain ⟨i, hi⟩ := hbehind
    obtain ⟨e, he, rfl, -⟩ := h.behind hi
    obtain ⟨hS, hroom⟩ := h.moving _ hi
    have hle := h.le
    have hleft : s.left = e := by
      rw [left_of_behind hi]
      omega
    rw [hleft]
    exact Or.inr ⟨hS, by omega, by omega⟩
  · cases h.start with
    | empty hS hidle _ _ => exact Or.inl ⟨hS, hidle⟩
    | next hS hlt hroom hcase =>
      have hleft : s.left = s.delivered.length := by
        rcases hcase with hr | hr | ⟨e, -, hr⟩
        · exact left_of_idle hr
        · exact left_of_reading hr
        · exact absurd ⟨_, hr⟩ hbehind
      rw [hleft]
      exact Or.inr ⟨hS, hlt, hroom⟩
    | behind e _ _ _ hr => exact absurd ⟨_, hr⟩ hbehind

theorem OneInv.all_delivered (h : OneInv s) (hdone : ∀ w ∈ s.writes, w.phase = .done)
    (hS : s.shm.iLogStarIndex = -1) : s.writes.length = s.delivered.length := by
  cases h.start with
  | empty _ _ _ hundone =>
    refine le_antisymm ?_ h.le
    by_contra hlt
    have hk : s.delivered.length < s.writes.length := by omega
    exact hundone _ _ (List.getElem?_eq_getElem hk) (le_refl _) (hdone _ (List.getElem_mem hk))
  | next hS' _ _ _ => omega
  | behind e _ hS' _ _ => omega

theorem OneInv.refused_iff (h : OneInv s) (hdone : ∀ w ∈ s.writes, w.phase = .done) :
    (s.shm.iWriteIndex : Int) = s.shm.iLogStarIndex ↔ s.held = s.shm.iLogMaxCount := by
  have hN := h.pos
  rw [h.write, RingState.held]
  rcases h.position with ⟨hS, hidle⟩ | ⟨hS, hlt, hroom⟩
  · have hall := h.all_delivered hdone hS
    rw [hS, left_of_idle hidle, hall]
    omega
  · rw [hS]
    constructor
    · intro heq
      by_contra hne
      have hsame := ring_mod_inj (Nat.le_of_lt hlt) (by omega) (Int.ofNat.inj heq).symm
      omega
    · intro hheld
      have hfull : s.writes.length = s.left + s.shm.iLogMaxCount := by omega
      rw [hfull, Nat.add_mod_right]

/-- The puts and the ring make a history of a bounded queue. -/
def Traces (puts : List (F × Bool)) (s : RingState F) : Prop :=
  FifoTrace s.shm.iLogMaxCount puts s.taken s.queue

variable {puts : List (F × Bool)}

theorem Traces.congr {s' : RingState F} (ht : Traces puts s)
    (hcount : s'.shm.iLogMaxCount = s.shm.iLogMaxCount)
    (hwrites : s'.writes.map LogWrite.log = s.writes.map LogWrite.log) (hleft : s'.left = s.left) :
    Traces puts s' := by
  unfold Traces RingState.taken RingState.queue at ht ⊢
  rw [hcount, hwrites, hleft]
  exact ht

theorem OneInv.left_le (h : OneInv s) : s.left ≤ s.writes.length := by
  have hle : s.left ≤ s.delivered.length := by
    unfold RingState.left
    split <;> omega
  exact hle.trans h.le

theorem trace_reserve (h : OneInv s) (log : F) (hok : OneWriterOk s (.reserve log))
    (ht : Traces puts s) : Traces (puts ++ [(log, (reserve s log).1)]) (reserve s log).2 := by
  have hiff := h.refused_iff hok
  have hlen := length_queue s
  rw [reserve_eq]
  split
  · rename_i hfull
    exact FifoTrace.refuse log ht (by rw [hlen, hiff.mp hfull])
  · rename_i hfree
    have hle : s.left ≤ (s.writes.map LogWrite.log).length := by
      rw [List.length_map]
      exact h.left_le
    have hlogs : (s.reserved log).writes.map LogWrite.log = s.writes.map LogWrite.log ++ [log] := by
      simp [RingState.reserved]
    have htaken : (s.reserved log).taken = s.taken := by
      rw [RingState.taken, hlogs]
      exact List.take_append_of_le_length hle
    have hqueue : (s.reserved log).queue = s.queue ++ [log] := by
      rw [RingState.queue, hlogs]
      exact List.drop_append_of_le_length hle
    have hroom : s.queue.length < s.shm.iLogMaxCount := by
      rw [hlen]
      refine lt_of_le_of_ne ?_ fun heq => hfree (hiff.mpr heq)
      rw [RingState.held]
      rcases h.position with ⟨hS, hidle⟩ | ⟨-, -, hle⟩
      · rw [left_of_idle hidle, h.all_delivered hok hS]
        omega
      · omega
    unfold Traces
    rw [htaken, hqueue]
    exact FifoTrace.put log ht hroom

theorem trace_setPhase (ht : Traces puts s) (shm : TSLogShm F)
    (hcount : shm.iLogMaxCount = s.shm.iLogMaxCount) (k : Nat) (phase : WritePhase) :
    Traces puts (RingState.setPhase
      { s with
        shm := shm } k phase) :=
  ht.congr hcount (map_log_modify s.writes k phase) rfl

theorem trace_readStart (ht : Traces puts s) : Traces puts (readStart s) := by
  unfold readStart
  split
  · rename_i hidle
    split
    · exact ht
    · exact ht.congr rfl rfl (left_of_idle hidle).symm
  · exact ht

theorem trace_readLog {stale : Bool} (hok : OneWriterOk s (.readLog stale)) (ht : Traces puts s) :
    Traces puts (readLog s stale) := by
  unfold readLog
  split
  · rename_i iLast hreader
    split
    · rename_i hseq
      have hfresh : stale = false := by
        by_contra hstale
        refine hok (by simpa using hstale) _ ?_ hseq
        simp [RingState.readingCell, hreader]
      subst hfresh
      exact ht.congr rfl rfl (left_of_reading hreader).symm
    · refine ht.congr rfl rfl ?_
      rw [left_of_reading hreader]
      simp [RingState.left]
  · exact ht

theorem trace_compareStart (h : OneInv s) (ht : Traces puts s) : Traces puts (compareStart s) := by
  cases hreader : s.reader with
  | written iLast =>
    rw [h.compareStart_eq hreader]
    exact ht.congr rfl rfl (left_of_behind (Or.inl hreader)).symm
  | idle => simpa only [compareStart, hreader] using ht
  | reading i => simpa only [compareStart, hreader] using ht
  | advancing i => simpa only [compareStart, hreader] using ht

theorem trace_advance (h : OneInv s) (kind : Reader) (more : Bool) (ht : Traces puts s) :
    Traces puts (advance kind s more) := by
  cases hreader : s.reader with
  | advancing iLast =>
    obtain ⟨e, he, -, -⟩ := h.behind (Or.inr hreader)
    have hleft : s.left = e := by
      rw [left_of_behind (Or.inr hreader)]
      omega
    have hleft' : (advance kind s more).left = e + 1 := by
      rw [he]
      simp only [advance, hreader, RingState.left]
      split
      · rename_i heq
        split at heq <;> cases heq
      · rename_i heq
        split at heq <;> cases heq
      · rfl
    have hlogs : (advance kind s more).writes = s.writes := by
      simp only [advance, hreader]
    have hcount : (advance kind s more).shm.iLogMaxCount = s.shm.iLogMaxCount := by
      simp only [advance, hreader]
    have hlt : e < (s.writes.map LogWrite.log).length := by
      rw [List.length_map]
      exact lt_of_lt_of_le (by omega) h.le
    unfold Traces at ht ⊢
    rw [hcount]
    rw [RingState.taken, RingState.queue, hleft, List.drop_eq_getElem_cons hlt] at ht
    rw [RingState.taken, RingState.queue, hlogs, hleft', List.take_add_one,
      List.getElem?_eq_getElem hlt]
    exact ht.take
  | idle => simpa only [advance, hreader] using ht
  | reading i => simpa only [advance, hreader] using ht
  | written i => simpa only [advance, hreader] using ht

theorem trace_step (h : OneInv s) (kind : Reader) (a : RingStep F) (hok : OneWriterOk s a)
    (ht : Traces puts s) :
    Traces (puts ++ attempt a (ringStep kind s a).1) (ringStep kind s a).2 := by
  cases a with
  | reserve log => exact trace_reserve h log hok ht
  | publish k =>
    change Traces (puts ++ []) _
    rw [List.append_nil]
    exact writeStep_cases ht fun w _ _ => trace_setPhase ht _ (by rfl) k _
  | check k =>
    change Traces (puts ++ []) _
    rw [List.append_nil]
    exact writeStep_cases ht fun w _ _ => trace_setPhase ht s.shm rfl k _
  | start k =>
    change Traces (puts ++ []) _
    rw [List.append_nil]
    exact writeStep_cases ht fun w _ _ => trace_setPhase ht _ (by rfl) k _
  | readStart =>
    change Traces (puts ++ []) _
    rw [List.append_nil]
    exact trace_readStart ht
  | readLog stale =>
    change Traces (puts ++ []) _
    rw [List.append_nil]
    exact trace_readLog hok ht
  | compare =>
    change Traces (puts ++ []) _
    rw [List.append_nil]
    exact trace_compareStart h ht
  | advance more =>
    change Traces (puts ++ []) _
    rw [List.append_nil]
    exact trace_advance h kind more ht

end Queue

/-- Steps other than reservations lead from one state to the other. -/
inductive Continues (kind : Reader) : RingState F → RingState F → Prop
  | refl (s : RingState F) : Continues kind s s
  | step {s s' : RingState F} (a : RingStep F) : (∀ log, a ≠ .reserve log) → OneWriterOk s a →
      Continues kind (ringStep kind s a).2 s' → Continues kind s s'

section Drain

variable {kind : Reader} {s s' t : RingState F} {k : Nat} {w : LogWrite F}

theorem Continues.trans (h : Continues kind s s') (h' : Continues kind s' t) :
    Continues kind s t := by
  induction h with
  | refl s => exact h'
  | step a hne hok _ ih => exact Continues.step a hne hok (ih h')

/-- All writes are over. -/
def RingState.Quiet (s : RingState F) : Prop := ∀ w ∈ s.writes, w.phase = .done

/-- What a continuation of the reader leads to: one more log is delivered. -/
def DeliversNext (kind : Reader) (s : RingState F) : Prop :=
  ∃ s', Continues kind s s' ∧ OneInv s' ∧ s'.writes = s.writes ∧
    s'.delivered.length = s.delivered.length + 1

theorem DeliversNext.step (a : RingStep F) (hne : ∀ log, a ≠ .reserve log) (hok : OneWriterOk s a)
    (hwrites : (ringStep kind s a).2.writes = s.writes)
    (hdelivered : (ringStep kind s a).2.delivered = s.delivered)
    (h : DeliversNext kind (ringStep kind s a).2) : DeliversNext kind s := by
  obtain ⟨s', hcont, hinv, hw, hd⟩ := h
  exact ⟨s', Continues.step a hne hok hcont, hinv, hw.trans hwrites, hd.trans (by rw [hdelivered])⟩

theorem OneInv.delivers_reading (h : OneInv s) (hquiet : s.Quiet) {iLast : Nat}
    (hreader : s.reader = .reading iLast) : DeliversNext kind s := by
  obtain ⟨rfl, -, hlt⟩ := h.reading hreader
  have hw := List.getElem?_eq_getElem hlt
  have hdone := hquiet _ (List.getElem_mem hlt)
  have hcell := h.cells.published _ _ hw (le_refl _) (by simp [hdone])
  have hseq : (s.shm.sLogList (s.delivered.length % s.shm.iLogMaxCount)).dwLogSeq ≠ 0 := by
    rw [hcell]
    exact (h.cells.index _ _ hw).2
  have hok : OneWriterOk s (.readLog false) := by
    intro hstale
    cases hstale
  have hread : (ringStep kind s (.readLog false)).2 = ServerRing.readLog s false := rfl
  refine ⟨_, Continues.step (.readLog false) (by simp) hok (Continues.refl _), h.readLog hok, ?_, ?_⟩
  · simp only [hread, ServerRing.readLog, hreader, if_neg hseq]
  · simp only [hread, ServerRing.readLog, hreader, if_neg hseq, List.length_append,
      List.length_singleton]

theorem OneInv.delivers_idle (h : OneInv s) (hquiet : s.Quiet)
    (hlt : s.delivered.length < s.writes.length) (hreader : s.reader = .idle) :
    DeliversNext kind s := by
  have hS : ¬ s.shm.iLogStarIndex < 0 := by
    rcases h.position with ⟨hneg, -⟩ | ⟨hpos, -⟩
    · have hall := h.all_delivered hquiet hneg
      omega
    · omega
  have hstart : (ringStep kind s .readStart).2 =
      { s with
        reader := .reading s.shm.iLogStarIndex.toNat } := by
    change ServerRing.readStart s = _
    rw [ServerRing.readStart, hreader]
    simp only [if_neg hS]
  apply DeliversNext.step .readStart (by simp) trivial
  · rw [hstart]
  · rw [hstart]
  · have hinv := h.step kind .readStart trivial
    rw [hstart] at hinv ⊢
    exact hinv.delivers_reading hquiet rfl

theorem OneInv.delivers_advancing (h : OneInv s) (hquiet : s.Quiet)
    (hlt : s.delivered.length < s.writes.length) {iLast : Nat}
    (hreader : s.reader = .advancing iLast) : DeliversNext kind s := by
  have hadvance : (ringStep kind s (.advance false)).2.writes = s.writes ∧
      (ringStep kind s (.advance false)).2.delivered = s.delivered ∧
      (ringStep kind s (.advance false)).2.reader = .idle := by
    change (ServerRing.advance kind s false).writes = _ ∧
      (ServerRing.advance kind s false).delivered = _ ∧
      (ServerRing.advance kind s false).reader = _
    simp [ServerRing.advance, hreader]
  obtain ⟨hwrites, hdelivered, hidle⟩ := hadvance
  have hinv := h.step kind (.advance false) trivial
  apply DeliversNext.step (.advance false) (by simp) trivial hwrites hdelivered
  apply hinv.delivers_idle _ _ hidle
  · rw [RingState.Quiet, hwrites]
    exact hquiet
  · rw [hwrites, hdelivered]
    exact hlt

theorem OneInv.delivers (kind : Reader) (h : OneInv s) (hquiet : s.Quiet)
    (hlt : s.delivered.length < s.writes.length) : DeliversNext kind s := by
  cases hreader : s.reader with
  | idle => exact h.delivers_idle hquiet hlt hreader
  | reading i => exact h.delivers_reading hquiet hreader
  | advancing i => exact h.delivers_advancing hquiet hlt hreader
  | written i =>
    have hcompare : (ringStep kind s .compare).2 =
        { s with
          reader := .advancing i } := h.compareStart_eq hreader
    have hinv := h.step kind .compare trivial
    apply DeliversNext.step .compare (by simp) trivial
    · rw [hcompare]
    · rw [hcompare]
    · rw [hcompare] at hinv ⊢
      exact hinv.delivers_advancing hquiet hlt rfl

theorem OneInv.drain (h : OneInv s) (hquiet : s.Quiet) :
    ∃ s', Continues kind s s' ∧ s'.delivered = s.writes.map LogWrite.log := by
  induction hn : s.writes.length - s.delivered.length generalizing s with
  | zero =>
    have hle := h.le
    refine ⟨s, Continues.refl s, ?_⟩
    rw [h.order, List.take_of_length_le]
    rw [List.length_map]
    omega
  | succ n ih =>
    obtain ⟨t, hcont, hinv, hwrites, hdelivered⟩ := h.delivers kind hquiet (by omega)
    obtain ⟨s', hcont', hall⟩ := ih hinv (by rw [RingState.Quiet, hwrites]; exact hquiet)
      (by rw [hwrites, hdelivered]; omega)
    exact ⟨s', hcont.trans hcont', hall.trans (by rw [hwrites])⟩

/-- The writer finishes its call: all writes are over, and nothing else has changed. -/
def Finishes (kind : Reader) (s : RingState F) : Prop :=
  ∃ s', Continues kind s s' ∧ OneInv s' ∧ s'.Quiet ∧
    s'.writes.map LogWrite.log = s.writes.map LogWrite.log

theorem Finishes.step (a : RingStep F) (hne : ∀ log, a ≠ .reserve log) (hok : OneWriterOk s a)
    (hlogs : (ringStep kind s a).2.writes.map LogWrite.log = s.writes.map LogWrite.log)
    (h : Finishes kind (ringStep kind s a).2) : Finishes kind s := by
  obtain ⟨s', hcont, hinv, hquiet, hsame⟩ := h
  exact ⟨s', Continues.step a hne hok hcont, hinv, hquiet, hsame.trans hlogs⟩

theorem writeStep_eq {phase : WritePhase} {act : LogWrite F → RingState F}
    (hw : s.writes[k]? = some w) (hphase : w.phase = phase) : writeStep s k phase act = act w := by
  rw [writeStep, hw]
  exact if_pos hphase

theorem OneInv.quiet_of_done (h : OneInv s) (hlast : k + 1 = s.writes.length)
    (hw : s.writes[k]? = some w) (hphase : w.phase = .done) : s.Quiet := by
  intro v hv
  obtain ⟨j, hj⟩ := List.mem_iff_getElem?.mp hv
  have hlt := lt_length_of_getElem? hj
  by_cases hjk : j = k
  · subst hjk
    rw [hw] at hj
    rw [← Option.some.inj hj]
    exact hphase
  · exact h.early j v hj (by omega)

theorem getElem?_setPhase (hw : s.writes[k]? = some w) (phase : WritePhase) :
    (s.setPhase k phase).writes[k]? = some
      { w with
        phase := phase } := by
  simp [RingState.setPhase, hw]

theorem OneInv.finishes_starting (h : OneInv s) (hw : s.writes[k]? = some w)
    (hphase : w.phase = .starting) (hd : s.delivered.length ≤ k) : Finishes kind s := by
  have hlast := h.last hw (by simp [hphase])
  have hok : OneWriterOk s (.start k) := fun _ _ _ => hd
  have hinv := h.step kind (.start k) hok
  have hstep : (ringStep kind s (.start k)).2 = _ := writeStep_eq hw hphase
  rw [hstep] at hinv
  refine Finishes.step (.start k) (by simp) hok ?_ ⟨_, Continues.refl _, ?_, ?_, rfl⟩
  · rw [hstep]
    exact map_log_modify s.writes k .done
  · rw [hstep]
    exact hinv
  · rw [hstep]
    refine hinv.quiet_of_done (k := k) (by simpa [RingState.setPhase] using hlast)
      (getElem?_setPhase hw .done) rfl

theorem OneInv.finishes_published (h : OneInv s) (hw : s.writes[k]? = some w)
    (hphase : w.phase = .published) (hd : s.delivered.length ≤ k) : Finishes kind s := by
  have hlast := h.last hw (by simp [hphase])
  have hinv := h.step kind (.check k) trivial
  have hstep : (ringStep kind s (.check k)).2 = s.setPhase k _ := writeStep_eq hw hphase
  rw [hstep] at hinv
  refine Finishes.step (.check k) (by simp) trivial ?_ ?_
  · rw [hstep]
    exact map_log_modify s.writes k _
  · rw [hstep]
    by_cases hS : s.shm.iLogStarIndex = -1
    · rw [if_pos hS] at hinv ⊢
      exact hinv.finishes_starting (getElem?_setPhase hw .starting) rfl hd
    · rw [if_neg hS] at hinv ⊢
      refine ⟨_, Continues.refl _, hinv, ?_, rfl⟩
      exact hinv.quiet_of_done (k := k) (by simpa [RingState.setPhase] using hlast)
        (getElem?_setPhase hw .done) rfl

theorem OneInv.finishes_reserved (h : OneInv s) (hw : s.writes[k]? = some w)
    (hphase : w.phase = .reserved) : Finishes kind s := by
  have hinv := h.step kind (.publish k) trivial
  have hstep : (ringStep kind s (.publish k)).2 = _ := writeStep_eq hw hphase
  rw [hstep] at hinv
  refine Finishes.step (.publish k) (by simp) trivial ?_ ?_
  · rw [hstep]
    exact map_log_modify s.writes k .published
  · rw [hstep]
    exact hinv.finishes_published (getElem?_setPhase hw .published) rfl
      (h.cells.reserved k w hw hphase).1

theorem OneInv.continues (h : OneInv s) :
    ∃ s', Continues kind s s' ∧ s'.delivered = s.writes.map LogWrite.log := by
  by_cases hlt : s.delivered.length < s.writes.length
  · have hfinish : Finishes kind s := by
      obtain ⟨k, hk⟩ : ∃ k, k + 1 = s.writes.length := ⟨s.writes.length - 1, by omega⟩
      have hw := List.getElem?_eq_getElem (show k < s.writes.length by omega)
      cases hphase : (s.writes[k]).phase with
      | reserved => exact h.finishes_reserved hw hphase
      | published => exact h.finishes_published hw hphase (by omega)
      | starting => exact h.finishes_starting hw hphase (by omega)
      | done => exact ⟨s, Continues.refl s, h, h.quiet_of_done hk hw hphase, rfl⟩
    obtain ⟨t, hcont, hinv, hquiet, hlogs⟩ := hfinish
    obtain ⟨s', hcont', hall⟩ := hinv.drain hquiet
    exact ⟨s', hcont.trans hcont', hall.trans hlogs⟩
  · refine ⟨s, Continues.refl s, ?_⟩
    rw [h.order, List.take_of_length_le]
    rw [List.length_map]
    omega

end Drain

/-- What the ring does to the puts of its writer: they make a history of a queue of `capacity` logs;
the delivered logs are those that were taken out, and the next one while the reader is about to
leave it; published sequence numbers are not 0; the start index is -1 only if every completed write
is delivered, is not -1 only while a log holds a cell, and between calls is -1 exactly if nothing is
left; and from here all accepted logs can be delivered. -/
structure RefinesFifo (kind : Reader) (capacity : Nat) (puts : List (F × Bool)) (s : RingState F) :
    Prop where
  fifo : FifoTrace capacity puts s.taken s.queue
  delivered : s.delivered = s.taken ∨ ∃ x rest, s.queue = x :: rest ∧ s.delivered = s.taken ++ [x]
  published : ∀ (k : Nat) (w : LogWrite F), s.writes[k]? = some w → w.dwSeq ≠ 0 ∧
    (s.delivered.length ≤ k → w.phase ≠ .reserved → s.shm.sLogList w.iIndex = ⟨w.dwSeq, w.log⟩)
  completed : s.shm.iLogStarIndex = -1 → ∀ (k : Nat) (w : LogWrite F), s.writes[k]? = some w →
    w.phase = .done → k < s.delivered.length
  held : s.shm.iLogStarIndex ≠ -1 → s.queue ≠ []
  between : s.Quiet → s.reader = .idle →
    (s.shm.iLogStarIndex = -1 ↔ s.delivered = acceptedPuts puts)
  deliverable : ∃ s', Continues kind s s' ∧ s'.delivered = acceptedPuts puts

section Refinement

variable {kind : Reader} {s : RingState F} {puts : List (F × Bool)}

theorem OneInv.delivered_cases (h : OneInv s) :
    s.delivered = s.taken ∨ ∃ x rest, s.queue = x :: rest ∧ s.delivered = s.taken ++ [x] := by
  by_cases hbehind : ∃ i, s.reader.Behind i
  · right
    obtain ⟨i, hi⟩ := hbehind
    obtain ⟨e, he, -, -⟩ := h.behind hi
    have hleft : s.left = e := by
      rw [left_of_behind hi]
      omega
    have hlt : e < (s.writes.map LogWrite.log).length := by
      rw [List.length_map]
      exact lt_of_lt_of_le (by omega) h.le
    refine ⟨_, _, (by rw [RingState.queue, hleft, List.drop_eq_getElem_cons hlt]), ?_⟩
    rw [h.order, ← he, List.take_add_one, RingState.taken, hleft, List.getElem?_eq_getElem hlt]
    rfl
  · left
    have hleft : s.left = s.delivered.length := by
      unfold RingState.left
      split
      · rename_i i hr
        exact absurd ⟨i, Or.inl hr⟩ hbehind
      · rename_i i hr
        exact absurd ⟨i, Or.inr hr⟩ hbehind
      · rfl
    rw [RingState.taken, hleft]
    exact h.order

theorem OneInv.refinesFifo (kind : Reader) (h : OneInv s) (ht : Traces puts s) :
    RefinesFifo kind s.shm.iLogMaxCount puts s := by
  have hlogs : acceptedPuts puts = s.writes.map LogWrite.log := by
    rw [ht.acceptedPuts_eq, RingState.taken, RingState.queue, List.take_append_drop]
  refine ⟨ht, h.delivered_cases, ?_, ?_, ?_, ?_, ?_⟩
  · intro k w hw
    obtain ⟨hindex, hseq⟩ := h.cells.index k w hw
    refine ⟨hseq, ?_⟩
    intro hk hphase
    rw [hindex]
    exact h.cells.published k w hw hk hphase
  · intro hS k w hw hphase
    cases h.start with
    | empty _ _ _ hundone =>
      by_contra hk
      exact hundone k w hw (by omega) hphase
    | next hS' _ _ _ => omega
    | behind e _ hS' _ _ => omega
  · intro hS hnil
    rcases h.position with ⟨hneg, -⟩ | ⟨-, hlt, -⟩
    · exact hS hneg
    · have hlen := length_queue s
      rw [hnil, RingState.held, List.length_nil] at hlen
      omega
  · intro hquiet hidle
    rw [hlogs]
    constructor
    · intro hS
      rw [h.order, List.take_of_length_le]
      rw [List.length_map, h.all_delivered hquiet hS]
    · intro hall
      rcases h.position with ⟨hneg, -⟩ | ⟨-, hlt, -⟩
      · exact hneg
      · rw [left_of_idle hidle, hall, List.length_map] at hlt
        omega
  · rw [hlogs]
    exact h.continues

theorem ringStep_count (kind : Reader) (s : RingState F) (a : RingStep F) :
    (ringStep kind s a).2.shm.iLogMaxCount = s.shm.iLogMaxCount := by
  cases a with
  | reserve log =>
    change (reserve s log).2.shm.iLogMaxCount = _
    rw [reserve_eq]
    split <;> rfl
  | publish k =>
    exact writeStep_cases (P := fun t => t.shm.iLogMaxCount = _) rfl fun _ _ _ => rfl
  | check k =>
    exact writeStep_cases (P := fun t => t.shm.iLogMaxCount = _) rfl fun _ _ _ => rfl
  | start k =>
    exact writeStep_cases (P := fun t => t.shm.iLogMaxCount = _) rfl fun _ _ _ => rfl
  | readStart =>
    change (readStart s).shm.iLogMaxCount = _
    unfold readStart
    split
    · split <;> rfl
    · rfl
  | readLog stale =>
    change (readLog s stale).shm.iLogMaxCount = _
    unfold readLog
    split
    · split <;> rfl
    · rfl
  | compare =>
    change (compareStart s).shm.iLogMaxCount = _
    unfold compareStart
    split <;> rfl
  | advance more =>
    change (advance kind s more).shm.iLogMaxCount = _
    unfold advance
    split <;> rfl

theorem runSteps_traces (steps : List (RingStep F)) (h : OneInv s) (ht : Traces puts s)
    (hok : Admissible (ringRun kind) OneWriterOk s steps) :
    ∃ os s', runSteps (ringRun kind) s steps = some (os, s') ∧ OneInv s' ∧
      Traces (puts ++ attempts steps os) s' ∧ s'.shm.iLogMaxCount = s.shm.iLogMaxCount := by
  induction steps generalizing s puts with
  | nil => exact ⟨[], s, rfl, h, by simpa [attempts] using ht, rfl⟩
  | cons a steps ih =>
    obtain ⟨os, s', hrun, hinv, htrace, hcount⟩ := ih (h.step kind a hok.1)
      (trace_step h kind a hok.1 ht) (hok.2 _ _ rfl)
    refine ⟨(ringStep kind s a).1 :: os, s', ?_, hinv, ?_, hcount.trans (ringStep_count kind s a)⟩
    · simp [runSteps, ringRun, hrun]
    · rw [List.append_assoc] at htrace
      exact htrace

theorem emptyRing_oneInv {iLogMaxCount : Nat} (hN : 0 < iLogMaxCount) (dwLogSeq : Nat)
    (cells : Nat → TSLog F) : OneInv (emptyRing iLogMaxCount dwLogSeq cells) := by
  refine { emptyRing_inv hN dwLogSeq cells with early := ?_, starting := ?_, moving := ?_ }
  · simp [emptyRing]
  · simp [emptyRing]
  · rintro i (hi | hi) <;> cases hi

end Refinement

/-- A log is written and delivered, and a second one is written. -/
def writeReadWrite : List (RingStep Nat) :=
  [.reserve 10, .publish 0, .check 0, .start 0, .readStart, .readLog false, .compare,
    .advance false, .reserve 20, .publish 1, .check 1, .start 1]

end XrkMonitor.ServerRing
