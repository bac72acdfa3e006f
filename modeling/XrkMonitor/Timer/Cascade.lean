import Mathlib.Tactic.Ring
import XrkMonitor.Library.RingIndex
import XrkMonitor.Timer.Slots

/-!
# Cascading a wheel

`Wheel t K P L slotOf` is the invariant of the five wheels: `P` is the set of
linked nodes. The nodes that a cascade walks over all expire within one slot of
their wheel, so each of them is added to a wheel below, and the walk does not
meet a link it has rewritten.
-/

namespace XrkMonitor.Timer

open Library

/-- The linked nodes `P` stand in the slots of the wheels. -/
structure Wheel (t : MtReportTimer) (K : Nat → Nat) (P : Set Nat) (L : Ptr → List Nat)
    (slotOf : Nat → Ptr) : Prop where
  links : Links t.list .null P L slotOf
  slot : ∀ c ∈ P, SlotOk K t.uiCheckTime (t.stHash c).uiExpire (slotOf c)
  index0 : t.index 0 = t.uiCheckTime % 256
  index : ∀ n, 1 ≤ n → n ≤ 4 → t.index n = K n % 64
  ahead : Ahead K t.uiCheckTime
  node : ∀ c ∈ P, InReach t.uiCheckTime (t.stHash c).uiExpire ∧
    (t.stHash c).dwProcessId = t.dwProcessId

/-- The slots of tick `t` have not been cascaded yet. -/
def Undone (K : Nat → Nat) (t : Nat) : Prop :=
  ∀ n, 1 ≤ n → n ≤ 4 → K n * span n < t + span n

/-- The slots of tick `t` have been cascaded. -/
def Done (K : Nat → Nat) (t : Nat) : Prop := ∀ n, 1 ≤ n → n ≤ 4 → t < K n * span n

section

variable {t : MtReportTimer} {K : Nat → Nat} {P : Set Nat} {L : Ptr → List Nat}
  {slotOf : Nat → Ptr} {c n i : Nat} {e u : Nat} {h : ListHeap Ptr}

theorem internalAddTimer_of_pid (hpid : (t.stHash c).dwProcessId = t.dwProcessId) :
    internalAddTimer t c =
      { t with list := listAdd t.list (.node c) (t.list.prev (vecOf t (t.stHash c).uiExpire)) } := by
  have hnode : ({ t.stHash c with dwProcessId := t.dwProcessId } : TimerNode) = t.stHash c := by
    rw [← hpid]
  simp only [internalAddTimer, setNode, hnode, Function.update_eq_self]

theorem Links.forget {skip : Ptr} {rest : List Nat}
    (hl : Links h skip P L slotOf) (hL : L skip = c :: rest) (hnd : (c :: rest).Nodup) :
    Links h skip (P \ {c}) (Function.update L skip rest) slotOf where
  ring := by
    intro m j hmj
    rw [Function.update_of_ne hmj]
    exact hl.ring m j hmj
  mem := by
    have hs : slotOf c = skip := ((hl.mem skip c).mp (by simp [hL])).2
    have hfilter : (L (slotOf c)).filter (· ≠ c) = rest := by
      rw [hs, hL]
      exact filter_ne_split (show ([] ++ c :: rest).Nodup from hnd)
    have hmem := mem_filter_slot hl.mem c
    rwa [hfilter, hs] at hmem

/-- The walk of a cascade moves every node of the slot to a wheel below. -/
theorem cascadeWalk_spec (hn : 1 ≤ n) (hn4 : n ≤ 4) (hK : Ahead K t.uiCheckTime)
    (hindex : t.index 0 = t.uiCheckTime % 256)
    (hnode : ∀ c ∈ P, InReach t.uiCheckTime (t.stHash c).uiExpire ∧
      (t.stHash c).dwProcessId = t.dwProcessId) :
    ∀ (rest : List Nat) (left : Nat) (h : ListHeap Ptr) (L : Ptr → List Nat)
      (slotOf : Nat → Ptr) (pstCurr : Ptr), Links h (.head n i) P L slotOf →
      L (.head n i) = rest → rest.Nodup → rest.length ≤ left →
      Path h.next pstCurr (rest.map Ptr.node) (.head n i) →
      (∀ c ∈ P, slotOf c ≠ .head n i → SlotOk K t.uiCheckTime (t.stHash c).uiExpire (slotOf c)) →
      (∀ c ∈ rest, t.uiCheckTime ≤ (t.stHash c).uiExpire ∧
        (t.stHash c).uiExpire < t.uiCheckTime + span n) →
      ∃ h' L' slotOf',
        cascadeWalk (.head n i) left { t with list := h } pstCurr =
          some (true, { t with list := h' }) ∧
        Links h' (.head n i) P L' slotOf' ∧ L' (.head n i) = [] ∧
        ∀ c ∈ P, SlotOk K t.uiCheckTime (t.stHash c).uiExpire (slotOf' c) := by
  intro rest
  induction rest with
  | nil =>
    intro left h L slotOf pstCurr hl hL _ _ hpath hslot _
    obtain rfl : pstCurr = .head n i := hpath
    refine ⟨h, L, slotOf, ?_, hl, hL, ?_⟩
    · simp [cascadeWalk]
    · intro c hc
      apply hslot c hc
      intro hs
      have hm : c ∈ L (.head n i) := (hl.mem _ _).mpr ⟨hc, hs⟩
      simp [hL] at hm
  | cons c rest ih =>
    intro left h L slotOf pstCurr hl hL hnd hlen hpath hslot hexp
    obtain ⟨rfl, hpath⟩ := hpath
    obtain ⟨left, rfl⟩ : ∃ k, left = k + 1 := ⟨left - 1, by simp at hlen; omega⟩
    have hcP : c ∈ P := ((hl.mem (.head n i) c).mp (by simp [hL])).1
    obtain ⟨he, hpid⟩ := hnode c hcP
    obtain ⟨hle, hlt⟩ := hexp c (by simp)
    obtain ⟨m, j, hvec, hmn⟩ := vecOf_below hn hn4 hle hlt he
    have hne : Ptr.head m j ≠ Ptr.head n i := by
      intro heq
      have : m = n := (Ptr.head.inj heq).1
      omega
    have hforget := hl.forget hL hnd
    have hadd := hforget.add (n := m) (i := j) (c := c) (by simp) hne
    rw [Set.insert_sdiff_singleton, Set.insert_eq_of_mem hcP] at hadd
    have hstep : cascadeWalk (.head n i) (left + 1) { t with list := h } (.node c) =
        cascadeWalk (.head n i) left
          { t with list := listAdd h (.node c) (h.prev (.head m j)) } (h.next (.node c)) := by
      have hint := internalAddTimer_of_pid (t := { t with list := h }) (c := c) hpid
      have hvec' : vecOf { t with list := h } (t.stHash c).uiExpire = .head m j := hvec
      simp only [hvec'] at hint
      rw [cascadeWalk, if_neg (by simp)]
      simp only [hint]
    rw [hstep]
    obtain ⟨hcr, hndr⟩ := List.nodup_cons.mp hnd
    apply ih left _ _ _ _ hadd
    · rw [Function.update_of_ne hne.symm, Function.update_self]
    · exact hndr
    · simpa using hlen
    · apply (path_congr _).mpr hpath
      intro y hy
      obtain ⟨d, hd, rfl⟩ := List.mem_map.mp hy
      have hdc : d ≠ c := by
        rintro rfl
        exact hcr hd
      apply (hl.ring m j hne).next_addTail_of_not_mem
      · simpa using hdc
      · rw [node_mem_ring]
        intro hm
        have h₁ := ((hl.mem _ _).mp hm).2
        have h₂ := ((hl.mem (.head n i) d).mp (by simp [hL, hd])).2
        exact hne (h₁.symm.trans h₂)
    · intro d hd hds
      by_cases hdc : d = c
      · subst hdc
        rw [Function.update_self, ← hvec]
        exact vecOf_slotOk hK hindex he
      · rw [Function.update_of_ne hdc] at hds ⊢
        exact hslot d hd hds
    · intro d hd
      exact hexp d (by simp [hd])

theorem Links.close (hl : Links h (.head n i) P L slotOf)
    (hL : L (.head n i) = []) :
    Links (initListHead h (.head n i)) .null P L slotOf where
  ring := by
    intro m j _
    by_cases heq : Ptr.head m j = Ptr.head n i
    · rw [heq, hL]
      exact ring_init h _
    · have hne : ∀ y ∈ Ptr.head m j :: (L (.head m j)).map Ptr.node, y ≠ Ptr.head n i := by
        rintro y hy rfl
        have : Ptr.head n i = Ptr.head m j := by simpa using hy
        exact heq this.symm
      apply (hl.ring m j heq).congr
      · intro y hy
        exact initListHead_next_of_ne (hne y hy)
      · intro y hy
        exact initListHead_prev_of_ne (hne y hy)
  mem := hl.mem

theorem SlotOk.step {p : Ptr} (h : SlotOk K u e p)
    (hp : p ≠ .head n (K n % 64)) : SlotOk (Function.update K n (K n + 1)) u e p := by
  cases h with
  | near hle hlt => exact SlotOk.near hle hlt
  | late hlt => exact SlotOk.late hlt
  | far m hm hm4 hlow hhigh =>
    by_cases hmn : m = n
    · subst hmn
      have hne : e / span m ≠ K m := by
        intro heq
        rw [heq] at hp
        exact hp rfl
      apply SlotOk.far m hm hm4
      · rw [Function.update_self]
        omega
      · rw [Function.update_self]
        omega
    · apply SlotOk.far m hm hm4
      · rwa [Function.update_of_ne hmn]
      · rwa [Function.update_of_ne hmn]

theorem SlotOk.window (hn : 1 ≤ n) (h : SlotOk K u e (.head n (K n % 64)))
    (hstart : K n * span n = u) : u ≤ e ∧ e < u + span n := by
  generalize hp : Ptr.head n (K n % 64) = p at h
  cases h with
  | near => simp at hp; omega
  | late => simp at hp; omega
  | far m hm hm4 hlow hhigh =>
    obtain ⟨rfl, hmod⟩ := Ptr.head.inj hp
    have heq : K n = e / span n := ring_mod_inj hlow hhigh hmod
    have hspan := span_pos n
    constructor
    · rw [← hstart]
      exact (Nat.le_div_iff_mul_le hspan).mp hlow
    · have hlt : e / span n < K n + 1 := by omega
      have := (Nat.div_lt_iff_lt_mul hspan).mp hlt
      rwa [Nat.add_mul, hstart, Nat.one_mul] at this

theorem Ahead.step {u : Nat} (h : Ahead K u) (hstart : K n * span n = u) :
    Ahead (Function.update K n (K n + 1)) u := by
  intro m hm hm4
  by_cases hmn : m = n
  · subst hmn
    rw [Function.update_self, Nat.add_mul, hstart, Nat.one_mul]
    omega
  · rw [Function.update_of_ne hmn]
    exact h m hm hm4

theorem Wheel.cascadeTimers (w : Wheel t K P L slotOf) (hn : 1 ≤ n) (hn4 : n ≤ 4)
    (hstart : K n * span n = t.uiCheckTime) (hlen : ∀ p, (L p).length ≤ 10000) :
    ∃ h' L' slotOf',
      cascadeTimers t n = some (true,
        { t with list := h', index := Function.update t.index n ((K n + 1) % 64) }) ∧
      Wheel { t with list := h', index := Function.update t.index n ((K n + 1) % 64) }
        (Function.update K n (K n + 1)) P L' slotOf' := by
  have hidx := w.index n hn hn4
  have r := w.links.ring n (K n % 64) (by simp)
  obtain ⟨h', L', slotOf', hwalk, hl', hL', hslot'⟩ :=
    cascadeWalk_spec (i := K n % 64) hn hn4 (w.ahead.step hstart) w.index0 w.node
      (L (.head n (K n % 64))) 10000 t.list L slotOf (t.list.next (.head n (K n % 64)))
      ⟨fun m j _ => w.links.ring m j (by simp), w.links.mem⟩ rfl
      ((List.nodup_cons.mp r.nodup).2.of_map _) (hlen _) r.fwd.2
      (fun c hc hs => (w.slot c hc).step hs) (by
        intro c hc
        obtain ⟨hcP, hcs⟩ := (w.links.mem _ _).mp hc
        have hok := w.slot c hcP
        rw [hcs] at hok
        exact hok.window hn hstart)
  refine ⟨initListHead h' (.head n (K n % 64)), L', slotOf', ?_, ?_⟩
  · have hmod : (K n % 64 + 1) % 64 = (K n + 1) % 64 := by omega
    simp only [Timer.cascadeTimers, hidx, hwalk, TVN_SIZE, hmod]
  · constructor
    · exact hl'.close hL'
    · exact hslot'
    · have h0 : (0 : Nat) ≠ n := by omega
      simp only [Function.update_of_ne h0]
      exact w.index0
    · intro m hm hm4
      by_cases hmn : m = n
      · subst hmn
        simp only [Function.update_self]
      · simp only [Function.update_of_ne hmn]
        exact w.index m hm hm4
    · exact w.ahead.step hstart
    · exact w.node

theorem SlotOk.exists_head {p : Ptr} (h : SlotOk K u e p) :
    ∃ n i, p = .head n i := by
  cases h with
  | near => exact ⟨_, _, rfl⟩
  | late => exact ⟨_, _, rfl⟩
  | far => exact ⟨_, _, rfl⟩

/-- No more than `N` nodes are linked. -/
def AtMost (P : Set Nat) (N : Nat) : Prop :=
  ∀ l : List Nat, l.Nodup → (∀ c ∈ l, c ∈ P) → l.length ≤ N

theorem Wheel.slot_nodup (w : Wheel t K P L slotOf) (n i : Nat) : (L (.head n i)).Nodup :=
  (List.nodup_cons.mp (w.links.ring n i (by simp)).nodup).2.of_map _

theorem Wheel.slot_length_le {N : Nat} (w : Wheel t K P L slotOf) (hP : AtMost P N) (p : Ptr) :
    (L p).length ≤ N := by
  have hmem : ∀ c ∈ L p, c ∈ P ∧ slotOf c = p := fun c hc => (w.links.mem p c).mp hc
  cases hL : L p with
  | nil => simp
  | cons c cs =>
    rw [← hL]
    obtain ⟨hcP, hcs⟩ := hmem c (by simp [hL])
    have hok := w.slot c hcP
    rw [hcs] at hok
    obtain ⟨n, i, rfl⟩ := hok.exists_head
    exact hP _ (w.slot_nodup n i) fun d hd => (hmem d hd).1

theorem span_succ (hn : 1 ≤ n) (hn4 : n < 4) : span (n + 1) = 64 * span n := by
  obtain rfl | rfl | rfl : n = 1 ∨ n = 2 ∨ n = 3 := by omega
  all_goals rfl

theorem span_dvd {m : Nat} (hn : 1 ≤ n) (hnm : n ≤ m) (hm4 : m ≤ 4) : span n ∣ span m := by
  induction m, hnm using Nat.le_induction with
  | base => exact dvd_refl _
  | succ m hm ih =>
    rw [span_succ (by omega) (by omega)]
    exact (ih (by omega)).mul_left 64

theorem start_of_dvd {u : Nat} (hK : Ahead K u) (hlt : K n * span n < u + span n)
    (hn : 1 ≤ n) (hn4 : n ≤ 4) (hdvd : span n ∣ u) : K n * span n = u := by
  obtain ⟨q, rfl⟩ := hdvd
  have hspan := span_pos n
  have hlow := (hK n hn hn4).1
  rw [Nat.mul_comm (span n) q] at hlow hlt ⊢
  have h₁ : q ≤ K n := Nat.le_of_mul_le_mul_right hlow hspan
  have h₂ : K n < q + 1 := by
    apply Nat.lt_of_mul_lt_mul_right (a := span n)
    rwa [Nat.add_mul, Nat.one_mul]
  have heq : K n = q := by omega
  rw [heq]

theorem past_of_not_dvd {u : Nat} (hK : Ahead K u) (hn : 1 ≤ n) (hn4 : n ≤ 4)
    (hdvd : ¬ span n ∣ u) : u < K n * span n := by
  apply lt_of_le_of_ne (hK n hn hn4).1
  intro heq
  exact hdvd ⟨K n, by rw [heq, Nat.mul_comm]⟩

/-- The cascade goes on from wheel `n` as long as the slots of the next wheel
start at the tick, and leaves every wheel past it. -/
theorem Wheel.cascadeLevels (hP : AtMost P 10000) :
    ∀ (k n : Nat) (t : MtReportTimer) (K : Nat → Nat) (L : Ptr → List Nat) (slotOf : Nat → Ptr),
      n + k = 5 → 1 ≤ n → Wheel t K P L slotOf →
      (∀ m, 1 ≤ m → m < n → t.uiCheckTime < K m * span m) →
      (∀ m, n ≤ m → m ≤ 4 → K m * span m < t.uiCheckTime + span m) →
      (n ≤ 4 → span n ∣ t.uiCheckTime) →
      ∃ h' index' K' L' slotOf',
        cascadeLevels (List.range' n k) t = some (true, { t with list := h', index := index' }) ∧
        Wheel { t with list := h', index := index' } K' P L' slotOf' ∧
        Done K' t.uiCheckTime := by
  intro k
  induction k with
  | zero =>
    intro n t K L slotOf hnk _ w hbelow _ _
    exact ⟨t.list, t.index, K, L, slotOf, rfl, w, fun m hm hm4 => hbelow m hm (by omega)⟩
  | succ k ih =>
    intro n t K L slotOf hnk hn w hbelow hundone hdvd
    have hn4 : n ≤ 4 := by omega
    have hstart := start_of_dvd w.ahead (hundone n le_rfl hn4) hn hn4 (hdvd hn4)
    obtain ⟨h₁, L₁, slotOf₁, hcas, w₁⟩ :=
      w.cascadeTimers hn hn4 hstart (w.slot_length_le hP)
    have hspan := span_pos n
    have hpast : t.uiCheckTime < (K n + 1) * span n := by
      rw [Nat.add_mul, hstart]
      omega
    have hbelow₁ : ∀ m, 1 ≤ m → m < n + 1 →
        t.uiCheckTime < Function.update K n (K n + 1) m * span m := by
      intro m hm hmn
      by_cases heq : m = n
      · subst heq
        rwa [Function.update_self]
      · rw [Function.update_of_ne heq]
        exact hbelow m hm (by omega)
    rw [List.range'_succ, Timer.cascadeLevels, hcas]
    simp only [Function.update_self]
    by_cases hone : (K n + 1) % 64 = 1
    · rw [if_pos hone]
      apply ih (n + 1) _ _ L₁ slotOf₁ (by omega) (by omega) w₁ hbelow₁
      · intro m hnm hm4
        rw [Function.update_of_ne (by omega)]
        exact hundone m (by omega) hm4
      · intro hn4'
        rw [span_succ hn (by omega)]
        obtain ⟨q, hq⟩ : 64 ∣ K n := by omega
        refine ⟨q, ?_⟩
        show t.uiCheckTime = 64 * span n * q
        rw [← hstart, hq]
        ring
    · rw [if_neg hone]
      refine ⟨h₁, _, _, L₁, slotOf₁, rfl, w₁, ?_⟩
      intro m hm hm4
      by_cases hmn : m < n + 1
      · exact hbelow₁ m hm hmn
      · apply past_of_not_dvd w₁.ahead hm hm4
        intro hmd
        have hnext : span (n + 1) ∣ t.uiCheckTime :=
          (span_dvd (by omega) (by omega) hm4).trans hmd
        rw [span_succ hn (by omega), ← hstart] at hnext
        have : 64 ∣ K n := Nat.dvd_of_mul_dvd_mul_right hspan hnext
        omega

theorem Wheel.cascadeTick (w : Wheel t K P L slotOf) (hP : AtMost P 10000)
    (hun : t.index 0 = 0 → Undone K t.uiCheckTime) :
    ∃ h' index' K' L' slotOf',
      cascadeTick t = some (true, { t with list := h', index := index' }) ∧
      Wheel { t with list := h', index := index' } K' P L' slotOf' ∧ Done K' t.uiCheckTime := by
  have hindex := w.index0
  unfold Timer.cascadeTick
  by_cases h0 : t.index 0 = 0
  · rw [if_pos h0]
    have hun := hun h0
    apply Wheel.cascadeLevels hP 4 1 t K L slotOf rfl le_rfl w
    · intro m hm hm1
      omega
    · intro m hm hm4
      exact hun m hm hm4
    · intro _
      show 2 ^ 8 ∣ t.uiCheckTime
      omega
  · rw [if_neg h0]
    refine ⟨t.list, t.index, K, L, slotOf, rfl, w, ?_⟩
    intro m hm hm4
    apply past_of_not_dvd w.ahead hm hm4
    intro hmd
    have : 2 ^ 8 ∣ t.uiCheckTime := (span_dvd le_rfl hm hm4).trans hmd
    omega

theorem Wheel.congr (w : Wheel t K P L slotOf) {t' : MtReportTimer} (hlist : t'.list = t.list)
    (hindex : t'.index = t.index) (hcheck : t'.uiCheckTime = t.uiCheckTime)
    (hnode : ∀ c ∈ P, (t'.stHash c).uiExpire = (t.stHash c).uiExpire ∧
      (t'.stHash c).dwProcessId = t'.dwProcessId) : Wheel t' K P L slotOf where
  links := by
    rw [hlist]
    exact w.links
  slot := by
    intro c hc
    rw [hcheck, (hnode c hc).1]
    exact w.slot c hc
  index0 := by
    rw [hindex, hcheck]
    exact w.index0
  index := by
    rw [hindex]
    exact w.index
  ahead := by
    rw [hcheck]
    exact w.ahead
  node := by
    intro c hc
    rw [hcheck, (hnode c hc).1]
    exact ⟨(w.node c hc).1, (hnode c hc).2⟩

theorem Wheel.add (w : Wheel t K P L slotOf) (hc : c ∉ P)
    (he : InReach t.uiCheckTime (t.stHash c).uiExpire) :
    ∃ L' slotOf', Wheel (internalAddTimer t c) K (insert c P) L' slotOf' := by
  have hok := vecOf_slotOk w.ahead w.index0 he
  obtain ⟨n, i, hvec⟩ := hok.exists_head
  have hself : ∀ node, (setNode t c node).stHash c = node := fun node => Function.update_self _ _ _
  have hother : ∀ d ∈ P, ∀ node, (setNode t c node).stHash d = t.stHash d := by
    intro d hd node
    apply Function.update_of_ne
    rintro rfl
    exact hc hd
  refine ⟨Function.update L (.head n i) (L (.head n i) ++ [c]),
    Function.update slotOf c (.head n i), ?_, ?_, w.index0, w.index, w.ahead, ?_⟩
  · simp only [internalAddTimer, hvec]
    exact w.links.add hc (by simp)
  · intro d hmem
    rcases Set.mem_insert_iff.mp hmem with rfl | hd
    · rw [Function.update_self, ← hvec]
      simp only [internalAddTimer, hself]
      exact hok
    · have hdc : d ≠ c := by
        rintro rfl
        exact hc hd
      rw [Function.update_of_ne hdc]
      simp only [internalAddTimer, hother d hd]
      exact w.slot d hd
  · intro d hmem
    rcases Set.mem_insert_iff.mp hmem with rfl | hd
    · simp only [internalAddTimer, hself]
      exact ⟨he, rfl⟩
    · simp only [internalAddTimer, hother d hd]
      exact w.node d hd

theorem Wheel.unlink (w : Wheel t K P L slotOf) (hc : c ∈ P) :
    ∃ L', Wheel (unlinkTimer t c) K (P \ {c}) L' slotOf := by
  obtain ⟨n, i, hs⟩ := (w.slot c hc).exists_head
  refine ⟨_, w.links.del hc hs (by simp), ?_, w.index0, w.index, w.ahead, ?_⟩
  · intro d hd
    exact w.slot d hd.1
  · intro d hd
    exact w.node d hd.1

theorem Wheel.due_iff (w : Wheel t K P L slotOf) (hdone : Done K t.uiCheckTime) (hc : c ∈ P) :
    c ∈ L (.head 0 (t.index 0)) ↔ (t.stHash c).uiExpire ≤ t.uiCheckTime := by
  rw [w.links.mem, w.index0, and_iff_right hc]
  have hok := w.slot c hc
  generalize hp : slotOf c = p at hok
  cases hok with
  | near hle hlt =>
    simp only [Ptr.head.injEq, true_and]
    omega
  | late hlt =>
    simp only [true_iff]
    omega
  | far n hn hn4 hlow _ =>
    have hlow := (Nat.le_div_iff_mul_le (span_pos n)).mp hlow
    have hpast := hdone n hn hn4
    simp only [Ptr.head.injEq]
    omega

/-- `uiCheckTime++` when the current slot of `tv1` is empty. -/
theorem Wheel.nextTick (w : Wheel t K P L slotOf) (hdone : Done K t.uiCheckTime)
    (hempty : L (.head 0 (t.index 0)) = []) (hlt : t.uiCheckTime + 1 < 2 ^ 32) :
    Wheel (nextTick t) K P L slotOf ∧ Undone K (t.uiCheckTime + 1) ∧
      (Timer.nextTick t).uiCheckTime = t.uiCheckTime + 1 ∧
      ∀ c ∈ P, t.uiCheckTime + 1 ≤ (t.stHash c).uiExpire := by
  have hinc : (Timer.nextTick t).uiCheckTime = t.uiCheckTime + 1 := wordInc_of_lt hlt
  have hlater : ∀ c ∈ P, t.uiCheckTime + 1 ≤ (t.stHash c).uiExpire := by
    intro c hc
    by_contra hle
    have hm := (w.due_iff hdone hc).mpr (by omega)
    simp [hempty] at hm
  refine ⟨?_, ?_, hinc, hlater⟩
  · constructor
    · exact w.links
    · intro c hc
      rw [hinc]
      have hlate := hlater c hc
      have hok := w.slot c hc
      generalize hp : slotOf c = p at hok
      cases hok with
      | near hle hlt => exact SlotOk.near hlate (by show (t.stHash c).uiExpire < _; omega)
      | late hlt => omega
      | far n hn hn4 hlow hhigh => exact SlotOk.far n hn hn4 hlow hhigh
    · rw [hinc]
      simp only [Timer.nextTick, Function.update_self, w.index0, TVR_SIZE]
      omega
    · intro n hn hn4
      simp only [Timer.nextTick]
      rw [Function.update_of_ne (by omega)]
      exact w.index n hn hn4
    · intro n hn hn4
      rw [hinc]
      have hpast := hdone n hn hn4
      have hahead := (w.ahead n hn hn4).2
      omega
    · intro c hc
      rw [hinc]
      obtain ⟨⟨hword, habove, hbelow⟩, hpid⟩ := w.node c hc
      have hlate := hlater c hc
      refine ⟨⟨hword, ?_, ?_⟩, hpid⟩
      · show (t.stHash c).uiExpire < t.uiCheckTime + 1 + 2 ^ 31
        omega
      · show t.uiCheckTime + 1 ≤ (t.stHash c).uiExpire + 2 ^ 31
        omega
  · intro n hn hn4
    have hahead := (w.ahead n hn hn4).2
    omega

theorem wheel_init (now dwProcessId : Nat) :
    Wheel (initTimer now dwProcessId) (fun _ => 0) ∅ (fun _ => []) (fun _ => .null) where
  links :=
    { ring := fun n i _ =>
        { fwd := ⟨rfl, rfl⟩
          bwd := ⟨rfl, rfl⟩
          nodup := by simp }
      mem := by simp }
  slot := by simp
  index0 := rfl
  index := fun _ _ _ => rfl
  ahead := fun n _ _ => by simp [initTimer]
  node := by simp

end

end XrkMonitor.Timer
