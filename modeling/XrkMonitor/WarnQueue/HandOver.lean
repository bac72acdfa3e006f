import Mathlib.Tactic.Common
import Mathlib.Data.List.Nodup
import XrkMonitor.WarnQueue.Queue

/-!
# The hand-over of warnings

Every process decides what to do with a slot before it writes to it. The
hand-over is right in the runs in which nobody else takes up the same slot in
between, and no slot is freed behind the back of a search of the adder;
`warning_hand_over` is the statement. `wrong_content_sent` is a run in which the
adder reuses an expired slot: a sender takes it up after its time and before its
id is written.
-/

namespace XrkMonitor.WarnQueue

variable {ω : Type} {cfg : Config} {s : State ω} {slot : TWarnSendInfo ω} {x : Sender} {p : Nat}
  {k : Nat}

/-- The adder is about to write to slot `k`. -/
def Writing (s : State ω) (k : Nat) : Prop :=
  (s.adder.pc = .copy ∨ s.adder.pc = .time ∨ s.adder.pc = .name) ∧ s.adder.pSendNode = k

/-- Sender `p` is about to send or to free slot `k`. -/
def Inside (s : State ω) (p k : Nat) : Prop :=
  ((s.senders p).pc = .expire ∨ (s.senders p).pc = .send ∨ (s.senders p).pc = .clear) ∧
    (s.senders p).j = k

instance (s : State ω) (k : Nat) : Decidable (Writing s k) :=
  inferInstanceAs (Decidable (_ ∧ _))

instance (s : State ω) (p k : Nat) : Decidable (Inside s p k) :=
  inferInstanceAs (Decidable (_ ∧ _))

/-- The search of the adder has found slot `k` in use. -/
def Passed (s : State ω) (k : Nat) : Prop :=
  s.adder.pc = .scan ∧ ∃ m < s.adder.j, (s.s_iLastShmNodeIdx + m) % maxWarnSendNodeShm = k

instance (s : State ω) (k : Nat) : Decidable (Passed s k) :=
  inferInstanceAs (Decidable (_ ∧ _))

/-- The slot the next step of the adder takes for its warning. -/
def claims (s : State ω) : Option Nat :=
  if s.adder.pc = .scan then
    if s.adder.j < maxWarnSendNodeShm then
      if (s.slots s.adder.i).dwWarnId = 0 then some s.adder.i else none
    else s.adder.pTimeoutNode
  else none

/-- Sender `p` takes up the slot it looks at. -/
def Enters (cfg : Config) (s : State ω) (p : Nat) : Prop :=
  (s.senders p).pc = .look ∧ (s.senders p).j < maxWarnSendNodeShm ∧ senderLook cfg s p ≠ .look

instance (cfg : Config) (s : State ω) (p : Nat) : Decidable (Enters cfg s p) :=
  inferInstanceAs (Decidable (_ ∧ _))

/-- Sender `p` is about to free its slot. -/
def Frees (s : State ω) (p : Nat) : Prop :=
  (s.senders p).pc = .expire ∨ (s.senders p).pc = .clear

instance (s : State ω) (p : Nat) : Decidable (Frees s p) :=
  inferInstanceAs (Decidable (_ ∨ _))

/-- What a step must respect: nobody takes up a slot that another process is
about to write to, and no slot is freed that a search of the adder has passed
without finding an expired one. -/
def StepOk (cfg : Config) (s : State ω) : Action ω → Prop
  | .tick d => s.now + d + cfg.iValidSendWarnTimeSec < 2 ^ 32
  | .adder => ∀ k ∈ claims s, ∀ p < cfg.iProcessCount, ¬Inside s p k
  | .sender p =>
    (Enters cfg s p → ¬Writing s (s.senders p).j ∧
      ∀ q < cfg.iProcessCount, q ≠ p → ¬Inside s q (s.senders p).j) ∧
    (Frees s p → s.adder.pTimeoutNode = none → ¬Passed s (s.senders p).j)
  | _ => True

instance StepOk.decidable (cfg : Config) (s : State ω) : ∀ a, Decidable (StepOk cfg s a)
  | .tick _ => inferInstanceAs (Decidable (_ < _))
  | .adder | .sender _ => by unfold StepOk; infer_instance
  | .add _ _ _ | .scan _ _ => inferInstanceAs (Decidable True)

def RunOk [Inhabited ω] (cfg : Config) : State ω → List (Action ω) → Prop
  | _, [] => True
  | s, a :: as => StepOk cfg s a ∧ RunOk cfg (step cfg s a) as

instance RunOk.decidable [Inhabited ω] (cfg : Config) :
    ∀ (s : State ω) (as : List (Action ω)), Decidable (RunOk cfg s as)
  | _, [] => isTrue trivial
  | s, a :: as =>
    have : Decidable (RunOk cfg (step cfg s a) as) := RunOk.decidable cfg _ as
    inferInstanceAs (Decidable (StepOk cfg s a ∧ RunOk cfg (step cfg s a) as))

/-! ### The invariant -/

/-- The clock of a process is not ahead, and no sum of times wraps. -/
structure ClockInv (cfg : Config) (s : State ω) : Prop where
  now_lt : s.now + cfg.iValidSendWarnTimeSec < 2 ^ 32
  slot_le : ∀ k, (s.slots k).dwWarnAddTime ≤ s.now
  adder_le : s.adder.pc ≠ .idle → s.adder.dwTimeNow ≤ s.now
  sender_le : ∀ p, (s.senders p).pc ≠ .idle → (s.senders p).dwTimeNow ≤ s.now

/-- One process at a time takes up a slot. -/
structure SlotInv (cfg : Config) (s : State ω) : Prop where
  exist : ∀ p, (s.senders p).pc ≠ .idle → p < cfg.iProcessCount
  alone : ∀ p q k, Inside s p k → Inside s q k → p = q
  apart : ∀ p k, Writing s k → ¬Inside s p k
  expire : ∀ p, (s.senders p).pc = .expire →
    deadline cfg (s.slots (s.senders p).j) ≤ (s.senders p).dwTimeNow
  send : ∀ p, (s.senders p).pc = .send →
    (s.slots (s.senders p).j).dwWarnId ≠ 0 ∧
      (s.slots (s.senders p).j).dwWarnId % cfg.iProcessCount = p ∧
      (s.slots (s.senders p).j).tag ∉ s.sent.map Sent.tag
  clear : ∀ p, (s.senders p).pc = .clear →
    (s.slots (s.senders p).j).tag ∈ s.sent.map Sent.tag

/-- What the slots say about the history. -/
structure TagInv (s : State ω) : Prop where
  held : ∀ k, (s.slots k).dwWarnId ≠ 0 → ¬Writing s k → Holds s k
  tag_lt : ∀ k, (s.slots k).dwWarnId ≠ 0 → (s.slots k).tag < s.added.length
  tag_inj : ∀ k k', (s.slots k).dwWarnId ≠ 0 → (s.slots k').dwWarnId ≠ 0 →
    (s.slots k).tag = (s.slots k').tag → k = k'
  sent_lt : ∀ r ∈ s.sent, r.tag < s.added.length
  sent_clear : ∀ k, (s.slots k).dwWarnId ≠ 0 → (s.slots k).tag ∈ s.sent.map Sent.tag →
    ∃ p, (s.senders p).pc = .clear ∧ (s.senders p).j = k

/-- The adder's view of the slots. -/
structure AdderInv (cfg : Config) (s : State ω) : Prop where
  last_lt : s.s_iLastShmNodeIdx < maxWarnSendNodeShm
  id_ne : s.adder.pc ≠ .idle → s.adder.dwWarnId ≠ 0
  index : s.adder.pc ≠ .idle → s.adder.j ≤ maxWarnSendNodeShm ∧
    s.adder.i = (s.s_iLastShmNodeIdx + s.adder.j) % maxWarnSendNodeShm
  timeout : s.adder.pc = .scan → ∀ n, s.adder.pTimeoutNode = some n →
    (s.slots n).dwWarnId = 0 ∨ deadline cfg (s.slots n) < s.adder.dwTimeNow
  passed : s.adder.pTimeoutNode = none → ∀ k, Passed s k →
    (s.slots k).dwWarnId ≠ 0 ∧ s.adder.dwTimeNow ≤ deadline cfg (s.slots k)
  reuse : s.adder.pc = .copy ∨ s.adder.pc = .time →
    (s.slots s.adder.pSendNode).dwWarnId = 0 ∨
      (deadline cfg (s.slots s.adder.pSendNode) < s.adder.dwTimeNow ∧
        (s.added[(s.slots s.adder.pSendNode).tag]?.map Added.dwWarnAddTime) =
          some (s.slots s.adder.pSendNode).dwWarnAddTime)
  content : s.adder.pc = .time ∨ s.adder.pc = .name →
    (s.slots s.adder.pSendNode).stWarn = s.adder.warn
  stale : s.adder.pc = .name →
    (s.slots s.adder.pSendNode).dwWarnAddTime = s.adder.dwTimeNow ∧ ¬Holds s s.adder.pSendNode

structure Inv (cfg : Config) (s : State ω) : Prop where
  clock : ClockInv cfg s
  slot : SlotInv cfg s
  tag : TagInv s
  adder : AdderInv cfg s
  sent : SentOk cfg s

theorem inv_init [Inhabited ω] {t₀ : Nat} (h : t₀ + cfg.iValidSendWarnTimeSec < 2 ^ 32) :
    Inv cfg (initState t₀ : State ω) := by
  refine ⟨⟨h, ?_, ?_, ?_⟩, ⟨?_, ?_, ?_, ?_, ?_, ?_⟩, ⟨?_, ?_, ?_, ?_, ?_⟩,
    ⟨?_, ?_, ?_, ?_, ?_, ?_, ?_, ?_⟩, ⟨?_, ?_⟩⟩
  all_goals simp [maxWarnSendNodeShm, initState, emptySlot, Inside, Writing, Passed]

theorem deadline_eq (h : ClockInv cfg s) (k : Nat) :
    deadline cfg (s.slots k) = (s.slots k).dwWarnAddTime + cfg.iValidSendWarnTimeSec := by
  have h1 := h.now_lt
  have h2 := h.slot_le k
  exact Nat.mod_eq_of_lt (by omega)

theorem nextIdx_eq {i : Nat} (h : i < maxWarnSendNodeShm) :
    nextIdx i = (i + 1) % maxWarnSendNodeShm := by
  unfold nextIdx
  split
  · have hi : i + 1 = maxWarnSendNodeShm := by omega
    rw [hi, Nat.mod_self]
  · rw [Nat.mod_eq_of_lt (by omega)]

theorem nextIdx_lt (i : Nat) : nextIdx i < maxWarnSendNodeShm := by
  unfold nextIdx
  split
  · decide
  · omega

/-! ### One sender moves -/

theorem inside_setSender_of_ne {p q k : Nat} (hq : q ≠ p) :
    Inside (s.setSender p x) q k ↔ Inside s q k := by
  simp [Inside, setSender_of_ne s hq]

theorem inside_setSender_self {p k : Nat} :
    Inside (s.setSender p x) p k ↔
      (x.pc = .expire ∨ x.pc = .send ∨ x.pc = .clear) ∧ x.j = k := by
  simp [Inside]

theorem ClockInv.setSender (h : ClockInv cfg s)
    (hx : x.pc ≠ .idle → x.dwTimeNow ≤ s.now) : ClockInv cfg (s.setSender p x) := by
  refine ⟨h.now_lt, h.slot_le, h.adder_le, fun q => ?_⟩
  by_cases hq : q = p
  · subst hq
    rw [setSender_self]
    exact hx
  · rw [setSender_of_ne s hq]
    exact h.sender_le q

/-- A sender that leaves its slot, or looks for the next. -/
theorem SlotInv.leave (h : SlotInv cfg s) (hp : p < cfg.iProcessCount)
    (hx : x.pc = .idle ∨ x.pc = .look) : SlotInv cfg (s.setSender p x) := by
  have hself : ∀ k, ¬Inside (s.setSender p x) p k := by
    intro k hin
    obtain ⟨hpc, -⟩ := inside_setSender_self.1 hin
    rcases hx with hx | hx <;> simp [hx] at hpc
  have hne : ∀ {q k}, Inside (s.setSender p x) q k → q ≠ p ∧ Inside s q k := by
    intro q k hin
    have hq : q ≠ p := by
      rintro rfl
      exact hself k hin
    exact ⟨hq, (inside_setSender_of_ne hq).1 hin⟩
  have hpc : ∀ q c, c ≠ .idle → c ≠ .look → ((s.setSender p x).senders q).pc = c →
      (s.setSender p x).senders q = s.senders q := by
    intro q c h1 h2 hc
    by_cases hq : q = p
    · subst hq
      rw [setSender_self] at hc
      rcases hx with hx | hx
      · exact absurd (hc.symm.trans hx) h1
      · exact absurd (hc.symm.trans hx) h2
    · exact setSender_of_ne s hq x
  refine ⟨?_, ?_, ?_, ?_, ?_, ?_⟩
  · intro q hq
    by_cases hqp : q = p
    · exact hqp ▸ hp
    · rw [setSender_of_ne s hqp] at hq
      exact h.exist q hq
  · intro q q' k h1 h2
    exact h.alone q q' k (hne h1).2 (hne h2).2
  · intro q k hw h1
    exact h.apart q k hw (hne h1).2
  · intro q hq
    have hs := hpc q _ (by simp) (by simp) hq
    rw [hs] at hq ⊢
    exact h.expire q hq
  · intro q hq
    have hs := hpc q _ (by simp) (by simp) hq
    rw [hs] at hq ⊢
    exact h.send q hq
  · intro q hq
    have hs := hpc q _ (by simp) (by simp) hq
    rw [hs] at hq ⊢
    exact h.clear q hq

theorem TagInv.setSender (h : TagInv s)
    (hp : (s.senders p).pc = .clear → (s.slots (s.senders p).j).dwWarnId = 0) :
    TagInv (s.setSender p x) := by
  refine ⟨h.held, h.tag_lt, h.tag_inj, h.sent_lt, ?_⟩
  intro k hk hsent
  obtain ⟨q, hq, hj⟩ := h.sent_clear k hk hsent
  have hqp : q ≠ p := by
    rintro rfl
    exact hk (hj ▸ hp hq)
  refine ⟨q, ?_⟩
  rw [setSender_of_ne s hqp]
  exact ⟨hq, hj⟩

theorem AdderInv.setSender (h : AdderInv cfg s) (p : Nat) (x : Sender) :
    AdderInv cfg (s.setSender p x) :=
  ⟨h.last_lt, h.id_ne, h.index, h.timeout, h.passed, h.reuse, h.content, h.stale⟩

/-! ### One slot changes -/

theorem ClockInv.setSlot (h : ClockInv cfg s)
    (ht : slot.dwWarnAddTime ≤ s.now) : ClockInv cfg (s.setSlot k slot) := by
  refine ⟨h.now_lt, fun k' => ?_, h.adder_le, h.sender_le⟩
  by_cases hk : k' = k
  · subst hk
    rw [setSlot_self]
    exact ht
  · rw [setSlot_of_ne s hk]
    exact h.slot_le k'

theorem SlotInv.setSlot (h : SlotInv cfg s) (slot : TWarnSendInfo ω)
    (hk : ∀ p, ¬Inside s p k) : SlotInv cfg (s.setSlot k slot) := by
  have hslot : ∀ p, Inside s p (s.senders p).j →
      (s.setSlot k slot).slots (s.senders p).j = s.slots (s.senders p).j := by
    intro p hin
    have hne : (s.senders p).j ≠ k := by
      intro hj
      exact hk p (hj ▸ hin)
    exact setSlot_of_ne s hne slot
  refine ⟨h.exist, h.alone, h.apart, ?_, ?_, ?_⟩
  · intro p hp
    rw [show (s.setSlot k slot).senders p = s.senders p from rfl] at hp ⊢
    rw [hslot p ⟨.inl hp, rfl⟩]
    exact h.expire p hp
  · intro p hp
    rw [show (s.setSlot k slot).senders p = s.senders p from rfl] at hp ⊢
    rw [hslot p ⟨.inr (.inl hp), rfl⟩]
    exact h.send p hp
  · intro p hp
    rw [show (s.setSlot k slot).senders p = s.senders p from rfl] at hp ⊢
    rw [hslot p ⟨.inr (.inr hp), rfl⟩]
    exact h.clear p hp

theorem TagInv.free (h : TagInv s) (h0 : slot.dwWarnId = 0) :
    TagInv (s.setSlot k slot) := by
  have hslot : ∀ k', ((s.setSlot k slot).slots k').dwWarnId ≠ 0 →
      (s.setSlot k slot).slots k' = s.slots k' := by
    intro k' hk'
    have hne : k' ≠ k := by
      rintro rfl
      simp [h0] at hk'
    exact setSlot_of_ne s hne slot
  refine ⟨?_, ?_, ?_, h.sent_lt, ?_⟩
  · intro k' hk' hw
    have hs := hslot k' hk'
    have hold := h.held k' (hs ▸ hk') hw
    unfold Holds at hold ⊢
    rw [hs]
    exact hold
  · intro k' hk'
    have hs := hslot k' hk'
    rw [hs] at hk' ⊢
    exact h.tag_lt k' hk'
  · intro k' k'' hk' hk''
    have hs := hslot k' hk'
    have hs' := hslot k'' hk''
    rw [hs] at hk' ⊢
    rw [hs'] at hk'' ⊢
    exact h.tag_inj k' k'' hk' hk''
  · intro k' hk'
    have hs := hslot k' hk'
    rw [hs] at hk' ⊢
    exact h.sent_clear k' hk'

theorem AdderInv.free (h : AdderInv cfg s)
    (h0 : slot.dwWarnId = 0) (hw : ¬Writing s k)
    (hp : s.adder.pTimeoutNode = none → ¬Passed s k) : AdderInv cfg (s.setSlot k slot) := by
  have hsend : (s.adder.pc = .copy ∨ s.adder.pc = .time ∨ s.adder.pc = .name) →
      (s.setSlot k slot).slots s.adder.pSendNode = s.slots s.adder.pSendNode := by
    intro hpc
    exact setSlot_of_ne s (fun hk => hw ⟨hpc, hk⟩) slot
  refine ⟨h.last_lt, h.id_ne, h.index, ?_, ?_, ?_, ?_, ?_⟩
  · intro hpc n hn
    by_cases hnk : n = k
    · subst hnk
      rw [setSlot_self]
      exact .inl h0
    · rw [setSlot_of_ne s hnk]
      exact h.timeout hpc n hn
  · intro hnone k' hk'
    have hne : k' ≠ k := by
      rintro rfl
      exact hp hnone hk'
    rw [setSlot_of_ne s hne]
    exact h.passed hnone k' hk'
  · intro hpc
    rw [show (s.setSlot k slot).adder = s.adder from rfl] at hpc ⊢
    rw [hsend (hpc.imp id .inl)]
    exact h.reuse hpc
  · intro hpc
    rw [show (s.setSlot k slot).adder = s.adder from rfl] at hpc ⊢
    rw [hsend (.inr hpc)]
    exact h.content hpc
  · intro hpc
    rw [show (s.setSlot k slot).adder = s.adder from rfl] at hpc ⊢
    have hs := hsend (.inr (.inr hpc))
    unfold Holds
    rw [hs]
    exact h.stale hpc

/-! ### The steps of a sender -/

/-- A sender takes up a slot that no other process has taken up. -/
theorem SlotInv.enter (h : SlotInv cfg s) (hp : p < cfg.iProcessCount)
    (hw : ¬Writing s x.j) (hq : ∀ q, q ≠ p → ¬Inside s q x.j) (hclear : x.pc ≠ .clear)
    (hexpire : x.pc = .expire → deadline cfg (s.slots x.j) ≤ x.dwTimeNow)
    (hsend : x.pc = .send → (s.slots x.j).dwWarnId ≠ 0 ∧
      (s.slots x.j).dwWarnId % cfg.iProcessCount = p ∧
      (s.slots x.j).tag ∉ s.sent.map Sent.tag) : SlotInv cfg (s.setSender p x) := by
  have hother : ∀ q k, q ≠ p → Inside (s.setSender p x) q k → Inside s q k ∧ k ≠ x.j := by
    intro q k hqp hin
    have hold := (inside_setSender_of_ne hqp).1 hin
    refine ⟨hold, ?_⟩
    rintro rfl
    exact hq q hqp hold
  have hself : ∀ k, Inside (s.setSender p x) p k → k = x.j :=
    fun k hin => (inside_setSender_self.1 hin).2.symm
  refine ⟨?_, ?_, ?_, ?_, ?_, ?_⟩
  · intro q hq'
    by_cases hqp : q = p
    · exact hqp ▸ hp
    · rw [setSender_of_ne s hqp] at hq'
      exact h.exist q hq'
  · intro q q' k h1 h2
    by_cases hqp : q = p
    · by_cases hqp' : q' = p
      · rw [hqp, hqp']
      · subst hqp
        exact absurd (hself k h1) (hother q' k hqp' h2).2
    · by_cases hqp' : q' = p
      · subst hqp'
        exact absurd (hself k h2) (hother q k hqp h1).2
      · exact h.alone q q' k (hother q k hqp h1).1 (hother q' k hqp' h2).1
  · intro q k hwk h1
    by_cases hqp : q = p
    · subst hqp
      have hwk' : Writing s k := hwk
      exact hw (hself k h1 ▸ hwk')
    · exact h.apart q k hwk (hother q k hqp h1).1
  · intro q hpc
    by_cases hqp : q = p
    · subst hqp
      rw [setSender_self] at hpc ⊢
      exact hexpire hpc
    · rw [setSender_of_ne s hqp] at hpc ⊢
      exact h.expire q hpc
  · intro q hpc
    by_cases hqp : q = p
    · subst hqp
      rw [setSender_self] at hpc ⊢
      exact hsend hpc
    · rw [setSender_of_ne s hqp] at hpc ⊢
      exact h.send q hpc
  · intro q hpc
    by_cases hqp : q = p
    · subst hqp
      rw [setSender_self] at hpc
      exact absurd hpc hclear
    · rw [setSender_of_ne s hqp] at hpc ⊢
      exact h.clear q hpc

theorem Inv.setSender (h : Inv cfg s) (hp : (s.senders p).pc ≠ .clear)
    (hx : x.pc ≠ .idle → x.dwTimeNow ≤ s.now) (hslot : SlotInv cfg (s.setSender p x)) :
    Inv cfg (s.setSender p x) :=
  ⟨h.clock.setSender hx, hslot, h.tag.setSender fun hpc => absurd hpc hp, h.adder.setSender p x,
    h.sent⟩

theorem senderLook_cases (hskip : cfg.iSkipSendWarn = false) (p : Nat) :
    senderLook cfg s p = .look ∨
      (senderLook cfg s p = .expire ∧
        deadline cfg (s.slots (s.senders p).j) ≤ (s.senders p).dwTimeNow) ∨
      (senderLook cfg s p = .send ∧ (s.slots (s.senders p).j).dwWarnId ≠ 0 ∧
        (s.slots (s.senders p).j).dwWarnId % cfg.iProcessCount = p) := by
  simp only [senderLook, hskip]
  split
  · exact .inl rfl
  · rename_i hid
    split
    · rename_i hexp
      exact .inr (.inl ⟨rfl, hexp⟩)
    · split
      · exact .inl rfl
      · rename_i hmod
        exact .inr (.inr ⟨rfl, hid, not_not.1 hmod⟩)

theorem Inv.look [Inhabited ω] (h : Inv cfg s) (hskip : cfg.iSkipSendWarn = false)
    (hok : StepOk cfg s (.sender p)) (hpc : (s.senders p).pc = .look) :
    Inv cfg (senderStep cfg s p) := by
  have hp : p < cfg.iProcessCount := h.slot.exist p (by simp [hpc])
  have hnc : (s.senders p).pc ≠ .clear := by simp [hpc]
  have ht : (s.senders p).dwTimeNow ≤ s.now := h.clock.sender_le p (by simp [hpc])
  simp only [senderStep, hpc]
  split
  · rename_i hk
    have henter : senderLook cfg s p ≠ .look →
        ¬Writing s (s.senders p).j ∧ ∀ q, q ≠ p → ¬Inside s q (s.senders p).j := by
      intro hl
      obtain ⟨hw, hq⟩ := hok.1 ⟨hpc, hk, hl⟩
      refine ⟨hw, fun q hqp hin => hq q ?_ hqp hin⟩
      exact h.slot.exist q (by rcases hin.1 with e | e | e <;> simp [e])
    rcases senderLook_cases (s := s) hskip p with hl | ⟨hl, hexp⟩ | ⟨hl, hid, hmod⟩
    · rw [hl]
      exact h.setSender hnc (fun _ => ht) (h.slot.leave hp (.inr rfl))
    · obtain ⟨hw, hq⟩ := henter (by simp [hl])
      rw [hl]
      refine h.setSender hnc (fun _ => ht) (h.slot.enter hp hw hq ?_ ?_ ?_)
      · simp
      · exact fun _ => hexp
      · simp
    · obtain ⟨hw, hq⟩ := henter (by simp [hl])
      rw [hl]
      refine h.setSender hnc (fun _ => ht) (h.slot.enter hp hw hq ?_ ?_ ?_)
      · simp
      · simp
      · refine fun _ => ⟨hid, hmod, fun hsent => ?_⟩
        obtain ⟨q, hqc, hqj⟩ := h.tag.sent_clear _ hid hsent
        have hqp : q ≠ p := by
          rintro rfl
          exact hnc hqc
        exact hq q hqp ⟨.inr (.inr hqc), hqj⟩
  · exact h.setSender hnc (fun _ => ht) (h.slot.leave hp (.inl rfl))

theorem Inv.free (h : Inv cfg s) (hfree : Frees s p)
    (hok : StepOk cfg s (.sender p)) (h0 : slot.dwWarnId = 0)
    (ht : slot.dwWarnAddTime ≤ s.now) :
    Inv cfg ((s.setSlot (s.senders p).j slot).setSender p (s.senders p).next) := by
  have hin : Inside s p (s.senders p).j := by
    rcases hfree with e | e
    · exact ⟨.inl e, rfl⟩
    · exact ⟨.inr (.inr e), rfl⟩
  have hidle : (s.senders p).pc ≠ .idle := by
    rcases hfree with e | e <;> simp [e]
  have hp := h.slot.exist p hidle
  have hnow := h.clock.sender_le p hidle
  have hnone : ∀ q, ¬Inside (s.setSender p (s.senders p).next) q (s.senders p).j := by
    intro q hq
    by_cases hqp : q = p
    · subst hqp
      simpa [Sender.next] using (inside_setSender_self.1 hq).1
    · exact hqp (h.slot.alone q p _ ((inside_setSender_of_ne hqp).1 hq) hin)
  refine ⟨?_, ?_, ?_, ?_, h.sent⟩
  · exact (h.clock.setSlot ht).setSender fun _ => hnow
  · exact (h.slot.leave hp (.inr rfl)).setSlot slot hnone
  · exact (h.tag.free h0).setSender fun _ => by
      rw [show (s.setSlot (s.senders p).j slot).senders p = s.senders p from rfl, setSlot_self]
      exact h0
  · exact (h.adder.free h0 (fun hw => h.slot.apart p _ hw hin) (hok.2 hfree)).setSender _ _

/-- The sender sends the warning of its slot. -/
theorem Inv.send [Inhabited ω] (h : Inv cfg s) (hpc : (s.senders p).pc = .send) :
    Inv cfg (senderStep cfg s p) := by
  obtain ⟨hid, hmod, hnew⟩ := h.slot.send p hpc
  have hp := h.slot.exist p (by simp [hpc])
  have hin : Inside s p (s.senders p).j := ⟨.inr (.inl hpc), rfl⟩
  have hheld := h.tag.held _ hid fun hw => h.slot.apart p _ hw hin
  have hinside : ∀ q k, Inside (s.setSender p { s.senders p with pc := .clear }) q k →
      Inside s q k := by
    intro q k hq
    by_cases hqp : q = p
    · subst hqp
      obtain ⟨-, rfl⟩ := inside_setSender_self.1 hq
      exact hin
    · exact (inside_setSender_of_ne hqp).1 hq
  simp only [senderStep, hpc]
  refine ⟨?_, ⟨?_, ?_, ?_, ?_, ?_, ?_⟩, ⟨h.tag.held, h.tag.tag_lt, h.tag.tag_inj, ?_, ?_⟩, ?_, ?_⟩
  · have hnow := h.clock.sender_le p (by simp [hpc])
    have hc := h.clock.setSender (p := p) (x := { s.senders p with pc := .clear }) fun _ => hnow
    exact ⟨hc.now_lt, hc.slot_le, hc.adder_le, hc.sender_le⟩
  · intro q hq
    by_cases hqp : q = p
    · exact hqp ▸ hp
    · exact h.slot.exist q (by simpa [setSender_of_ne s hqp] using hq)
  · intro q q' k h1 h2
    exact h.slot.alone q q' k (hinside q k h1) (hinside q' k h2)
  · intro q k hw h1
    exact h.slot.apart q k hw (hinside q k h1)
  · intro q hq
    by_cases hqp : q = p
    · subst hqp
      simp at hq
    · simp only [setSender_of_ne s hqp] at hq ⊢
      exact h.slot.expire q hq
  · intro q hq
    by_cases hqp : q = p
    · subst hqp
      simp at hq
    · simp only [setSender_of_ne s hqp] at hq ⊢
      obtain ⟨h1, h2, h3⟩ := h.slot.send q hq
      refine ⟨h1, h2, ?_⟩
      simp only [List.map_append, List.mem_append, not_or]
      refine ⟨h3, fun hmem => hqp ?_⟩
      have htag := h.tag.tag_inj _ _ h1 hid (List.mem_singleton.1 hmem)
      exact h.slot.alone q p _ ⟨.inr (.inl hq), htag⟩ hin
  · intro q hq
    by_cases hqp : q = p
    · subst hqp
      simp only [setSender_self]
      exact List.mem_map.2 ⟨_, List.mem_append_right _ (List.mem_singleton.2 rfl), rfl⟩
    · simp only [setSender_of_ne s hqp] at hq ⊢
      rw [List.map_append]
      exact List.mem_append_left _ (h.slot.clear q hq)
  · intro r hr
    rcases List.mem_append.1 hr with hr | hr
    · exact h.tag.sent_lt r hr
    · rw [List.mem_singleton.1 hr]
      exact h.tag.tag_lt _ hid
  · intro k hk hmem
    rw [List.map_append] at hmem
    rcases List.mem_append.1 hmem with hmem | hmem
    · obtain ⟨q, hq, hj⟩ := h.tag.sent_clear k hk hmem
      have hqp : q ≠ p := by
        rintro rfl
        rw [hpc] at hq
        exact absurd hq (by simp)
      exact ⟨q, by simpa only [setSender_of_ne s hqp] using ⟨hq, hj⟩⟩
    · have hkj := h.tag.tag_inj k _ hk hid (List.mem_singleton.1 hmem)
      exact ⟨p, by simp [hkj]⟩
  · have ha := h.adder.setSender p { s.senders p with pc := .clear }
    exact ⟨ha.last_lt, ha.id_ne, ha.index, ha.timeout, ha.passed, ha.reuse, ha.content, ha.stale⟩
  · refine ⟨?_, ?_⟩
    · intro r hr
      rcases List.mem_append.1 hr with hr | hr
      · exact h.sent.1 r hr
      · rw [List.mem_singleton.1 hr]
        exact ⟨hmod, _, hheld.2⟩
    · simp only [List.map_append, List.map_cons, List.map_nil]
      exact List.nodup_append.2 ⟨h.sent.2, by simp, by
        rintro a ha b hb rfl
        rw [List.mem_singleton.1 hb] at ha
        exact hnew ha⟩

/-! ### The steps of the adder -/

theorem not_writing (hpc : s.adder.pc = .idle ∨ s.adder.pc = .scan) (k : Nat) : ¬Writing s k := by
  rintro ⟨hw, -⟩
  rcases hpc with e | e <;> simp [e] at hw

theorem Inv.setAdder (h : Inv cfg s) {a : Adder ω} (hpc : s.adder.pc = .idle ∨ s.adder.pc = .scan)
    (ht : a.pc ≠ .idle → a.dwTimeNow ≤ s.now)
    (hw : ∀ p k, Writing { s with adder := a } k → ¬Inside s p k)
    (ha : AdderInv cfg { s with adder := a }) : Inv cfg { s with adder := a } where
  clock := ⟨h.clock.now_lt, h.clock.slot_le, ht, h.clock.sender_le⟩
  slot := ⟨h.slot.exist, h.slot.alone, hw, h.slot.expire, h.slot.send, h.slot.clear⟩
  tag := ⟨fun k hk _ => h.tag.held k hk (not_writing hpc k), h.tag.tag_lt, h.tag.tag_inj,
    h.tag.sent_lt, h.tag.sent_clear⟩
  adder := ha
  sent := h.sent

theorem Inv.add [Inhabited ω] (h : Inv cfg s) (warn : ω) (dwWarnId dwTimeNow : Nat) :
    Inv cfg (step cfg s (.add warn dwWarnId dwTimeNow)) := by
  simp only [step]
  split
  · rename_i hpre
    obtain ⟨hpc, hid, ht⟩ := hpre
    refine h.setAdder (.inl hpc) (fun _ => ht) ?_ ?_
    · rintro p k ⟨hw, -⟩
      simp at hw
    · refine ⟨h.adder.last_lt, fun _ => hid, fun _ => ⟨Nat.zero_le _, ?_⟩, ?_, ?_, ?_, ?_, ?_⟩
      · exact (Nat.mod_eq_of_lt h.adder.last_lt).symm
      · simp
      · rintro - k ⟨-, m, hm, -⟩
        exact absurd hm (Nat.not_lt_zero m)
      · simp
      · simp
      · simp
  · exact h

theorem Inv.adderScan (h : Inv cfg s) (hok : StepOk cfg s .adder) (hpc : s.adder.pc = .scan) :
    Inv cfg (adderScan cfg s) := by
  have ht : s.adder.dwTimeNow ≤ s.now := h.clock.adder_le (by simp [hpc])
  have hid := h.adder.id_ne (by simp [hpc])
  obtain ⟨hj, hi⟩ := h.adder.index (by simp [hpc])
  have hclaim : ∀ n, claims s = some n → ∀ p, ¬Inside s p n := by
    intro n hn p hin
    exact hok n hn p (h.slot.exist p (by rcases hin.1 with e | e | e <;> simp [e])) hin
  have hcopy : ∀ n, claims s = some n →
      ((s.slots n).dwWarnId = 0 ∨ deadline cfg (s.slots n) < s.adder.dwTimeNow) →
      Inv cfg { s with adder := { s.adder with pc := .copy, pSendNode := n } } := by
    intro n hn hreuse
    refine h.setAdder (.inr hpc) (fun _ => ht) ?_ ?_
    · rintro p k ⟨-, rfl⟩
      exact hclaim n hn p
    · refine ⟨h.adder.last_lt, fun _ => hid, fun _ => ⟨hj, hi⟩, ?_, ?_, fun _ => ?_, ?_, ?_⟩
      · simp
      · rintro - k ⟨hp, -⟩
        simp at hp
      · by_cases h0 : (s.slots n).dwWarnId = 0
        · exact .inl h0
        · have hheld := (h.tag.held n h0 (not_writing (.inr hpc) n)).2
          exact .inr ⟨hreuse.resolve_left h0, by simp [hheld]⟩
      · simp
      · simp
  unfold WarnQueue.adderScan
  dsimp only
  split
  · rename_i hlt
    split
    · rename_i h0
      exact hcopy s.adder.i (by simp [claims, hpc, hlt, h0]) (.inl h0)
    · rename_i h0
      refine h.setAdder (.inr hpc) (fun _ => ht) ?_ ?_
      · rintro p k ⟨hw, -⟩
        simp [hpc] at hw
      · refine ⟨h.adder.last_lt, fun _ => hid, fun _ => ⟨hlt, ?_⟩, ?_, ?_, ?_, ?_, ?_⟩
        · have hilt : s.adder.i < maxWarnSendNodeShm := by
            rw [hi]
            exact Nat.mod_lt _ (by decide)
          dsimp only
          rw [nextIdx_eq hilt, hi, Nat.mod_add_mod, Nat.add_assoc]
        · intro _ n hn
          dsimp only at hn ⊢
          split at hn
          · rename_i hnew
            obtain rfl := Option.some.inj hn
            exact .inr hnew.2
          · exact h.adder.timeout hpc n hn
        · rintro hnone k ⟨-, m, hm, hk⟩
          dsimp only at hnone hm hk ⊢
          split at hnone
          · exact absurd hnone (by simp)
          · rename_i hold
            rcases Nat.lt_succ_iff_lt_or_eq.1 hm with hm | rfl
            · exact h.adder.passed hnone k ⟨hpc, m, hm, hk⟩
            · rw [← hk, ← hi]
              exact ⟨h0, Nat.not_lt.1 fun hd => hold ⟨hnone, hd⟩⟩
        · simp [hpc]
        · simp [hpc]
        · simp [hpc]
  · rename_i hlt
    split
    · rename_i n hn
      exact hcopy n (by simp [claims, hpc, hlt, hn]) (h.adder.timeout hpc n hn)
    · refine h.setAdder (.inr hpc) (by simp) ?_ ?_
      · rintro p k ⟨hw, -⟩
        simp at hw
      · refine ⟨h.adder.last_lt, ?_, ?_, ?_, ?_, ?_, ?_, ?_⟩
        · simp
        · simp
        · simp
        · rintro - k ⟨hp, -⟩
          simp at hp
        · simp
        · simp
        · simp

/-- The adder writes a field of its slot other than the id. -/
theorem Inv.fill (h : Inv cfg s) {pc : AddPc}
    (hw : Writing s s.adder.pSendNode) (hpc : pc = .time ∨ pc = .name)
    (hid : slot.dwWarnId = (s.slots s.adder.pSendNode).dwWarnId)
    (htag : slot.tag = (s.slots s.adder.pSendNode).tag) (ht : slot.dwWarnAddTime ≤ s.now)
    (ha : AdderInv cfg
      { s.setSlot s.adder.pSendNode slot with adder := { s.adder with pc := pc } }) :
    Inv cfg { s.setSlot s.adder.pSendNode slot with adder := { s.adder with pc := pc } } := by
  have hidle : s.adder.pc ≠ .idle := by
    rcases hw.1 with e | e | e <;> simp [e]
  have hids : ∀ k, ((s.setSlot s.adder.pSendNode slot).slots k).dwWarnId = (s.slots k).dwWarnId := by
    intro k
    by_cases hk : k = s.adder.pSendNode
    · subst hk
      rw [setSlot_self, hid]
    · rw [setSlot_of_ne s hk]
  have htags : ∀ k, ((s.setSlot s.adder.pSendNode slot).slots k).tag = (s.slots k).tag := by
    intro k
    by_cases hk : k = s.adder.pSendNode
    · subst hk
      rw [setSlot_self, htag]
    · rw [setSlot_of_ne s hk]
  have hc := h.clock.setSlot (k := s.adder.pSendNode) ht
  have hs := h.slot.setSlot slot fun p => h.slot.apart p _ hw
  refine ⟨⟨hc.now_lt, hc.slot_le, fun _ => h.clock.adder_le hidle, hc.sender_le⟩,
    ⟨hs.exist, hs.alone, ?_, hs.expire, hs.send, hs.clear⟩, ⟨?_, ?_, ?_, h.tag.sent_lt, ?_⟩, ha,
    h.sent⟩
  · rintro p k ⟨-, rfl⟩
    exact h.slot.apart p _ hw
  · intro k hk hnw
    have hne : k ≠ s.adder.pSendNode := by
      rintro rfl
      exact hnw ⟨.inr hpc, rfl⟩
    have hold := h.tag.held k (hids k ▸ hk) fun hwk => hne hwk.2.symm
    unfold Holds at hold ⊢
    dsimp only
    rw [setSlot_of_ne s hne]
    exact hold
  · intro k hk
    dsimp only at hk ⊢
    rw [hids] at hk
    rw [htags]
    exact h.tag.tag_lt k hk
  · intro k k' hk hk'
    dsimp only at hk hk' ⊢
    rw [hids] at hk hk'
    rw [htags, htags]
    exact h.tag.tag_inj k k' hk hk'
  · intro k hk
    dsimp only at hk ⊢
    rw [hids] at hk
    rw [htags]
    exact h.tag.sent_clear k hk

theorem Inv.copy (h : Inv cfg s) (hpc : s.adder.pc = .copy) : Inv cfg (adderStep cfg s) := by
  have hw : Writing s s.adder.pSendNode := ⟨.inl hpc, rfl⟩
  simp only [adderStep, hpc]
  refine h.fill hw (.inl rfl) rfl rfl (h.clock.slot_le _) ?_
  have hidle : s.adder.pc ≠ .idle := by simp [hpc]
  refine ⟨h.adder.last_lt, fun _ => h.adder.id_ne hidle, fun _ => h.adder.index hidle, ?_, ?_,
    fun _ => ?_, fun _ => ?_, ?_⟩
  · simp
  · rintro - k ⟨hp, -⟩
    simp at hp
  · dsimp only
    rw [setSlot_self]
    exact h.adder.reuse (.inl hpc)
  · simp
  · simp

theorem Inv.time (h : Inv cfg s) (hpc : s.adder.pc = .time) : Inv cfg (adderStep cfg s) := by
  have hidle : s.adder.pc ≠ .idle := by simp [hpc]
  have hw : Writing s s.adder.pSendNode := ⟨.inr (.inl hpc), rfl⟩
  have ht := h.clock.adder_le hidle
  simp only [adderStep, hpc]
  refine h.fill hw (.inr rfl) rfl rfl ht ?_
  refine ⟨h.adder.last_lt, fun _ => h.adder.id_ne hidle, fun _ => h.adder.index hidle, ?_, ?_,
    ?_, fun _ => ?_, fun _ => ⟨?_, ?_⟩⟩
  · simp
  · rintro - k ⟨hp, -⟩
    simp at hp
  · simp
  · simpa using h.adder.content (.inl hpc)
  · simp
  · intro hheld
    simp only [Holds, setSlot_self] at hheld
    rcases h.adder.reuse (.inr hpc) with h0 | ⟨hdead, htime⟩
    · exact hheld.1 h0
    · have hadd : s.added[(s.slots s.adder.pSendNode).tag]? = _ := hheld.2
      rw [deadline_eq h.clock] at hdead
      rw [hadd] at htime
      have heq : s.adder.dwTimeNow = (s.slots s.adder.pSendNode).dwWarnAddTime :=
        Option.some.inj htime
      omega

/-- The id makes the warning visible to the senders. -/
theorem Inv.name (h : Inv cfg s) (hpc : s.adder.pc = .name) : Inv cfg (adderStep cfg s) := by
  have hidle : s.adder.pc ≠ .idle := by simp [hpc]
  have hw : Writing s s.adder.pSendNode := ⟨.inr (.inr hpc), rfl⟩
  have hcontent := h.adder.content (.inr hpc)
  have htime := (h.adder.stale hpc).1
  simp only [adderStep, hpc]
  generalize hk₀ : s.adder.pSendNode = k₀ at *
  generalize hslot : ({ s.slots k₀ with
    dwWarnId := s.adder.dwWarnId, tag := s.added.length } : TWarnSendInfo ω) = slot
  have hid' : slot.dwWarnId = s.adder.dwWarnId := by rw [← hslot]
  have htag' : slot.tag = s.added.length := by rw [← hslot]
  have htime' : slot.dwWarnAddTime = s.adder.dwTimeNow := by rw [← hslot, ← htime]
  have hcontent' : slot.stWarn = s.adder.warn := by rw [← hslot, ← hcontent]
  have hc := h.clock.setSlot (k := k₀) (htime' ▸ h.clock.adder_le hidle)
  have hs := h.slot.setSlot slot fun p => h.slot.apart p _ hw
  have hnewtag : ∀ k, (s.slots k).dwWarnId ≠ 0 → (s.slots k).tag ≠ s.added.length :=
    fun k hk he => absurd (h.tag.tag_lt k hk) (by omega)
  refine ⟨⟨hc.now_lt, hc.slot_le, by simp, hc.sender_le⟩,
    ⟨hs.exist, hs.alone, ?_, hs.expire, hs.send, hs.clear⟩, ⟨?_, ?_, ?_, ?_, ?_⟩,
    ⟨nextIdx_lt _, ?_, ?_, ?_, ?_, ?_, ?_, ?_⟩, ?_⟩
  · rintro p k ⟨hwk, -⟩
    simp at hwk
  · intro k hk _
    unfold Holds at ⊢
    dsimp only at hk ⊢
    by_cases hkk : k = k₀
    · subst hkk
      rw [setSlot_self] at hk ⊢
      refine ⟨hk, ?_⟩
      rw [htag', hid', htime', hcontent', List.getElem?_append_right (Nat.le_refl _)]
      simp
    · rw [setSlot_of_ne s hkk] at hk ⊢
      obtain ⟨-, hadd⟩ := h.tag.held k hk fun hwk => hkk (hwk.2.symm.trans hk₀)
      refine ⟨hk, ?_⟩
      rw [List.getElem?_append_left (h.tag.tag_lt k hk)]
      exact hadd
  · intro k hk
    dsimp only at hk ⊢
    rw [List.length_append, List.length_singleton]
    by_cases hkk : k = k₀
    · subst hkk
      rw [setSlot_self, htag']
      exact Nat.lt_succ_self _
    · rw [setSlot_of_ne s hkk] at hk ⊢
      exact Nat.lt_succ_of_lt (h.tag.tag_lt k hk)
  · intro k k' hk hk' heq
    dsimp only at hk hk' heq
    by_cases hkk : k = k₀
    · by_cases hkk' : k' = k₀
      · rw [hkk, hkk']
      · rw [hkk, setSlot_self, htag', setSlot_of_ne s hkk'] at heq
        rw [setSlot_of_ne s hkk'] at hk'
        exact absurd heq.symm (hnewtag k' hk')
    · rw [setSlot_of_ne s hkk] at hk heq
      by_cases hkk' : k' = k₀
      · rw [hkk', setSlot_self, htag'] at heq
        exact absurd heq (hnewtag k hk)
      · rw [setSlot_of_ne s hkk'] at hk' heq
        exact h.tag.tag_inj k k' hk hk' heq
  · intro r hr
    rw [List.length_append, List.length_singleton]
    exact Nat.lt_succ_of_lt (h.tag.sent_lt r hr)
  · intro k hk hsent
    dsimp only at hk hsent
    by_cases hkk : k = k₀
    · rw [hkk, setSlot_self, htag'] at hsent
      obtain ⟨r, hr, hrt⟩ := List.mem_map.1 hsent
      exact absurd (h.tag.sent_lt r hr) (by omega)
    · rw [setSlot_of_ne s hkk] at hk hsent
      exact h.tag.sent_clear k hk hsent
  · simp
  · simp
  · simp
  · rintro - k ⟨hp, -⟩
    simp at hp
  · simp
  · simp
  · simp
  · refine ⟨fun r hr => ?_, h.sent.2⟩
    obtain ⟨hmod, t, hadd⟩ := h.sent.1 r hr
    refine ⟨hmod, t, ?_⟩
    rw [List.getElem?_append_left (h.tag.sent_lt r hr)]
    exact hadd

/-! ### Runs -/

theorem Inv.step [Inhabited ω] (h : Inv cfg s) (hskip : cfg.iSkipSendWarn = false) {a : Action ω}
    (hok : StepOk cfg s a) : Inv cfg (step cfg s a) := by
  cases a with
  | tick d =>
    obtain ⟨hc, hs, ht, ha, hsent⟩ := h
    refine ⟨⟨hok, ?_, ?_, ?_⟩, ⟨hs.exist, hs.alone, hs.apart, hs.expire, hs.send, hs.clear⟩,
      ⟨ht.held, ht.tag_lt, ht.tag_inj, ht.sent_lt, ht.sent_clear⟩,
      ⟨ha.last_lt, ha.id_ne, ha.index, ha.timeout, ha.passed, ha.reuse, ha.content, ha.stale⟩,
      hsent⟩
    · exact fun k => Nat.le_trans (hc.slot_le k) (Nat.le_add_right _ _)
    · exact fun hpc => Nat.le_trans (hc.adder_le hpc) (Nat.le_add_right _ _)
    · exact fun p hpc => Nat.le_trans (hc.sender_le p hpc) (Nat.le_add_right _ _)
  | add warn dwWarnId dwTimeNow => exact h.add warn dwWarnId dwTimeNow
  | adder =>
    cases hpc : s.adder.pc with
    | idle => simpa [WarnQueue.step, adderStep, hpc] using h
    | scan => simpa [WarnQueue.step, adderStep, hpc] using h.adderScan hok hpc
    | copy => exact h.copy hpc
    | time => exact h.time hpc
    | name => exact h.name hpc
  | scan p dwTimeNow =>
    simp only [WarnQueue.step]
    split
    · rename_i hpre
      obtain ⟨hp, hpc, ht⟩ := hpre
      exact h.setSender (by simp [hpc]) (fun _ => ht) (h.slot.leave hp (.inr rfl))
    · exact h
  | sender p =>
    cases hpc : (s.senders p).pc with
    | idle => simpa [WarnQueue.step, senderStep, hpc] using h
    | look => exact h.look hskip hok hpc
    | expire =>
      simp only [WarnQueue.step, senderStep, hpc]
      exact h.free (.inl hpc) hok rfl (h.clock.slot_le _)
    | send => exact h.send hpc
    | clear =>
      simp only [WarnQueue.step, senderStep, hpc]
      exact h.free (.inr hpc) hok rfl (Nat.zero_le _)

theorem Inv.kept_adder (h : Inv cfg s) : Kept cfg s (adderStep cfg s) := by
  intro k hheld _ hlive
  cases hpc : s.adder.pc with
  | idle => simp [adderStep, hpc]
  | scan =>
    simp only [adderStep, hpc, WarnQueue.adderScan]
    repeat' split
    all_goals rfl
  | copy | time =>
    have ht := h.clock.adder_le (by simp [hpc])
    have hne : k ≠ s.adder.pSendNode := by
      rintro rfl
      rcases h.adder.reuse (by simp [hpc]) with h0 | ⟨hdead, -⟩
      · exact hheld.1 h0
      · omega
    simp [adderStep, hpc, State.setSlot, Function.update_of_ne hne]
  | name =>
    have hne : k ≠ s.adder.pSendNode := by
      rintro rfl
      exact (h.adder.stale hpc).2 hheld
    simp [adderStep, hpc, State.setSlot, Function.update_of_ne hne]

theorem Inv.kept_sender [Inhabited ω] (h : Inv cfg s) (p : Nat) :
    Kept cfg s (senderStep cfg s p) := by
  intro k _ hunsent hlive
  cases hpc : (s.senders p).pc with
  | idle => simp [senderStep, hpc]
  | look =>
    simp only [senderStep, hpc]
    repeat' split
    all_goals rfl
  | expire =>
    have ht := h.clock.sender_le p (by simp [hpc])
    have hexp := h.slot.expire p hpc
    have hne : k ≠ (s.senders p).j := by
      rintro rfl
      omega
    simp [senderStep, hpc, State.setSender, State.setSlot, Function.update_of_ne hne]
  | send => simp [senderStep, hpc, State.setSender]
  | clear =>
    have hne : k ≠ (s.senders p).j := by
      rintro rfl
      exact hunsent (h.slot.clear p hpc)
    simp [senderStep, hpc, State.setSender, State.setSlot, Function.update_of_ne hne]

theorem Inv.kept [Inhabited ω] (h : Inv cfg s) (a : Action ω) : Kept cfg s (WarnQueue.step cfg s a) := by
  cases a with
  | tick d => exact fun _ _ _ _ => rfl
  | add warn dwWarnId dwTimeNow =>
    simp only [WarnQueue.step]
    split
    all_goals exact fun _ _ _ _ => rfl
  | adder => exact h.kept_adder
  | scan p dwTimeNow =>
    simp only [WarnQueue.step]
    split
    all_goals exact fun _ _ _ _ => rfl
  | sender p => exact h.kept_sender p

theorem Inv.refusedWhenFull (h : Inv cfg s) : RefusedWhenFull cfg s := by
  rintro ⟨hpc, hj, hnone⟩ k hk
  have hlast := h.adder.last_lt
  refine h.adder.passed hnone k ⟨hpc, (k + maxWarnSendNodeShm - s.s_iLastShmNodeIdx) %
    maxWarnSendNodeShm, ?_, ?_⟩
  · rw [hj]
    exact Nat.mod_lt _ (by decide)
  · rw [Nat.add_mod_mod, show s.s_iLastShmNodeIdx + (k + maxWarnSendNodeShm - s.s_iLastShmNodeIdx)
      = k + maxWarnSendNodeShm by omega, Nat.add_mod_right]
    exact Nat.mod_eq_of_lt hk

theorem Inv.run [Inhabited ω] (h : Inv cfg s) (hskip : cfg.iSkipSendWarn = false)
    {as : List (Action ω)} (hok : RunOk cfg s as) (n : Nat) :
    Inv cfg (WarnQueue.run cfg s (as.take n)) := by
  induction as generalizing s n with
  | nil => simpa [WarnQueue.run] using h
  | cons a as ih =>
    cases n with
    | zero => exact h
    | succ n => exact ih (h.step hskip hok.1) hok.2 n

/-- In every state of a run that respects the condition, what was sent was sent
once, by the right process and with its content; every step keeps the live
warnings; and a warning is given up only when the array is full of them. -/
theorem warning_hand_over [Inhabited ω] (cfg : Config) (hskip : cfg.iSkipSendWarn = false)
    (t₀ : Nat) (h₀ : t₀ + cfg.iValidSendWarnTimeSec < 2 ^ 32) (as : List (Action ω))
    (hok : RunOk cfg (initState t₀) as) (n : Nat) :
    SentOk cfg (run cfg (initState t₀) (as.take n)) ∧
      RefusedWhenFull cfg (run cfg (initState t₀) (as.take n)) ∧
      ∀ a, Kept cfg (run cfg (initState t₀) (as.take n))
        (step cfg (run cfg (initState t₀) (as.take n)) a) := by
  have h := (inv_init h₀ : Inv cfg (initState t₀ : State ω)).run hskip hok n
  exact ⟨h.sent, h.refusedWhenFull, h.kept⟩

/-- Two senders; a warning is valid for 300 seconds. -/
def twoSenders : Config := ⟨2, 300, false⟩

/-- Warning 5 is added, found by process 1, sent and cleared. -/
theorem warning_hand_over_sent :
    SentOk twoSenders (run twoSenders (initState 1000 : State Nat)
      ([.add 7 5 1000, .adder, .adder, .adder, .adder, .scan 1 1000, .sender 1, .sender 1,
        .sender 1].take 9)) := by
  exact (warning_hand_over twoSenders rfl 1000 (by decide)
    [.add 7 5 1000, .adder, .adder, .adder, .adder, .scan 1 1000, .sender 1, .sender 1, .sender 1]
    (by decide +kernel) 9).1

/-! ### An expired slot is reused -/

/-- The adder puts warnings `1` to `k` into the array, at time 1000. -/
def fillActions (k : Nat) : List (Action Nat) :=
  (List.range k).flatMap fun i => [.add i (i + 1) 1000, .adder, .adder, .adder, .adder]

/-- The first `k` slots are filled, and nothing was sent. -/
structure Filled (k : Nat) (s : State Nat) : Prop where
  now_eq : s.now = 1000
  slots_eq : s.slots = fun i => if i < k then ⟨i + 1, 1000, i, i⟩ else emptySlot
  last_eq : s.s_iLastShmNodeIdx = k % maxWarnSendNodeShm
  adder_eq : s.adder.pc = .idle
  senders_eq : s.senders = fun _ => ⟨.idle, 0, 0⟩
  added_eq : s.added = (List.range k).map fun i => ⟨i + 1, 1000, i⟩
  sent_eq : s.sent = []

theorem filled_init : Filled 0 (initState 1000) := by
  refine ⟨rfl, ?_, rfl, rfl, rfl, rfl, rfl⟩
  simp [initState]

theorem Filled.succ {s : State Nat} (h : Filled k s) (hk : k < maxWarnSendNodeShm) :
    Filled (k + 1) (run twoSenders s [.add k (k + 1) 1000, .adder, .adder, .adder, .adder]) := by
  obtain ⟨hnow, hslots, hlast, hadder, hsenders, hadded, hsent⟩ := h
  have hmod : k % maxWarnSendNodeShm = k := Nat.mod_eq_of_lt hk
  have hpos : 0 < maxWarnSendNodeShm := by decide
  have hempty : s.slots k = emptySlot := by simp [hslots]
  have hstart : step twoSenders s (.add k (k + 1) 1000)
      = { s with adder := ⟨.scan, k, k + 1, 1000, k, 0, none, 0⟩ } := by
    simp [step, hadder, hnow, hlast, hmod]
  simp only [run, List.foldl_cons, List.foldl_nil, hstart]
  simp only [step, adderStep, adderScan, hpos, hempty, emptySlot, State.setSlot, if_true,
    Function.update_self, Function.update_idem]
  refine ⟨hnow, ?_, nextIdx_eq hk, rfl, hsenders, ?_, hsent⟩
  · ext i
    by_cases hi : i = k
    · subst hi
      simp [hadded]
    · have hlt : i < k + 1 ↔ i < k := by omega
      simp only [Function.update_of_ne hi, hslots, hlt]
  · simp [hadded, List.range_succ]

theorem run_append [Inhabited ω] (cfg : Config) (s : State ω) (as bs : List (Action ω)) :
    run cfg s (as ++ bs) = run cfg (run cfg s as) bs := by
  simp [run]

theorem filled_run (hk : k ≤ maxWarnSendNodeShm) :
    Filled k (run twoSenders (initState 1000) (fillActions k)) := by
  induction k with
  | zero => exact filled_init
  | succ k ih =>
    have hstep := (ih (Nat.le_of_succ_le hk)).succ hk
    rw [← run_append] at hstep
    simpa [fillActions, List.range_succ] using hstep

theorem step_expired {s : State Nat} {m : Nat} {first : Option Nat} (hm : m < maxWarnSendNodeShm)
    (hslot : s.slots m = ⟨m + 1, 1000, m, m⟩)
    (hadder : s.adder = ⟨.scan, 77, 10001, 1301, m, m, first, 0⟩) :
    step twoSenders s .adder =
      { s with
        adder := ⟨.scan, 77, 10001, 1301, (m + 1) % maxWarnSendNodeShm, m + 1, some (first.getD m), 0⟩ } := by
  have hdead : deadline twoSenders (s.slots m) < 1301 := by
    simp [hslot, deadline, twoSenders]
  cases first with
  | none => simp [step, adderStep, adderScan, hadder, hm, hslot, nextIdx_eq hm, hslot ▸ hdead]
  | some n => simp [step, adderStep, adderScan, hadder, hm, hslot, nextIdx_eq hm]

theorem search_expired {s : State Nat}
    (hslots : ∀ i < maxWarnSendNodeShm, s.slots i = ⟨i + 1, 1000, i, i⟩)
    (hadder : s.adder = ⟨.scan, 77, 10001, 1301, 0, 0, none, 0⟩) {m : Nat}
    (hm : m < maxWarnSendNodeShm) :
    run twoSenders s (List.replicate (m + 1) .adder) =
      { s with
        adder := ⟨.scan, 77, 10001, 1301, (m + 1) % maxWarnSendNodeShm, m + 1, some 0, 0⟩ } := by
  induction m with
  | zero => exact step_expired hm (hslots 0 hm) hadder
  | succ m ih =>
    have hmod : (m + 1) % maxWarnSendNodeShm = m + 1 := Nat.mod_eq_of_lt hm
    rw [List.replicate_succ', run_append, ih (Nat.lt_of_succ_lt hm), hmod]
    exact step_expired
      (s := { s with adder := ⟨.scan, 77, 10001, 1301, m + 1, m + 1, some 0, 0⟩ }) hm
      (hslots (m + 1) hm) rfl

theorem search_full {s : State Nat}
    (hslots : ∀ i < maxWarnSendNodeShm, s.slots i = ⟨i + 1, 1000, i, i⟩)
    (hadder : s.adder = ⟨.scan, 77, 10001, 1301, 0, 0, none, 0⟩) :
    run twoSenders s (List.replicate maxWarnSendNodeShm .adder) =
      { s with adder := ⟨.scan, 77, 10001, 1301, 0, maxWarnSendNodeShm, some 0, 0⟩ } := by
  have hsucc : maxWarnSendNodeShm - 1 + 1 = maxWarnSendNodeShm := Nat.sub_add_cancel (by decide)
  have h := search_expired (m := maxWarnSendNodeShm - 1) hslots hadder (by decide)
  rw [hsucc, Nat.mod_self] at h
  exact h

theorem reused_sent {s : State Nat} (hnow : s.now = 1301)
    (hadder : s.adder = ⟨.scan, 77, 10001, 1301, 0, maxWarnSendNodeShm, some 0, 0⟩)
    (hslot : s.slots 0 = ⟨1, 1000, 0, 0⟩) (hsender : s.senders 1 = ⟨.idle, 0, 0⟩)
    (hsent : s.sent = []) :
    (run twoSenders s [.adder, .adder, .adder, .scan 1 1301, .sender 1, .sender 1]).sent
        = [⟨1, 1, 77, 0⟩] ∧
      (run twoSenders s [.adder, .adder, .adder, .scan 1 1301, .sender 1, .sender 1]).added
        = s.added := by
  have hpos : 0 < maxWarnSendNodeShm := by decide
  have hlive : ¬deadline twoSenders (⟨1, 1301, 77, 0⟩ : TWarnSendInfo Nat) ≤ 1301 := by decide
  have hwrite : run twoSenders s [.adder, .adder, .adder] =
      { s.setSlot 0 ⟨1, 1301, 77, 0⟩ with
        adder := ⟨.name, 77, 10001, 1301, 0, maxWarnSendNodeShm, some 0, 0⟩ } := by
    simp [run, step, adderStep, adderScan, hadder, hslot, State.setSlot]
  rw [show [Action.adder, .adder, .adder, .scan 1 1301, .sender 1, .sender 1] =
    [Action.adder, .adder, .adder] ++ [.scan 1 1301, .sender 1, .sender 1] from rfl, run_append,
    hwrite]
  have hcount : twoSenders.iProcessCount = 2 := rfl
  have hskip : twoSenders.iSkipSendWarn = false := rfl
  simp [run, step, hnow, senderStep, senderLook, hsender, hpos, hlive, hsent, State.setSender,
    State.setSlot, hcount, hskip]

/-- The array has expired; the adder reuses slot 0 for warning 10001, and before
it writes the id, process 1 scans. -/
def reuseActions : List (Action Nat) :=
  [.tick 301, .add 77 10001 1301] ++ (List.replicate maxWarnSendNodeShm .adder ++
    [.adder, .adder, .adder, .scan 1 1301, .sender 1, .sender 1])

theorem Filled.wrong_content {f : State Nat} (h : Filled maxWarnSendNodeShm f) :
    ¬SentOk twoSenders (run twoSenders f reuseActions) := by
  obtain ⟨hnow, hslots, hlast, hadder, hsenders, hadded, hsent⟩ := h
  rw [Nat.mod_self] at hlast
  have hstart : run twoSenders f [.tick 301, .add 77 10001 1301] =
      { f with now := 1301, adder := ⟨.scan, 77, 10001, 1301, 0, 0, none, 0⟩ } := by
    simp [run, step, hnow, hadder, hlast]
  have hold : ∀ i < maxWarnSendNodeShm, f.slots i = ⟨i + 1, 1000, i, i⟩ := by
    intro i hi
    simp [hslots, hi]
  rw [reuseActions, run_append, run_append, hstart, search_full (s := { f with
    now := 1301, adder := ⟨.scan, 77, 10001, 1301, 0, 0, none, 0⟩ }) hold rfl]
  obtain ⟨hend, hadd⟩ := reused_sent
    (s := { f with
      now := 1301, adder := ⟨.scan, 77, 10001, 1301, 0, maxWarnSendNodeShm, some 0, 0⟩ })
    rfl rfl (hold 0 (by decide)) (by rw [hsenders]) hsent
  rintro ⟨hsentOk, -⟩
  obtain ⟨-, t, hat⟩ := hsentOk ⟨1, 1, 77, 0⟩ (by rw [hend]; exact List.mem_singleton.2 rfl)
  have hadd₀ : f.added[0]? = some ⟨1, 1000, 0⟩ := by
    have hrange : (List.range maxWarnSendNodeShm)[0]? = some 0 := List.getElem?_range (by decide)
    rw [hadded, List.getElem?_map, hrange]
    rfl
  rw [hadd, hadd₀] at hat
  simp at hat

/-- A full array expires: warning 1 is sent with the content of warning 10001. -/
theorem wrong_content_sent :
    ¬SentOk twoSenders (run twoSenders (initState 1000 : State Nat)
      (fillActions maxWarnSendNodeShm ++ reuseActions)) := by
  rw [run_append]
  exact (filled_run (Nat.le_refl maxWarnSendNodeShm)).wrong_content

end XrkMonitor.WarnQueue
