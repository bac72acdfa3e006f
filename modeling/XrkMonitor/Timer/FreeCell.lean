import XrkMonitor.Timer.Wheel

/-!
# The cells that a search for a key gets

A search clears the keys of abandoned nodes on its way, so it compares with
`liveKey`, which the clearing does not change. `AddTimer` takes a key that no
row holds, if a row has an empty cell for it. The key zero is that of the empty
cells, and never taken. `GetTimer` takes the first cell that it finds out of the
wheels, whether it is linked or not.
-/

namespace XrkMonitor.Timer

open Library

/-- The key that a comparison with a node sees. -/
def liveKey (t : MtReportTimer) (cell : Nat) : Nat :=
  if Abandoned t cell then 0 else (t.stHash cell).uiKey

/-- No row holds the key, and a row has an empty cell for it. -/
def Takes (t : MtReportTimer) (uiKey : Nat) : Prop :=
  (∀ row ∈ List.range STATIC_HASH_ROW_MAX, liveKey t (hashCell row uiKey) ≠ uiKey) ∧
    ∃ row ∈ List.range STATIC_HASH_ROW_MAX, liveKey t (hashCell row uiKey) = 0

section Search

variable {t : MtReportTimer} {cell : Nat}

theorem liveKey_setNode (h : Abandoned t cell) (c : Nat) :
    liveKey (setNode t cell { t.stHash cell with uiKey := 0 }) c = liveKey t c := by
  by_cases hc : c = cell
  · subst hc
    have hnode : (setNode t c { t.stHash c with uiKey := 0 }).stHash c =
        { t.stHash c with uiKey := 0 } := Function.update_self _ _ _
    have habandoned : Abandoned (setNode t c { t.stHash c with uiKey := 0 }) c := by
      unfold Abandoned
      rw [hnode]
      exact h
    rw [liveKey, liveKey, if_pos habandoned, if_pos h]
  · have hnode : (setNode t cell { t.stHash cell with uiKey := 0 }).stHash c = t.stHash c :=
      Function.update_of_ne hc _ _
    have habandoned : Abandoned (setNode t cell { t.stHash cell with uiKey := 0 }) c ↔
        Abandoned t c := by
      unfold Abandoned
      rw [hnode]
      exact Iff.rfl
    simp only [liveKey, habandoned, hnode]

theorem timerHashCmpFun_live (t : MtReportTimer) (uiKey cell : Nat) :
    (timerHashCmpFun t uiKey cell).1 = (uiKey == liveKey t cell) ∧
      ∀ c, liveKey (timerHashCmpFun t uiKey cell).2 c = liveKey t c := by
  unfold timerHashCmpFun
  by_cases h : Abandoned t cell
  · have hnode : (setNode t cell { t.stHash cell with uiKey := 0 }).stHash cell =
        { t.stHash cell with uiKey := 0 } := Function.update_self _ _ _
    have hkey : liveKey t cell = 0 := if_pos h
    simp only [if_pos h, hnode, hkey]
    exact ⟨trivial, liveKey_setNode h⟩
  · have hkey : liveKey t cell = (t.stHash cell).uiKey := if_neg h
    simp only [if_neg h, hkey]
    exact ⟨trivial, fun _ => trivial⟩

/-- Whether a search finds the key, and whether it knows an empty cell in the end. -/
theorem searchEx_live (uiKey : Nat) (rows : List Nat) (pEmptyNode : Option Nat)
    (t : MtReportTimer) :
    ((hashTableSearchExNoList uiKey rows pEmptyNode t).1 = true ↔
      ∃ row ∈ rows, liveKey t (hashCell row uiKey) = uiKey) ∧
    ((hashTableSearchExNoList uiKey rows pEmptyNode t).1 = false →
      ((hashTableSearchExNoList uiKey rows pEmptyNode t).2.1.isSome = true ↔
        pEmptyNode.isSome = true ∨ ∃ row ∈ rows, liveKey t (hashCell row uiKey) = 0)) := by
  induction rows generalizing pEmptyNode t with
  | nil => simp [hashTableSearchExNoList]
  | cons row rows ih =>
    obtain ⟨heq, hsame⟩ := timerHashCmpFun_live t uiKey (hashCell row uiKey)
    rw [hashTableSearchExNoList]
    generalize timerHashCmpFun t uiKey (hashCell row uiKey) = x at heq hsame
    obtain ⟨isEqual, t₁⟩ := x
    obtain rfl : isEqual = (uiKey == liveKey t (hashCell row uiKey)) := heq
    dsimp only at hsame ⊢
    by_cases hfound : liveKey t (hashCell row uiKey) = uiKey
    · rw [if_pos (by rw [hfound]; exact beq_self_eq_true _)]
      simp [hfound]
    · have hne : ¬ (uiKey == liveKey t (hashCell row uiKey)) = true := by
        rw [beq_iff_eq]
        exact fun h => hfound h.symm
      rw [if_neg hne]
      cases pEmptyNode with
      | some c =>
        rw [if_neg (by simp)]
        have hrest := ih (some c) t₁
        simp only [hsame] at hrest
        simpa [hfound] using hrest
      | none =>
        simp only [Option.isNone_none, if_true]
        obtain ⟨heq₂, hsame₂⟩ := timerHashCmpFun_live t₁ 0 (hashCell row uiKey)
        generalize timerHashCmpFun t₁ 0 (hashCell row uiKey) = y at heq₂ hsame₂
        obtain ⟨isEmpty, t₂⟩ := y
        obtain rfl : isEmpty = (0 == liveKey t₁ (hashCell row uiKey)) := heq₂
        dsimp only at hsame₂ ⊢
        rw [hsame]
        by_cases hempty : liveKey t (hashCell row uiKey) = 0
        · have hrest := ih (some (hashCell row uiKey)) t₂
          simp only [hsame₂, hsame] at hrest
          rw [if_pos (by rw [hempty]; exact beq_self_eq_true _)]
          have hkey : ¬ 0 = uiKey := fun h => hfound (hempty.trans h)
          simpa [hempty, hkey] using hrest
        · have hrest := ih none t₂
          simp only [hsame₂, hsame] at hrest
          have hzero : ¬ (0 == liveKey t (hashCell row uiKey)) = true := by
            rw [beq_iff_eq]
            exact fun h => hempty h.symm
          rw [if_neg hzero]
          simpa [hempty, hfound] using hrest

theorem searchEx_empty_iff (t : MtReportTimer) (uiKey : Nat) :
    ((hashTableSearchExNoList uiKey (List.range STATIC_HASH_ROW_MAX) none t).1 = false ∧
      (hashTableSearchExNoList uiKey (List.range STATIC_HASH_ROW_MAX) none t).2.1.isSome = true) ↔
      Takes t uiKey := by
  obtain ⟨hfound, hempty⟩ := searchEx_live uiKey (List.range STATIC_HASH_ROW_MAX) none t
  constructor
  · rintro ⟨hnot, hsome⟩
    refine ⟨fun row hrow hkey => ?_, ?_⟩
    · rw [hfound.mpr ⟨row, hrow, hkey⟩] at hnot
      exact Bool.noConfusion hnot
    · rcases (hempty hnot).mp hsome with h | h
      · exact absurd h Bool.false_ne_true
      · exact h
  · rintro ⟨hnone, hrow⟩
    have hnot :
        (hashTableSearchExNoList uiKey (List.range STATIC_HASH_ROW_MAX) none t).1 = false := by
      rw [Bool.eq_false_iff]
      intro h
      obtain ⟨row, hmem, hkey⟩ := hfound.mp h
      exact hnone row hmem hkey
    exact ⟨hnot, (hempty hnot).mpr (Or.inr hrow)⟩

end Search

/-- A timer is armed with the key and the data of the call. -/
structure ArmedWith (call : TimerCall) (result : Int × Option Nat × MtReportTimer) : Prop where
  ok : result.1 = 0
  node : ∃ cell, result.2.1 = some cell ∧ (result.2.2.stHash cell).uiKey = call.uiKey ∧
    (result.2.2.stHash cell).pDataPtr = copyData call.sData

section Arm

variable {t : MtReportTimer} {call : TimerCall} {now : Nat} {isMalloc : Bool}

/-- `AddTimer` arms a timer exactly if the session data fit, the key is taken up, and the data can
be copied. -/
theorem addTimer_armed_iff :
    ArmedWith call (addTimer t call now isMalloc) ↔
      call.pSessShmData.length ≤ TIMER_NODE_SESS_DATA_LEN ∧ Takes t call.uiKey ∧
        (0 < call.sData.length → isMalloc = true) := by
  rw [← searchEx_empty_iff]
  unfold addTimer
  by_cases hsess : TIMER_NODE_SESS_DATA_LEN < call.pSessShmData.length
  · rw [if_pos hsess]
    exact iff_of_false (fun h => absurd h.ok (by simp)) fun h => Nat.not_le.mpr hsess h.1
  · rw [if_neg hsess]
    generalize hashTableSearchExNoList call.uiKey (List.range STATIC_HASH_ROW_MAX) none t = found
    obtain ⟨dwIsFind, pEmptyNode, t₁⟩ := found
    have hle := Nat.not_lt.mp hsess
    cases dwIsFind with
    | true => exact iff_of_false (fun h => absurd h.ok (by simp)) fun h => by simpa using h.2.1.1
    | false =>
      cases pEmptyNode with
      | none =>
        exact iff_of_false (fun h => absurd h.ok (by simp)) fun h => by simpa using h.2.1.2
      | some cell =>
        dsimp only
        by_cases hfail : 0 < call.sData.length ∧ ¬ isMalloc = true
        · rw [if_pos hfail]
          exact iff_of_false (fun h => absurd h.ok (by simp)) fun h => hfail.2 (h.2.2 hfail.1)
        · rw [if_neg hfail]
          refine iff_of_true ⟨rfl, cell, rfl, ?_, ?_⟩ ⟨hle, ⟨rfl, rfl⟩, fun hdata => ?_⟩
          · simp [countTimer, internalAddTimer, setNode, TimerCall.node]
          · simp [countTimer, internalAddTimer, setNode, TimerCall.node]
          · by_contra hno
            exact hfail ⟨hdata, hno⟩

end Arm

/-- A node stands in a slot of the wheels: the links of a slot head lead to it. -/
def InWheel (t : MtReportTimer) (cell : Nat) : Prop :=
  ∃ level pos n, t.list.next^[n] (.head level pos) = .node cell

/-- The cells that a search for a key compares, in their order. -/
def cellsFor (uiKey : Nat) : List Nat := (List.range STATIC_HASH_ROW_MAX).map (hashCell · uiKey)

/-- The first of these cells whose live key is the key. -/
def firstCell (t : MtReportTimer) (uiKey : Nat) : Option Nat :=
  (cellsFor uiKey).find? fun cell => uiKey == liveKey t cell

/-- The data of the node are still there, or it never had any. -/
def HoldsData (node : TimerNode) : Prop := node.pDataPtr = none → node.uiDataLen = 0

/-- A look-up succeeds only for the key of a node in the wheels, and a failed one writes nothing. -/
structure LooksUp (t : MtReportTimer) (uiKey : Nat) (result : TimerReply × MtReportTimer) :
    Prop where
  found : result.1.iRet = 0 →
    ∃ cell, result.1.pNode = some cell ∧ InWheel t cell ∧ (t.stHash cell).uiKey = uiKey
  failed : result.1.iRet < 0 →
    result.2.list = t.list ∧ result.2.uiCount = t.uiCount ∧ result.2.stHash = t.stHash

section Lookup

variable {t : MtReportTimer} {uiKey : Nat} {t' : MtReportTimer} {cells : List Nat}

/-- Nothing is written but that keys of abandoned nodes among `cells` are cleared. -/
structure Cleared (cells : List Nat) (t t' : MtReportTimer) : Prop where
  list : t'.list = t.list
  count : t'.uiCount = t.uiCount
  live : ∀ c, liveKey t' c = liveKey t c
  abandoned : ∀ c, Abandoned t' c ↔ Abandoned t c
  node : ∀ c, t'.stHash c = t.stHash c ∨
    c ∈ cells ∧ Abandoned t c ∧ t'.stHash c = { t.stHash c with uiKey := 0 }

theorem Cleared.refl (cells : List Nat) (t : MtReportTimer) : Cleared cells t t :=
  ⟨rfl, rfl, fun _ => rfl, fun _ => Iff.rfl, fun _ => Or.inl rfl⟩

theorem Cleared.trans {cell : Nat} {t₁ t₂ t₃ : MtReportTimer}
    (h : Cleared [cell] t₁ t₂) (h' : Cleared cells t₂ t₃) : Cleared (cell :: cells) t₁ t₃ where
  list := h'.list.trans h.list
  count := h'.count.trans h.count
  live c := (h'.live c).trans (h.live c)
  abandoned c := (h'.abandoned c).trans (h.abandoned c)
  node c := by
    rcases h'.node c with hsame | ⟨hmem, habandoned, hclear⟩
    · rw [hsame]
      rcases h.node c with hsame | ⟨hmem, hrest⟩
      · exact Or.inl hsame
      · exact Or.inr ⟨List.mem_cons.mpr (Or.inl (List.mem_singleton.mp hmem)), hrest⟩
    · refine Or.inr ⟨List.mem_cons_of_mem _ hmem, (h.abandoned c).mp habandoned, ?_⟩
      rcases h.node c with hsame | ⟨-, -, hfirst⟩
      · rw [hclear, hsame]
      · rw [hclear, hfirst]

theorem Cleared.mono {cells cells' : List Nat} (h : Cleared cells t t')
    (hsub : cells ⊆ cells') : Cleared cells' t t' where
  list := h.list
  count := h.count
  live := h.live
  abandoned := h.abandoned
  node c := (h.node c).imp_right fun ⟨hmem, hrest⟩ => ⟨hsub hmem, hrest⟩

theorem timerHashCmpFun_cleared (t : MtReportTimer) (uiKey cell : Nat) :
    Cleared [cell] t (timerHashCmpFun t uiKey cell).2 ∧
      (Abandoned t cell → ((timerHashCmpFun t uiKey cell).2.stHash cell).uiKey = 0) := by
  have hlive := (timerHashCmpFun_live t uiKey cell).2
  unfold timerHashCmpFun at hlive ⊢
  by_cases h : Abandoned t cell
  · simp only [if_pos h] at hlive ⊢
    have hself : (setNode t cell { t.stHash cell with uiKey := 0 }).stHash cell =
        { t.stHash cell with uiKey := 0 } := Function.update_self _ _ _
    have hother : ∀ c, c ≠ cell →
        (setNode t cell { t.stHash cell with uiKey := 0 }).stHash c = t.stHash c :=
      fun c hc => Function.update_of_ne hc _ _
    refine ⟨⟨rfl, rfl, hlive, ?_, ?_⟩, fun _ => by rw [hself]⟩
    · intro c
      unfold Abandoned
      by_cases hc : c = cell
      · rw [hc, hself]
        exact Iff.rfl
      · rw [hother c hc]
        exact Iff.rfl
    · intro c
      by_cases hc : c = cell
      · rw [hc]
        exact Or.inr ⟨List.mem_singleton_self cell, h, hself⟩
      · exact Or.inl (hother c hc)
  · simp only [if_neg h]
    exact ⟨Cleared.refl _ t, fun habandoned => absurd habandoned h⟩

theorem Cleared.zero (h : Cleared cells t t') {c : Nat}
    (hzero : (t.stHash c).uiKey = 0) : (t'.stHash c).uiKey = 0 := by
  rcases h.node c with hsame | ⟨-, -, hclear⟩
  · rw [hsame]
    exact hzero
  · rw [hclear]

theorem search_first (uiKey : Nat) (rows : List Nat) (t : MtReportTimer) :
    (hashTableSearchNoList uiKey rows t).1 =
      (rows.map (hashCell · uiKey)).find? (fun cell => uiKey == liveKey t cell) ∧
    Cleared (rows.map (hashCell · uiKey)) t (hashTableSearchNoList uiKey rows t).2 ∧
    ((hashTableSearchNoList uiKey rows t).1 = none → ∀ cell ∈ rows.map (hashCell · uiKey),
      Abandoned t cell → ((hashTableSearchNoList uiKey rows t).2.stHash cell).uiKey = 0) := by
  induction rows generalizing t with
  | nil => exact ⟨rfl, Cleared.refl _ t, fun _ cell hcell => absurd hcell (by simp)⟩
  | cons row rows ih =>
    obtain ⟨heq, -⟩ := timerHashCmpFun_live t uiKey (hashCell row uiKey)
    obtain ⟨hcleared, hzero⟩ := timerHashCmpFun_cleared t uiKey (hashCell row uiKey)
    rw [hashTableSearchNoList, List.map_cons, List.find?_cons]
    generalize timerHashCmpFun t uiKey (hashCell row uiKey) = x at heq hcleared hzero
    obtain ⟨isEqual, t₁⟩ := x
    dsimp only at heq hcleared hzero ⊢
    rw [← heq]
    cases isEqual with
    | true => exact ⟨rfl, hcleared.mono (by simp), fun hnone => absurd hnone (by simp)⟩
    | false =>
      obtain ⟨hfirst, hrest, hclear⟩ := ih t₁
      simp only [hcleared.live] at hfirst
      refine ⟨hfirst, hcleared.trans hrest, fun hnone cell hcell habandoned => ?_⟩
      rcases List.mem_cons.mp hcell with rfl | hcell
      · exact hrest.zero (hzero habandoned)
      · exact hclear hnone cell hcell ((hcleared.abandoned cell).mpr habandoned)

theorem search_none_iff (hnone : firstCell t uiKey = none) :
    (hashTableSearchNoList uiKey (List.range STATIC_HASH_ROW_MAX) t).2.stHash = t.stHash ↔
      ∀ cell ∈ cellsFor uiKey, Abandoned t cell → (t.stHash cell).uiKey = 0 := by
  obtain ⟨hfirst, hcleared, hzero⟩ := search_first uiKey (List.range STATIC_HASH_ROW_MAX) t
  have hclear := hzero (hfirst.trans hnone)
  constructor
  · intro hsame cell hcell habandoned
    rw [← hsame]
    exact hclear cell hcell habandoned
  · intro hunused
    funext c
    rcases hcleared.node c with hsame | ⟨hcell, habandoned, hclear⟩
    · exact hsame
    · rw [hclear, ← hunused c hcell habandoned]

theorem wordDec_ne (n : Nat) : wordDec 32 n ≠ n := by
  unfold wordDec
  omega

theorem takeData_length_iff (node : TimerNode) :
    (takeData node).1 = node.uiDataLen ↔ HoldsData node := by
  unfold takeData HoldsData
  cases node.pDataPtr with
  | none => exact ⟨fun h _ => h.symm, fun h => (h rfl).symm⟩
  | some sData => exact ⟨fun _ hnone => absurd hnone (by simp), fun _ => rfl⟩

theorem Cleared.holdsData (h : Cleared cells t t')
    (c : Nat) : HoldsData (t'.stHash c) ↔ HoldsData (t.stHash c) := by
  unfold HoldsData
  rcases h.node c with hsame | ⟨-, -, hclear⟩
  · rw [hsame]
  · rw [hclear]

theorem getTimer_eq (t : MtReportTimer) (uiKey : Nat) :
    match firstCell t uiKey with
    | none => (getTimer t uiKey).1.iRet = -2 ∧
        (getTimer t uiKey).2 = (hashTableSearchNoList uiKey (List.range STATIC_HASH_ROW_MAX) t).2
    | some cell => (getTimer t uiKey).1.pNode = some cell ∧
        (HoldsData (t.stHash cell) → (getTimer t uiKey).1.iRet = 0) ∧
        (¬ HoldsData (t.stHash cell) → (getTimer t uiKey).1.iRet = -4) ∧
        (getTimer t uiKey).2.uiCount = wordDec 32 t.uiCount := by
  obtain ⟨hfirst, hcleared, -⟩ := search_first uiKey (List.range STATIC_HASH_ROW_MAX) t
  have hfirst : _ = firstCell t uiKey := hfirst
  unfold getTimer
  rw [← hfirst]
  generalize hashTableSearchNoList uiKey (List.range STATIC_HASH_ROW_MAX) t = found at hcleared
  obtain ⟨pstNode, t₁⟩ := found
  cases pstNode with
  | none => exact ⟨rfl, rfl⟩
  | some cell =>
    have hlength : (takeData (t₁.stHash cell)).1 = (t₁.stHash cell).uiDataLen ↔
        HoldsData (t.stHash cell) :=
      (takeData_length_iff _).trans (hcleared.holdsData cell)
    exact ⟨rfl, fun hdata => if_neg (not_not.mpr (hlength.mpr hdata)),
      fun hlost => if_pos (mt hlength.mp hlost), congrArg (wordDec 32) hcleared.count⟩

/-- The look-up is right exactly if no abandoned node in use is compared in vain, or the first cell
with the key is that of a node in the wheels which still holds its data. -/
theorem getTimer_looksUp_iff (t : MtReportTimer) (uiKey : Nat) :
    LooksUp t uiKey (getTimer t uiKey) ↔
      match firstCell t uiKey with
      | none => ∀ cell ∈ cellsFor uiKey, Abandoned t cell → (t.stHash cell).uiKey = 0
      | some cell => HoldsData (t.stHash cell) ∧ InWheel t cell ∧ (t.stHash cell).uiKey = uiKey := by
  have hget := getTimer_eq t uiKey
  have hnone : firstCell t uiKey = none → _ := search_none_iff
  have hcleared := (search_first uiKey (List.range STATIC_HASH_ROW_MAX) t).2.1
  cases hfirst : firstCell t uiKey with
  | none =>
    rw [hfirst] at hget
    obtain ⟨hret, hstate⟩ := hget
    rw [← hnone hfirst]
    constructor
    · intro h
      rw [← hstate]
      exact (h.failed (by rw [hret]; decide)).2.2
    · intro hsame
      refine ⟨fun hzero => absurd (hret.symm.trans hzero) (by decide), fun _ => ?_⟩
      rw [hstate]
      exact ⟨hcleared.list, hcleared.count, hsame⟩
  | some cell =>
    rw [hfirst] at hget
    obtain ⟨hnode, hret, hlost, hcount⟩ := hget
    constructor
    · intro h
      have hdata : HoldsData (t.stHash cell) := by
        by_contra hno
        have hfailed := h.failed (by rw [hlost hno]; decide)
        exact wordDec_ne t.uiCount (hcount.symm.trans hfailed.2.1)
      obtain ⟨c, hc, hwheel, hkey⟩ := h.found (hret hdata)
      obtain rfl : cell = c := Option.some.inj (hnode.symm.trans hc)
      exact ⟨hdata, hwheel, hkey⟩
    · rintro ⟨hdata, hwheel, hkey⟩
      refine ⟨fun _ => ⟨cell, hnode, hwheel, hkey⟩, fun hneg => ?_⟩
      rw [hret hdata] at hneg
      exact absurd hneg (by decide)

end Lookup

/-- A timer with a byte of data has been taken out once, and its node has not been given back. -/
def takenOnce : MtReportTimer :=
  (getTimer (addTimer (initTimer 0 7) ⟨5, 1000, none, [], [1]⟩ 0 true).2.2 5).2

/-- The second look-up fails, and counts the timer out again. -/
theorem getTimer_not_looksUp : ¬ LooksUp takenOnce 5 (getTimer takenOnce 5) := by
  intro h
  have hcount := (h.failed (by decide +kernel)).2.1
  revert hcount
  decide +kernel

end XrkMonitor.Timer
