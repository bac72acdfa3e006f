import XrkMonitor.Config.Apps

/-!
# Reading the whole table of applications

A call of `ReadTableAppInfo` without a row id handles every row and then sweeps
the slots for applications that had no row in use. The sweep counts the slots in
use that it has passed and stops when it has passed as many as the table still
counts, but each application it removes lowers that count. `reload_exact_iff`
says when the sweep gets far enough.

## Implementation notes

`placeRows` describes the effect of the rows on the ids of the slots, without the
look-ups and lists of the code: it is what the condition of the result is about.
-/

namespace XrkMonitor.Config

open Library

def RECORD_STATUS_DELETE : Int := 1

def AppRow.inUse (row : AppRow) : Bool := row.xrk_status == RECORD_STATUS_USE

/-- The row loop of `ReadTableAppInfo`; the flag is false when a database error ends it. -/
def readAppRows (env : AppRow → AppEnv) : AppTable → List AppRow → Option (Bool × AppTable)
  | t, [] => some (true, t)
  | t, row :: rows => do
      let t' ← readAppRow (env row) t row
      if row.xrk_status == RECORD_STATUS_DELETE && (env row).deleteFails then some (false, t')
      else readAppRows env t' rows

/-- `mapAppValid`: the ids of the rows in use. -/
def mapAppValid (rows : List AppRow) (iAppId : Int) : Bool :=
  rows.any fun row => row.inUse && row.app_id == iAppId

/-- The sweep over the slots that are left; `i` used slots are passed. -/
def sweepApps (valid : Int → Bool) : List Nat → Nat → AppTable → Option AppTable
  | [], _, t => some t
  | j :: js, i, t =>
    if (i : Int) < t.iAppCount then
      if t.list.id j ≠ 0 then
        if valid (t.list.id j) then sweepApps valid js (i + 1) t
        else do
          let t' ← removeAppInfo t j
          sweepApps valid js (i + 1) t'
      else sweepApps valid js i t
    else some t

/-- `ReadTableAppInfo` with `up_id` 0. -/
def readTableAppInfo (env : AppRow → AppEnv) (t : AppTable) (rows : List AppRow) :
    Option AppTable := do
  let (bOk, t') ← readAppRows env t rows
  if bOk then sweepApps (mapAppValid rows) (List.range MAX_SLOG_APP_COUNT) 0 t' else some t'

/-- The table has an application with the id. -/
def HasApp (id : Nat → Int) (iAppId : Int) : Prop :=
  ∃ c < MAX_SLOG_APP_COUNT, id c ≠ 0 ∧ id c = iAppId

section Sweep

variable {valid : Int → Bool} {id : Nat → Int} {j : Nat} {js : List Nat} {r : Nat}

def used (id : Nat → Int) (j : Nat) : Bool := id j != 0

/-- A slot that the sweep is there to free. -/
def stale (valid : Int → Bool) (id : Nat → Int) (j : Nat) : Bool :=
  id j != 0 && !valid (id j)

/-- The sweep, with `r` slots freed so far, still runs at every stale slot of those left. -/
def Reaches (valid : Int → Bool) (id : Nat → Int) : Nat → List Nat → Prop
  | _, [] => True
  | r, j :: js =>
    (stale valid id j = true → r < (j :: js).countP (used id)) ∧
      Reaches valid id (r + if stale valid id j then 1 else 0) js

theorem used_of_stale (h : stale valid id j = true) : used id j = true := by
  simp only [stale, Bool.and_eq_true] at h
  exact h.1

theorem Reaches.congr {id' : Nat → Int} (hsame : ∀ j ∈ js, id' j = id j) :
    Reaches valid id' r js ↔ Reaches valid id r js := by
  induction js generalizing r with
  | nil => rfl
  | cons j js ih =>
    have hstale : stale valid id' j = stale valid id j := by simp [stale, hsame j]
    have hcount : (j :: js).countP (used id') = (j :: js).countP (used id) := by
      apply List.countP_congr
      intro k hk
      simp [used, hsame k hk]
    rw [Reaches, Reaches, hstale, hcount, ih fun k hk => hsame k (List.mem_cons_of_mem _ hk)]

theorem reaches_iff_of_le (hle : js.countP (used id) ≤ r) :
    Reaches valid id r js ↔ ∀ j ∈ js, stale valid id j = false := by
  induction js with
  | nil => simp [Reaches]
  | cons j js ih =>
    have hrest : js.countP (used id) ≤ r := by
      rw [List.countP_cons] at hle
      omega
    cases hstale : stale valid id j with
    | true =>
      have hnot : ¬ r < (j :: js).countP (used id) := by omega
      simp [Reaches, hstale, hnot]
    | false => simp [Reaches, hstale, ih hrest]

/-- Every stale slot has as many used slots at or behind it as there are stale slots, counting
those freed before. -/
theorem reaches_iff : Reaches valid id r js ↔
    ∀ k j, js[k]? = some j → stale valid id j = true →
      r + js.countP (stale valid id) ≤ (js.drop k).countP (used id) := by
  induction js generalizing r with
  | nil => simp [Reaches]
  | cons x xs ih =>
    have hsub : ∀ k, (xs.drop k).countP (used id) ≤ xs.countP (used id) :=
      fun k => (List.drop_sublist k xs).countP_le
    rw [Reaches, ih, List.countP_cons, List.countP_cons]
    constructor
    · rintro ⟨hx, hxs⟩ k j hk hj
      cases k with
      | succ k =>
        have hle := hxs k j hk hj
        rw [List.drop_succ_cons]
        omega
      | zero =>
        obtain rfl : x = j := by simpa using hk
        have hlt := hx hj
        rw [List.drop_zero, List.countP_cons]
        simp only [hj, used_of_stale hj, if_true] at hlt hxs ⊢
        by_cases hzero : xs.countP (stale valid id) = 0
        · omega
        · obtain ⟨j', hj', hstale⟩ := List.countP_pos_iff.mp (Nat.pos_of_ne_zero hzero)
          obtain ⟨k', hk'⟩ := List.getElem?_of_mem hj'
          have hle := hxs k' j' hk' hstale
          have hle' := hsub k'
          omega
    · intro h
      constructor
      · intro hx
        have hle := h 0 x rfl hx
        rw [List.drop_zero, List.countP_cons] at hle
        simp only [hx, used_of_stale hx, if_true] at hle ⊢
        omega
      · intro k j hk hj
        have hle := h (k + 1) j hk hj
        rw [List.drop_succ_cons] at hle
        omega

/-- The sweep frees nothing but stale slots, and it frees all of them exactly if it reaches
them. -/
theorem AppTable.Ok.sweepApps {t : AppTable} {l : List Nat} {i : Nat} (h : t.Ok l)
    (valid : Int → Bool) (hnd : js.Nodup) (hlt : ∀ j ∈ js, j < MAX_SLOG_APP_COUNT)
    (hi : (i : Int) + js.countP (used t.list.id) = t.iAppCount + r) :
    ∃ t' l', sweepApps valid js i t = some t' ∧ t'.Ok l' ∧
      (∀ k, t'.list.id k = t.list.id k ∨ stale valid t.list.id k = true ∧ t'.list.id k = 0) ∧
      ((∀ j ∈ js, stale valid t.list.id j = true → t'.list.id j = 0) ↔
        Reaches valid t.list.id r js) := by
  induction js generalizing t l i r with
  | nil => exact ⟨t, l, rfl, h, fun k => Or.inl rfl, by simp [Reaches]⟩
  | cons j js ih =>
    obtain ⟨hj, hnd'⟩ := List.nodup_cons.mp hnd
    have hlt' : ∀ k ∈ js, k < MAX_SLOG_APP_COUNT := fun k hk => hlt k (List.mem_cons_of_mem _ hk)
    unfold Config.sweepApps
    by_cases hrun : (i : Int) < t.iAppCount
    · simp only [hrun, if_true]
      rw [List.countP_cons] at hi
      by_cases hused : t.list.id j ≠ 0
      · have hone : used t.list.id j = true := by simpa [used] using hused
        simp only [hone, if_true] at hi
        simp only [hused, ne_eq, not_false_eq_true, if_true]
        cases hvalid : valid (t.list.id j) with
        | true =>
          have hstale : stale valid t.list.id j = false := by simp [stale, hvalid]
          obtain ⟨t', l', hsweep, hok, hframe, hiff⟩ :=
            ih h hnd' hlt' (show ((i + 1 : Nat) : Int) + _ = t.iAppCount + r by omega)
          refine ⟨t', l', hsweep, hok, hframe, ?_⟩
          simp only [List.forall_mem_cons, hstale, Bool.false_eq_true, false_implies, true_and,
            Reaches, if_false, Nat.add_zero]
          exact hiff
        | false =>
          have hstale : stale valid t.list.id j = true := by simp [stale, hvalid, hused]
          obtain ⟨t₁, hremove, hid, hok₁⟩ := h.remove ((h.list.mem j).mpr ⟨hlt j (by simp), hused⟩)
          have hcount₁ : t₁.iAppCount = t.iAppCount - 1 := by
            simp only [removeAppInfo, Option.bind_eq_bind, Option.bind_eq_some_iff] at hremove
            obtain ⟨list, -, hlist⟩ := hremove
            rw [← Option.some.inj hlist]
          have hsame : ∀ k ∈ js, t₁.list.id k = t.list.id k := by
            intro k hk
            have hne : k ≠ j := fun heq => hj (heq ▸ hk)
            rw [hid, Function.update_of_ne hne]
          have hused₁ : js.countP (used t₁.list.id) = js.countP (used t.list.id) := by
            apply List.countP_congr
            intro k hk
            simp [used, hsame k hk]
          obtain ⟨t', l', hsweep, hok, hframe, hiff⟩ := ih hok₁ hnd' hlt'
            (show ((i + 1 : Nat) : Int) + _ = t₁.iAppCount + ((r + 1 : Nat) : Int) by omega)
          simp only [hremove, Bool.false_eq_true, if_false]
          refine ⟨t', l', hsweep, hok, ?_, ?_⟩
          · intro k
            by_cases hk : k = j
            · subst hk
              right
              refine ⟨hstale, ?_⟩
              obtain heq | ⟨-, hzero⟩ := hframe k
              · rw [heq, hid, Function.update_self]
              · exact hzero
            · have heq : t₁.list.id k = t.list.id k := by rw [hid, Function.update_of_ne hk]
              simpa [stale, heq] using hframe k
          · have hzero : t'.list.id j = 0 := by
              obtain heq | ⟨-, hzero⟩ := hframe j
              · rw [heq, hid, Function.update_self]
              · exact hzero
            have hrest : (∀ k ∈ js, stale valid t.list.id k = true → t'.list.id k = 0) ↔
                ∀ k ∈ js, stale valid t₁.list.id k = true → t'.list.id k = 0 := by
              apply forall₂_congr
              intro k hk
              rw [stale, stale, hsame k hk]
            have hlive : r < js.countP (used t.list.id) + 1 := by omega
            simp only [List.forall_mem_cons, hzero, implies_true, true_and, Reaches, hstale,
              if_true, List.countP_cons, hone, hlive]
            rw [hrest, hiff, Reaches.congr hsame]
      · have hone : used t.list.id j = false := by simpa [used] using hused
        have hstale : stale valid t.list.id j = false := by simp [stale, not_not.mp hused]
        simp only [hone, Bool.false_eq_true, if_false, Nat.add_zero] at hi
        obtain ⟨t', l', hsweep, hok, hframe, hiff⟩ := ih h hnd' hlt' hi
        simp only [hused, if_false]
        refine ⟨t', l', hsweep, hok, hframe, ?_⟩
        simp only [List.forall_mem_cons, hstale, Bool.false_eq_true, false_implies, true_and,
          Reaches, if_false, Nat.add_zero]
        exact hiff
    · simp only [hrun, if_false]
      refine ⟨t, l, rfl, h, fun k => Or.inl rfl, ?_⟩
      rw [reaches_iff_of_le (by omega)]
      apply forall₂_congr
      intro k hk
      constructor
      · intro hzero
        by_contra hstale
        have htrue : stale valid t.list.id k = true := by simpa using hstale
        have hused := used_of_stale htrue
        simp [used, hzero htrue] at hused
      · intro hstale htrue
        rw [hstale] at htrue
        cases htrue

end Sweep

section Rows

variable {id : Nat → Int} {row : AppRow} {rows : List AppRow} {iAppId : Int} {l : List Nat}
  {t : AppTable}

/-- The ids of the slots after one row: an application in use that has no slot takes the first
free one, and one that is not in use gives its slot up. -/
def placeRow (id : Nat → Int) (row : AppRow) : Nat → Int :=
  match slotWith MAX_SLOG_APP_COUNT id row.app_id with
  | some c => if row.inUse then id else Function.update id c 0
  | none =>
    if row.inUse then
      (slotWith MAX_SLOG_APP_COUNT id 0).elim id fun f => Function.update id f row.app_id
    else id

/-- The ids of the slots after the rows. -/
def placeRows (id : Nat → Int) (rows : List AppRow) : Nat → Int := rows.foldl placeRow id

/-- Every application in use finds a slot. -/
def EnoughSlots : (Nat → Int) → List AppRow → Prop
  | _, [] => True
  | id, row :: rows =>
    (row.inUse = true → slotWith MAX_SLOG_APP_COUNT id row.app_id = none →
      (slotWith MAX_SLOG_APP_COUNT id 0).isSome = true) ∧ EnoughSlots (placeRow id row) rows

/-- Every application that has a slot but no row in use has as many used slots at or behind its
own as there are such applications. -/
def SweepReaches (rows : List AppRow) (id : Nat → Int) : Prop :=
  ∀ j < MAX_SLOG_APP_COUNT, stale (mapAppValid rows) id j = true →
    (List.range MAX_SLOG_APP_COUNT).countP (stale (mapAppValid rows) id) ≤
      ((List.range MAX_SLOG_APP_COUNT).drop j).countP (used id)

theorem inUse_iff : row.inUse = true ↔ row.xrk_status = RECORD_STATUS_USE := by
  simp [AppRow.inUse]

theorem AppEffect.id_eq {t t' : AppTable} (h : AppEffect row t t') :
    t'.list.id = placeRow t.list.id row := by
  cases h with
  | add f hstatus hmiss hfree hid =>
    rw [hid, placeRow, hmiss, hfree, inUse_iff.mpr hstatus]
    rfl
  | keep c hstatus hfind hid =>
    rw [hid, placeRow, hfind, inUse_iff.mpr hstatus]
    rfl
  | full hstatus hmiss hfree hid =>
    rw [hid, placeRow, hmiss, hfree, inUse_iff.mpr hstatus]
    rfl
  | remove c hstatus hfind hid =>
    rw [hid, placeRow, hfind]
    exact (if_neg (mt inUse_iff.mp hstatus)).symm
  | skip hstatus hmiss hid =>
    rw [hid, placeRow, hmiss]
    exact (if_neg (mt inUse_iff.mp hstatus)).symm

theorem AppTable.Ok.eq_of_id (h : t.Ok l) {c d : Nat}
    (hc : c < MAX_SLOG_APP_COUNT) (hd : d < MAX_SLOG_APP_COUNT) (hne : t.list.id c ≠ 0)
    (heq : t.list.id c = t.list.id d) : c = d :=
  h.distinct c ((h.list.mem c).mpr ⟨hc, hne⟩) d ((h.list.mem d).mpr ⟨hd, heq ▸ hne⟩) heq

theorem hasApp_update {f : Nat} (hf : f < MAX_SLOG_APP_COUNT) (hfree : id f = 0)
    (hne : row.app_id ≠ 0) :
    HasApp (Function.update id f row.app_id) iAppId ↔ iAppId = row.app_id ∨ HasApp id iAppId := by
  constructor
  · rintro ⟨c, hc, hzero, heq⟩
    by_cases hcf : c = f
    · subst hcf
      rw [Function.update_self] at heq
      exact Or.inl heq.symm
    · rw [Function.update_of_ne hcf] at hzero heq
      exact Or.inr ⟨c, hc, hzero, heq⟩
  · rintro (rfl | ⟨c, hc, hzero, heq⟩)
    · exact ⟨f, hf, by simpa using hne, by simp⟩
    · have hcf : c ≠ f := fun h => hzero (h ▸ hfree)
      exact ⟨c, hc, by rwa [Function.update_of_ne hcf], by rwa [Function.update_of_ne hcf]⟩

theorem hasApp_clear (h : t.Ok l) {c : Nat}
    (hc : c < MAX_SLOG_APP_COUNT) (hrow : t.list.id c = row.app_id) :
    HasApp (Function.update t.list.id c 0) iAppId ↔
      iAppId ≠ row.app_id ∧ HasApp t.list.id iAppId := by
  constructor
  · rintro ⟨d, hd, hzero, heq⟩
    have hdc : d ≠ c := by
      rintro rfl
      simp at hzero
    rw [Function.update_of_ne hdc] at hzero heq
    refine ⟨?_, d, hd, hzero, heq⟩
    rintro rfl
    exact hdc (h.eq_of_id hd hc hzero (heq.trans hrow.symm))
  · rintro ⟨hne, d, hd, hzero, heq⟩
    have hdc : d ≠ c := by
      rintro rfl
      exact hne (heq.symm.trans hrow)
    exact ⟨d, hd, by rwa [Function.update_of_ne hdc], by rwa [Function.update_of_ne hdc]⟩

theorem hasApp_of_slotWith {c : Nat} (hne : row.app_id ≠ 0)
    (hfind : slotWith MAX_SLOG_APP_COUNT id row.app_id = some c) : HasApp id row.app_id := by
  obtain ⟨hlt, hid⟩ := slotWith_some hfind
  exact ⟨c, hlt, hid ▸ hne, hid⟩

theorem not_hasApp_of_slotWith (hmiss : slotWith MAX_SLOG_APP_COUNT id row.app_id = none) :
    ¬ HasApp id row.app_id := by
  rintro ⟨c, hc, -, heq⟩
  exact slotWith_none hmiss c hc heq

/-- After a row the table has its application exactly if the row is in use, and nothing else
changes. -/
theorem AppEffect.hasApp_iff {t t' : AppTable} (e : AppEffect row t t')
    (h : t.Ok l) (hspace : row.inUse = true → slotWith MAX_SLOG_APP_COUNT t.list.id row.app_id = none →
      (slotWith MAX_SLOG_APP_COUNT t.list.id 0).isSome = true) :
    HasApp t'.list.id iAppId ↔
      iAppId = row.app_id ∧ row.inUse = true ∨ iAppId ≠ row.app_id ∧ HasApp t.list.id iAppId := by
  cases e with
  | add f hstatus hmiss hfree hid =>
    obtain ⟨hlt, hzero⟩ := slotWith_some hfree
    rw [hid, hasApp_update hlt hzero row.app_id_ne, inUse_iff]
    by_cases heq : iAppId = row.app_id <;> simp [heq, hstatus]
  | keep c hstatus hfind hid =>
    rw [hid, inUse_iff]
    by_cases heq : iAppId = row.app_id
    · simp [heq, hstatus, hasApp_of_slotWith row.app_id_ne hfind]
    · simp [heq]
  | full hstatus hmiss hfree hid =>
    have hsome := hspace (inUse_iff.mpr hstatus) hmiss
    rw [hfree] at hsome
    cases hsome
  | remove c hstatus hfind hid =>
    obtain ⟨hlt, hrow⟩ := slotWith_some hfind
    rw [hid, hasApp_clear h hlt hrow, inUse_iff]
    simp [hstatus]
  | skip hstatus hmiss hid =>
    rw [hid, inUse_iff]
    by_cases heq : iAppId = row.app_id
    · simp [heq, hstatus, not_hasApp_of_slotWith hmiss]
    · simp [heq]

theorem AppTable.Ok.readAppRows (h : t.Ok l)
    {env : AppRow → AppEnv} (hnd : (rows.map AppRow.app_id).Nodup)
    (hspace : EnoughSlots t.list.id rows) (hdb : ∀ row ∈ rows, (env row).deleteFails = false) :
    ∃ t' l', readAppRows env t rows = some (true, t') ∧ t'.Ok l' ∧
      t'.list.id = placeRows t.list.id rows ∧
      ∀ iAppId, HasApp t'.list.id iAppId ↔
        (∃ row ∈ rows, row.inUse = true ∧ row.app_id = iAppId) ∨
          (∀ row ∈ rows, row.app_id ≠ iAppId) ∧ HasApp t.list.id iAppId := by
  induction rows generalizing t l with
  | nil => exact ⟨t, l, rfl, h, rfl, by simp⟩
  | cons row rows ih =>
    obtain ⟨hnew, hnd'⟩ := List.nodup_cons.mp hnd
    obtain ⟨t₁, l₁, hrow, hok₁, heffect⟩ := h.readAppRow (env row) row
    have hspace₁ : EnoughSlots t₁.list.id rows := heffect.id_eq ▸ hspace.2
    obtain ⟨t', l', hrows, hok, hid, hhas⟩ := ih hok₁ hnd' hspace₁
      fun r hr => hdb r (List.mem_cons_of_mem _ hr)
    refine ⟨t', l', ?_, hok, ?_, ?_⟩
    · simp [Config.readAppRows, hrow, hdb row (by simp), hrows]
    · rw [hid, heffect.id_eq]
      rfl
    · intro iAppId
      rw [hhas, heffect.hasApp_iff h hspace.1]
      have hother : ∀ r ∈ rows, r.app_id ≠ row.app_id :=
        fun r hr heq => hnew (List.mem_map.mpr ⟨r, hr, heq⟩)
      by_cases heq : row.app_id = iAppId
      · subst heq
        have hnone : ¬ ∃ r ∈ rows, r.inUse = true ∧ r.app_id = row.app_id :=
          fun ⟨r, hr, _, hreq⟩ => hother r hr hreq
        simp only [hnone, List.exists_mem_cons_iff, List.forall_mem_cons, ne_eq, not_true_eq_false,
          false_and, and_true, true_and, false_or, or_false]
        exact and_iff_right hother
      · have heq' : iAppId ≠ row.app_id := fun h => heq h.symm
        simp [heq, heq']

end Rows

theorem mapAppValid_iff {rows : List AppRow} {iAppId : Int} :
    mapAppValid rows iAppId = true ↔ ∃ row ∈ rows, row.inUse = true ∧ row.app_id = iAppId := by
  simp [mapAppValid]

/-- Reading the whole table makes the ids in shared memory those of the rows in use exactly if
the sweep reaches every application without a row. -/
theorem reload_exact_iff (env : AppRow → AppEnv) (t : AppTable) (l : List Nat) (h : t.Ok l)
    (rows : List AppRow) (hnd : (rows.map AppRow.app_id).Nodup)
    (hspace : EnoughSlots t.list.id rows) (hdb : ∀ row ∈ rows, (env row).deleteFails = false) :
    ∃ t', readTableAppInfo env t rows = some t' ∧
      ((∀ iAppId, HasApp t'.list.id iAppId ↔
          ∃ row ∈ rows, row.xrk_status = RECORD_STATUS_USE ∧ row.app_id = iAppId) ↔
        SweepReaches rows (placeRows t.list.id rows)) := by
  obtain ⟨t₁, l₁, hrows, hok₁, hid₁, hhas⟩ := h.readAppRows hnd hspace hdb
  have hcount : ((0 : Nat) : Int) +
      (List.range MAX_SLOG_APP_COUNT).countP (used t₁.list.id) = t₁.iAppCount + (0 : Nat) := by
    have hused : used t₁.list.id = fun j => !(t₁.list.id j == 0) := rfl
    rw [hused, hok₁.list.liveSlots.countP_used, hok₁.count]
    simp
  obtain ⟨t', l', hsweep, hok, hframe, hiff⟩ := hok₁.sweepApps (mapAppValid rows)
    List.nodup_range (fun j hj => List.mem_range.mp hj) hcount
  refine ⟨t', by rw [readTableAppInfo, hrows]; exact hsweep, ?_⟩
  have hreach : SweepReaches rows (placeRows t.list.id rows) ↔
      ∀ j ∈ List.range MAX_SLOG_APP_COUNT,
        stale (mapAppValid rows) t₁.list.id j = true → t'.list.id j = 0 := by
    rw [hiff, reaches_iff, ← hid₁]
    constructor
    · intro hall k j hk hj
      have hlt : k < MAX_SLOG_APP_COUNT := by
        simpa using (List.getElem?_eq_some_iff.mp hk).1
      obtain rfl : k = j := by simpa [List.getElem?_range hlt] using hk
      simpa using hall k hlt hj
    · intro hall j hj hstale
      simpa using hall j j (List.getElem?_range hj) hstale
  simp only [← inUse_iff]
  rw [hreach]
  constructor
  · intro hsame j hj hstale
    obtain heq | ⟨-, hzero⟩ := hframe j
    · by_contra hne
      have hvalid := mapAppValid_iff.mpr
        ((hsame (t'.list.id j)).mp ⟨j, List.mem_range.mp hj, hne, rfl⟩)
      rw [heq] at hvalid
      simp [stale, hvalid] at hstale
    · exact hzero
  · intro hfreed iAppId
    constructor
    · rintro ⟨c, hc, hne, rfl⟩
      obtain heq | ⟨-, hzero⟩ := hframe c
      · rw [heq] at hne ⊢
        apply mapAppValid_iff.mp
        by_contra hinvalid
        have hfalse : mapAppValid rows (t₁.list.id c) = false := Bool.eq_false_iff.mpr hinvalid
        have hstale : stale (mapAppValid rows) t₁.list.id c = true := by simp [stale, hne, hfalse]
        exact hne (heq ▸ hfreed c (List.mem_range.mpr hc) hstale)
      · exact absurd hzero hne
    · intro hrow
      obtain ⟨c, hc, hne, rfl⟩ := (hhas iAppId).mpr (Or.inl hrow)
      obtain heq | ⟨hstale, -⟩ := hframe c
      · exact ⟨c, hc, heq ▸ hne, heq⟩
      · simp [stale, mapAppValid_iff.mpr hrow] at hstale

/-- Applications 1 and 2, as their rows leave them in zeroed memory. -/
def twoApps : AppTable where
  list :=
    { id := fun c => if c = 0 then 1 else if c = 1 then 2 else 0
      links :=
        { iIndexStart := 1
          iIndexEnd := 0
          iPreIndex := fun i => if i = 0 then 1 else if i = 1 then -1 else 0
          iNextIndex := fun i => if i = 0 then -1 else 0 }
      wCount := 2 }
  iAppCount := 2
  stInfo := fun _ => zeroAppInfo

theorem twoApps_ok : twoApps.Ok [1, 0] where
  list :=
    { nodup := by decide
      mem := by
        intro c
        simp only [SlotList.Live, twoApps, MAX_SLOG_APP_COUNT, List.mem_cons, List.not_mem_nil]
        by_cases h0 : c = 0
        · simp [h0]
        · by_cases h1 : c = 1 <;> simp [h0, h1]
      chained := Or.inl ⟨by decide, by decide, ⟨rfl, rfl, rfl⟩, ⟨rfl, rfl, rfl⟩⟩
      len := rfl }
  count := rfl
  distinct := by decide

/-- Application 2 has a row in use, application 1 has none. -/
def secondApp : AppRow where
  app_id := 2
  xrk_status := 0
  update_time := 7
  app_name := none
  app_id_ne := by decide

theorem reload_exact_iff_secondApp :
    ∃ t', readTableAppInfo (fun _ => noServer) twoApps [secondApp] = some t' ∧
      ((∀ iAppId, HasApp t'.list.id iAppId ↔
          ∃ row ∈ [secondApp], row.xrk_status = RECORD_STATUS_USE ∧ row.app_id = iAppId) ↔
        SweepReaches [secondApp] (placeRows twoApps.list.id [secondApp])) :=
  reload_exact_iff (fun _ => noServer) twoApps [1, 0] twoApps_ok [secondApp] (by decide)
    ⟨by decide, trivial⟩ (by decide)

/-- When both rows are gone, the sweep frees slot 0 and ends before slot 1. -/
theorem reload_leaves_removed_app : twoApps.Ok [1, 0] ∧
    ∃ t', readTableAppInfo (fun _ => noServer) twoApps [] = some t' ∧
      ¬ ∀ iAppId, HasApp t'.list.id iAppId ↔
        ∃ row ∈ ([] : List AppRow), row.xrk_status = RECORD_STATUS_USE ∧ row.app_id = iAppId := by
  refine ⟨twoApps_ok, ?_⟩
  have hleft : (readTableAppInfo (fun _ => noServer) twoApps []).map (fun t => t.list.id 1) =
      some 2 := by decide +kernel
  obtain ⟨t', ht', hid⟩ := Option.map_eq_some_iff.mp hleft
  refine ⟨t', ht', fun hall => ?_⟩
  have hrow := (hall 2).mp ⟨1, by decide, by rw [hid]; decide, hid⟩
  simp at hrow

end XrkMonitor.Config
