import XrkMonitor.Library.SortedTable

/-!
# Changes of a sorted table

A table takes a list of changes, one after the other: a row is added, modified or
deleted. When each change is about a key of its own and fits the table, the
look-ups after the changes are known: the changed keys have what their change
makes of them, and the others keep their rows.
-/

namespace XrkMonitor.Library

variable {κ ρ ν : Type*}

/-- A change of a table. -/
inductive Change (κ ν : Type*) where
  | add (v : ν)
  | mod (v : ν)
  | del (k : κ)
deriving Repr, DecidableEq

/-- How rows of the table take a change. -/
structure RowSpec (κ ρ ν : Type*) where
  key : ρ → κ
  id : ν → κ
  fresh : ν → ρ
  assign : ρ → ν → ρ
  key_fresh : ∀ v, key (fresh v) = id v
  key_assign : ∀ r v, key (assign r v) = id v

namespace Change

variable (R : RowSpec κ ρ ν)

/-- The key that a change is about. -/
def key : Change κ ν → κ
  | add v => R.id v
  | mod v => R.id v
  | del k => k

/-- What a change makes of the row of its key. -/
def effect : Change κ ν → Option ρ → Option ρ
  | add v, _ => some (R.fresh v)
  | mod v, row => row.map fun r => R.assign r v
  | del _, _ => none

def isAdd : Change κ ν → Bool
  | add _ => true
  | _ => false

def isDel : Change κ ν → Bool
  | del _ => true
  | _ => false

end Change

section Apply

variable [LinearOrder κ]

/-- The changes are applied from the first to the last. An addition to a full table ends the
loop. `last` is the record of the last addition or modification; the log line of a deletion reads
it, so it must not be missing when the line is written. -/
def applyChanges (c : κ → κ → Int) (R : RowSpec κ ρ ν) (cap : Nat) (errLog infoLog : Nat → Bool) :
    Nat → List (Change κ ν) → Option ν → List ρ → Option (List ρ)
  | _, [], _, rows => some rows
  | i, .add v :: cs, _, rows =>
    if cap ≤ rows.length then some rows
    else applyChanges c R cap errLog infoLog (i + 1) cs (some v) (qsort c R.key (rows ++ [R.fresh v]))
  | i, .mod v :: cs, _, rows =>
    match searchKey c R.key (R.id v) rows with
    | none => applyChanges c R cap errLog infoLog (i + 1) cs (some v) rows
    | some j =>
      applyChanges c R cap errLog infoLog (i + 1) cs (some v)
        (rows.modify j fun r => R.assign r v)
  | i, .del k :: cs, last, rows =>
    match searchKey c R.key k rows with
    | none =>
      if errLog i && last.isNone then none
      else applyChanges c R cap errLog infoLog (i + 1) cs last rows
    | some j =>
      if infoLog i && last.isNone then none
      else applyChanges c R cap errLog infoLog (i + 1) cs last (rows.eraseIdx j)

/-- The changes fit the table: each key is changed once, only new keys are added, and only keys of
the table are modified or deleted. -/
structure Applies (R : RowSpec κ ρ ν) (cs : List (Change κ ν)) (rows : List ρ) : Prop where
  nodup : (cs.map (Change.key R)).Nodup
  add_new : ∀ v, .add v ∈ cs → R.id v ∉ rows.map R.key
  mod_old : ∀ v, .mod v ∈ cs → R.id v ∈ rows.map R.key
  del_old : ∀ k, .del k ∈ cs → k ∈ rows.map R.key

/-- The row of a key after the changes. -/
def rowAfter (R : RowSpec κ ρ ν) (cs : List (Change κ ν)) (rows : List ρ) (k : κ) : Option ρ :=
  match cs.find? fun ch => ch.key R = k with
  | none => rowOf R.key rows k
  | some ch => ch.effect R (rowOf R.key rows k)

/-- No log line of a deletion reads a missing record. -/
def quiet (infoLog : Nat → Bool) : Nat → Option ν → List (Change κ ν) → Bool
  | i, none, .del _ :: cs => !infoLog i && quiet infoLog (i + 1) none cs
  | _, _, _ => true

variable {c : κ → κ → Int} {D : Set κ} {R : RowSpec κ ρ ν} {cap i : Nat} {errLog infoLog : Nat → Bool}
  {ch : Change κ ν} {cs : List (Change κ ν)} {rows rows' : List ρ} {last : Option ν} {k : κ}

/-- One change, as seen through the look-ups. -/
structure Changed (R : RowSpec κ ρ ν) (D : Set κ) (ch : Change κ ν) (rows rows' : List ρ) : Prop where
  sorted : SortedBy R.key rows'
  keys : ∀ x ∈ rows', R.key x ∈ D
  row : ∀ k, rowOf R.key rows' k =
    if k = ch.key R then ch.effect R (rowOf R.key rows k) else rowOf R.key rows k

omit [LinearOrder κ] in
@[simp] theorem quiet_some (infoLog : Nat → Bool) (i : Nat) (v : ν) (cs : List (Change κ ν)) :
    quiet infoLog i (some v) cs = true := by
  cases cs with
  | nil => rfl
  | cons ch cs => cases ch <;> rfl

theorem keys_of_rowOf (h : ∀ k, k ∉ D → rowOf R.key rows k = none) : ∀ x ∈ rows, R.key x ∈ D := by
  intro x hx
  by_contra hnot
  exact rowOf_eq_none_iff.mp (h _ hnot) (List.mem_map_of_mem hx)

theorem rowOf_of_notMem (hD : ∀ x ∈ rows, R.key x ∈ D) (hk : k ∉ D) : rowOf R.key rows k = none := by
  rw [rowOf_eq_none_iff, List.mem_map]
  rintro ⟨x, hx, rfl⟩
  exact hk (hD x hx)

theorem Changed.of_row (hD : ∀ x ∈ rows, R.key x ∈ D) (hk : ch.key R ∈ D)
    (hsort : SortedBy R.key rows') (hrow : ∀ k, rowOf R.key rows' k =
      if k = ch.key R then ch.effect R (rowOf R.key rows k) else rowOf R.key rows k) :
    Changed R D ch rows rows' where
  sorted := hsort
  keys := by
    apply keys_of_rowOf
    intro k hnot
    have hne : k ≠ ch.key R := fun h => hnot (h ▸ hk)
    rw [hrow, if_neg hne, rowOf_of_notMem hD hnot]
  row := hrow

theorem changed_add (hc : ComparesOn c D) (hD : ∀ x ∈ rows, R.key x ∈ D)
    (hsort : SortedBy R.key rows) {v : ν} (hv : R.id v ∈ D) (hnew : R.id v ∉ rows.map R.key) :
    Changed R D (.add v) rows (qsort c R.key (rows ++ [R.fresh v])) := by
  have hkey := R.key_fresh v
  obtain ⟨hsort', hrow⟩ := hsort.insert hc hD (hkey ▸ hv) (hkey ▸ hnew)
  rw [hkey] at hrow
  exact .of_row hD hv hsort' hrow

theorem searchKey_isSome (hc : ComparesOn c D) (hD : ∀ x ∈ rows, R.key x ∈ D) (hk : k ∈ D)
    (hsort : SortedBy R.key rows) (hold : k ∈ rows.map R.key) :
    ∃ l₁ r l₂, rows = l₁ ++ r :: l₂ ∧ searchKey c R.key k rows = some l₁.length ∧ R.key r = k := by
  cases hfound : searchKey c R.key k rows with
  | none => exact absurd hold (searchKey_none hc hD hk hsort hfound)
  | some j =>
    obtain ⟨l₁, r, l₂, hrows, rfl, hr⟩ := searchKey_some hc hD hk hfound
    exact ⟨l₁, r, l₂, hrows, rfl, hr⟩

theorem changed_mod (hc : ComparesOn c D) (hD : ∀ x ∈ rows, R.key x ∈ D)
    (hsort : SortedBy R.key rows) {v : ν} (hv : R.id v ∈ D) (hold : R.id v ∈ rows.map R.key) :
    ∃ j, searchKey c R.key (R.id v) rows = some j ∧
      Changed R D (.mod v) rows (rows.modify j fun r => R.assign r v) := by
  obtain ⟨l₁, r, l₂, rfl, hfound, hr⟩ := searchKey_isSome hc hD hv hsort hold
  refine ⟨l₁.length, hfound, ?_⟩
  have hkey : R.key (R.assign r v) = R.key r := by rw [R.key_assign, hr]
  obtain ⟨hsort', hrow⟩ := hsort.modify (f := fun r => R.assign r v) hkey
  refine .of_row hD hv hsort' ?_
  intro k
  rw [hrow, hr]
  change _ = if k = R.id v then _ else _
  by_cases hk : k = R.id v
  · have hthis := rowOf_eq_some_of_mem (r := r) hsort.nodup (by simp)
    rw [hr, ← hk] at hthis
    rw [if_pos hk, if_pos hk, hthis]
    rfl
  · rw [if_neg hk, if_neg hk]

theorem changed_del (hc : ComparesOn c D) (hD : ∀ x ∈ rows, R.key x ∈ D)
    (hsort : SortedBy R.key rows) (hk : k ∈ D) (hold : k ∈ rows.map R.key) :
    ∃ j, searchKey c R.key k rows = some j ∧
      Changed R D (.del k) rows (rows.eraseIdx j) := by
  obtain ⟨l₁, r, l₂, rfl, hfound, rfl⟩ := searchKey_isSome hc hD hk hsort hold
  obtain ⟨hsort', hrow⟩ := hsort.eraseIdx
  exact ⟨l₁.length, hfound, .of_row hD hk hsort' hrow⟩

theorem mem_keys_iff : k ∈ rows.map R.key ↔ (rowOf R.key rows k).isSome := by
  rw [← not_iff_not, ← rowOf_eq_none_iff]
  simp

theorem Applies.tail (h : Applies R (ch :: cs) rows) (hch : Changed R D ch rows rows') :
    Applies R cs rows' := by
  have hnodup := h.nodup
  rw [List.map_cons, List.nodup_cons] at hnodup
  have hsame : ∀ d ∈ cs, (d.key R ∈ rows'.map R.key ↔ d.key R ∈ rows.map R.key) := by
    intro d hd
    have hne : d.key R ≠ ch.key R := fun heq => hnodup.1 (heq ▸ List.mem_map_of_mem hd)
    rw [mem_keys_iff, mem_keys_iff, hch.row, if_neg hne]
  exact {
    nodup := hnodup.2
    add_new := fun v hv hmem => h.add_new v (List.mem_cons_of_mem _ hv) ((hsame _ hv).mp hmem)
    mod_old := fun v hv => (hsame _ hv).mpr (h.mod_old v (List.mem_cons_of_mem _ hv))
    del_old := fun k hk => (hsame _ hk).mpr (h.del_old k (List.mem_cons_of_mem _ hk)) }

theorem rowAfter_cons (h : Applies R (ch :: cs) rows) (hch : Changed R D ch rows rows') (k : κ) :
    rowAfter R cs rows' k = rowAfter R (ch :: cs) rows k := by
  have hnodup := h.nodup
  rw [List.map_cons, List.nodup_cons] at hnodup
  unfold rowAfter
  by_cases hk : ch.key R = k
  · have hnone : cs.find? (fun d => d.key R = k) = none := by
      rw [List.find?_eq_none]
      intro d hd heq
      exact hnodup.1 (hk ▸ of_decide_eq_true heq ▸ List.mem_map_of_mem hd)
    rw [List.find?_cons_of_pos (by simpa using hk), hnone, hch.row, if_pos hk.symm]
  · rw [List.find?_cons_of_neg (by simpa using hk), hch.row, if_neg (Ne.symm hk)]

/-- The number of additions. -/
def adds (cs : List (Change κ ν)) : Nat := cs.countP Change.isAdd

/-- One turn of the loop with a change that fits, room for an addition and no log line without its
record. -/
theorem applyChanges_step (hc : ComparesOn c D) (hD : ∀ x ∈ rows, R.key x ∈ D)
    (hsort : SortedBy R.key rows) (h : Applies R (ch :: cs) rows) (hk : ch.key R ∈ D)
    (hroom : ch.isAdd = true → rows.length < cap) (hquiet : quiet infoLog i last (ch :: cs) = true)
    (errLog : Nat → Bool) :
    ∃ rows' last', Changed R D ch rows rows' ∧ quiet infoLog (i + 1) last' cs = true ∧
      rows'.length ≤ rows.length + (if ch.isAdd then 1 else 0) ∧
      (ch.isDel = false → rows'.length = rows.length + (if ch.isAdd then 1 else 0)) ∧
      applyChanges c R cap errLog infoLog i (ch :: cs) last rows =
        applyChanges c R cap errLog infoLog (i + 1) cs last' rows' := by
  cases ch with
  | add v =>
    have hlt := hroom rfl
    refine ⟨_, some v, changed_add hc hD hsort hk (h.add_new v List.mem_cons_self),
      quiet_some .., ?_, ?_, ?_⟩
    · simp [(qsort_perm c R.key _).length_eq, Change.isAdd]
    · simp [(qsort_perm c R.key _).length_eq, Change.isAdd]
    · rw [applyChanges, if_neg (by omega)]
  | mod v =>
    obtain ⟨j, hfound, hch⟩ := changed_mod hc hD hsort hk (h.mod_old v List.mem_cons_self)
    refine ⟨_, some v, hch, quiet_some .., ?_, ?_, ?_⟩
    · simp [Change.isAdd]
    · simp [Change.isAdd]
    · rw [applyChanges, hfound]
  | del k =>
    obtain ⟨j, hfound, hch⟩ := changed_del (k := k) hc hD hsort hk (h.del_old k List.mem_cons_self)
    have hlog : (infoLog i && last.isNone) = false := by
      cases last with
      | some v => simp
      | none =>
        rw [quiet, Bool.and_eq_true, Bool.not_eq_true'] at hquiet
        simp [hquiet.1]
    refine ⟨_, last, hch, ?_, ?_, ?_, ?_⟩
    · cases last with
      | some v => exact quiet_some ..
      | none =>
        rw [quiet, Bool.and_eq_true] at hquiet
        exact hquiet.2
    · simp only [Change.isAdd, Bool.false_eq_true, if_false, Nat.add_zero]
      exact List.length_eraseIdx_le rows j
    · intro hnot
      cases hnot
    · rw [applyChanges, hfound]
      simp only [hlog, Bool.false_eq_true, if_false]

omit [LinearOrder κ] in
theorem adds_cons (ch : Change κ ν) (cs : List (Change κ ν)) :
    adds (ch :: cs) = adds cs + (if ch.isAdd then 1 else 0) := by
  rw [adds, List.countP_cons, adds]

theorem applyChanges_all (hc : ComparesOn c D) (hD : ∀ x ∈ rows, R.key x ∈ D)
    (hsort : SortedBy R.key rows) (h : Applies R cs rows) (hk : ∀ ch ∈ cs, ch.key R ∈ D)
    (hroom : rows.length + adds cs ≤ cap) (hquiet : quiet infoLog i last cs = true) (errLog : Nat → Bool) :
    ∃ rows', applyChanges c R cap errLog infoLog i cs last rows = some rows' ∧
      SortedBy R.key rows' ∧ (∀ x ∈ rows', R.key x ∈ D) ∧ rows'.length ≤ rows.length + adds cs ∧
      ∀ k, rowOf R.key rows' k = rowAfter R cs rows k := by
  induction cs generalizing i last rows with
  | nil => exact ⟨rows, rfl, hsort, hD, Nat.le_add_right _ _, fun _ => rfl⟩
  | cons ch cs ih =>
    rw [adds_cons] at hroom
    have hadd : ch.isAdd = true → rows.length < cap := by
      intro hadd
      rw [if_pos hadd] at hroom
      omega
    obtain ⟨rows₁, last₁, hch, hquiet₁, hlen, -, hstep⟩ := applyChanges_step hc hD hsort h
      (hk ch List.mem_cons_self) hadd hquiet errLog
    obtain ⟨rows', heq, hsort', hD', hlen', hrow⟩ := ih hch.keys hch.sorted (h.tail hch)
      (fun d hd => hk d (List.mem_cons_of_mem _ hd)) (by omega) hquiet₁
    refine ⟨rows', by rw [hstep, heq], hsort', hD', ?_, ?_⟩
    · rw [adds_cons]
      omega
    · intro k
      rw [hrow, rowAfter_cons h hch]

/-- Without room for the additions one of them is missing in the end. -/
theorem applyChanges_stopped (hc : ComparesOn c D) (hD : ∀ x ∈ rows, R.key x ∈ D)
    (hsort : SortedBy R.key rows) {ds : List (Change κ ν)} (h : Applies R (cs ++ ds) rows)
    (hk : ∀ ch ∈ cs, ch.key R ∈ D) (hcs : ∀ ch ∈ cs, ch.isDel = false) (hcap : rows.length ≤ cap)
    (hroom : cap < rows.length + adds cs) (errLog infoLog : Nat → Bool) (i : Nat) (last : Option ν) :
    ∃ rows' v, applyChanges c R cap errLog infoLog i (cs ++ ds) last rows = some rows' ∧
      .add v ∈ cs ∧ rowOf R.key rows' (R.id v) = none := by
  induction cs generalizing i last rows with
  | nil =>
    simp only [adds, List.countP_nil] at hroom
    omega
  | cons ch cs ih =>
    by_cases hstop : ch.isAdd = true ∧ cap ≤ rows.length
    · obtain ⟨v, rfl⟩ : ∃ v, ch = .add v := by
        cases ch with
        | add v => exact ⟨v, rfl⟩
        | mod v => cases hstop.1
        | del k => cases hstop.1
      refine ⟨rows, v, ?_, List.mem_cons_self, ?_⟩
      · rw [List.cons_append, applyChanges, if_pos hstop.2]
      · exact rowOf_eq_none_iff.mpr (h.add_new v List.mem_cons_self)
    · have hadd : ch.isAdd = true → rows.length < cap := by
        intro hadd
        by_contra hle
        exact hstop ⟨hadd, not_lt.mp hle⟩
      rw [List.cons_append] at h
      have hnodel := hcs ch List.mem_cons_self
      have hquiet : quiet infoLog i last (ch :: (cs ++ ds)) = true := by
        cases ch with
        | add v => simp [quiet]
        | mod v => simp [quiet]
        | del k => cases hnodel
      obtain ⟨rows₁, last₁, hch, -, -, hlen, hstep⟩ := applyChanges_step hc hD hsort h
        (hk ch List.mem_cons_self) hadd hquiet errLog
      have hlen := hlen hnodel
      rw [adds_cons] at hroom
      have hcap₁ : rows₁.length ≤ cap := by
        by_cases hb : ch.isAdd = true
        · have := hadd hb
          rw [if_pos hb] at hlen
          omega
        · rw [if_neg hb] at hlen
          omega
      obtain ⟨rows', v, heq, hv, hrow⟩ := ih hch.keys hch.sorted (h.tail hch)
        (fun d hd => hk d (List.mem_cons_of_mem _ hd))
        (fun d hd => hcs d (List.mem_cons_of_mem _ hd)) hcap₁ (by omega) (i + 1) last₁
      exact ⟨rows', v, by rw [List.cons_append, hstep, heq], List.mem_cons_of_mem _ hv, hrow⟩

theorem applyChanges_crash (hc : ComparesOn c D) (hD : ∀ x ∈ rows, R.key x ∈ D)
    (hsort : SortedBy R.key rows) (h : Applies R cs rows) (hk : ∀ ch ∈ cs, ch.key R ∈ D)
    (hquiet : quiet infoLog i last cs = false) :
    applyChanges c R cap errLog infoLog i cs last rows = none := by
  induction cs generalizing i last rows with
  | nil => cases last <;> cases hquiet
  | cons ch cs ih =>
    cases last with
    | some v =>
      rw [quiet_some] at hquiet
      cases hquiet
    | none =>
      cases ch with
      | add v => cases hquiet
      | mod v => cases hquiet
      | del k =>
        obtain ⟨j, hfound, hch⟩ := changed_del (k := k) hc hD hsort (hk _ List.mem_cons_self)
          (h.del_old k List.mem_cons_self)
        rw [applyChanges, hfound]
        cases hlog : infoLog i with
        | true => simp
        | false =>
          rw [quiet, hlog, Bool.not_false, Bool.true_and] at hquiet
          simp only [Bool.false_and, Bool.false_eq_true, if_false]
          exact ih hch.keys hch.sorted (h.tail hch)
            (fun d hd => hk d (List.mem_cons_of_mem _ hd)) hquiet

end Apply

end XrkMonitor.Library
