import XrkMonitor.Library.TableDiff

/-!
# Rounds of synchronisation

Each round applies as many of the missing changes as its answer has room for. A
change makes the table agree with the source on its key, and no round loses an
agreement; a round whose request names the sequence numbers of the table gains at
least one, as long as one is missing. So the number of keys on which the table
and the source disagree goes down to zero.
-/

namespace XrkMonitor.Library

variable {κ ρ σ ν : Type*} [LinearOrder κ] {R : RowSpec κ ρ ν} {S : SourceSpec κ σ ν}
  {seqOf ask : ρ → Nat} {srows : List σ} {rows rows' : List ρ} {cs : List (Change κ ν)} {k : κ}

/-- The table has the key with the sequence number of the source, or both do not have it. -/
def Agrees (R : RowSpec κ ρ ν) (S : SourceSpec κ σ ν) (seqOf : ρ → Nat) (srows : List σ)
    (rows : List ρ) (k : κ) : Prop :=
  (rowOf R.key rows k).map seqOf = (rowOf S.id srows k).map S.seq

instance : Decidable (Agrees R S seqOf srows rows k) := inferInstanceAs (Decidable (_ = _))

/-- The records of the source carry its identities and sequence numbers into the table. -/
structure Carries (R : RowSpec κ ρ ν) (S : SourceSpec κ σ ν) (seqOf : ρ → Nat) : Prop where
  id : ∀ s, R.id (S.net s) = S.id s
  fresh : ∀ s, seqOf (R.fresh (S.net s)) = S.seq s
  assign : ∀ r s, seqOf (R.assign r (S.net s)) = S.seq s

theorem agrees_of_change (h : Carries R S seqOf) (hS : (srows.map S.id).Nodup)
    (hrows : (rows.map R.key).Nodup) (hpre : cs <+: diff S srows (request R ask rows))
    (hrow : ∀ k, rowOf R.key rows' k = rowAfter R cs rows k) {ch : Change κ ν} (hch : ch ∈ cs) :
    Agrees R S seqOf srows rows' (ch.key R) := by
  have happ := (applies_diff h.id hS hrows ask).of_prefix_of hpre
  unfold Agrees
  rw [hrow, rowAfter_of_mem happ.nodup hch]
  cases ch with
  | add v =>
    obtain ⟨s, hs, rfl, -⟩ := add_mem_diff.mp (hpre.subset hch)
    rw [Change.key, h.id, rowOf_eq_some_of_mem hS hs]
    exact congrArg some (h.fresh s)
  | mod v =>
    obtain ⟨s, hs, rfl, r, hr, -⟩ := mod_mem_diff.mp (hpre.subset hch)
    rw [Change.key, h.id, rowOf_eq_some_of_mem hS hs, hr]
    exact congrArg some (h.assign r s)
  | del k =>
    have hgone := (del_mem_diff.mp (hpre.subset hch)).2
    rw [Change.key, rowOf_eq_none_iff.mpr hgone]
    rfl

theorem Agrees.keep (hk : Agrees R S seqOf srows rows k) (h : Carries R S seqOf)
    (hS : (srows.map S.id).Nodup) (hrows : (rows.map R.key).Nodup)
    (hpre : cs <+: diff S srows (request R ask rows))
    (hrow : ∀ k, rowOf R.key rows' k = rowAfter R cs rows k) :
    Agrees R S seqOf srows rows' k := by
  by_cases hmem : k ∈ cs.map (Change.key R)
  · obtain ⟨ch, hch, rfl⟩ := List.mem_map.mp hmem
    exact agrees_of_change h hS hrows hpre hrow hch
  · unfold Agrees at hk ⊢
    rw [hrow, rowAfter_of_notMem hmem, hk]

theorem diff_ne_nil (hk : ¬ Agrees R S seqOf srows rows k) :
    diff S srows (request R seqOf rows) ≠ [] := by
  unfold Agrees at hk
  cases hs : rowOf S.id srows k with
  | none =>
    rw [hs] at hk
    have hin : k ∈ rows.map R.key := by
      rw [mem_keys_iff]
      cases hr : rowOf R.key rows k with
      | none => simp [hr] at hk
      | some r => rfl
    exact List.ne_nil_of_mem (del_mem_diff.mpr ⟨hin, rowOf_eq_none_iff.mp hs⟩)
  | some s =>
    obtain ⟨hmem, rfl⟩ := rowOf_some hs
    cases hr : rowOf R.key rows (S.id s) with
    | none => exact List.ne_nil_of_mem (add_mem_diff.mpr ⟨s, hmem, rfl, hr⟩)
    | some r =>
      have hne : S.seq s ≠ seqOf r := by
        intro heq
        rw [hs, hr] at hk
        exact hk (congrArg some heq.symm)
      exact List.ne_nil_of_mem (mod_mem_diff.mpr ⟨s, hmem, rfl, r, hr, hne⟩)

/-- The keys of a list on which the table and the source disagree. -/
def disagreements (R : RowSpec κ ρ ν) (S : SourceSpec κ σ ν) (seqOf : ρ → Nat) (srows : List σ)
    (keys : List κ) (rows : List ρ) : Nat :=
  keys.countP fun k => ¬ Agrees R S seqOf srows rows k

theorem disagreements_le (keys : List κ) (h : Carries R S seqOf) (hS : (srows.map S.id).Nodup)
    (hrows : (rows.map R.key).Nodup) (hpre : cs <+: diff S srows (request R ask rows))
    (hrow : ∀ k, rowOf R.key rows' k = rowAfter R cs rows k) :
    disagreements R S seqOf srows keys rows' ≤ disagreements R S seqOf srows keys rows := by
  apply List.countP_mono_left
  intro k _ hk
  rw [decide_eq_true_eq] at hk ⊢
  exact fun hagrees => hk (hagrees.keep h hS hrows hpre hrow)

omit [LinearOrder κ] in
theorem countP_lt_of_change {p q : κ → Bool} {keys : List κ} (hle : ∀ k ∈ keys, q k = true → p k = true)
    (hk : k ∈ keys) (hp : p k = true) (hq : q k = false) : keys.countP q < keys.countP p := by
  induction keys with
  | nil => cases hk
  | cons a keys ih =>
    have hrest : keys.countP q ≤ keys.countP p :=
      List.countP_mono_left fun k hk => hle k (List.mem_cons_of_mem _ hk)
    rw [List.countP_cons, List.countP_cons]
    rcases List.mem_cons.mp hk with rfl | hk
    · rw [hp, hq]
      simp only [Bool.false_eq_true, if_false, if_true]
      omega
    · have hlt := ih (fun k hk => hle k (List.mem_cons_of_mem _ hk)) hk
      have hhead := hle a List.mem_cons_self
      cases hqa : q a with
      | false =>
        simp only [Bool.false_eq_true, if_false]
        split
        · omega
        · omega
      | true =>
        rw [hhead hqa]
        omega

/-- A round that applies a change of the real difference gains an agreement. -/
theorem disagreements_lt (keys : List κ) (h : Carries R S seqOf) (hS : (srows.map S.id).Nodup)
    (hrows : (rows.map R.key).Nodup) (hpre : cs <+: diff S srows (request R seqOf rows))
    (hne : cs ≠ []) (hrow : ∀ k, rowOf R.key rows' k = rowAfter R cs rows k)
    (hkeys : ∀ k, k ∈ srows.map S.id ∨ k ∈ rows.map R.key → k ∈ keys) :
    disagreements R S seqOf srows keys rows' < disagreements R S seqOf srows keys rows := by
  obtain ⟨ch, hch⟩ := List.exists_mem_of_ne_nil cs hne
  have hafter := agrees_of_change h hS hrows hpre hrow hch
  have hbefore : ¬ Agrees R S seqOf srows rows (ch.key R) ∧ ch.key R ∈ keys := by
    unfold Agrees
    cases ch with
    | add v =>
      obtain ⟨s, hs, rfl, hnone⟩ := add_mem_diff.mp (hpre.subset hch)
      rw [Change.key, h.id, hnone, rowOf_eq_some_of_mem hS hs]
      refine ⟨?_, hkeys _ (Or.inl (List.mem_map_of_mem hs))⟩
      intro heq
      cases heq
    | mod v =>
      obtain ⟨s, hs, rfl, r, hr, hseq⟩ := mod_mem_diff.mp (hpre.subset hch)
      rw [Change.key, h.id, hr, rowOf_eq_some_of_mem hS hs]
      exact ⟨fun heq => hseq (Option.some.inj heq).symm, hkeys _ (Or.inl (List.mem_map_of_mem hs))⟩
    | del k =>
      obtain ⟨hin, hgone⟩ := del_mem_diff.mp (hpre.subset hch)
      rw [Change.key, rowOf_eq_none_iff.mpr hgone]
      refine ⟨?_, hkeys _ (Or.inr hin)⟩
      obtain ⟨r, hr⟩ := Option.isSome_iff_exists.mp (mem_keys_iff.mp hin)
      rw [hr]
      intro heq
      cases heq
  apply countP_lt_of_change (k := ch.key R)
  · intro k _ hk
    rw [decide_eq_true_eq] at hk ⊢
    exact fun hagrees => hk (hagrees.keep h hS hrows hpre hrow)
  · exact hbefore.2
  · exact decide_eq_true hbefore.1
  · exact decide_eq_false (not_not.mpr hafter)

omit [LinearOrder κ] in
theorem takeFit_ne_nil {size : Change κ ν → Nat} {limit used : Nat} (hne : cs ≠ [])
    (hfit : ∀ ch ∈ cs, used + size ch ≤ limit) : takeFit size limit used cs ≠ [] := by
  cases cs with
  | nil => exact absurd rfl hne
  | cons ch cs =>
    have hroom := hfit ch List.mem_cons_self
    rw [takeFit, if_neg (by omega)]
    exact List.cons_ne_nil _ _

end XrkMonitor.Library
