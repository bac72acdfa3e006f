import Mathlib.Algebra.Ring.Nat
import XrkMonitor.Library.TableSync

/-!
# Answers to a request for changes

A source keeps rows with an identity and a sequence number; a sorted table is a
copy of them. The copy asks with the identities and sequence numbers it has, and
the source answers with the changes that are missing, as many as fit: first the
rows that are added or modified, then the entries that are gone.
-/

namespace XrkMonitor.Library

variable {κ ρ σ ν : Type*}

section Source

/-- What the source knows of its rows. -/
structure SourceSpec (κ σ ν : Type*) where
  id : σ → κ
  seq : σ → Nat
  net : σ → ν

/-- An entry of the request; `checked` is the source's mark. -/
structure Entry (κ : Type*) where
  id : κ
  seq : Nat
  checked : Bool
deriving Repr, DecidableEq

/-- The answer while it is built. It is `full` once a change did not fit. -/
structure Answer (κ ν : Type*) where
  entries : List (Entry κ)
  used : Nat
  changes : List (Change κ ν)
  full : Bool

variable [DecidableEq κ]

/-- The first entry of an identity is marked; its sequence number is returned. -/
def markEntry (k : κ) : List (Entry κ) → Option (Nat × List (Entry κ))
  | [] => none
  | e :: es =>
    if e.id = k then some (e.seq, { e with checked := true } :: es)
    else (markEntry k es).map fun x => (x.1, e :: x.2)

variable (size : Change κ ν → Nat) (limit : Nat)

/-- A change is added to the answer if there is room for it. -/
def Answer.put (a : Answer κ ν) (ch : Change κ ν) : Answer κ ν :=
  if limit < a.used + size ch then { a with full := true }
  else { a with used := a.used + size ch, changes := a.changes ++ [ch] }

/-- The rows of the source, from the first to the last: a row without an entry is added, one whose
entry has another sequence number is modified. -/
def answerRows (S : SourceSpec κ σ ν) : List σ → Answer κ ν → Answer κ ν
  | [], a => a
  | s :: rows, a =>
    match markEntry (S.id s) a.entries with
    | none =>
      let a := a.put size limit (.add (S.net s))
      if a.full then a else answerRows S rows a
    | some (q, es) =>
      if S.seq s ≠ q then
        let a := Answer.put size limit { a with entries := es } (.mod (S.net s))
        if a.full then a else answerRows S rows a
      else answerRows S rows { a with entries := es }

/-- The entries without a mark are deleted. -/
def answerGone : List (Entry κ) → Answer κ ν → Answer κ ν
  | [], a => a
  | e :: es, a =>
    if e.checked then answerGone es a
    else
      let a := a.put size limit (.del e.id)
      if a.full then a else answerGone es a

/-- The answer to a request. -/
def answer (S : SourceSpec κ σ ν) (rows : List σ) (a : Answer κ ν) : Answer κ ν :=
  let a := answerRows size limit S rows a
  if a.full then a else answerGone size limit a.entries a

/-- The changes one after the other, as long as they fit. -/
def takeFit : Nat → List (Change κ ν) → List (Change κ ν)
  | _, [] => []
  | used, ch :: cs => if limit < used + size ch then [] else ch :: takeFit (used + size ch) cs

/-- The change that a row of the source needs. -/
def changeOf (S : SourceSpec κ σ ν) (entries : List (Entry κ)) (s : σ) : Option (Change κ ν) :=
  match entries.find? fun e => e.id = S.id s with
  | none => some (.add (S.net s))
  | some e => if S.seq s ≠ e.seq then some (.mod (S.net s)) else none

/-- The rows that are added and modified. -/
def changed (S : SourceSpec κ σ ν) (rows : List σ) (entries : List (Entry κ)) : List (Change κ ν) :=
  rows.filterMap (changeOf S entries)

/-- The entries that the source does not have. -/
def gone (S : SourceSpec κ σ ν) (rows : List σ) (entries : List (Entry κ)) : List (Change κ ν) :=
  (entries.filter fun e => e.id ∉ rows.map S.id).map fun e => .del e.id

/-- All changes that a request asks for. -/
def diff (S : SourceSpec κ σ ν) (rows : List σ) (entries : List (Entry κ)) : List (Change κ ν) :=
  changed S rows entries ++ gone S rows entries

variable {size limit} {S : SourceSpec κ σ ν} {rows : List σ} {entries : List (Entry κ)}
  {a : Answer κ ν} {done : List κ} {k : κ} {cs ds : List (Change κ ν)} {ch : Change κ ν}

/-- The changes are put into the answer until one does not fit. -/
def putAll (size : Change κ ν → Nat) (limit : Nat) : List (Change κ ν) → Answer κ ν → Answer κ ν
  | [], a => a
  | ch :: cs, a =>
    let a := a.put size limit ch
    if a.full then a else putAll size limit cs a

/-- The entries whose identities have been met. -/
def marked (done : List κ) (entries : List (Entry κ)) : List (Entry κ) :=
  entries.map fun e => { e with checked := decide (e.id ∈ done) }

theorem marked_cons_of_notMem (h : k ∉ entries.map Entry.id) :
    marked (k :: done) entries = marked done entries := by
  apply List.map_congr_left
  intro e he
  have hne : e.id ≠ k := fun heq => h (heq ▸ List.mem_map_of_mem he)
  simp [hne]

theorem markEntry_marked (h : (entries.map Entry.id).Nodup) :
    markEntry k (marked done entries) =
      (entries.find? fun e => e.id = k).map fun e => (e.seq, marked (k :: done) entries) := by
  induction entries with
  | nil => rfl
  | cons e es ih =>
    rw [List.map_cons, List.nodup_cons] at h
    have hcons : ∀ done, marked done (e :: es) =
        { e with checked := decide (e.id ∈ done) } :: marked done es := fun _ => rfl
    rw [hcons, hcons, markEntry]
    by_cases hk : e.id = k
    · subst hk
      rw [if_pos rfl, List.find?_cons_of_pos (by simp), Option.map_some, marked_cons_of_notMem h.1]
      simp
    · rw [if_neg hk, ih h.2, List.find?_cons_of_neg (by simpa using hk), Option.map_map]
      simp [Function.comp_def, hk]

omit [DecidableEq κ] in
theorem put_entries (a : Answer κ ν) (es : List (Entry κ)) (ch : Change κ ν) :
    Answer.put size limit { a with entries := es } ch =
      { a.put size limit ch with entries := es } := by
  unfold Answer.put
  dsimp only
  split
  · rfl
  · rfl

omit [DecidableEq κ] in
theorem putAll_cons_full (h : (a.put size limit ch).full = true) :
    putAll size limit (ch :: cs) a = a.put size limit ch := by
  rw [putAll, if_pos h]

omit [DecidableEq κ] in
theorem putAll_cons_room (h : ¬ (a.put size limit ch).full = true) :
    putAll size limit (ch :: cs) a = putAll size limit cs (a.put size limit ch) := by
  rw [putAll, if_neg h]

omit [DecidableEq κ] in
theorem putAll_entries (a : Answer κ ν) (es : List (Entry κ)) (cs : List (Change κ ν)) :
    putAll size limit cs { a with entries := es } = { putAll size limit cs a with entries := es } := by
  induction cs generalizing a with
  | nil => rfl
  | cons ch cs ih =>
    by_cases hput : (a.put size limit ch).full = true
    · rw [putAll_cons_full hput, putAll_cons_full (by rw [put_entries]; exact hput), put_entries]
    · rw [putAll_cons_room hput, putAll_cons_room (by rw [put_entries]; exact hput), put_entries, ih]

omit [DecidableEq κ] in
theorem putAll_append (a : Answer κ ν) (hfull : a.full = false) (cs ds : List (Change κ ν)) :
    putAll size limit (cs ++ ds) a =
      if (putAll size limit cs a).full then putAll size limit cs a
      else putAll size limit ds (putAll size limit cs a) := by
  induction cs generalizing a with
  | nil => simp [putAll, hfull]
  | cons ch cs ih =>
    rw [List.cons_append]
    by_cases hput : (a.put size limit ch).full = true
    · rw [putAll_cons_full hput, putAll_cons_full hput, if_pos hput]
    · rw [putAll_cons_room hput, putAll_cons_room hput]
      exact ih _ (Bool.not_eq_true _ ▸ hput)

/-- The rows put their changes into the answer and mark their entries. -/
theorem answerRows_eq (h : (entries.map Entry.id).Nodup) (ha : a.entries = marked done entries) :
    ∃ es, answerRows size limit S rows a =
        { putAll size limit (changed S rows entries) a with entries := es } ∧
      ((putAll size limit (changed S rows entries) a).full = false →
        es = marked ((rows.map S.id).reverse ++ done) entries) := by
  induction rows generalizing a done with
  | nil => exact ⟨a.entries, rfl, fun _ => ha⟩
  | cons s rows ih =>
    have hdone : (List.map S.id (s :: rows)).reverse ++ done =
        (rows.map S.id).reverse ++ (S.id s :: done) := by simp
    rw [hdone, answerRows, ha, markEntry_marked h, changed, List.filterMap_cons, changeOf]
    cases hfind : entries.find? fun e => e.id = S.id s with
    | none =>
      have hentries : (a.put size limit (.add (S.net s))).entries =
          marked (S.id s :: done) entries := by
        have hnot : S.id s ∉ entries.map Entry.id := by
          rw [List.mem_map]
          rintro ⟨e, he, hid⟩
          exact List.find?_eq_none.mp hfind e he (by simpa using hid)
        rw [marked_cons_of_notMem hnot, ← ha, Answer.put]
        split
        · rfl
        · rfl
      simp only [Option.map_none]
      by_cases hput : (a.put size limit (.add (S.net s))).full = true
      · rw [if_pos hput, putAll_cons_full hput]
        exact ⟨_, rfl, fun hno => absurd (hput.symm.trans hno) (by decide)⟩
      · rw [if_neg hput, putAll_cons_room hput]
        exact ih hentries
    | some e =>
      simp only [Option.map_some]
      by_cases hseq : S.seq s = e.seq
      · simp only [hseq, ne_eq, not_true_eq_false, if_false]
        obtain ⟨es, heq, hes⟩ := ih (a := { a with entries := marked (S.id s :: done) entries }) rfl
        rw [putAll_entries] at heq hes
        exact ⟨es, heq, hes⟩
      · simp only [ne_eq, hseq, not_false_eq_true, if_true, put_entries]
        by_cases hput : (a.put size limit (.mod (S.net s))).full = true
        · rw [if_pos hput, putAll_cons_full hput]
          exact ⟨_, rfl, fun hno => absurd (hput.symm.trans hno) (by decide)⟩
        · rw [if_neg hput, putAll_cons_room hput]
          obtain ⟨es, heq, hes⟩ := ih (a :=
            { a.put size limit (.mod (S.net s)) with entries := marked (S.id s :: done) entries }) rfl
          rw [putAll_entries] at heq hes
          exact ⟨es, heq, hes⟩

omit [DecidableEq κ] in
theorem answerGone_eq (es : List (Entry κ)) (a : Answer κ ν) :
    answerGone size limit es a =
      putAll size limit ((es.filter fun e => !e.checked).map fun e => .del e.id) a := by
  induction es generalizing a with
  | nil => rfl
  | cons e es ih =>
    rw [answerGone]
    cases he : e.checked with
    | true => simp [he, ih]
    | false =>
      simp only [he, Bool.false_eq_true, if_false, Bool.not_false, List.filter_cons_of_pos,
        List.map_cons, putAll, ih]

theorem gone_eq (done : List κ) (hdone : ∀ k, k ∈ done ↔ k ∈ rows.map S.id) :
    ((marked done entries).filter fun e => !e.checked).map (fun e => Change.del e.id) =
      gone S rows entries := by
  rw [marked, List.filter_map, List.map_map, gone]
  congr 1
  apply List.filter_congr
  intro e _
  simp only [Function.comp_apply, hdone, decide_not]

omit [DecidableEq κ] in
theorem changes_putAll (a : Answer κ ν) (hfull : a.full = false) (cs : List (Change κ ν)) :
    (putAll size limit cs a).changes = a.changes ++ takeFit size limit a.used cs := by
  induction cs generalizing a with
  | nil => simp [putAll, takeFit]
  | cons ch cs ih =>
    by_cases hroom : limit < a.used + size ch
    · have hput : (a.put size limit ch).full = true := by rw [Answer.put, if_pos hroom]
      rw [putAll_cons_full hput, Answer.put, if_pos hroom, takeFit, if_pos hroom, List.append_nil]
    · have hput : (a.put size limit ch).full = false := by rw [Answer.put, if_neg hroom, ← hfull]
      rw [putAll_cons_room (Bool.not_eq_true _ ▸ hput), ih _ hput, takeFit, if_neg hroom, Answer.put,
        if_neg hroom, List.append_assoc]
      rfl

theorem changes_answer (h : (entries.map Entry.id).Nodup) (ha : a.entries = marked [] entries)
    (hfull : a.full = false) (hchanges : a.changes = []) :
    (answer size limit S rows a).changes = takeFit size limit a.used (diff S rows entries) := by
  have hput : (putAll size limit (diff S rows entries) a).changes = _ :=
    changes_putAll a hfull _
  rw [hchanges, List.nil_append] at hput
  rw [← hput, diff, putAll_append a hfull]
  obtain ⟨es, heq, hes⟩ : ∃ es, answerRows size limit S rows a = _ ∧ _ := answerRows_eq h ha
  unfold answer
  rw [heq]
  cases hend : (putAll size limit (changed S rows entries) a).full with
  | true => simp [hend]
  | false =>
    have hgone : ((marked (rows.map S.id).reverse entries).filter fun e => !e.checked).map
        (fun e => Change.del e.id) = gone S rows entries := gone_eq _ fun k => List.mem_reverse
    simp only [Bool.false_eq_true, if_false, answerGone_eq, putAll_entries, hes hend,
      List.append_nil, hgone]
    rw [if_neg (Bool.not_eq_true _ ▸ hend)]

omit [DecidableEq κ] in
theorem takeFit_prefix (used : Nat) (cs : List (Change κ ν)) : takeFit size limit used cs <+: cs := by
  induction cs generalizing used with
  | nil => exact List.prefix_rfl
  | cons ch cs ih =>
    rw [takeFit]
    split
    · exact List.nil_prefix
    · exact List.cons_prefix_cons.mpr ⟨rfl, ih _⟩

omit [DecidableEq κ] in
theorem takeFit_eq_self {used : Nat} (h : used + (cs.map size).sum ≤ limit) :
    takeFit size limit used cs = cs := by
  induction cs generalizing used with
  | nil => rfl
  | cons ch cs ih =>
    rw [List.map_cons, List.sum_cons] at h
    rw [takeFit, if_neg (by omega), ih (by omega)]

omit [DecidableEq κ] in
theorem sum_takeFit_le {used : Nat} (cs : List (Change κ ν)) (h : used ≤ limit) :
    used + ((takeFit size limit used cs).map size).sum ≤ limit := by
  induction cs generalizing used with
  | nil => simpa [takeFit] using h
  | cons ch cs ih =>
    rw [takeFit]
    split
    · simpa using h
    · rename_i hroom
      have hrest := ih (not_lt.mp hroom)
      rw [List.map_cons, List.sum_cons]
      omega

end Source

section Exchange

variable [LinearOrder κ] {R : RowSpec κ ρ ν} {S : SourceSpec κ σ ν} {srows : List σ} {rows : List ρ}
  {cs : List (Change κ ν)} {ask : ρ → Nat} {k : κ} {ch : Change κ ν}

/-- The request of a table; `ask` is the sequence number that it names for a row. -/
def request (R : RowSpec κ ρ ν) (ask : ρ → Nat) (rows : List ρ) : List (Entry κ) :=
  rows.map fun r => ⟨R.key r, ask r, false⟩

omit [LinearOrder κ] in
theorem request_ids (R : RowSpec κ ρ ν) (ask : ρ → Nat) (rows : List ρ) :
    (request R ask rows).map Entry.id = rows.map R.key := by
  simp [request]

theorem changeOf_request (s : σ) : changeOf S (request R ask rows) s =
    match rowOf R.key rows (S.id s) with
    | none => some (.add (S.net s))
    | some r => if S.seq s ≠ ask r then some (.mod (S.net s)) else none := by
  unfold changeOf request rowOf
  rw [List.find?_map]
  simp only [Function.comp_def]
  cases rows.find? fun r => R.key r = S.id s with
  | none => rfl
  | some r => rfl

theorem add_mem_diff {v : ν} : .add v ∈ diff S srows (request R ask rows) ↔
    ∃ s ∈ srows, v = S.net s ∧ rowOf R.key rows (S.id s) = none := by
  simp only [diff, changed, gone, List.mem_append, List.mem_filterMap, List.mem_map, reduceCtorEq,
    and_false, exists_false, or_false, changeOf_request]
  refine exists_congr fun s => and_congr_right fun _ => ?_
  cases rowOf R.key rows (S.id s) with
  | none => simp [eq_comm]
  | some r => simp

theorem mod_mem_diff {v : ν} : .mod v ∈ diff S srows (request R ask rows) ↔
    ∃ s ∈ srows, v = S.net s ∧ ∃ r, rowOf R.key rows (S.id s) = some r ∧ S.seq s ≠ ask r := by
  simp only [diff, changed, gone, List.mem_append, List.mem_filterMap, List.mem_map, reduceCtorEq,
    and_false, exists_false, or_false, changeOf_request]
  refine exists_congr fun s => and_congr_right fun _ => ?_
  cases rowOf R.key rows (S.id s) with
  | none => simp
  | some r => simp [eq_comm, and_comm]

theorem del_mem_diff : .del k ∈ diff S srows (request R ask rows) ↔
    k ∈ rows.map R.key ∧ k ∉ srows.map S.id := by
  have hnot : .del k ∉ changed S srows (request R ask rows) := by
    rw [changed, List.mem_filterMap]
    rintro ⟨s, -, hs⟩
    rw [changeOf_request] at hs
    split at hs
    · cases hs
    · split at hs
      · cases hs
      · cases hs
  rw [diff, List.mem_append, or_iff_right hnot, gone, List.mem_map, ← request_ids R ask rows, List.mem_map]
  constructor
  · rintro ⟨e, he, hk⟩
    obtain rfl : e.id = k := by simpa using hk
    rw [List.mem_filter, decide_eq_true_eq] at he
    exact ⟨⟨e, he.1, rfl⟩, he.2⟩
  · rintro ⟨⟨e, he, rfl⟩, hnot⟩
    exact ⟨e, List.mem_filter.mpr ⟨he, by simpa using hnot⟩, rfl⟩

theorem isDel_of_mem_changed (h : ch ∈ changed S srows (request R ask rows)) :
    ch.isDel = false := by
  rw [changed, List.mem_filterMap] at h
  obtain ⟨s, -, hs⟩ := h
  rw [changeOf_request] at hs
  split at hs
  · cases hs
    rfl
  · split at hs
    · cases hs
      rfl
    · cases hs

theorem changed_keys_sublist (hid : ∀ s, R.id (S.net s) = S.id s) :
    ((changed S srows (request R ask rows)).map (Change.key R)).Sublist (srows.map S.id) := by
  induction srows with
  | nil => exact List.Sublist.slnil
  | cons s srows ih =>
    have hkey : ∀ ch, changeOf S (request R ask rows) s = some ch → ch.key R = S.id s := by
      intro ch hch
      rw [changeOf_request] at hch
      split at hch
      · cases hch
        exact hid s
      · split at hch
        · cases hch
          exact hid s
        · cases hch
    rw [changed, List.filterMap_cons]
    cases hch : changeOf S (request R ask rows) s with
    | none => exact ih.trans (List.sublist_cons_self _ _)
    | some ch =>
      rw [List.map_cons, List.map_cons, hkey ch hch]
      exact ih.cons_cons _

theorem applies_diff (hid : ∀ s, R.id (S.net s) = S.id s) (hS : (srows.map S.id).Nodup)
    (hrows : (rows.map R.key).Nodup) (ask : ρ → Nat) : Applies R (diff S srows (request R ask rows)) rows where
  nodup := by
    rw [diff, List.map_append, List.nodup_append]
    refine ⟨hS.sublist (changed_keys_sublist hid), ?_, ?_⟩
    · have hgone : (gone S srows (request R ask rows) : List (Change κ ν)).map (Change.key R) =
          ((request R ask rows).filter fun e => e.id ∉ srows.map S.id).map Entry.id := by
        rw [gone, List.map_map]
        rfl
      rw [hgone]
      rw [← request_ids R ask rows] at hrows
      exact hrows.sublist (List.filter_sublist.map _)
    · rintro a ha b hb rfl
      have hin := (changed_keys_sublist hid).subset ha
      obtain ⟨ch, hch, rfl⟩ := List.mem_map.mp hb
      simp only [gone, List.mem_map, List.mem_filter, decide_eq_true_eq] at hch
      obtain ⟨e, ⟨-, hnot⟩, rfl⟩ := hch
      exact hnot (List.mem_map.mp hin)
  add_new := by
    intro v hv
    obtain ⟨s, -, rfl, hnone⟩ := add_mem_diff.mp hv
    rw [hid]
    exact rowOf_eq_none_iff.mp hnone
  mod_old := by
    intro v hv
    obtain ⟨s, -, rfl, r, hr, -⟩ := mod_mem_diff.mp hv
    rw [hid, mem_keys_iff, hr]
    rfl
  del_old := fun k hk => (del_mem_diff.mp hk).1

omit [LinearOrder κ] in
theorem Applies.of_prefix_of {ds : List (Change κ ν)} (h : Applies R ds rows) (hpre : cs <+: ds) :
    Applies R cs rows where
  nodup := h.nodup.sublist (hpre.sublist.map _)
  add_new := fun v hv => h.add_new v (hpre.subset hv)
  mod_old := fun v hv => h.mod_old v (hpre.subset hv)
  del_old := fun k hk => h.del_old k (hpre.subset hk)

theorem rowAfter_of_mem (h : (cs.map (Change.key R)).Nodup) (hch : ch ∈ cs) :
    rowAfter R cs rows (ch.key R) = ch.effect R (rowOf R.key rows (ch.key R)) := by
  have hfind : cs.find? (fun d => d.key R = ch.key R) = some ch := rowOf_eq_some_of_mem h hch
  rw [rowAfter, hfind]

theorem rowAfter_of_notMem (h : k ∉ cs.map (Change.key R)) :
    rowAfter R cs rows k = rowOf R.key rows k := by
  have hfind : cs.find? (fun d => d.key R = k) = none := rowOf_eq_none_iff.mpr h
  rw [rowAfter, hfind]

theorem notMem_diff_of_current (hid : ∀ s, R.id (S.net s) = S.id s) (hS : (srows.map S.id).Nodup)
    {s : σ} {r : ρ} (hs : s ∈ srows) (hr : rowOf R.key rows (S.id s) = some r)
    (hseq : S.seq s = ask r) : S.id s ∉ (diff S srows (request R ask rows)).map (Change.key R) := by
  intro hmem
  obtain ⟨ch, hch, hkey⟩ := List.mem_map.mp hmem
  cases ch with
  | add v =>
    obtain ⟨t, -, rfl, hnone⟩ := add_mem_diff.mp hch
    rw [Change.key, hid] at hkey
    rw [hkey, hr] at hnone
    cases hnone
  | mod v =>
    obtain ⟨t, ht, rfl, r', hr', hne⟩ := mod_mem_diff.mp hch
    rw [Change.key, hid] at hkey
    obtain rfl : t = s := by
      have hts := rowOf_eq_some_of_mem hS ht
      rw [hkey, rowOf_eq_some_of_mem hS hs] at hts
      exact (Option.some.inj hts).symm
    rw [hr] at hr'
    exact hne (Option.some.inj hr' ▸ hseq)
  | del k =>
    obtain rfl : k = S.id s := hkey
    exact (del_mem_diff.mp hch).2 (List.mem_map_of_mem hs)

/-- After all changes the table has the rows of the source: added, modified, or left alone when the
request named the sequence number of the source. -/
theorem rowAfter_diff (hid : ∀ s, R.id (S.net s) = S.id s) (hS : (srows.map S.id).Nodup)
    (hrows : (rows.map R.key).Nodup) (ask : ρ → Nat) (k : κ) :
    rowAfter R (diff S srows (request R ask rows)) rows k =
      (rowOf S.id srows k).map fun s =>
        match rowOf R.key rows k with
        | none => R.fresh (S.net s)
        | some r => if S.seq s ≠ ask r then R.assign r (S.net s) else r := by
  have happ := applies_diff hid hS hrows ask
  cases hs : rowOf S.id srows k with
  | none =>
    rw [rowOf_eq_none_iff] at hs
    by_cases hk : k ∈ rows.map R.key
    · exact rowAfter_of_mem happ.nodup (del_mem_diff.mpr ⟨hk, hs⟩)
    · rw [rowAfter_of_notMem, rowOf_eq_none_iff.mpr hk]
      · rfl
      · intro hmem
        obtain ⟨ch, hch, rfl⟩ := List.mem_map.mp hmem
        cases ch with
        | add v =>
          obtain ⟨s, hs', rfl, -⟩ := add_mem_diff.mp hch
          exact hs (by rw [Change.key, hid]; exact List.mem_map_of_mem hs')
        | mod v => exact hk (happ.mod_old v hch)
        | del k => exact hk (happ.del_old k hch)
  | some s =>
    obtain ⟨hmem, rfl⟩ := rowOf_some hs
    simp only [Option.map_some]
    cases hr : rowOf R.key rows (S.id s) with
    | none =>
      have hadd : rowAfter R _ rows (R.id (S.net s)) = _ := rowAfter_of_mem happ.nodup
        (add_mem_diff.mpr ⟨s, hmem, rfl, hr⟩)
      rw [hid] at hadd
      exact hadd
    | some r =>
      by_cases hseq : S.seq s = ask r
      · rw [rowAfter_of_notMem (notMem_diff_of_current hid hS hmem hr hseq), hr]
        simp [hseq]
      · have hmod : rowAfter R _ rows (R.id (S.net s)) = Change.effect R (.mod (S.net s))
            (rowOf R.key rows (R.id (S.net s))) := rowAfter_of_mem happ.nodup
          (mod_mem_diff.mpr ⟨s, hmem, rfl, r, hr, hseq⟩)
        rw [hid, hr] at hmod
        simp only [ne_eq, hseq, not_false_eq_true, if_true]
        exact hmod

theorem changeOf_isSome_iff (hrows : (rows.map R.key).Nodup) (s : σ) :
    (changeOf S (request R ask rows) s).isSome = true ↔
      ∀ r ∈ rows, R.key r = S.id s → ask r ≠ S.seq s := by
  rw [changeOf_request]
  cases hrow : rowOf R.key rows (S.id s) with
  | none =>
    rw [rowOf_eq_none_iff] at hrow
    refine ⟨fun _ r hr hkey => absurd (List.mem_map_of_mem hr) (hkey ▸ hrow), fun _ => rfl⟩
  | some r =>
    obtain ⟨hr, hkey⟩ := rowOf_some hrow
    constructor
    · intro hsome r' hr' hkey' hask
      have hrow' := rowOf_eq_some_of_mem hrows hr'
      rw [hkey', hrow] at hrow'
      obtain rfl := Option.some.inj hrow'
      simp [hask] at hsome
    · intro hall
      simp [(hall r hr hkey).symm]

theorem length_changed : (changed S srows (request R ask rows)).length =
    srows.countP fun s => (changeOf S (request R ask rows) s).isSome := by
  rw [changed, List.length_filterMap_eq_countP]

theorem length_gone : (gone S srows (request R ask rows) : List (Change κ ν)).length =
    rows.countP fun r => R.key r ∉ srows.map S.id := by
  rw [gone, List.length_map, ← List.countP_eq_length_filter, request, List.countP_map]
  rfl

theorem adds_changed : adds (changed S srows (request R ask rows)) =
    adds (diff S srows (request R ask rows)) := by
  have hgone : adds (gone S srows (request R ask rows) : List (Change κ ν)) = 0 := by
    rw [adds, gone, List.countP_map, List.countP_eq_zero]
    intro e _ h
    cases h
  unfold diff
  rw [adds, adds, List.countP_append]
  exact (Nat.add_eq_left.mpr hgone).symm

theorem adds_diff : adds (diff S srows (request R ask rows)) =
    srows.countP fun s => (rowOf R.key rows (S.id s)).isNone := by
  rw [← adds_changed]
  induction srows with
  | nil => rfl
  | cons s srows ih =>
    rw [changed, List.filterMap_cons, List.countP_cons, ← ih, changeOf_request]
    cases rowOf R.key rows (S.id s) with
    | none => exact adds_cons _ _
    | some r =>
      by_cases hseq : S.seq s = ask r
      · simp [hseq, changed]
      · simp only [ne_eq, hseq, not_false_eq_true, if_true]
        exact adds_cons _ _

omit [LinearOrder κ] in
theorem quiet_dels (infoLog : Nat → Bool) (i : Nat) (es : List (Entry κ)) :
    quiet infoLog i (none : Option ν) (es.map fun e => .del e.id) = true ↔
      ∀ j < es.length, infoLog (i + j) = false := by
  induction es generalizing i with
  | nil => simp [quiet]
  | cons e es ih =>
    rw [List.map_cons, quiet, Bool.and_eq_true, Bool.not_eq_true', ih]
    constructor
    · rintro ⟨hlog, hrest⟩ j hj
      cases j with
      | zero => exact hlog
      | succ j =>
        rw [List.length_cons] at hj
        have hlog := hrest j (by omega)
        rwa [Nat.add_assoc, Nat.add_comm 1] at hlog
    · intro hall
      refine ⟨hall 0 (by simp), ?_⟩
      intro j hj
      have hlog := hall (j + 1) (by rw [List.length_cons]; omega)
      rwa [Nat.add_comm j, ← Nat.add_assoc] at hlog

theorem quiet_prefix {infoLog : Nat → Bool} (hpre : cs <+: diff S srows (request R ask rows))
    (h : changed S srows (request R ask rows) = [] → ∀ j < cs.length, infoLog j = false) :
    quiet infoLog 0 none cs = true := by
  obtain ⟨ds, hds⟩ := hpre
  cases cs with
  | nil => rfl
  | cons ch cs =>
    cases hch : changed S srows (request R ask rows) with
    | nil =>
      obtain ⟨es, hes⟩ : ∃ es : List (Entry κ), (ch :: cs) = es.map fun e => Change.del e.id := by
        rw [diff, hch, List.nil_append, gone] at hds
        obtain ⟨es, fs, -, hes, -⟩ := List.map_eq_append_iff.mp hds.symm
        exact ⟨es, hes.symm⟩
      have hlen : es.length = (ch :: cs).length := by rw [hes, List.length_map]
      rw [hes, quiet_dels, hlen]
      intro j hj
      rw [Nat.zero_add]
      exact h hch j hj
    | cons d dd =>
      rw [diff, hch, List.cons_append, List.cons_append, List.cons.injEq] at hds
      have hdel := isDel_of_mem_changed (hch ▸ List.mem_cons_self : d ∈ changed S srows _)
      rw [hds.1]
      cases d with
      | add v => rfl
      | mod v => rfl
      | del k => cases hdel

theorem quiet_diff (infoLog : Nat → Bool) :
    quiet infoLog 0 none (diff S srows (request R ask rows)) = true ↔
      (changed S srows (request R ask rows) = [] →
        ∀ j < (gone S srows (request R ask rows) : List (Change κ ν)).length, infoLog j = false) := by
  unfold diff
  cases hch : changed S srows (request R ask rows) with
  | nil =>
    rw [List.nil_append, gone, quiet_dels, List.length_map]
    simp
  | cons ch cs =>
    have hdel := isDel_of_mem_changed (hch ▸ List.mem_cons_self : ch ∈ changed S srows _)
    have hquiet : quiet infoLog 0 none (ch :: cs ++ gone S srows (request R ask rows)) = true := by
      cases ch with
      | add v => rfl
      | mod v => rfl
      | del k => cases hdel
    exact ⟨fun _ h => (List.cons_ne_nil ch cs h).elim, fun _ => hquiet⟩

end Exchange

end XrkMonitor.Library
